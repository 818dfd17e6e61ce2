import WlanpiCore.Config.Effects
import WlanpiCore.Lib.Transition

/-!
# Editing beside a worker

`edit_config` runs on the event loop without `network_change_lock`; activation and deletion run in
worker threads, one at a time, because they hold the lock. Here all three work on one profile,
`path`, and each is cut into its file-store steps: an edit reads the profile, checks that it is not
active and writes; a worker takes the phases of `activateConfigLocked` or `deleteConfigLocked`.
`Server.step` lets the event loop and the worker take their steps in any order.

The phases are the code's own: `editConfig_phases`, `activateConfigLocked_phases` and
`deleteConfigLocked_phases` put them together again, and `edit_alone` and its relatives say that
without interference the machine leaves the store as the functions do.

The last three fields of `Server` record what must never happen.
-/

namespace WlanpiCore

open Prog

section Phases

variable (E : Env)

/-! ## Phases -/

/-- The end of `activate_config`'s admission: read the profile in force, refuse or go on. -/
def enterActivation (cfgId : Text) (overrideActive : Bool) : Store Text := do
  let active ← activeOrDefault E
  match refusal cfgId active overrideActive with
  | some e => raise e
  | none => return active

/-- What is left to do once the radios are prepared. -/
inductive Prepared where
  /-- An entry is invalid; nothing changed. -/
  | refused (result : Bool × List AdapterOutcome)
  /-- The profile in force went invalid and was torn down. -/
  | fallingBack (result : Except Exc (Bool × List AdapterOutcome))
  | applied (res : Except Exc (List AdapterOutcome)) (activated : List Entry)

/-- Validation, the teardown of the old profile, and the loop over the entries. -/
def prepareActivation (cfgId : Text) (overrideActive : Bool) (cfg : NetConfig) (active : Text) :
    Store Prepared := do
  let invalidOutcomes ← invalidEntries E (cfgId = defaultId.val) cfg.entries
  if invalidOutcomes ≠ [] then
    if active = cfgId then
      let torn ← observe (teardownProfile E cfgId)
      return .fallingBack (torn.map fun _ => (false, invalidOutcomes))
    else return .refused (false, invalidOutcomes)
  else
    clearOldProfile E active overrideActive
    let (res, activated) ← applyEntries E (cfgId = defaultId.val) cfg.entries [] []
    return .applied res activated

/-- Every entry came up: the profile will be recorded. -/
def Prepared.records : Prepared → Bool
  | .applied (.ok outcomes) _ => outcomes.all acceptable
  | _ => false

/-- The last write of an activation. -/
def finishActivation (cfgId : Text) : Prepared → Store (Bool × List AdapterOutcome)
  | .refused result => return result
  | .fallingBack result => do
    fallBackToDefault
    lift result
  | .applied (.ok outcomes) activated =>
    if outcomes.all acceptable then do
      writeCurrent cfgId
      return (true, outcomes)
    else do
      rollbackActivatedConfigs E activated
      fallBackToDefault
      return (false, outcomes)
  | .applied (.error e) activated => do
    rollbackActivatedConfigs E activated
    fallBackToDefault
    raise e

/-- An edit's active check. -/
def checkEdit (cfgId : Text) : Store Unit := do
  if ← isActive E cfgId then
    raise (.configActive s!"Cannot edit active configuration {String.ofList cfgId}.")

/-- An edit's write. -/
def writeEdit (path : ConfigId) (stored : NetConfig) (configUpdate : NetConfigUpdate) :
    Store NetConfig := do
  let cfg ← lift (editedConfig E stored configUpdate)
  writeProfile E path cfg
  return cfg

/-- A deletion's active check: whether the profile has to be deactivated first. -/
def checkDelete (path : ConfigId) (force : Bool) : Store Bool := do
  let active ← isActive E path.val
  if active && !force then
    raise (.configActive s!"Cannot delete active configuration {String.ofList path.val}.")
  return active

/-- The check of `_deactivate_config_locked`. -/
def checkDeactivate (cfgId : Text) : Store Unit := do
  if !(← isActive E cfgId) then
    raise (.configActive s!"Configuration {String.ofList cfgId} is not active.")

theorem editConfig_phases (path : ConfigId) (configUpdate : NetConfigUpdate) :
    editConfig E path.val configUpdate = (do
      let stored ← getConfig E path.val
      checkEdit E path.val
      writeEdit E path stored configUpdate) := by
  unfold editConfig checkEdit writeEdit
  rw [configPath_val, lift_ok, pure_bind]
  apply bind_congr
  intro stored
  rw [bind_assoc]
  apply bind_congr
  intro active
  cases active <;> rfl

theorem activateConfigLocked_phases (cfgId : Text) (overrideActive : Bool) :
    activateConfigLocked E cfgId overrideActive = (do
      let cfg ← getConfig E cfgId
      let active ← enterActivation E cfgId overrideActive
      let prepared ← prepareActivation E cfgId overrideActive cfg active
      finishActivation E cfgId prepared) := by
  unfold activateConfigLocked beginActivation enterActivation prepareActivation
  simp only [bind_assoc]
  apply bind_congr
  intro cfg
  apply bind_congr
  intro active
  cases refusal cfgId active overrideActive with
  | some e => rfl
  | none =>
    simp only [pure_bind]
    apply bind_congr
    intro invalidOutcomes
    split_ifs with hinvalid hsame
    · simp only [bind_assoc, pure_bind]
      funext w
      rcases htorn : teardownProfile E cfgId w with ⟨e | u, w'⟩
      all_goals
        have hensure : ensuring (teardownProfile E cfgId) fallBackToDefault w =
            ((teardownProfile E cfgId w).1, w'.setCurrent defaultId.val) := by
          simp only [ensuring, htorn]
          rfl
        have hobserve : observe (teardownProfile E cfgId) w =
            (.ok (teardownProfile E cfgId w).1, w') := by
          simp only [observe, htorn]
        rw [htorn] at hensure hobserve
      · refine (bind_error hensure).trans (Eq.symm ?_)
        exact (bind_ok hobserve).trans rfl
      · refine (bind_ok hensure).trans (Eq.symm ?_)
        exact (bind_ok hobserve).trans rfl
    · rfl
    · simp only [bind_assoc]
      apply bind_congr
      intro _
      unfold applyOrRollback
      apply bind_congr
      rintro ⟨res, activated⟩
      cases res <;> rfl

theorem deleteConfigLocked_phases (path : ConfigId) (force : Bool) :
    deleteConfigLocked E path force = (do
      if ← checkDelete E path force then
        let cfg ← getConfig E path.val
        checkDeactivate E path.val
        let _ ← deactivateEntries E cfg
      unlink path
      return true) := by
  unfold deleteConfigLocked checkDelete deactivateConfigLocked checkDeactivate
  simp only [bind_assoc]
  apply bind_congr
  intro active
  cases active <;> cases force
  · rfl
  · rfl
  · rfl
  · simp only [Bool.not_true, Bool.and_false, Bool.false_eq_true, if_false, if_true, pure_bind,
      Bool.not_false, bind_assoc]
    apply bind_congr
    intro cfg
    apply bind_congr
    intro active
    cases active <;> rfl

end Phases

/-! ## The machine -/

/-- An edit between its read and its write. -/
structure PendingEdit where
  configUpdate : NetConfigUpdate
  stored : NetConfig
  /-- A deletion of the profile completed in the meantime. -/
  deleted : Bool

inductive EditState where
  | idle
  | checking (edit : PendingEdit)
  | writing (edit : PendingEdit)

def EditState.markDeleted : EditState → EditState
  | .idle => .idle
  | .checking edit => .checking { edit with deleted := true }
  | .writing edit => .writing { edit with deleted := true }

/-- Where the worker that holds the lock stands. -/
inductive Worker where
  | free
  | opened (overrideActive : Bool) (cfg : NetConfig)
  | entered (overrideActive : Bool) (cfg : NetConfig) (active : Text)
  | finishing (cfg : NetConfig) (prepared : Prepared)
  | deactivating
  | checking (cfg : NetConfig)
  | dismantling (cfg : NetConfig)
  | unlinking

structure Server where
  world : World
  edit : EditState
  worker : Worker
  /-- An edit wrote the profile while `current.txt` named it. -/
  rewroteActive : Bool
  /-- An edit wrote the profile after a deletion completed that it did not see. -/
  recreated : Bool
  /-- A profile was recorded while its file held something else. -/
  recordedOther : Bool

inductive ServerAct where
  /-- A PATCH arrives and its `edit_config` reads the profile. -/
  | editRead (configUpdate : NetConfigUpdate)
  /-- The next step of the edit. -/
  | edit
  | activate (overrideActive : Bool)
  | delete (force : Bool)
  /-- The next step of the worker that holds the lock. -/
  | work

/-- The worker lets go of the lock. -/
def Worker.release : Worker → World → World
  | .free, w => { w with locked := false }
  | _, w => w

/-- The worker runs `x` and goes on as `next` says; an exception ends it. -/
def Server.run {α : Type} (s : Server) (x : Store α) (next : α → Worker) : Server :=
  match x s.world with
  | (.ok a, w) => { s with world := (next a).release w, worker := next a }
  | (.error _, w) => { s with world := Worker.free.release w, worker := .free }

section Step

variable (E : Env) (path : ConfigId)

/-- The file of the profile holds `cfg`. -/
def onDisk (w : World) (cfg : NetConfig) : Bool :=
  match (w.files path).map (parseConfig E path) with
  | some (.ok cfg') => decide (cfg' = cfg)
  | _ => false

/-- A worker takes the lock, which is free, and its first step. -/
def Server.begin {α : Type} (s : Server) (x : Store α) (next : α → Worker) : Option Server :=
  if s.world.locked then none
  else some (Server.run { s with world := { s.world with locked := true } } x next)

def Server.stepEdit (s : Server) : Option Server :=
  match s.edit with
  | .idle => none
  | .checking edit =>
    match checkEdit E path.val s.world with
    | (.ok _, w) => some { s with world := w, edit := .writing edit }
    | (.error _, w) => some { s with world := w, edit := .idle }
  | .writing edit =>
    match writeEdit E path edit.stored edit.configUpdate s.world with
    | (.ok _, w) =>
      some { s with
        world := w
        edit := .idle
        rewroteActive := s.rewroteActive || decide (s.world.Names path.val)
        recreated := s.recreated || edit.deleted }
    | (.error _, w) => some { s with world := w, edit := .idle }

def Server.stepWorker (s : Server) : Option Server :=
  match s.worker with
  | .free => none
  | .opened overrideActive cfg =>
    some (s.run (enterActivation E path.val overrideActive) (.entered overrideActive cfg))
  | .entered overrideActive cfg active =>
    some (s.run (prepareActivation E path.val overrideActive cfg active) (.finishing cfg))
  | .finishing cfg prepared =>
    some { s.run (finishActivation E path.val prepared) (fun _ => .free) with
      recordedOther := s.recordedOther || (prepared.records && !onDisk E path s.world cfg) }
  | .deactivating => some (s.run (getConfig E path.val) .checking)
  | .checking cfg => some (s.run (checkDeactivate E path.val) fun _ => .dismantling cfg)
  | .dismantling cfg => some (s.run (deactivateEntries E cfg) fun _ => .unlinking)
  | .unlinking =>
    match unlink path s.world with
    | (.ok _, w) =>
      some { s with world := Worker.free.release w, worker := .free, edit := s.edit.markDeleted }
    | (.error _, w) => some { s with world := Worker.free.release w, worker := .free }

def Server.step (s : Server) : ServerAct → Option Server
  | .editRead configUpdate =>
    match s.edit with
    | .idle =>
      match getConfig E path.val s.world with
      | (.ok stored, w) =>
          some { s with world := w, edit := .checking ⟨configUpdate, stored, false⟩ }
      | (.error _, w) => some { s with world := w }
    | _ => none
  | .edit => s.stepEdit E path
  | .activate overrideActive => s.begin (getConfig E path.val) (.opened overrideActive)
  | .delete force =>
    s.begin (checkDelete E path force) fun active => if active then .deactivating else .unlinking
  | .work => s.stepWorker E path

end Step

/-- Nothing has begun and nothing has gone wrong. -/
def Server.initial (w : World) : Server := ⟨w, .idle, .free, false, false, false⟩

/-! ## The machine runs the code -/

section Alone

variable {E : Env} {path : ConfigId}

/-- From `s` the worker can finish, alone, with the store `w`. -/
def Completes (E : Env) (path : ConfigId) (s : Server) (w : World) : Prop :=
  ∃ acts s', exec (Server.step E path) s acts = some s' ∧ s'.worker = .free ∧ s'.world = w

theorem Completes.step {s t : Server} {a : ServerAct} {w : World}
    (h : s.step E path a = some t) (ht : Completes E path t w) : Completes E path s w := by
  obtain ⟨acts, s', hexec, hfree, hworld⟩ := ht
  refine ⟨a :: acts, s', ?_, hfree, hworld⟩
  rw [exec, h]
  exact hexec

/-- The store when the lock is released. -/
abbrev World.unlock (w : World) : World := { w with locked := false }

/-- A worker's phase and the ones after it. -/
theorem Completes.run {α β : Type} {s : Server} {x : Store α} {next : α → Worker}
    {rest : α → Store β}
    (h : ∀ a w, x s.world = (.ok a, w) → Completes E path
      { s with world := (next a).release w, worker := next a } (rest a w).2.unlock) :
    Completes E path (s.run x next) ((x >>= rest) s.world).2.unlock := by
  unfold Server.run
  rcases hx : x s.world with ⟨e | a, w⟩
  · rw [bind_error hx]
    exact ⟨[], _, rfl, rfl, rfl⟩
  · rw [bind_ok hx]
    exact h a w hx

/-- An edit's last step, whatever comes of it. -/
theorem stepEdit_writing {s : Server} {edit : PendingEdit} (h : s.edit = .writing edit) :
    ∃ s', s.stepEdit E path = some s' ∧ s'.edit = .idle ∧ s'.worker = s.worker ∧
      s'.world = (writeEdit E path edit.stored edit.configUpdate s.world).2 := by
  unfold Server.stepEdit
  rw [h]
  dsimp only
  rcases writeEdit E path edit.stored edit.configUpdate s.world with ⟨e | cfg, w⟩ <;>
    exact ⟨_, rfl, rfl, rfl, rfl⟩

/-- An edit that nothing interferes with does what `edit_config` does. -/
theorem edit_alone {s : Server} (h : s.edit = .idle) (configUpdate : NetConfigUpdate) :
    ∃ acts s', exec (Server.step E path) s acts = some s' ∧ s'.edit = .idle ∧
      s'.worker = s.worker ∧ s'.world = (editConfig E path.val configUpdate s.world).2 := by
  rw [editConfig_phases]
  have hread : s.step E path (.editRead configUpdate) =
      match getConfig E path.val s.world with
      | (.ok stored, w) =>
          some { s with world := w, edit := .checking ⟨configUpdate, stored, false⟩ }
      | (.error _, w) => some { s with world := w } := by
    simp only [Server.step, h]
  rcases hload : getConfig E path.val s.world with ⟨e | stored, w⟩
  · refine ⟨[.editRead configUpdate], { s with world := w }, ?_, h, rfl, ?_⟩
    · rw [exec, hread, hload]
      rfl
    · rw [bind_error hload]
  rw [bind_ok hload]
  rw [hload] at hread
  rcases hcheck : checkEdit E path.val w with ⟨e | u, w'⟩
  · refine ⟨[.editRead configUpdate, .edit], { s with world := w', edit := .idle }, ?_,
      rfl, rfl, ?_⟩
    · rw [exec, hread, Option.bind_some, exec]
      simp only [Server.step, Server.stepEdit, hcheck]
      rfl
    · rw [bind_error hcheck]
  rw [bind_ok hcheck]
  obtain ⟨s', hwrite, hidle, hworker, hworld⟩ := @stepEdit_writing E path
    { s with world := w', edit := .writing ⟨configUpdate, stored, false⟩ } _ rfl
  refine ⟨[.editRead configUpdate, .edit, .edit], s', ?_, hidle, hworker, hworld⟩
  rw [exec, hread, Option.bind_some, exec]
  simp only [Server.step, Server.stepEdit, hcheck, Option.bind_some]
  rw [exec]
  simp only [Server.step, hwrite, Option.bind_some, exec]

/-- An activation that nothing interferes with does what `activate_config` does. -/
theorem activate_alone {s : Server} (hfree : s.world.locked = false) (overrideActive : Bool) :
    Completes E path s (activateConfigReport E path.val overrideActive s.world).2 := by
  have hrun : s.step E path (.activate overrideActive) =
      some (Server.run { s with world := { s.world with locked := true } }
        (getConfig E path.val) (.opened overrideActive)) := by
    simp only [Server.step, Server.begin, hfree, Bool.false_eq_true, if_false]
  refine .step hrun ?_
  unfold activateConfigReport
  rw [networkChangeLock_world _ hfree, activateConfigLocked_phases]
  refine .run fun cfg w₁ _ => ?_
  refine Completes.step (a := .work) rfl ?_
  refine .run fun active w₂ _ => ?_
  refine Completes.step (a := .work) rfl ?_
  refine .run fun prepared w₃ _ => ?_
  have hlast : ∀ t, Server.step E path ⟨w₃, s.edit, .finishing cfg prepared, s.rewroteActive,
      s.recreated, s.recordedOther⟩ .work = some t →
      t.worker = .free ∧ t.world = (finishActivation E path.val prepared w₃).2.unlock := by
    intro t ht
    cases ht
    unfold Server.run
    rcases finishActivation E path.val prepared w₃ with ⟨e | result, w₄⟩ <;> exact ⟨rfl, rfl⟩
  exact ⟨[.work], _, rfl, hlast _ rfl⟩

/-- So does a deletion. -/
theorem delete_alone {s : Server} (hfree : s.world.locked = false) (force : Bool) :
    Completes E path s (deleteConfig E path.val force s.world).2 := by
  have hrun : s.step E path (.delete force) =
      some (Server.run { s with world := { s.world with locked := true } }
        (checkDelete E path force) fun active => if active then .deactivating else .unlinking) := by
    simp only [Server.step, Server.begin, hfree, Bool.false_eq_true, if_false]
  refine .step hrun ?_
  have hdelete : deleteConfig E path.val force s.world =
      networkChangeLock (deleteConfigLocked E path force) s.world := by
    unfold deleteConfig
    rw [configPath_val]
    rfl
  rw [hdelete, networkChangeLock_world _ hfree, deleteConfigLocked_phases]
  -- The last phase, from wherever it is reached.
  have hlast (w : World) (edit : EditState) : Completes E path
      ⟨w, edit, .unlinking, s.rewroteActive, s.recreated, s.recordedOther⟩
      ((do unlink path; return true : Store Bool) w).2.unlock := by
    rcases hunlink : unlink path w with ⟨e | u, w'⟩
    · rw [bind_error hunlink]
      refine ⟨[.work], ⟨w'.unlock, edit, .free, s.rewroteActive, s.recreated, s.recordedOther⟩, ?_,
        rfl, rfl⟩
      simp only [exec, Server.step, Server.stepWorker, hunlink]
      rfl
    · rw [bind_ok hunlink]
      refine ⟨[.work], ⟨w'.unlock, edit.markDeleted, .free, s.rewroteActive, s.recreated,
        s.recordedOther⟩, ?_, rfl, rfl⟩
      simp only [exec, Server.step, Server.stepWorker, hunlink]
      rfl
  refine .run fun active w₁ _ => ?_
  cases active with
  | false => exact hlast w₁ s.edit
  | true =>
    refine Completes.step (a := .work) rfl ?_
    refine .run fun cfg w₂ _ => ?_
    refine Completes.step (a := .work) rfl ?_
    refine .run fun _ w₃ _ => ?_
    refine Completes.step (a := .work) rfl ?_
    exact .run fun _ w₄ _ => hlast w₄ s.edit

end Alone

end WlanpiCore
