import WlanpiCore.Config.Interleaving
import WlanpiCore.Config.Delete
import WlanpiCore.Config.Edit

/-!
# When edits, activations and deletions serialise

**Theorem (`edits_serialise`).** In every run of the machine of `Interleaving` whose steps are
orderly, no edit rewrites the profile while it is active, no edit recreates it after a deletion it
did not see, and a recorded profile is the one on disk.

A step is orderly when it does not fall into the window that `edit_config`, which takes no lock,
leaves open: a worker records the profile only when no edit stands between its active check and its
write, it deletes it only when no edit is under way, and an edit writes only when no activation has
read the profile and not yet recorded it. `serialise_fails` shows that each window does harm.

The invariant (`Inv`) says what each side may still rely on: after its read an edit's profile is
there, after its check it is not active, and what a worker activates is what the file holds
(`Holds`). Readers preserve both facts about the store, so a phase put together from readers and
calls does too (`Quiet`).
-/

namespace WlanpiCore

open Prog

section Quiet

variable (E : Env)

/-- Reading profiles and calling out preserve `I`. -/
structure Quiet (I : World → Prop) : Prop where
  reads : ∀ cfgId, Preserves I (getConfig E cfgId)
  calls : ∀ c, Preserves I (call E c)

variable {E} {I : World → Prop}

namespace Quiet

theorem getCurrentConfig (h : Quiet E I) : Preserves I (getCurrentConfig E) := by
  refine .bind (fun _ hw => hw) fun w => ?_
  cases w.current with
  | none => exact .raise _
  | some bytes =>
    dsimp only
    cases Text.readText bytes with
    | none => exact .raise _
    | some text =>
      dsimp only
      split_ifs
      · exact .raise _
      · refine .bind (.attempt (.bind (h.reads _) fun _ => .pure _) fun e => ?_) fun _ => .pure _
        cases e <;> exact .raise _

theorem isActive (h : Quiet E I) (cfgId : Text) : Preserves I (isActive E cfgId) := by
  refine .attempt (.bind h.getCurrentConfig fun _ => .pure _) fun e => ?_
  cases e
  case configMalformed => exact .pure _
  all_goals exact .raise _

theorem checkEdit (h : Quiet E I) (cfgId : Text) : Preserves I (checkEdit E cfgId) := by
  refine .bind (h.isActive cfgId) fun active => ?_
  cases active
  · exact .pure _
  · exact .raise _

theorem checkDelete (h : Quiet E I) (path : ConfigId) (force : Bool) :
    Preserves I (checkDelete E path force) := by
  refine .bind (h.isActive path.val) fun active => ?_
  split_ifs
  · exact .bind (.raise _) fun _ => .pure _
  · exact .pure _

theorem checkDeactivate (h : Quiet E I) (cfgId : Text) : Preserves I (checkDeactivate E cfgId) := by
  refine .bind (h.isActive cfgId) fun active => ?_
  cases active
  · exact .raise _
  · exact .pure _

theorem deactivateQuietly (h : Quiet E I) :
    ∀ entries, Preserves I (forEachQuietly (fun e => call E (.deactivateConfig e)) entries)
  | [] => .pure _
  | _ :: entries =>
    .bind (.attempt (h.calls _) fun _ => .pure _) fun _ => h.deactivateQuietly entries

theorem teardownProfile (h : Quiet E I) (cfgId : Text) : Preserves I (teardownProfile E cfgId) := by
  refine .bind (.attempt (.map _ (h.reads cfgId)) fun e => ?_) fun profile =>
    .bind (h.deactivateQuietly _) fun _ => h.calls .revertToRoot
  cases e
  case fileNotFound | configMalformed | validation => exact .pure _
  all_goals exact .raise _

theorem clearOldProfile (h : Quiet E I) (active : Text) (overrideActive : Bool) :
    Preserves I (clearOldProfile E active overrideActive) := by
  refine .bind (h.teardownProfile active) fun _ => ?_
  split_ifs
  · exact h.calls .killAllSupplicants
  · exact .pure _

theorem notCoreManaged (h : Quiet E I) (only : Bool) (entry : Entry) :
    Preserves I (notCoreManaged E only entry) := by
  unfold WlanpiCore.notCoreManaged
  split_ifs
  · exact .bind (h.calls (.isCoreManaged entry)) fun _ => .pure _
  · exact .pure _

theorem invalidEntries (h : Quiet E I) (only : Bool) :
    ∀ entries, Preserves I (invalidEntries E only entries)
  | [] => .pure _
  | entry :: entries => by
    refine .bind (h.notCoreManaged only entry) fun skip => ?_
    split_ifs
    · exact h.invalidEntries only entries
    · refine .bind (h.calls (.validateConfig entry)) fun reply => ?_
      refine .bind (h.invalidEntries only entries) fun outcomes => ?_
      split_ifs <;> exact .pure _

theorem applyEntries (h : Quiet E I) (only : Bool) : ∀ entries outcomes activated,
    Preserves I (applyEntries E only entries outcomes activated)
  | [], _, _ => .pure _
  | entry :: entries, outcomes, activated => by
    refine .bind (.observe (h.notCoreManaged only entry)) fun skip => ?_
    cases skip with
    | error e => exact .pure _
    | ok skip =>
      cases skip with
      | true => exact h.applyEntries only entries _ _
      | false =>
        refine .bind (.observe (h.calls (.activateConfig entry))) fun reply => ?_
        cases reply with
        | error e => exact .pure _
        | ok result => exact h.applyEntries only entries _ _

theorem prepareActivation (h : Quiet E I) (cfgId : Text) (overrideActive : Bool) (cfg : NetConfig)
    (active : Text) : Preserves I (prepareActivation E cfgId overrideActive cfg active) := by
  refine .bind (h.invalidEntries _ _) fun invalidOutcomes => ?_
  split_ifs
  · exact .bind (.observe (h.teardownProfile cfgId)) fun _ => .pure _
  · exact .pure _
  · exact .bind (h.clearOldProfile active overrideActive) fun _ =>
      .bind (h.applyEntries _ _ _ _) fun _ => .pure _

/-! ## Phases that may record `default` -/

section

variable (h : Quiet E I) (hdefault : ∀ w, I w → I (w.setCurrent defaultId.val))

include h hdefault

theorem enterActivation (cfgId : Text) (overrideActive : Bool) :
    Preserves I (enterActivation E cfgId overrideActive) := by
  refine .bind (.attempt h.getCurrentConfig fun e => ?_) fun active => ?_
  · cases e
    case configMalformed => exact .bind (.update hdefault) fun _ => .pure _
    case fileNotFound => exact .pure _
    all_goals exact .raise _
  · cases refusal cfgId active overrideActive with
    | none => exact .pure _
    | some e => exact .raise _

omit hdefault in
theorem forEachDeactivate :
    ∀ entries, Preserves I (forEach (fun e => call E (.deactivateConfig e)) entries)
  | [] => .pure _
  | _ :: entries => .bind (h.calls _) fun _ => forEachDeactivate entries

theorem deactivateEntries (cfg : NetConfig) : Preserves I (deactivateEntries E cfg) :=
  .attempt
    (.bind (h.forEachDeactivate _) fun _ => .bind (.update hdefault) fun _ =>
      .bind (h.calls .revertToRoot) fun _ => .pure _)
    fun _ => .bind
      (.attempt (.bind (.update hdefault) fun _ => h.calls .revertToRoot) fun _ => .pure _)
      fun _ => .raise _

/-- The last write of an activation that does not record its profile. -/
theorem finishActivation {cfgId : Text} {prepared : Prepared} (hnot : prepared.records = false) :
    Preserves I (finishActivation E cfgId prepared) := by
  cases prepared with
  | refused result => exact .pure _
  | fallingBack result => exact .bind (.update hdefault) fun _ => .lift _
  | applied res activated =>
    cases res with
    | error e =>
      exact .bind (h.deactivateQuietly _) fun _ => .bind (.update hdefault) fun _ => .raise _
    | ok outcomes =>
      have hall : ¬outcomes.all acceptable = true := by
        rw [Bool.not_eq_true]
        exact hnot
      simp only [WlanpiCore.finishActivation, if_neg hall]
      exact .bind (h.deactivateQuietly _) fun _ => .bind (.update hdefault) fun _ => .pure _

end

end Quiet

end Quiet

/-! ## What both sides rely on -/

section

variable (E : Env) (path : ConfigId)

/-- Loading the profile gives `cfg` and leaves the store as it is. -/
def Holds (cfg : NetConfig) (w : World) : Prop :=
  ∃ bytes, w.files path = some bytes ∧ parseConfig E path bytes = .ok cfg ∧
    ¬(path = defaultId ∧ cfg = legacyDefaultConfig)

variable {E path}

theorem Holds.onDisk {cfg : NetConfig} {w : World} (h : Holds E path cfg w) :
    onDisk E path w cfg = true := by
  obtain ⟨bytes, hfile, hparse, -⟩ := h
  simp [WlanpiCore.onDisk, hfile, hparse]

theorem holds_of_onDisk {cfg : NetConfig} {w : World} (h : WlanpiCore.onDisk E path w cfg = true)
    (hlegacy : cfg ≠ legacyDefaultConfig) : Holds E path cfg w := by
  unfold WlanpiCore.onDisk at h
  cases hfile : w.files path with
  | none =>
    rw [hfile] at h
    cases h
  | some bytes =>
    rw [hfile, Option.map_some] at h
    cases hparse : parseConfig E path bytes with
    | error e =>
      rw [hparse] at h
      cases h
    | ok cfg' =>
      rw [hparse] at h
      obtain rfl := of_decide_eq_true h
      exact ⟨bytes, hfile, hparse, fun hboth => hlegacy hboth.2⟩

theorem Holds.load {cfg : NetConfig} {w : World} (h : Holds E path cfg w) :
    getConfig E path.val w = (.ok cfg, w) := by
  obtain ⟨bytes, hfile, hparse, hlegacy⟩ := h
  rw [getConfig_eq, hfile]
  refine attempt_ok ?_
  rw [readConfig_ok E hparse, if_neg hlegacy]

/-- Only the profile's own file counts. -/
theorem Holds.of_file {cfg : NetConfig} {w w' : World} (h : Holds E path cfg w)
    (hfile : w'.files path = w.files path) : Holds E path cfg w' := by
  unfold Holds
  rw [hfile]
  exact h

theorem quiet_holds (cfg : NetConfig) : Quiet E (Holds E path cfg) where
  calls _ _ h := h
  reads cfgId w h := by
    by_cases hne : path = defaultId
    · -- A default profile that can be read is not regenerated.
      subst hne
      cases hpath : configPath cfgId with
      | error e =>
        rw [getConfig_invalid E hpath]
        exact h
      | ok other =>
        obtain rfl := configPath_eq_ok hpath
        by_cases hother : other = defaultId
        · rw [hother, h.load]
          exact h
        · rw [getConfig_of_ne E hother]
          exact h
    · exact h.of_file ((getConfig_regenerated E cfgId w).files path hne)

theorem quiet_notNames : Quiet E (fun w => ¬w.Names path.val) where
  calls _ _ h := h
  reads cfgId w h hname :=
    h ((getConfig_regenerated E cfgId w).currentText.symm.trans hname)

theorem not_names_setCurrent {named : ConfigId} (hne : path ≠ named) (w : World) :
    ¬(w.setCurrent named.val).Names path.val := fun h =>
  hne (h.unique (World.names_setCurrent w named))

theorem getConfig_holds (hne : path ≠ defaultId) {cfg : NetConfig} {w w' : World}
    (h : getConfig E path.val w = (.ok cfg, w')) : Holds E path cfg w' := by
  rw [getConfig_of_ne E hne] at h
  cases hfile : w.files path with
  | none =>
    rw [hfile] at h
    cases h
  | some bytes =>
    rw [hfile] at h
    obtain ⟨hparse, rfl⟩ := Prod.mk.inj h
    exact ⟨bytes, hfile, hparse, fun hlegacy => hne hlegacy.1⟩

/-- An edit that goes on after its check does so while `current.txt` does not name the profile. -/
theorem checkEdit_notNames {w w' : World} {u : Unit}
    (hthere : path ≠ defaultId → ∃ cfg, Holds E path cfg w)
    (h : checkEdit E path.val w = (.ok u, w')) : ¬w'.Names path.val := by
  have hanswer := isActive_answer (E := E) path w
  rcases hactive : isActive E path.val w with ⟨r, w₁⟩
  rw [hactive] at hanswer
  unfold checkEdit at h
  cases hanswer with
  | active w₁ hname hintact hregen =>
    rw [bind_ok hactive] at h
    cases h
  | other named w₁ hne hname hintact hregen =>
    rw [bind_ok hactive] at h
    cases h
    unfold World.Names
    rw [hregen.currentText]
    exact fun hpath => hne (hname.unique hpath)
  | blank hblank =>
    rw [bind_ok hactive] at h
    cases h
    intro hpath
    exact path.ne_nil (Option.some.inj (hpath.symm.trans hblank))
  | unusable named hne hname hfile =>
    rw [bind_ok hactive] at h
    cases h
    intro hpath
    obtain rfl := hpath.unique hname
    obtain ⟨cfg, bytes, hbytes, hparse, -⟩ := hthere hne
    rcases hfile with hnone | ⟨bytes', msg, cfgId, hbytes', hparse'⟩
    · rw [hnone] at hbytes
      cases hbytes
    · rw [hbytes] at hbytes'
      cases hbytes'
      rw [hparse] at hparse'
      cases hparse'
  | raises e hnames =>
    rw [bind_error hactive] at h
    cases h

end

/-! ## Orderly steps -/

section

/-- The worker is applying what it read from the profile. -/
def Worker.applying : Worker → Bool
  | .opened .. | .entered .. | .finishing .. => true
  | _ => false

def Worker.unlinks : Worker → Bool
  | .unlinking => true
  | _ => false

variable (E : Env) (path : ConfigId)

/-- `current.txt` will be reset. -/
def currentUnusable (w : World) : Bool :=
  match (getCurrentConfig E w).1 with
  | .error (.configMalformed _ _) => true
  | _ => false

/-- What the last step of an activation writes to `current.txt`. -/
def Prepared.recorded : Prepared → Option ConfigId
  | .refused _ => none
  | prepared => some (if prepared.records then path else defaultId)

/-- The next step of the worker may make `current.txt` name the profile. -/
def Worker.mayName (w : World) : Worker → Bool
  | .opened .. => path = defaultId && currentUnusable E w
  | .finishing _ prepared => prepared.recorded path = some path
  | .dismantling _ => path = defaultId
  | _ => false

/-- The default profile that a worker reads is on disk: the one that was there, or the live one that
took its place. -/
def defaultOnDisk (w : World) : Bool :=
  match getConfig E defaultId.val { w with locked := true } with
  | (.ok cfg, w') => onDisk E defaultId w' cfg && cfg ≠ legacyDefaultConfig
  | _ => true

/-- A step outside the windows that an edit without the lock leaves open. -/
def orderly (s : Server) : ServerAct → Bool
  | .edit =>
    match s.edit with
    | .writing _ => !s.worker.applying
    | _ => true
  | .activate _ => path ≠ defaultId || defaultOnDisk E s.world
  | .work =>
    match s.edit with
    | .idle => true
    | .checking _ => !s.worker.unlinks
    | .writing _ => !s.worker.unlinks && !s.worker.mayName E path s.world
  | _ => true

/-! ## The invariant -/

/-- What an edit under way relies on. -/
def EditState.Sound (edit : EditState) (w : World) : Prop :=
  match edit with
  | .idle => True
  | .checking edit => edit.deleted = false ∧ (path ≠ defaultId → ∃ cfg, Holds E path cfg w)
  | .writing edit => edit.deleted = false ∧ ¬w.Names path.val

/-- What an activation under way relies on. -/
def Worker.Sound (worker : Worker) (w : World) : Prop :=
  match worker with
  | .opened _ cfg | .entered _ cfg _ | .finishing cfg _ => Holds E path cfg w
  | _ => True

structure Serialised (s : Server) : Prop where
  rewroteActive : s.rewroteActive = false
  recreated : s.recreated = false
  recordedOther : s.recordedOther = false
  edit : s.edit.Sound E path s.world
  worker : s.worker.Sound E path s.world

variable {E path}

/-- Two stores with the same profile and the same `current.txt`. -/
theorem EditState.Sound.of_eq {edit : EditState} {w w' : World} (h : edit.Sound E path w)
    (hfile : w'.files path = w.files path) (hcurrent : w'.current = w.current) :
    edit.Sound E path w' := by
  cases edit with
  | idle => trivial
  | checking edit =>
    refine ⟨h.1, fun hne => ?_⟩
    obtain ⟨cfg, hcfg⟩ := h.2 hne
    exact ⟨cfg, hcfg.of_file hfile⟩
  | writing edit =>
    refine ⟨h.1, fun hname => h.2 ?_⟩
    unfold World.Names World.currentText at *
    rwa [← hcurrent]

theorem Worker.Sound.of_file {worker : Worker} {w w' : World} (h : worker.Sound E path w)
    (hfile : w'.files path = w.files path) : worker.Sound E path w' := by
  cases worker
  case opened | entered | finishing => exact Holds.of_file h hfile
  all_goals trivial

@[simp] theorem Worker.release_files (worker : Worker) (w : World) :
    (worker.release w).files = w.files := by
  cases worker <;> rfl

@[simp] theorem Worker.release_current (worker : Worker) (w : World) :
    (worker.release w).current = w.current := by
  cases worker <;> rfl

/-- Readers and calls keep what an edit relies on. -/
theorem quiet_edit (edit : EditState) : Quiet E (edit.Sound E path) where
  calls _ _ h := h.of_eq rfl rfl
  reads cfgId w h := by
    cases edit with
    | idle => trivial
    | checking edit =>
      refine ⟨h.1, fun hne => ?_⟩
      obtain ⟨cfg, hcfg⟩ := h.2 hne
      exact ⟨cfg, (quiet_holds cfg).reads cfgId w hcfg⟩
    | writing edit => exact ⟨h.1, quiet_notNames.reads cfgId w h.2⟩

/-- An edit that has not passed its check does not mind what `current.txt` names. -/
theorem EditState.Sound.setCurrent {edit : EditState} {w : World} {named : ConfigId}
    (h : edit.Sound E path w) (hsafe : (∀ e, edit ≠ .writing e) ∨ path ≠ named) :
    edit.Sound E path (w.setCurrent named.val) := by
  cases edit with
  | idle => trivial
  | checking edit => exact h
  | writing edit =>
    refine ⟨h.1, not_names_setCurrent ?_ w⟩
    exact hsafe.resolve_left fun hidle => hidle edit rfl

/-! ## The worker's steps -/

/-- A phase of the worker keeps the invariant if it keeps what the edit relies on and leaves what
the worker goes on with. -/
theorem Serialised.run {α : Type} {s : Server} {x : Store α} {next : α → Worker}
    (h : Serialised E path s) (hedit : s.edit.Sound E path (x s.world).2)
    (hworker : ∀ a w, x s.world = (.ok a, w) → (next a).Sound E path w) :
    Serialised E path (s.run x next) := by
  unfold Server.run
  rcases hx : x s.world with ⟨e | a, w⟩
  · rw [hx] at hedit
    exact { h with edit := hedit.of_eq rfl rfl, worker := trivial }
  · rw [hx] at hedit
    refine { h with edit := hedit.of_eq ?_ ?_, worker := (hworker a w hx).of_file ?_ }
    · rw [Worker.release_files]
    · rw [Worker.release_current]
    · rw [Worker.release_files]

/-- Reading the profile in force resets nothing that can be used. -/
theorem enterActivation_edit {edit : EditState} {overrideActive : Bool} {w : World}
    (h : edit.Sound E path w)
    (hsafe : (∀ e, edit ≠ .writing e) ∨ ¬(path = defaultId ∧ currentUnusable E w = true)) :
    edit.Sound E path (enterActivation E path.val overrideActive w).2 := by
  by_cases hdefault : (∀ e, edit ≠ .writing e) ∨ path ≠ defaultId
  · exact (quiet_edit edit).enterActivation (fun _ hw => hw.setCurrent hdefault) _ _ w h
  obtain ⟨hwriting, hpath⟩ := not_or.1 hdefault
  have husable : currentUnusable E w ≠ true :=
    fun hunusable => hsafe.elim hwriting fun hnot => hnot ⟨not_not.1 hpath, hunusable⟩
  have hread : edit.Sound E path (getCurrentConfig E w).2 := (quiet_edit edit).getCurrentConfig w h
  unfold currentUnusable at husable
  unfold enterActivation activeOrDefault
  rcases hcurrent : getCurrentConfig E w with ⟨e | active, w'⟩
  · rw [hcurrent] at hread husable
    cases e with
    | configMalformed msg named => exact absurd rfl husable
    | fileNotFound msg =>
      rw [bind_ok ((attempt_error hcurrent).trans rfl)]
      cases refusal path.val defaultId.val overrideActive <;> exact hread
    | _ =>
      rw [bind_error ((attempt_error hcurrent).trans rfl)]
      exact hread
  · rw [hcurrent] at hread
    rw [bind_ok (attempt_ok hcurrent)]
    cases refusal path.val active overrideActive <;> exact hread

theorem finishActivation_edit {edit : EditState} {prepared : Prepared} {w : World}
    (h : edit.Sound E path w)
    (hsafe : (∀ e, edit ≠ .writing e) ∨ prepared.recorded path ≠ some path) :
    edit.Sound E path (finishActivation E path.val prepared w).2 := by
  cases hrecords : prepared.records with
  | false =>
    by_cases hrefused : ∃ result, prepared = .refused result
    · obtain ⟨result, rfl⟩ := hrefused
      exact h
    have hrecorded : prepared.recorded path = some defaultId := by
      cases prepared with
      | refused result => exact absurd ⟨result, rfl⟩ hrefused
      | _ => simp [Prepared.recorded, hrecords]
    have hdefault : (∀ e, edit ≠ .writing e) ∨ path ≠ defaultId :=
      hsafe.imp_right fun hne hpath => hne (hrecorded.trans (congrArg some hpath.symm))
    exact (quiet_edit edit).finishActivation (fun _ hw => hw.setCurrent hdefault) hrecords w h
  | true =>
    cases prepared with
    | applied res activated =>
      cases res with
      | ok outcomes =>
        have hall : outcomes.all acceptable = true := hrecords
        have hrecorded : Prepared.recorded path (.applied (.ok outcomes) activated) =
          some path := by
          simp [Prepared.recorded, hrecords]
        simp only [finishActivation, if_pos hall]
        exact h.setCurrent (hsafe.imp_right fun hne => absurd hrecorded hne)
      | error e => cases hrecords
    | _ => cases hrecords

theorem Serialised.stepWorker {s t : Server} (h : Serialised E path s)
    (hok : orderly E path s .work = true) (hstep : s.stepWorker E path = some t) :
    Serialised E path t := by
  -- Either no edit stands between its check and its write, or the worker does not name the profile.
  have hmay : (∀ e, s.edit ≠ .writing e) ∨ s.worker.mayName E path s.world ≠ true := by
    cases hedit : s.edit with
    | writing edit =>
      rw [orderly, hedit] at hok
      simp only [Bool.and_eq_true, Bool.not_eq_true'] at hok
      exact Or.inr (by simp [hok.2])
    | _ => exact Or.inl fun e => by rintro ⟨⟩
  have hquiet : Quiet E (s.edit.Sound E path) := quiet_edit s.edit
  have hworker := h.worker
  unfold Server.stepWorker at hstep
  cases hstate : s.worker <;> rw [hstate] at hstep hworker hmay <;> dsimp only at hstep
  case free => cases hstep
  case opened overrideActive cfg =>
    cases hstep
    refine h.run (enterActivation_edit h.edit (hmay.imp_right ?_)) fun active w hx => ?_
    · simp [Worker.mayName]
    · have hkept : Holds E path cfg (enterActivation E path.val overrideActive s.world).2 :=
        (quiet_holds cfg).enterActivation (fun _ hw => hw) _ _ _ hworker
      rwa [hx] at hkept
  case entered overrideActive cfg active =>
    cases hstep
    refine h.run (hquiet.prepareActivation _ _ _ _ _ h.edit) fun prepared w hx => ?_
    have hkept : Holds E path cfg
        (prepareActivation E path.val overrideActive cfg active s.world).2 :=
      (quiet_holds cfg).prepareActivation _ _ _ _ _ hworker
    rwa [hx] at hkept
  case finishing cfg prepared =>
    have hedit : s.edit.Sound E path (finishActivation E path.val prepared s.world).2 :=
      finishActivation_edit h.edit (hmay.imp_right (by simp [Worker.mayName]))
    have hrun : Serialised E path (s.run (finishActivation E path.val prepared) fun _ => .free) :=
      h.run hedit fun _ _ _ => trivial
    cases hstep
    refine { hrun with recordedOther := ?_ }
    simp [h.recordedOther, Holds.onDisk hworker]
  case deactivating =>
    cases hstep
    exact h.run (hquiet.reads _ _ h.edit) fun _ _ _ => trivial
  case checking cfg =>
    cases hstep
    exact h.run (hquiet.checkDeactivate _ _ h.edit) fun _ _ _ => trivial
  case dismantling cfg =>
    cases hstep
    refine h.run
      (hquiet.deactivateEntries (fun _ hw => hw.setCurrent (hmay.imp_right ?_)) _ _ h.edit)
      fun _ _ _ => trivial
    simp [Worker.mayName]
  case unlinking =>
    -- No edit is under way when the file goes.
    have hidle : s.edit = .idle := by
      cases hedit : s.edit with
      | idle => rfl
      | _ => simp [orderly, hedit, hstate, Worker.unlinks] at hok
    rcases hunlink : unlink path s.world with ⟨e | u, w⟩
    all_goals
      rw [hunlink] at hstep
      cases hstep
      refine { h with edit := ?_, worker := trivial }
      dsimp only
      rw [hidle]
      trivial

/-! ## The edit's steps -/

theorem Serialised.stepEdit {s t : Server} (h : Serialised E path s)
    (hok : orderly E path s .edit = true) (hstep : s.stepEdit E path = some t) :
    Serialised E path t := by
  unfold Server.stepEdit at hstep
  cases hedit : s.edit with
  | idle =>
    rw [hedit] at hstep
    cases hstep
  | checking edit =>
    have hsound := h.edit
    rw [hedit] at hstep hsound
    dsimp only at hstep
    have hworker : s.worker.Sound E path (checkEdit E path.val s.world).2 := by
      cases hstate : s.worker <;> have hholds := h.worker <;> rw [hstate] at hholds
      case opened | entered | finishing => exact (quiet_holds _).checkEdit _ _ hholds
      all_goals trivial
    rcases hcheck : checkEdit E path.val s.world with ⟨e | u, w⟩
    · rw [hcheck] at hstep hworker
      cases hstep
      exact { h with edit := trivial, worker := hworker }
    · rw [hcheck] at hstep hworker
      cases hstep
      exact { h with edit := ⟨hsound.1, checkEdit_notNames hsound.2 hcheck⟩, worker := hworker }
  | writing edit =>
    have hsound := h.edit
    rw [hedit] at hstep hsound
    dsimp only at hstep
    have happlying : s.worker.applying = false := by
      simpa [orderly, hedit] using hok
    have hworker (w : World) : s.worker.Sound E path w := by
      cases hstate : s.worker <;> rw [hstate] at happlying
      case opened | entered | finishing => cases happlying
      all_goals trivial
    rcases hwrite : writeEdit E path edit.stored edit.configUpdate s.world with ⟨e | cfg, w⟩
    · rw [hwrite] at hstep
      cases hstep
      exact { h with edit := trivial, worker := hworker w }
    · rw [hwrite] at hstep
      cases hstep
      refine ⟨?_, ?_, h.recordedOther, trivial, hworker w⟩
      · simp [h.rewroteActive, hsound.2]
      · simp [h.recreated, hsound.1]

theorem Serialised.begin {α : Type} {s t : Server} {x : Store α} {next : α → Worker}
    (h : Serialised E path s) (hquiet : Preserves (s.edit.Sound E path) x)
    (hworker : ∀ a w, x { s.world with locked := true } = (.ok a, w) → (next a).Sound E path w)
    (hstep : s.begin x next = some t) : Serialised E path t := by
  unfold Server.begin at hstep
  split_ifs at hstep
  cases hstep
  have hlocked : s.edit.Sound E path { s.world with locked := true } := h.edit.of_eq rfl rfl
  exact Serialised.run { h with edit := hlocked, worker := h.worker.of_file rfl }
    (hquiet _ hlocked) hworker

theorem Serialised.step {s t : Server} {a : ServerAct} (h : Serialised E path s)
    (hok : orderly E path s a = true) (hstep : s.step E path a = some t) :
    Serialised E path t := by
  cases a with
  | editRead configUpdate =>
    unfold Server.step at hstep
    cases hedit : s.edit with
    | idle =>
      rw [hedit] at hstep
      dsimp only at hstep
      have hworker : s.worker.Sound E path (getConfig E path.val s.world).2 := by
        cases hstate : s.worker <;> have hholds := h.worker <;> rw [hstate] at hholds
        case opened | entered | finishing => exact (quiet_holds _).reads _ _ hholds
        all_goals trivial
      rcases hload : getConfig E path.val s.world with ⟨e | stored, w⟩
      · rw [hload] at hstep hworker
        cases hstep
        exact { h with edit := trivial, worker := hworker }
      · rw [hload] at hstep hworker
        cases hstep
        exact { h with
          edit := ⟨rfl, fun hne => ⟨stored, getConfig_holds hne hload⟩⟩
          worker := hworker }
    | _ =>
      rw [hedit] at hstep
      cases hstep
  | edit => exact h.stepEdit hok hstep
  | activate overrideActive =>
    refine h.begin ((quiet_edit s.edit).reads _) (fun cfg w hx => ?_) hstep
    by_cases hne : path = defaultId
    · subst hne
      simp only [orderly, ne_eq, not_true_eq_false, decide_false, Bool.false_or, defaultOnDisk, hx,
        Bool.and_eq_true, decide_eq_true_eq] at hok
      exact holds_of_onDisk hok.1 hok.2
    · exact getConfig_holds hne hx
  | delete force =>
    refine h.begin ((quiet_edit s.edit).checkDelete _ _) (fun active w _ => ?_) hstep
    cases active <;> trivial
  | work => exact h.stepWorker hok hstep

end

/-! ## Runs -/

/-- In a run of orderly steps an active profile is not rewritten, a deleted one is not recreated,
and a recorded one is the one on disk. -/
theorem edits_serialise (E : Env) (path : ConfigId) (w : World) (s : Server)
    (h : Run (Server.step E path) (fun s a => orderly E path s a = true) (Server.initial w) s) :
    s.rewroteActive = false ∧ s.recreated = false ∧ s.recordedOther = false := by
  have hinitial : Serialised E path (Server.initial w) := ⟨rfl, rfl, rfl, trivial, trivial⟩
  have hs : Serialised E path s := h.invariant hinitial fun _ _ _ h hok hstep => h.step hok hstep
  exact ⟨hs.rewroteActive, hs.recreated, hs.recordedOther⟩

/-- The radio of `homeWorld` comes up; its profile is written without entries. -/
def homeEnv : Env where
  pydantic := bareEnv.pydantic
  dumpJson cfg :=
    if cfg.id = labId then
      "\x7b\n    \"id\": \"lab\",\n    \"namespaces\": null,\n    \"roots\": []\n\x7d".toList
    else bareEnv.dumpJson cfg
  depth := bareEnv.depth
  clock := bareEnv.clock
  service c n := match c with
    | .activateConfig _ => .ok (some ⟨"connected", ""⟩)
    | c => bareEnv.service c n

/-- An update that removes every entry. -/
def dropRoots : NetConfigUpdate := { roots := some [] }

/-- An edit, then an activation, then an edit that comes too late. -/
theorem edits_serialise_home :
    ∃ s, Run (Server.step homeEnv labId) (fun s a => orderly homeEnv labId s a = true)
        (Server.initial homeWorld) s ∧
      s.world.Names labId.val ∧
      s.rewroteActive = false ∧ s.recreated = false ∧ s.recordedOther = false := by
  have hexec : (exec (guarded (Server.step homeEnv labId) (orderly homeEnv labId))
      (Server.initial homeWorld) [.editRead dropRoots, .edit, .edit, .activate false, .work,
        .editRead dropRoots, .work, .work, .edit]).any
      (fun s => decide (s.world.Names labId.val)) = true := by decide +kernel
  obtain ⟨s, hs, hname⟩ := (Option.any_eq_true _ _).1 hexec
  have hrun := Run.of_guarded (Reaches.of_exec hs)
  exact ⟨s, hrun, of_decide_eq_true hname, edits_serialise homeEnv labId homeWorld s hrun⟩

/-- Without the lock each of the three goes wrong. -/
theorem serialise_fails :
    (∃ s, Reaches (Server.step homeEnv labId) (Server.initial homeWorld) s ∧
      s.rewroteActive = true) ∧
    (∃ s, Reaches (Server.step homeEnv labId) (Server.initial homeWorld) s ∧ s.recreated = true) ∧
    ∃ s, Reaches (Server.step homeEnv labId) (Server.initial homeWorld) s ∧
      s.recordedOther = true := by
  have hreach (acts : List ServerAct) (flag : Server → Bool)
      (h : (exec (Server.step homeEnv labId) (Server.initial homeWorld) acts).any flag = true) :
      ∃ s, Reaches (Server.step homeEnv labId) (Server.initial homeWorld) s ∧ flag s = true := by
    obtain ⟨s, hs, hflag⟩ := (Option.any_eq_true _ _).1 h
    exact ⟨s, Reaches.of_exec hs, hflag⟩
  refine ⟨?_, ?_, ?_⟩
  · -- The profile is activated between the check and the write.
    exact hreach [.editRead dropRoots, .edit, .activate false, .work, .work, .work, .edit]
      Server.rewroteActive (by decide +kernel)
  · -- It is deleted there.
    exact hreach [.editRead dropRoots, .edit, .delete false, .work, .edit]
      Server.recreated (by decide +kernel)
  · -- It is rewritten while an activation applies what it read before.
    exact hreach [.activate false, .editRead dropRoots, .edit, .edit, .work, .work, .work]
      Server.recordedOther (by decide +kernel)

end WlanpiCore
