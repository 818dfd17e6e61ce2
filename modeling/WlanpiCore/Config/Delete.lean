import WlanpiCore.Config.Effects

/-!
# Deleting a profile

**Theorem (`deleteConfig_safe_iff`).** `delete_config` keeps what it promises, that `current.txt`
never names a file that no longer exists, exactly outside the states of `Strands`: the file is
there to delete and `current.txt` names it although it is malformed, or names another profile whose
file is already missing. In both, `is_active` answers that nothing is active.
-/

namespace WlanpiCore

open Prog

variable (E : Env)

/-- `current.txt` names a profile, other than the default, whose file is gone. -/
def Stranded (w : World) : Prop :=
  ∃ named : ConfigId, named ≠ defaultId ∧ w.Names named.val ∧ w.files named = none

/-- What `delete_config` promises. A default profile that a reader moved aside, because it was
broken and no live one could be built, was not deleted. -/
structure DeletesSafely (cfgId : Text) (force : Bool) (w : World) : Prop where
  keepsActive : force = false → ∀ named : ConfigId, w.Names named.val → w.files named ≠ none →
    Ends (deleteConfig E cfgId force) w fun _ w' =>
      w'.files named ≠ none ∨ named = defaultId ∧ w.asides.length < w'.asides.length
  neverStrands : Ends (deleteConfig E cfgId force) w fun r w' =>
    ∀ deleted, r = .ok deleted → ¬Stranded w'

/-- The states in which deleting `path` leaves `current.txt` with a profile that has no file. -/
def Strands (path : ConfigId) (w : World) : Prop :=
  w.locked = false ∧ w.files path ≠ none ∧
    ∃ named : ConfigId, named ≠ defaultId ∧ w.Names named.val ∧
      if named = path then Malformed E w path else w.files named = none

variable {E}

theorem World.Names.unique {w : World} {a b : ConfigId} (ha : w.Names a.val) (hb : w.Names b.val) :
    a = b :=
  Subtype.ext (Option.some.inj (ha.symm.trans hb))

theorem not_stranded_of_default {w : World} (h : w.Names defaultId.val) : ¬Stranded w := by
  rintro ⟨named, hne, hname, -⟩
  exact hne (hname.unique h)

/-- A completed deactivation has recorded `default`. -/
theorem deactivateEntries_ends (cfg : NetConfig) (w : World) :
    Ends (deactivateEntries E cfg) w fun r w' => ∀ b, r = .ok b → w'.Names defaultId.val := by
  unfold deactivateEntries
  rw [ends_attempt, ends_bind]
  refine Ends.mono (R := fun _ _ => True) trivial fun r w₁ _ => ?_
  -- The handler raises the exception again.
  have hraise (e : Exc) (w' : World) : Ends (do
      attempt (do writeCurrent defaultId.val; call E .revertToRoot) fun _ => return ()
      raise e : Store Bool) w' fun r w'' => ∀ b, r = .ok b → w''.Names defaultId.val := by
    rw [ends_bind]
    refine Ends.mono (R := fun _ _ => True) trivial fun r w'' _ => ?_
    rcases r with e | u <;> rintro b ⟨⟩
  rcases r with e | u
  · exact hraise e w₁
  dsimp only
  rw [ends_bind]
  unfold writeCurrent
  rw [ends_update]
  dsimp only
  rw [ends_bind, ends_call]
  cases E.service .revertToRoot _ with
  | error e => exact hraise e _
  | ok u =>
    intro b _
    exact World.names_setCurrent w₁ defaultId

theorem deactivateConfigLocked_ends (cfgId : Text) (w : World) :
    Ends (deactivateConfigLocked E cfgId false) w fun r w' =>
      ∀ b, r = .ok b → w'.Names defaultId.val := by
  unfold deactivateConfigLocked
  rw [ends_bind]
  refine Ends.mono (R := fun _ _ => True) trivial fun r w₁ _ => ?_
  rcases r with e | cfg
  · rintro b ⟨⟩
  simp only [Bool.not_false, if_true]
  rw [ends_bind]
  refine Ends.mono (R := fun _ _ => True) trivial fun r w₂ _ => ?_
  rcases r with e | active
  · rintro b ⟨⟩
  cases active with
  | true => exact deactivateEntries_ends cfg w₂
  | false =>
    rintro b ⟨⟩

/-! ## What `is_active` answers, and why -/

variable (E)

/-- If it is not the default, the profile can be read. -/
def Intact (w : World) (named : ConfigId) : Prop :=
  named ≠ defaultId → ∃ bytes cfg, w.files named = some bytes ∧ parseConfig E named bytes = .ok cfg

inductive ActiveAnswer (path : ConfigId) (w : World) : Except Exc Bool × World → Prop where
  | active (w' : World) (hname : w.Names path.val) (hintact : Intact E w path)
      (hregen : Regenerated E w w') : ActiveAnswer path w (.ok true, w')
  | other (named : ConfigId) (w' : World) (hne : named ≠ path) (hname : w.Names named.val)
      (hintact : Intact E w named) (hregen : Regenerated E w w') :
      ActiveAnswer path w (.ok false, w')
  | blank (h : w.Names []) : ActiveAnswer path w (.ok false, w)
  | unusable (named : ConfigId) (hne : named ≠ defaultId) (hname : w.Names named.val)
      (hfile : w.files named = none ∨ Malformed E w named) : ActiveAnswer path w (.ok false, w)
  | raises (e : Exc) (h : ∀ named : ConfigId, named ≠ defaultId → w.Names named.val →
      w.files named ≠ none ∧ ¬Malformed E w named) : ActiveAnswer path w (.error e, w)

variable {E}

theorem Intact.file {w : World} {named : ConfigId} (h : Intact E w named)
    (hne : named ≠ defaultId) : w.files named ≠ none ∧ ¬Malformed E w named := by
  obtain ⟨bytes, cfg, hfile, hparse⟩ := h hne
  refine ⟨by simp [hfile], ?_⟩
  rintro ⟨bytes', msg, cfgId, hfile', hparse'⟩
  obtain rfl : bytes = bytes' := Option.some.inj (hfile.symm.trans hfile')
  rw [hparse] at hparse'
  cases hparse'

theorem isActive_answer (path : ConfigId) (w : World) :
    ActiveAnswer E path w (isActive E path.val w) := by
  have hread := getCurrentConfig_reading E w
  have hregen := getCurrentConfig_regenerated E w
  rcases hcurrent : getCurrentConfig E w with ⟨r, w'⟩
  rw [hcurrent] at hread
  rw [Ends, hcurrent] at hregen
  cases hread with
  | absent msg h =>
    rw [isActive_raises E path.val hcurrent (by rintro _ _ ⟨⟩)]
    refine .raises _ fun named _ hname => ?_
    simp [World.Names, World.currentText, h] at hname
  | named content cfg w' hname hload =>
    rw [isActive_ok E path.val hcurrent]
    rcases hpath : configPath content with e | named
    · rw [getConfig_invalid E hpath] at hload
      cases hload
    obtain rfl := configPath_eq_ok hpath
    have hintact : Intact E w named := by
      intro hne
      rw [getConfig_of_ne E hne] at hload
      rcases hfile : w.files named with _ | bytes
      · rw [hfile] at hload
        cases hload
      · rw [hfile] at hload
        exact ⟨bytes, cfg, rfl, (Prod.mk.inj hload).1⟩
    by_cases heq : named = path
    · subst heq
      rw [decide_eq_true rfl]
      exact .active w' hname hintact hregen
    · rw [decide_eq_false fun h => heq (Subtype.ext h)]
      exact .other named w' heq hname hintact hregen
  | blank msg h =>
    rw [isActive_malformed E path.val hcurrent]
    exact .blank h
  | unusable msg named hname hne hfile =>
    rw [isActive_malformed E path.val hcurrent]
    exact .unusable named hne hname hfile
  | undecodable bytes h htext =>
    rw [isActive_raises E path.val hcurrent (by rintro _ _ ⟨⟩)]
    refine .raises _ fun named _ hname => ?_
    simp [World.Names, World.currentText, h, htext] at hname
  | noId content e hname hblank h =>
    obtain ⟨msg, rfl⟩ := configPath_error h
    rw [isActive_raises E path.val hcurrent (by rintro _ _ ⟨⟩)]
    refine .raises _ fun named _ hname' => ?_
    rw [← Option.some.inj (hname'.symm.trans hname), configPath_val] at h
    cases h
  | stray named bytes e hname hfile hparse he =>
    rw [isActive_raises E path.val hcurrent (by rintro _ _ rfl; cases he)]
    refine .raises _ fun named' _ hname' => ?_
    obtain rfl := hname.unique hname'
    refine ⟨by simp [hfile], ?_⟩
    rintro ⟨bytes', msg, cfgId, hfile', hparse'⟩
    obtain rfl : bytes = bytes' := Option.some.inj (hfile.symm.trans hfile')
    rw [hparse] at hparse'
    cases hparse'
    cases he

/-! ## Deleting under the lock -/

theorem unlink_some {path : ConfigId} {w : World} (h : w.files path ≠ none) :
    unlink path w = (.ok (), w.remove path) := by
  unfold unlink
  refine (bind_ok (rfl : Prog.get w = (.ok w, w))).trans ?_
  rcases hfile : w.files path with _ | bytes
  · exact absurd hfile h
  · rfl

theorem unlink_none {path : ConfigId} {w : World} (h : w.files path = none) :
    unlink path w = (.error (.fileNotFound
      s!"No such file or directory: '{String.ofList path.val}.json'"), w) := by
  unfold unlink
  refine (bind_ok (rfl : Prog.get w = (.ok w, w))).trans ?_
  rw [h]
  rfl

/-- A profile that is not the default keeps its file through a reader. -/
theorem Kept.file {w w' : World} (h : Kept E w w') (named : ConfigId)
    (hfile : w.files named ≠ none) :
    w'.files named ≠ none ∨ named = defaultId ∧ w.asides.length < w'.asides.length := by
  by_cases hne : named = defaultId
  · subst hne
    exact or_iff_not_imp_left.2 fun hnone => ⟨rfl, h.moved hfile (not_not.1 hnone)⟩
  · rw [h.files named hne]
    exact Or.inl hfile

theorem remove_files_ne {w : World} {named path : ConfigId} (h : named ≠ path) :
    (w.remove path).files named = w.files named := by
  simp [World.remove, h]

/-- The answer `False` of `is_active` leads to the deletion of the file. -/
theorem deleteConfigLocked_inactive {path : ConfigId} {force : Bool} {w w' : World}
    (h : isActive E path.val w = (.ok false, w')) :
    deleteConfigLocked E path force w = (do unlink path; return true : Store Bool) w' :=
  bind_ok h

theorem deleteConfigLocked_active {path : ConfigId} {w w' : World}
    (h : isActive E path.val w = (.ok true, w')) :
    deleteConfigLocked E path false w = (.error (.configActive
      s!"Cannot delete active configuration {String.ofList path.val}."), w') :=
  (bind_ok h).trans rfl

theorem deleteConfigLocked_raises {path : ConfigId} {force : Bool} {e : Exc} {w w' : World}
    (h : isActive E path.val w = (.error e, w')) :
    deleteConfigLocked E path force w = (.error e, w') :=
  bind_error h

/-- A forced deletion of the active profile that completes has recorded `default`. -/
theorem deleteConfigLocked_forced {path : ConfigId} {w w' : World}
    (h : isActive E path.val w = (.ok true, w')) :
    Ends (deleteConfigLocked E path true) w fun r w'' =>
      ∀ deleted, r = .ok deleted → w''.Names defaultId.val := by
  unfold deleteConfigLocked
  rw [ends_bind_ok h]
  change Ends (deactivateConfigLocked E path.val false >>= fun _ => do
    unlink path
    return true) w' _
  rw [ends_bind]
  refine (deactivateConfigLocked_ends path.val w').mono fun r w₂ hnames => ?_
  rcases r with e | u
  · rintro _ ⟨⟩
  by_cases hfile : w₂.files path = none
  · rw [ends_bind_error (unlink_none hfile)]
    rintro _ ⟨⟩
  · rw [ends_bind_ok (unlink_some hfile), ends_pure]
    exact fun _ _ => hnames u rfl

/-- The promise, for the body under the lock. -/
def KeepsPromise (force : Bool) (w : World) (r : Except Exc Bool) (w' : World) : Prop :=
  (force = false → ∀ named : ConfigId, w.Names named.val → w.files named ≠ none →
    w'.files named ≠ none ∨ named = defaultId ∧ w.asides.length < w'.asides.length) ∧
    ∀ deleted, r = .ok deleted → ¬Stranded w'

/-- A reader that does not get to the deletion keeps the promise. -/
theorem KeepsPromise.of_error {force : Bool} {w w' : World} {e : Exc} (h : Kept E w w') :
    KeepsPromise force w (.error e) w' :=
  ⟨fun _ named _ hfile => h.file named hfile, by rintro _ ⟨⟩⟩

/-- Deleting the file of a profile that `current.txt` does not name. -/
theorem unlink_keepsPromise {path : ConfigId} {force : Bool} {w w' : World} (h : Kept E w w')
    (hnames : ∀ named : ConfigId, w.Names named.val → named = path → w.files path = none)
    (hstranded : ∀ named : ConfigId, named ≠ defaultId → w.Names named.val → w'.files path ≠ none →
      w.files named ≠ none) :
    Ends (do unlink path; return true) w' (KeepsPromise force w) := by
  by_cases hfile : w'.files path = none
  · rw [ends_bind_error (unlink_none hfile)]
    exact .of_error h
  rw [ends_bind_ok (unlink_some hfile), ends_pure]
  refine ⟨fun _ named hname hnamed => ?_, ?_⟩
  · have hne : named ≠ path := fun heq => hnamed (heq ▸ hnames named hname heq)
    rw [remove_files_ne hne]
    exact h.file named hnamed
  · rintro _ ⟨⟩ ⟨named, hdefault, hname, hnone⟩
    have hname' : w.Names named.val := h.currentText.symm.trans hname
    have hnamed := hstranded named hdefault hname' hfile
    have hne : named ≠ path := fun heq => hnamed (heq ▸ hnames named hname' heq)
    rw [remove_files_ne hne, h.files named hdefault] at hnone
    exact hnamed hnone

theorem deleteConfigLocked_ends {path : ConfigId} {force : Bool} {w : World}
    (hsafe : w.files path ≠ none → ∀ named : ConfigId, named ≠ defaultId → w.Names named.val →
      ¬if named = path then Malformed E w path else w.files named = none) :
    Ends (deleteConfigLocked E path force) w (KeepsPromise force w) := by
  have hanswer := isActive_answer (E := E) path w
  rcases hactive : isActive E path.val w with ⟨r, w'⟩
  rw [hactive] at hanswer
  cases hanswer with
  | active w' hname hintact hregen =>
    cases force with
    | false =>
      rw [Ends, deleteConfigLocked_active hactive]
      exact .of_error hregen.toKept
    | true =>
      refine (deleteConfigLocked_forced hactive).mono fun r w'' h => ⟨by rintro ⟨⟩, fun _ hr => ?_⟩
      exact not_stranded_of_default (h _ hr)
  | other named w' hne hname hintact hregen =>
    rw [Ends, deleteConfigLocked_inactive hactive]
    refine unlink_keepsPromise hregen.toKept (fun named' hname' heq => ?_)
      fun named' hdefault hname' _ => ?_
    · exact absurd ((hname.unique hname').trans heq) hne
    · obtain rfl := hname.unique hname'
      exact (hintact.file hdefault).1
  | blank h =>
    rw [Ends, deleteConfigLocked_inactive hactive]
    have hnone (named : ConfigId) (hname : w.Names named.val) : False :=
      named.ne_nil (Option.some.inj (hname.symm.trans h))
    exact unlink_keepsPromise (Kept.refl (E := E) w) (fun named hname _ => (hnone named hname).elim)
      fun named _ hname _ => (hnone named hname).elim
  | unusable named hdefault hname hfile =>
    rw [Ends, deleteConfigLocked_inactive hactive]
    refine unlink_keepsPromise (Kept.refl (E := E) w) (fun named' hname' heq => ?_)
      fun named' _ hname' hpath => ?_
    · obtain rfl := hname.unique hname'
      subst heq
      refine not_not.1 fun hpath => hsafe hpath named hdefault hname ?_
      rw [if_pos rfl]
      exact hfile.resolve_left hpath
    · obtain rfl := hname.unique hname'
      have hnot := hsafe hpath named hdefault hname
      split_ifs at hnot with heq
      · exact heq ▸ hpath
      · exact hnot
  | raises e h =>
    rw [Ends, deleteConfigLocked_raises hactive]
    exact .of_error (Kept.refl (E := E) w)

/-! ## The promise of `delete_config` -/

/-- In a state of `Strands` the file is deleted and `current.txt` is left as it is. -/
theorem deleteConfigLocked_strands {path named : ConfigId} {force : Bool} {w : World}
    (hfile : w.files path ≠ none) (hdefault : named ≠ defaultId) (hname : w.Names named.val)
    (hnamed : if named = path then Malformed E w path else w.files named = none) :
    deleteConfigLocked E path force w = (.ok true, w.remove path) := by
  have hlost : w.files named ≠ none → Malformed E w named := by
    intro h
    split_ifs at hnamed with heq
    · exact heq ▸ hnamed
    · exact absurd hnamed h
  have hanswer := isActive_answer (E := E) path w
  rcases hactive : isActive E path.val w with ⟨r, w'⟩
  rw [hactive] at hanswer
  cases hanswer with
  | active w' hname' hintact hregen =>
    obtain rfl := hname.unique hname'
    exact absurd (hlost hfile) (hintact.file hdefault).2
  | other named' w' hne hname' hintact hregen =>
    obtain rfl := hname.unique hname'
    exact absurd (hlost (hintact.file hdefault).1) (hintact.file hdefault).2
  | blank h => exact absurd (Option.some.inj (hname.symm.trans h)) named.ne_nil
  | unusable named' hne hname' hfile' =>
    rw [deleteConfigLocked_inactive hactive]
    exact (bind_ok (unlink_some hfile)).trans rfl
  | raises e h => exact absurd (hlost (h named hdefault hname).1) (h named hdefault hname).2

theorem deleteConfig_path (path : ConfigId) (force : Bool) (w : World) :
    deleteConfig E path.val force w = networkChangeLock (deleteConfigLocked E path force) w := by
  unfold deleteConfig
  rw [configPath_val]
  rfl

/-- `delete_config` keeps its promise exactly outside the states of `Strands`. -/
theorem deleteConfig_safe_iff (E : Env) (cfgId : Text) (force : Bool) (w : World) :
    DeletesSafely E cfgId force w ↔ ∀ path, configPath cfgId = .ok path → ¬Strands E path w := by
  constructor
  · rintro h path hpath ⟨hlock, hfile, named, hdefault, hname, hnamed⟩
    obtain rfl := configPath_eq_ok hpath
    have hbody : deleteConfigLocked E path force { w with locked := true } =
        (.ok true, { w with locked := true }.remove path) :=
      deleteConfigLocked_strands hfile hdefault hname hnamed
    have hstrands := h.neverStrands
    rw [Ends, deleteConfig_path, networkChangeLock_free hlock hbody] at hstrands
    refine hstrands true rfl ⟨named, hdefault, hname, ?_⟩
    by_cases heq : named = path
    · simp [World.remove, heq]
    · rw [if_neg heq] at hnamed
      simpa [World.remove, heq] using hnamed
  · intro hsafe
    rcases hpath : configPath cfgId with e | path
    · have hraise : deleteConfig E cfgId force w = (.error e, w) := by
        unfold deleteConfig
        rw [hpath]
        rfl
      refine ⟨fun _ named _ hfile => ?_, ?_⟩
      · rw [Ends, hraise]
        exact Or.inl hfile
      · rw [Ends, hraise]
        rintro _ ⟨⟩
    have hstrands := hsafe path hpath
    obtain rfl := configPath_eq_ok hpath
    have hkeeps : Ends (networkChangeLock (deleteConfigLocked E path force)) w
        (KeepsPromise force w) := by
      refine networkChangeLock_ends (fun _ msg => .of_error (Kept.refl (E := E) w)) fun hlock => ?_
      refine deleteConfigLocked_ends fun hfile named hdefault hname hnamed => ?_
      exact hstrands ⟨hlock, hfile, named, hdefault, hname, hnamed⟩
    rw [Ends, ← deleteConfig_path] at hkeeps
    exact ⟨fun hforce named hname hfile => hkeeps.1 hforce named hname hfile, hkeeps.2⟩

/-- The outcome of a reader that found the file malformed. -/
def isMalformed {α : Type} : Except Exc α → Bool
  | .error (.configMalformed _ _) => true
  | _ => false

/-- `lab` is in force and its file was cut short: an unforced deletion removes it. -/
theorem not_deletesSafely_lab : ¬DeletesSafely bareEnv labId.val false
    { labWorld (Text.encode "lab".toList) with
      files :=
        Function.update (fun _ => none) labId (some (Text.encode "\x7b\"id\"".toList)) } := by
  intro h
  have hfile : (Function.update (fun _ => none) labId (some (Text.encode "\x7b\"id\"".toList)) :
      ConfigId → Option Bytes) labId = some (Text.encode "\x7b\"id\"".toList) := by simp
  have hname : (labWorld (Text.encode "lab".toList)).Names labId.val := by decide +kernel
  have hmalformed :
      isMalformed (parseConfig bareEnv labId (Text.encode "\x7b\"id\"".toList)) = true := by
    decide +kernel
  have hbody := @deleteConfigLocked_strands bareEnv labId labId false
    { labWorld (Text.encode "lab".toList) with
      locked := true
      files := Function.update (fun _ => none) labId (some (Text.encode "\x7b\"id\"".toList)) }
    (by simp) (by decide) hname (by
      rw [if_pos rfl]
      unfold isMalformed at hmalformed
      split at hmalformed
      · rename_i hparse
        exact ⟨_, _, _, hfile, hparse⟩
      · cases hmalformed)
  have hkept := h.keepsActive rfl labId hname (by simp)
  rw [Ends, deleteConfig_path, networkChangeLock_free rfl hbody] at hkept
  simp [World.remove] at hkept

end WlanpiCore
