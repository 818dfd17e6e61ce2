import WlanpiCore.Config.Effects

/-!
# Recovery of the profile store

**Theorem (`recovers_iff`).** The store recovers exactly when no byte in it causes an exception
that no reader handles (`Recoverable`): `current.txt` decodes and is blank or holds an id whose
file is missing or readable, and `default.json` is missing or readable.

`Recovers` is the guarantee: what `get_current_config` and `recover_current_config` may raise and
leave behind, that `default` always loads, and that `activate_config` and `revert_all` fail for no
reason of the store's own. Of pydantic the proof uses that a profile loads again that was dumped
when `default.json` was regenerated (`Env.DumpsProfiles`); it has no integers.
-/

namespace WlanpiCore

open Prog

variable (E : Env)

/-- What `model_dump_json` writes of a regenerated profile is read as a profile again. -/
structure Env.DumpsProfiles (E : Env) : Prop where
  loads : ∀ cfg : NetConfig, cfg.Valid → cfg.Plain →
    ∃ cfg', parseConfig E defaultId (Text.encode (E.dumpJson cfg)) = .ok cfg'

/-- `get_config` returns a profile for this id. -/
def Loads (w : World) (cfgId : Text) : Prop := ∃ cfg w', getConfig E cfgId w = (.ok cfg, w')

/-- The profile to activate cannot be read: it has no id, no file, or no profile in its file. -/
inductive TargetFails (w : World) (cfgId : Text) : Exc → Prop where
  | noId {e : Exc} (h : configPath cfgId = .error e) : TargetFails w cfgId e
  | noFile {path : ConfigId} {msg : String} (h : configPath cfgId = .ok path)
      (hne : path ≠ defaultId) (hfile : w.files path = none) :
        TargetFails w cfgId (.fileNotFound msg)
  | noProfile {path : ConfigId} {bytes : Bytes} {e : Exc} (h : configPath cfgId = .ok path)
      (hne : path ≠ defaultId) (hfile : w.files path = some bytes)
      (hparse : parseConfig E path bytes = .error e) : TargetFails w cfgId e

/-- What `activate_config` may raise in a store that recovers. -/
inductive Excused (w : World) (cfgId : Text) : Exc → Prop where
  | active (msg : String) : Excused w cfgId (.configActive msg)
  | busy (msg : String) : Excused w cfgId (.configBusy msg)
  | service {e : Exc} (h : ServiceRaises E e) : Excused w cfgId e
  | target {e : Exc} (h : TargetFails E w cfgId e) : Excused w cfgId e

/-- The recovery guarantee of the store. -/
structure Recovers (w : World) : Prop where
  current : Ends (getCurrentConfig E) w fun r w' =>
    (∀ cfgId, r = .ok cfgId → Loads E w' cfgId) ∧ ∀ e, r = .error e → e.Handled
  recover : Ends (recoverCurrentConfig E) w fun r w' =>
    (∀ e, r = .error e → e.Handled) ∧
      (w'.current = none ∨ (∃ cfgId, w'.Names cfgId ∧ Loads E w' cfgId) ∨
        w'.current = some (Text.encode defaultId.val))
  default : Ends (getConfig E defaultId.val) w fun r _ => ∃ cfg, r = .ok cfg ∧ cfg.Valid
  activate : ∀ cfgId overrideActive, Ends (activateConfig E cfgId overrideActive) w fun r _ =>
    ∀ e, r = .error e → Excused E w cfgId e
  revertAll : Ends (revertAll E) w fun r _ =>
    ∀ e, r = .error e → (∃ msg, e = .configBusy msg) ∨ ServiceRaises E e

/-- Reading the profile of an id raises nothing that its callers do not handle. -/
def Sound (w : World) (cfgId : Text) : Prop :=
  ∀ path bytes, configPath cfgId = .ok path → w.files path = some bytes → Readable E bytes

/-- No byte in the store causes an exception that no reader handles. -/
structure Recoverable (w : World) : Prop where
  current : ∀ bytes, w.current = some bytes → ∃ text, Text.readText bytes = some text ∧
    (Text.strip text = [] ∨
      (∃ path, configPath (Text.strip text) = .ok path) ∧ Sound E w (Text.strip text))
  default : Sound E w defaultId.val

/-! ## Regeneration keeps the store readable -/

variable {E}

theorem Env.DumpsProfiles.readable (h : E.DumpsProfiles) {cfg : NetConfig} (hvalid : cfg.Valid)
    (hplain : cfg.Plain) : Readable E (Text.encode (E.dumpJson cfg)) := by
  refine (readable_iff E defaultId _).2 fun e he => ?_
  obtain ⟨cfg', hcfg'⟩ := h.loads cfg hvalid hplain
  rw [hcfg'] at he
  cases he

theorem Sound.kept (hdump : E.DumpsProfiles) {w w' : World} {cfgId : Text}
    (h : Sound E w cfgId) (hkept : Kept E w w') : Sound E w' cfgId := by
  intro path bytes hpath hfile
  by_cases hne : path = defaultId
  · subst hne
    rcases hkept.default with hsame | hnone | ⟨cfg, hvalid, hplain, hcfg⟩
    · exact h _ _ hpath (hsame ▸ hfile)
    · rw [hnone] at hfile
      cases hfile
    · rw [hcfg] at hfile
      cases hfile
      exact hdump.readable hvalid hplain
  · exact h _ _ hpath (hkept.files path hne ▸ hfile)

/-- With a readable file, `get_config` fails only for the reasons of `TargetFails`. -/
theorem getConfig_raises {w : World} (hdefault : Sound E w defaultId.val) (cfgId : Text) :
    Ends (getConfig E cfgId) w fun r _ => ∀ e, r = .error e → TargetFails E w cfgId e := by
  unfold Ends
  cases hpath : configPath cfgId with
  | error e =>
    rw [getConfig_invalid E hpath]
    rintro _ ⟨⟩
    exact .noId hpath
  | ok path =>
    obtain rfl := configPath_eq_ok hpath
    by_cases hne : path = defaultId
    · subst hne
      rcases getConfig_default E w with ⟨⟨cfg, w', hload, -, -⟩, -⟩ |
        ⟨bytes, e, hfile, hparse, hstray, -⟩
      · rw [hload]
        rintro _ ⟨⟩
      · obtain ⟨msg, cfgId, rfl⟩ := (readable_iff E _ _).1 (hdefault _ _ hpath hfile) e hparse
        cases hstray
    · rw [getConfig_of_ne E hne]
      cases hfile : w.files path with
      | none =>
        rintro _ ⟨⟩
        exact .noFile hpath hne hfile
      | some bytes => exact fun e he => .noProfile hpath hne hfile he

/-- The failures of `TargetFails` are the ones `_teardown_profile` handles, if the file is
readable. -/
theorem TargetFails.handled {w : World} {cfgId : Text} {e : Exc} (h : TargetFails E w cfgId e)
    (hsound : Sound E w cfgId) : e.Handled ∨ ∃ msg status, e = .validation msg status := by
  cases h with
  | noId h =>
    obtain ⟨msg, rfl⟩ := configPath_error h
    exact Or.inr ⟨msg, 400, rfl⟩
  | noFile h hne hfile => exact Or.inl (.fileNotFound _)
  | noProfile h hne hfile hparse =>
    obtain ⟨msg, cfgId, rfl⟩ := (readable_iff E _ _).1 (hsound _ _ h hfile) e hparse
    exact Or.inl (.configMalformed _ _)

theorem Recoverable.kept (hdump : E.DumpsProfiles) {w w' : World} (h : Recoverable E w)
    (hkept : Kept E w w') : Recoverable E w' := by
  refine ⟨fun bytes hbytes => ?_, h.default.kept hdump hkept⟩
  obtain ⟨text, htext, hcontent⟩ := h.current bytes (hkept.current ▸ hbytes)
  exact ⟨text, htext, hcontent.imp id fun ⟨hpath, hsound⟩ => ⟨hpath, hsound.kept hdump hkept⟩⟩

/-! ## The readers of `current.txt` -/

/-- The id in `current.txt` has a readable file. -/
theorem Recoverable.named {w : World} (h : Recoverable E w) {content : Text}
    (hname : w.Names content) (hblank : content ≠ []) :
    (∃ path, configPath content = .ok path) ∧ Sound E w content := by
  obtain ⟨bytes, text, hbytes, htext, rfl⟩ : ∃ bytes text, w.current = some bytes ∧
      Text.readText bytes = some text ∧ Text.strip text = content := by
    simpa [World.Names, World.currentText, Option.bind_eq_some_iff] using hname
  obtain ⟨text', htext', hcontent⟩ := h.current bytes hbytes
  obtain rfl : text = text' := Option.some.inj (htext.symm.trans htext')
  exact hcontent.resolve_left hblank

/-- A profile that loaded loads again. -/
theorem Loads.again (hdump : E.DumpsProfiles) {w w' : World} {content : Text} {cfg : NetConfig}
    (hdefault : Sound E w defaultId.val) (hload : getConfig E content w = (.ok cfg, w')) :
    Loads E w' content := by
  have hregen := getConfig_regenerated E content w
  rw [Ends, hload] at hregen
  have hsound := hdefault.kept hdump hregen.toKept
  rcases hpath : configPath content with e | path
  · rw [getConfig_invalid E hpath] at hload
    cases hload
  obtain rfl := configPath_eq_ok hpath
  by_cases hne : path = defaultId
  · subst hne
    rcases getConfig_default E w' with ⟨⟨cfg', w'', hload', -, -⟩, -⟩ |
      ⟨bytes, e, hfile, hparse, hstray, -⟩
    · exact ⟨cfg', w'', hload'⟩
    · obtain ⟨msg, cfgId, rfl⟩ := (readable_iff E _ _).1 (hsound _ _ hpath hfile) e hparse
      cases hstray
  · rw [getConfig_of_ne E hne] at hload
    obtain ⟨hcfg, rfl⟩ := Prod.mk.inj hload
    exact ⟨cfg, w, by rw [getConfig_of_ne E hne, hcfg]⟩

theorem Recoverable.getCurrentConfig_ends (hdump : E.DumpsProfiles) {w : World}
    (h : Recoverable E w) : Ends (getCurrentConfig E) w fun r w' =>
      (∀ cfgId, r = .ok cfgId → w.Names cfgId ∧ Loads E w' cfgId) ∧
        ∀ e, r = .error e → e.Handled := by
  have hread := getCurrentConfig_reading E w
  unfold Ends
  generalize getCurrentConfig E w = p at hread ⊢
  cases hread with
  | absent msg hcurrent =>
    refine ⟨by rintro _ ⟨⟩, ?_⟩
    rintro _ ⟨⟩
    exact .fileNotFound msg
  | named content cfg w' hname hload =>
    refine ⟨?_, by rintro _ ⟨⟩⟩
    rintro _ ⟨⟩
    exact ⟨hname, Loads.again hdump h.default hload⟩
  | blank msg hname =>
    refine ⟨by rintro _ ⟨⟩, ?_⟩
    rintro _ ⟨⟩
    exact .configMalformed msg _
  | unusable msg path hname hne hfile =>
    refine ⟨by rintro _ ⟨⟩, ?_⟩
    rintro _ ⟨⟩
    exact .configMalformed msg _
  | undecodable bytes hcurrent htext =>
    obtain ⟨text, htext', -⟩ := h.current bytes hcurrent
    rw [htext] at htext'
    cases htext'
  | noId content e hname hblank hpath =>
    obtain ⟨⟨path, hpath'⟩, -⟩ := h.named hname hblank
    rw [hpath] at hpath'
    cases hpath'
  | stray path bytes e hname hfile hparse hstray =>
    obtain ⟨-, hsound⟩ := h.named hname path.ne_nil
    obtain ⟨msg, cfgId, rfl⟩ :=
      (readable_iff E path bytes).1 (hsound path bytes (configPath_val path) hfile) e hparse
    cases hstray

/-- Exceptions that get past `get_current_config` are the ones `Recoverable` excludes. -/
theorem recoverable_current {w : World}
    (h : Ends (getCurrentConfig E) w fun r _ => ∀ e, r = .error e → e.Handled) :
    ∀ bytes, w.current = some bytes → ∃ text, Text.readText bytes = some text ∧
      (Text.strip text = [] ∨
        (∃ path, configPath (Text.strip text) = .ok path) ∧ Sound E w (Text.strip text)) := by
  intro bytes hbytes
  unfold Ends at h
  rcases htext : Text.readText bytes with _ | text
  · rw [getCurrentConfig_undecodable E hbytes htext] at h
    cases h _ rfl
  refine ⟨text, rfl, or_iff_not_imp_left.2 fun hblank => ?_⟩
  rw [getCurrentConfig_content E hbytes htext hblank] at h
  rcases hpath : configPath (Text.strip text) with e | path
  · obtain ⟨msg, rfl⟩ := configPath_error hpath
    rw [checkCurrent_stray E (getConfig_invalid E hpath w) (by rintro ⟨⟩)] at h
    cases h _ rfl
  refine ⟨⟨path, rfl⟩, fun path' bytes' hpath' hfile => ?_⟩
  refine (readable_iff E path' bytes').2 fun e hparse => ?_
  obtain rfl : path = path' := Except.ok.inj (hpath.symm.trans hpath')
  rw [← configPath_eq_ok hpath] at h
  rcases parseConfig_error E hparse with ⟨msg, rfl⟩ | hstray
  · exact ⟨msg, _, rfl⟩
  have hload : getConfig E path.val w = (.error e, w) := by
    by_cases hne : path = defaultId
    · subst hne
      rcases getConfig_default E w with ⟨-, hreadable⟩ | ⟨bytes'', e', hfile', hparse', -, hload⟩
      · obtain ⟨msg, cfgId, rfl⟩ := (readable_iff E _ _).1 (hreadable _ hfile) e hparse
        cases hstray
      · obtain rfl : bytes' = bytes'' := Option.some.inj (hfile.symm.trans hfile')
        rw [hparse] at hparse'
        cases hparse'
        exact hload
    · rw [getConfig_of_ne E hne, hfile]
      simp only [hparse]
  rw [checkCurrent_stray E hload hstray.not_handled] at h
  exact absurd (h _ rfl) hstray.not_handled

theorem Recoverable.recoverCurrentConfig_ends (hdump : E.DumpsProfiles) {w : World}
    (h : Recoverable E w) : Ends (recoverCurrentConfig E) w fun r w' =>
      (∀ e, r = .error e → e.Handled) ∧
        (w'.current = none ∨ (∃ cfgId, w'.Names cfgId ∧ Loads E w' cfgId) ∨
          w'.current = some (Text.encode defaultId.val)) := by
  have hread := getCurrentConfig_reading E w
  have hends := (h.getCurrentConfig_ends hdump).and (getCurrentConfig_regenerated E w)
  -- A malformed `current.txt` is rewritten.
  have hreset (msg : String) (cfgId : Option Text) :
      Ends (do revertCurrentConfigToDefault
               raise (.configMalformed msg cfgId) : Store Text) w fun r w' =>
        (∀ e, r = .error e → e.Handled) ∧
          (w'.current = none ∨ (∃ cfgId, w'.Names cfgId ∧ Loads E w' cfgId) ∨
            w'.current = some (Text.encode defaultId.val)) := by
    refine ⟨?_, Or.inr (Or.inr rfl)⟩
    rintro _ ⟨⟩
    exact .configMalformed msg cfgId
  unfold recoverCurrentConfig
  rw [ends_attempt]
  unfold Ends at hends ⊢
  generalize getCurrentConfig E w = p at hread hends ⊢
  obtain ⟨⟨hok, herror⟩, hregen⟩ := hends
  cases hread with
  | absent msg hcurrent =>
    refine ⟨?_, Or.inl hcurrent⟩
    rintro _ ⟨⟩
    exact .fileNotFound msg
  | named content cfg w' hname hload =>
    refine ⟨by rintro _ ⟨⟩, Or.inr (Or.inl ⟨content, ?_, (hok content rfl).2⟩)⟩
    exact hregen.toKept.currentText.trans hname
  | blank msg hname => exact hreset _ _
  | unusable msg path hname hne hfile => exact hreset _ _
  | undecodable bytes hcurrent htext => cases herror _ rfl
  | noId content e hname hblank hpath =>
    obtain ⟨msg, rfl⟩ := configPath_error hpath
    cases herror _ rfl
  | stray path bytes e hname hfile hparse hstray => exact absurd (herror e rfl) hstray.not_handled

/-! ## Tearing down, activating and reverting -/

theorem Recoverable.teardownProfile_ends {w : World} {cfgId : Text} (hsound : Sound E w cfgId)
    (hdefault : Sound E w defaultId.val) : Ends (teardownProfile E cfgId) w fun r _ =>
      ∀ e, r = .error e → ServiceRaises E e := by
  unfold Ends
  rcases teardownProfile_cases E cfgId w with ⟨e, w₁, hload, he, hdown⟩ | ⟨w₁, entries, -, -, hdown⟩
  · have hfails := getConfig_raises hdefault cfgId
    rw [Ends, hload] at hfails
    rcases (hfails e rfl).handled hsound with hhandled | ⟨msg, status, rfl⟩
    · exact absurd (.handled hhandled) he
    · exact absurd (.validation msg status) he
  · rw [hdown]
    exact fun e he => ⟨.revertToRoot, _, he⟩

theorem Recoverable.activeOrDefault_ends (hdump : E.DumpsProfiles) {w : World}
    (h : Recoverable E w) : Ends (activeOrDefault E) w fun r w' =>
      (∀ e, r ≠ .error e) ∧
        ∀ active, r = .ok active → Sound E w' active ∧ Sound E w' defaultId.val := by
  have hread := activeOrDefault_reading E w
  have hends := h.getCurrentConfig_ends hdump
  unfold Ends at hends ⊢
  generalize activeOrDefault E w = p at hread ⊢
  cases hread with
  | absent hcurrent =>
    refine ⟨by rintro _ ⟨⟩, ?_⟩
    rintro _ ⟨⟩
    exact ⟨h.default, h.default⟩
  | named content cfg w' hname hload =>
    have hregen := getConfig_regenerated E content w
    rw [Ends, hload] at hregen
    refine ⟨by rintro _ ⟨⟩, ?_⟩
    rintro _ ⟨⟩
    refine ⟨?_, h.default.kept hdump hregen.toKept⟩
    by_cases hblank : content = []
    · rw [getConfig_invalid E (e := .validation _ 400) (by subst hblank; rfl)] at hload
      cases hload
    · exact (h.named hname hblank).2.kept hdump hregen.toKept
  | reset hunusable =>
    refine ⟨by rintro _ ⟨⟩, ?_⟩
    rintro _ ⟨⟩
    exact ⟨h.default, h.default⟩
  | escaped e he hcurrent =>
    rw [hcurrent] at hends
    exact absurd (hends.2 e rfl) he

theorem Recoverable.activateConfigLocked_ends (hdump : E.DumpsProfiles) {w : World}
    (h : Recoverable E w) (cfgId : Text) (overrideActive : Bool) :
    Ends (activateConfigLocked E cfgId overrideActive) w fun r _ =>
      ∀ e, r = .error e → Excused E w cfgId e := by
  unfold activateConfigLocked
  rcases beginActivation_cases E cfgId overrideActive w with ⟨e, w₀, hload, hbegin⟩ |
    ⟨cfg, w₀, hload, ⟨e, w₁, hactive, hbegin⟩ | ⟨active, w₁, hactive, ⟨msg, hbegin⟩ | hbegin⟩⟩
  · have hfails := getConfig_raises h.default cfgId
    rw [Ends, hload] at hfails
    rw [ends_bind_error hbegin]
    rintro _ ⟨⟩
    exact .target (hfails e rfl)
  all_goals
    have hregen := getConfig_regenerated E cfgId w
    rw [Ends, hload] at hregen
    have hends := (h.kept hdump hregen.toKept).activeOrDefault_ends hdump
    rw [Ends, hactive] at hends
  · exact absurd rfl (hends.1 e)
  · rw [ends_bind_error hbegin]
    rintro _ ⟨⟩
    exact .active msg
  obtain ⟨hsound, hdefault⟩ := hends.2 active rfl
  rw [ends_bind_ok hbegin]
  dsimp only
  rw [ends_bind]
  refine (invalidEntries_ends E _ cfg.entries w₁).mono ?_
  rintro r w₂ ⟨hcalled, hraise, -⟩
  have hregen' : Regenerated E w₁ w₂ := hcalled.regenerated
  have hsound' := hsound.kept hdump hregen'.toKept
  have hdefault' := hdefault.kept hdump hregen'.toKept
  rcases r with e | invalidOutcomes
  · rintro _ ⟨⟩
    exact .service (hraise e rfl)
  dsimp only
  split_ifs with hinvalid heq
  · -- The active profile went invalid.
    subst heq
    rw [ends_bind, ends_ensuring]
    refine (Recoverable.teardownProfile_ends hsound' hdefault').mono fun r w₃ hraise' => ?_
    rcases r with e | u
    · rintro _ ⟨⟩
      exact .service (hraise' e rfl)
    · rintro _ ⟨⟩
  · rintro _ ⟨⟩
  · unfold clearOldProfile
    rw [ends_bind, ends_bind]
    refine (Recoverable.teardownProfile_ends hsound' hdefault').mono fun r w₃ hraise' => ?_
    obtain ⟨path, hpath⟩ : ∃ path, configPath cfgId = .ok path := by
      rcases hpath : configPath cfgId with e | path
      · rw [getConfig_invalid E hpath] at hload
        cases hload
      · exact ⟨path, rfl⟩
    obtain rfl := configPath_eq_ok hpath
    have happly (w₄ : World) : Ends (applyOrRollback E path.val cfg) w₄ fun r _ =>
        ∀ e, r = .error e → Excused E w path.val e := by
      refine (applyOrRollback_ends E path cfg w₄).mono ?_
      rintro r w₅ ⟨_, _, _, _, _, herror⟩ e he
      exact .service (herror e he).2.1
    rcases r with e | u
    · rintro _ ⟨⟩
      exact .service (hraise' e rfl)
    dsimp only
    cases overrideActive with
    | false => exact happly w₃
    | true =>
      simp only [if_true]
      rw [ends_call]
      cases hkill : E.service .killAllSupplicants _ with
      | error e =>
        rintro _ ⟨⟩
        exact .service ⟨_, _, hkill⟩
      | ok u => exact happly _

theorem Recoverable.revertAllLocked_ends (hdump : E.DumpsProfiles) {w : World}
    (h : Recoverable E w) : Ends (revertAllLocked E) w fun r _ =>
      ∀ e, r = .error e → ServiceRaises E e := by
  have hends := (h.getCurrentConfig_ends hdump).and (getCurrentConfig_regenerated E w)
  unfold revertAllLocked
  rw [ends_bind, ends_attempt]
  refine hends.mono fun r w₁ ⟨⟨hok, herror⟩, hregen⟩ => ?_
  have hrecoverable := h.kept hdump hregen.toKept
  have hdown (active : Text) (hsound : Sound E w₁ active) :
      Ends (do teardownProfile E active; writeCurrent defaultId.val : Store Unit) w₁ fun r _ =>
        ∀ e, r = .error e → ServiceRaises E e := by
    rw [ends_bind]
    refine (Recoverable.teardownProfile_ends hsound hrecoverable.default).mono fun r w₂ hraise => ?_
    rcases r with e | u
    · exact hraise
    · rintro _ ⟨⟩
  rcases r with e | content
  · rcases herror e rfl with msg | ⟨msg, cfgId⟩ <;> exact hdown _ hrecoverable.default
  · obtain ⟨hname, -⟩ := hok content rfl
    refine hdown content ?_
    by_cases hblank : content = []
    · subst hblank
      intro path bytes hpath
      cases hpath
    · exact (hrecoverable.named (by rwa [World.Names, hregen.currentText]) hblank).2

/-! ## The guarantee -/

theorem Excused.locked {w : World} {cfgId : Text} {e : Exc}
    (h : Excused E { w with locked := true } cfgId e) : Excused E w cfgId e := by
  cases h with
  | active msg => exact .active msg
  | busy msg => exact .busy msg
  | service h => exact .service h
  | target h =>
    refine .target ?_
    cases h with
    | noId h => exact .noId h
    | noFile h hne hfile => exact .noFile h hne hfile
    | noProfile h hne hfile hparse => exact .noProfile h hne hfile hparse

theorem Recoverable.locked {w : World} (h : Recoverable E w) :
    Recoverable E { w with locked := true } :=
  ⟨h.current, h.default⟩

theorem Recoverable.recovers (hdump : E.DumpsProfiles) {w : World} (h : Recoverable E w) :
    Recovers E w where
  current := (h.getCurrentConfig_ends hdump).mono fun _ _ ⟨hok, herror⟩ =>
    ⟨fun cfgId hr => (hok cfgId hr).2, herror⟩
  recover := h.recoverCurrentConfig_ends hdump
  default := by
    rcases getConfig_default E w with ⟨⟨cfg, w', hload, hvalid, -⟩, -⟩ |
      ⟨bytes, e, hfile, hparse, hstray, -⟩
    · rw [Ends, hload]
      exact ⟨cfg, rfl, hvalid⟩
    · obtain ⟨msg, cfgId, rfl⟩ :=
        (readable_iff E _ _).1 (h.default _ _ (configPath_val _) hfile) e hparse
      cases hstray
  activate cfgId overrideActive := by
    unfold activateConfig activateConfigReport
    rw [ends_bind]
    refine networkChangeLock_ends (fun _ msg => ?_) fun _ => ?_
    · rintro _ ⟨⟩
      exact .busy msg
    · refine (h.locked.activateConfigLocked_ends hdump cfgId overrideActive).mono
        fun r w' hraise => ?_
      rcases r with e | report
      · rintro _ ⟨⟩
        exact (hraise e rfl).locked
      · rintro _ ⟨⟩
  revertAll := by
    refine networkChangeLock_ends (fun _ msg => ?_) fun _ => ?_
    · rintro _ ⟨⟩
      exact Or.inl ⟨msg, rfl⟩
    · exact (h.locked.revertAllLocked_ends hdump).mono fun r w' hraise e he => Or.inr (hraise e he)

/-- The store recovers exactly when no byte in it causes an exception that no reader handles. -/
theorem recovers_iff (hdump : E.DumpsProfiles) (w : World) : Recovers E w ↔ Recoverable E w := by
  refine ⟨fun h => ⟨recoverable_current (h.current.mono fun r w' hr => hr.2), ?_⟩,
    fun h => h.recovers hdump⟩
  intro path bytes hpath hfile
  obtain rfl : defaultId = path := Except.ok.inj ((configPath_val _).symm.trans hpath)
  have hdefault := h.default
  rcases getConfig_default E w with ⟨-, hreadable⟩ | ⟨bytes', e', -, -, -, hload⟩
  · exact hreadable bytes hfile
  · rw [Ends, hload] at hdefault
    obtain ⟨cfg, hcfg, -⟩ := hdefault
    cases hcfg

/-! ## A store that recovers, and two that do not -/

theorem Readable.of_isOk (path : ConfigId) {bytes : Bytes}
    (h : (parseConfig E path bytes).isOk = true) : Readable E bytes := by
  refine (readable_iff E path bytes).2 fun e he => ?_
  rw [he] at h
  cases h

theorem bareEnv_dumpsProfiles : bareEnv.DumpsProfiles where
  loads cfg _ _ := by
    have hok : (parseConfig bareEnv defaultId
        (Text.encode (bareEnv.dumpJson ⟨defaultId, none, none⟩))).isOk = true := by decide +kernel
    change (parseConfig bareEnv defaultId (Text.encode (bareEnv.dumpJson cfg))).isOk = true at hok
    rcases hparse : parseConfig bareEnv defaultId (Text.encode (bareEnv.dumpJson cfg)) with e | cfg'
    · rw [hparse] at hok
      cases hok
    · exact ⟨cfg', rfl⟩

theorem recovers_lab : Recovers bareEnv (labWorld (Text.encode "lab\n".toList)) := by
  have hstrip : Text.strip "lab\n".toList = labId.val := by decide +kernel
  refine (recovers_iff bareEnv_dumpsProfiles _).2 ⟨fun bytes h => ?_, fun path bytes hpath h => ?_⟩
  · obtain rfl := Option.some.inj h
    refine ⟨"lab\n".toList, by decide +kernel, Or.inr ?_⟩
    rw [hstrip]
    refine ⟨⟨labId, configPath_val _⟩, fun path bytes hpath h => ?_⟩
    obtain rfl : labId = path := Except.ok.inj ((configPath_val _).symm.trans hpath)
    obtain rfl : Text.encode "\x7b\"id\": \"lab\"\x7d".toList = bytes := by simpa [labWorld] using h
    exact .of_isOk labId (by decide +kernel)
  · obtain rfl : defaultId = path := Except.ok.inj ((configPath_val _).symm.trans hpath)
    have hne : defaultId ≠ labId := by decide
    simp [labWorld, hne] at h

/-- Bytes that are no UTF-8, and a text that is no id. -/
theorem not_recovers_lab : ¬Recovers bareEnv (labWorld [0xff]) ∧
    ¬Recovers bareEnv (labWorld (Text.encode "../lab".toList)) := by
  constructor <;> intro h
  · have hcurrent := h.current
    rw [Ends, getCurrentConfig_undecodable bareEnv rfl (by decide +kernel)] at hcurrent
    cases hcurrent.2 _ rfl
  · have hcurrent := h.current
    rcases hpath : configPath "../lab".toList with e | path
    · obtain ⟨msg, rfl⟩ := configPath_error hpath
      have hstrip : Text.strip "../lab".toList = "../lab".toList := by decide +kernel
      have hread := @getCurrentConfig_content bareEnv (labWorld (Text.encode "../lab".toList)) _
        "../lab".toList rfl (by decide +kernel) (by decide +kernel)
      rw [Ends, hread, hstrip, checkCurrent_stray bareEnv (getConfig_invalid bareEnv hpath _)
        (by rintro ⟨⟩)] at hcurrent
      cases hcurrent.2 _ rfl
    · have hvalid := path.property
      rw [configPath_eq_ok hpath] at hvalid
      revert hvalid
      decide +kernel

end WlanpiCore
