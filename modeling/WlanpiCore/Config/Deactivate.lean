import WlanpiCore.Config.Delete
import WlanpiCore.Config.Edit

/-!
# Deactivating every entry

**Theorem (`deactivateConfigLocked_reachesAll_iff`).** A deactivation asks the namespace service to
deactivate every entry of the profile exactly when no entry before the last fails. The loop of
`_deactivate_config_locked` stands inside one `try`, so it ends at the first entry that raises; the
handler records `default` and raises again, but the entries after it stay up. `_teardown_profile`
has its `try` inside the loop and reaches them all.
-/

namespace WlanpiCore

open Prog

variable (E : Env)

/-- The service raises when it is next asked to deactivate `entry`. -/
def Fails (w : World) (entry : Entry) : Prop :=
  ∃ e, E.service (.deactivateConfig entry) (w.trace.count (.deactivateConfig entry)) = .error e

/-- The check of `_deactivate_config_locked` that its profile is the active one. -/
def mayDeactivate (cfgId : Text) (overrideActive : Bool) : Store Bool :=
  if overrideActive then return true else isActive E cfgId

/-- `_deactivate_config_locked` before its `try`: the profile to deactivate, unless that is
refused. -/
def beginDeactivation (cfgId : Text) (overrideActive : Bool) : Store NetConfig := do
  let cfg ← getConfig E cfgId
  let active ← mayDeactivate E cfgId overrideActive
  if active then return cfg
  else raise (.configActive s!"Configuration {String.ofList cfgId} is not active.")

/-- A deactivation that is not refused reaches every entry of the profile, as a teardown of the
same profile does, records `default`, and raises if an entry failed. -/
def ReachesAll (cfgId : Text) (overrideActive : Bool) (w : World) : Prop :=
  ∀ cfg w₁, beginDeactivation E cfgId overrideActive w = (.ok cfg, w₁) →
    Ends (teardownProfile E cfgId) w (fun _ w' =>
      ∀ entry ∈ cfg.entries, .deactivateConfig entry ∈ w.callsSince w') ∧
    Ends (deactivateConfigLocked E cfgId overrideActive) w fun r w' =>
      (∀ entry ∈ cfg.entries, .deactivateConfig entry ∈ w.callsSince w') ∧
      w'.Names defaultId.val ∧
      ((∃ entry ∈ cfg.entries, Fails E w entry) → ∃ e, r = .error e)

variable {E}

theorem NetConfig.Valid.nodup {cfg : NetConfig} (h : cfg.Valid) : cfg.entries.Nodup :=
  h.interfaces.of_map _

/-- Calls other than its own deactivation do not change whether an entry fails. -/
theorem fails_congr {w w' : World} {entry : Entry}
    (h : w'.trace.count (.deactivateConfig entry) = w.trace.count (.deactivateConfig entry)) :
    Fails E w' entry ↔ Fails E w entry := by
  unfold Fails
  rw [h]

/-! ## The loop -/

/-- How the loop over the entries ends. -/
inductive Loop (w : World) (entries : List Entry) : Except Exc Unit × World → Prop where
  | done (h : ∀ entry ∈ entries, ¬Fails E w entry) :
      Loop w entries (.ok (), { w with trace := w.trace ++ entries.map .deactivateConfig })
  | stopped (before after : List Entry) (entry : Entry) (e : Exc)
      (hsplit : entries = before ++ entry :: after) (hbefore : ∀ a ∈ before, ¬Fails E w a)
      (hfails : Fails E w entry) :
      Loop w entries (.error e,
        { w with trace := w.trace ++ (before ++ [entry]).map .deactivateConfig })

/-- The loop stops at the first entry that fails. -/
theorem deactivateEach_loop (entries : List Entry) (hnodup : entries.Nodup) (w : World) :
    Loop (E := E) w entries (forEach (fun e => call E (.deactivateConfig e)) entries w) := by
  induction entries generalizing w with
  | nil =>
    have h := @Loop.done E w [] (by simp)
    simpa [forEach, pure] using h
  | cons entry entries ih =>
    obtain ⟨hnew, hnodup⟩ := List.nodup_cons.1 hnodup
    rcases hcall : E.service (.deactivateConfig entry) (w.trace.count (.deactivateConfig entry))
      with e | u
    · have hrun : forEach (fun e => call E (.deactivateConfig e)) (entry :: entries) w =
          (.error e, { w with trace := w.trace ++ [.deactivateConfig entry] }) :=
        bind_error (by simp only [call, hcall])
      rw [hrun]
      exact .stopped [] entries entry e rfl (by simp) ⟨e, hcall⟩
    · -- The other entries are asked for as often as before.
      have hsame (a : Entry) (ha : a ∈ entries) :
          Fails E { w with trace := w.trace ++ [.deactivateConfig entry] } a ↔ Fails E w a := by
        apply fails_congr
        have hne : entry ≠ a := fun heq => hnew (heq ▸ ha)
        simp [List.count_append, hne]
      have hcalled : ¬Fails E w entry := by
        rintro ⟨e, he⟩
        rw [hcall] at he
        cases he
      have hrun : forEach (fun e => call E (.deactivateConfig e)) (entry :: entries) w =
          forEach (fun e => call E (.deactivateConfig e)) entries
            { w with trace := w.trace ++ [.deactivateConfig entry] } :=
        bind_ok (a := u) (by simp only [call, hcall])
      have hrest := ih hnodup { w with trace := w.trace ++ [.deactivateConfig entry] }
      rw [hrun]
      generalize forEach _ entries _ = out at hrest
      cases hrest with
      | done h =>
        have hall : ∀ a ∈ entry :: entries, ¬Fails E w a := by
          intro a ha
          rcases List.mem_cons.1 ha with rfl | ha
          · exact hcalled
          · exact fun hfails => h a ha ((hsame a ha).2 hfails)
        simpa [List.append_assoc] using Loop.done hall
      | stopped before after a e hsplit hbefore hfails =>
        have ha : a ∈ entries := by simp [hsplit]
        have hfirst : ∀ b ∈ entry :: before, ¬Fails E w b := by
          intro b hb
          rcases List.mem_cons.1 hb with rfl | hb
          · exact hcalled
          · exact fun hfails => hbefore b hb ((hsame b (by simp [hsplit, hb])).2 hfails)
        have h := @Loop.stopped E w (entry :: entries) (entry :: before) after a e
          (by simp [hsplit]) hfirst ((hsame a ha).1 hfails)
        simpa [List.append_assoc] using h

/-! ## One deactivation -/

/-- After the loop `default` is recorded, the radios are returned, and an exception of an entry is
raised again. -/
theorem deactivateEntries_loop {cfg : NetConfig} {w w' : World} {r : Except Exc Unit}
    (h : forEach (fun e => call E (.deactivateConfig e)) cfg.entries w = (r, w')) :
    Ends (deactivateEntries E cfg) w fun r' w'' =>
      w''.Names defaultId.val ∧ (∀ e, r = .error e → r' = .error e) ∧
        ∃ calls, w''.trace = w'.trace ++ calls ∧ ∀ c ∈ calls, c = .revertToRoot := by
  -- The handler, in either world.
  have hraise (e : Exc) (w₁ : World) : Ends (do
      attempt (do writeCurrent defaultId.val; call E .revertToRoot) fun _ => return ()
      raise e : Store Bool) w₁ fun r' w₂ => w₂.Names defaultId.val ∧ r' = .error e ∧
        w₂.trace = w₁.trace ++ [.revertToRoot] := by
    rw [ends_bind, ends_attempt]
    unfold writeCurrent
    rw [ends_bind, ends_update]
    dsimp only
    rw [ends_call]
    cases E.service .revertToRoot _ with
    | error _ => exact ⟨World.names_setCurrent w₁ defaultId, rfl, rfl⟩
    | ok _ => exact ⟨World.names_setCurrent w₁ defaultId, rfl, rfl⟩
  unfold deactivateEntries
  rw [ends_attempt]
  cases r with
  | error e =>
    rw [ends_bind_error h]
    refine (hraise e w').mono fun r' w'' hend => ⟨hend.1, ?_, _, hend.2.2, by simp⟩
    rintro _ ⟨⟩
    exact hend.2.1
  | ok u =>
    rw [ends_bind_ok h, ends_bind]
    unfold writeCurrent
    rw [ends_update]
    dsimp only
    rw [ends_bind, ends_call]
    cases E.service .revertToRoot _ with
    | error e =>
      refine (hraise e _).mono fun r' w'' hend => ⟨hend.1, by rintro _ ⟨⟩, ?_⟩
      exact ⟨[.revertToRoot, .revertToRoot], by simp [hend.2.2, World.setCurrent], by simp⟩
    | ok u =>
      exact ⟨World.names_setCurrent w' defaultId, by rintro _ ⟨⟩, [.revertToRoot], rfl, by simp⟩

theorem isActive_untouched (cfgId : Text) (w : World) :
    Ends (isActive E cfgId) w fun _ w' => Untouched w w' := by
  have hregen := getCurrentConfig_regenerated E w
  unfold isActive
  rw [ends_attempt, ends_bind]
  refine Ends.mono hregen fun r w' h => ?_
  cases r with
  | ok _ => exact h.untouched
  | error e => cases e <;> exact h.untouched

theorem beginDeactivation_ends (cfgId : Text) (overrideActive : Bool) (w : World) :
    Ends (beginDeactivation E cfgId overrideActive) w fun r w' =>
      Untouched w w' ∧ ∀ cfg, r = .ok cfg → (getConfig E cfgId w).1 = .ok cfg := by
  have hload : Ends (getConfig E cfgId) w fun r w₁ =>
      Regenerated E w w₁ ∧ (getConfig E cfgId w).1 = r := ⟨getConfig_regenerated E cfgId w, rfl⟩
  have hactive (w₁ : World) : Ends (mayDeactivate E cfgId overrideActive) w₁
      fun _ w₂ => Untouched w₁ w₂ := by
    cases overrideActive with
    | true => exact .refl w₁
    | false => exact isActive_untouched cfgId w₁
  unfold beginDeactivation
  rw [ends_bind]
  refine hload.mono fun r w₁ ⟨hregen, hr⟩ => ?_
  cases r with
  | error e => exact ⟨hregen.untouched, by rintro _ ⟨⟩⟩
  | ok cfg =>
    dsimp only
    rw [ends_bind]
    refine (hactive w₁).mono fun r w₂ h => ?_
    have huntouched := hregen.untouched.trans h
    rcases r with e | _ | _
    · exact ⟨huntouched, by rintro _ ⟨⟩⟩
    · exact ⟨huntouched, by rintro _ ⟨⟩⟩
    · refine ⟨huntouched, ?_⟩
      rintro _ ⟨⟩
      exact hr

theorem deactivateConfigLocked_eq (cfgId : Text) (overrideActive : Bool) :
    deactivateConfigLocked E cfgId overrideActive =
      beginDeactivation E cfgId overrideActive >>= deactivateEntries E := by
  unfold deactivateConfigLocked beginDeactivation mayDeactivate
  rw [bind_assoc]
  apply congrArg
  funext cfg
  cases overrideActive with
  | true => rfl
  | false =>
    simp only [Bool.not_false, if_true, Bool.false_eq_true, if_false, bind_assoc]
    apply congrArg
    funext active
    cases active <;> rfl

/-- A teardown that could read the profile reaches every entry. -/
theorem teardownProfile_reaches {cfgId : Text} {cfg : NetConfig} {w : World}
    (h : (getConfig E cfgId w).1 = .ok cfg) :
    Ends (teardownProfile E cfgId) w fun _ w' =>
      ∀ entry ∈ cfg.entries, .deactivateConfig entry ∈ w.callsSince w' := by
  have hregen := getConfig_regenerated E cfgId w
  rcases hload : getConfig E cfgId w with ⟨r, w₁⟩
  rw [Ends, hload] at hregen
  rw [hload] at h
  obtain rfl : r = .ok cfg := h
  obtain ⟨calls, htrace, -⟩ : Untouched w w₁ := hregen.untouched
  have hsome : (some <$> getConfig E cfgId) w = (.ok (some cfg), w₁) := bind_ok hload
  unfold teardownProfile
  rw [ends_bind_ok (attempt_ok hsome)]
  show Ends (forEachQuietly _ cfg.entries >>= _) w₁ _
  rw [ends_bind_ok (deactivateQuietly_eq E cfg.entries w₁), ends_call]
  intro entry hentry
  have hall : w₁.trace ++ cfg.entries.map .deactivateConfig ++ [.revertToRoot] =
      w.trace ++ (calls ++ (cfg.entries.map .deactivateConfig ++ [.revertToRoot])) := by
    simp [htrace]
  rw [World.callsSince_append hall]
  simpa using Or.inr hentry

/-- A loop that called for every entry does what is asked, if it raised what an entry raised. -/
theorem deactivateEntries_all {cfg : NetConfig} {w w₁ w₂ : World} {r : Except Exc Unit}
    (hbegin : Untouched w w₁)
    (hrun : forEach (fun e => call E (.deactivateConfig e)) cfg.entries w₁ = (r, w₂))
    (hcalled : w₂.trace = w₁.trace ++ cfg.entries.map .deactivateConfig)
    (hraised : (∃ entry ∈ cfg.entries, Fails E w entry) → ∃ e, r = .error e) :
    Ends (deactivateEntries E cfg) w₁ fun r' w' =>
      (∀ entry ∈ cfg.entries, .deactivateConfig entry ∈ w.callsSince w') ∧ w'.Names defaultId.val ∧
        ((∃ entry ∈ cfg.entries, Fails E w entry) → ∃ e, r' = .error e) := by
  obtain ⟨calls, htrace, -⟩ := hbegin
  refine (deactivateEntries_loop hrun).mono fun r' w' ⟨hname, hagain, calls', htrace', _⟩ => ?_
  have hall : w'.trace = w.trace ++ (calls ++ (cfg.entries.map .deactivateConfig ++ calls')) := by
    simp [htrace', hcalled, htrace]
  refine ⟨fun entry hentry => ?_, hname, fun hfails => ?_⟩
  · rw [World.callsSince_append hall]
    simpa using Or.inr (Or.inl hentry)
  · obtain ⟨e, he⟩ := hraised hfails
    exact ⟨e, hagain e he⟩

/-- A loop that an entry stopped called for nothing after it. -/
theorem deactivateEntries_stopped {cfg : NetConfig} {w w₁ w₂ : World} {before after : List Entry}
    {entry : Entry} {e : Exc} (hbegin : Untouched w w₁) (hnodup : cfg.entries.Nodup)
    (hsplit : cfg.entries = before ++ entry :: after)
    (hrun : forEach (fun e => call E (.deactivateConfig e)) cfg.entries w₁ = (.error e, w₂))
    (hcalled : w₂.trace = w₁.trace ++ (before ++ [entry]).map .deactivateConfig)
    (hreached : Ends (deactivateEntries E cfg) w₁ fun _ w' =>
      ∀ entry ∈ cfg.entries, .deactivateConfig entry ∈ w.callsSince w') :
    after = [] := by
  obtain ⟨calls, htrace, hcalls⟩ := hbegin
  obtain ⟨hall, -, -, calls', htrace', hrevert⟩ := hreached.and (deactivateEntries_loop hrun)
  have htraceall : (deactivateEntries E cfg w₁).2.trace =
      w.trace ++ (calls ++ ((before ++ [entry]).map .deactivateConfig ++ calls')) := by
    simp [htrace', hcalled, htrace]
  rw [World.callsSince_append htraceall] at hall
  apply List.eq_nil_iff_forall_not_mem.2
  intro b hb
  have hmem := hall b (by simp [hsplit, hb])
  rcases List.mem_append.1 hmem with hmem | hmem
  · cases hcalls _ hmem
  rcases List.mem_append.1 hmem with hmem | hmem
  · have hb' : b ∈ before ++ [entry] := by simpa using hmem
    rw [hsplit, ← List.singleton_append, ← List.append_assoc] at hnodup
    exact (List.disjoint_of_nodup_append hnodup) hb' hb
  · cases hrevert _ hmem

/-- A deactivation reaches every entry exactly when no entry before the last fails. -/
theorem deactivateConfigLocked_reachesAll_iff (E : Env) (cfgId : Text) (overrideActive : Bool)
    (w : World) :
    ReachesAll E cfgId overrideActive w ↔
      ∀ cfg w₁, beginDeactivation E cfgId overrideActive w = (.ok cfg, w₁) →
        ∀ entry ∈ cfg.entries.dropLast, ¬Fails E w entry := by
  unfold ReachesAll
  refine forall_congr' fun cfg => forall_congr' fun w₁ => forall_congr' fun hbegin => ?_
  obtain ⟨huntouched, hcfg⟩ := beginDeactivation_ends (E := E) cfgId overrideActive w
  rw [hbegin] at huntouched hcfg
  have hread := hcfg cfg rfl
  have hnodup : cfg.entries.Nodup := (getConfig_valid (Prod.ext hread rfl)).nodup
  have hsame (entry : Entry) : Fails E w₁ entry ↔ Fails E w entry :=
    fails_congr (huntouched.count rfl)
  have hloop := deactivateEach_loop (E := E) cfg.entries hnodup w₁
  rw [deactivateConfigLocked_eq, ends_bind_ok hbegin]
  generalize hout : forEach (fun e => call E (.deactivateConfig e)) cfg.entries w₁ = out at hloop
  cases hloop with
  | done h =>
    have hsound (entry : Entry) (hentry : entry ∈ cfg.entries) : ¬Fails E w entry :=
      fun hfails => h entry hentry ((hsame entry).2 hfails)
    refine ⟨fun _ entry hentry => hsound entry (List.dropLast_subset _ hentry),
      fun _ => ⟨teardownProfile_reaches hread, deactivateEntries_all huntouched hout rfl ?_⟩⟩
    intro ⟨entry, hentry, hfails⟩
    exact absurd hfails (hsound entry hentry)
  | stopped before after entry e hsplit hbefore hfails =>
    constructor
    · intro ⟨_, hends⟩ a ha hfailsa
      have hafter : after = [] :=
        deactivateEntries_stopped huntouched hnodup hsplit hout rfl (hends.mono fun _ _ h => h.1)
      rw [hsplit, hafter, List.dropLast_concat] at ha
      exact hbefore a ha ((hsame a).2 hfailsa)
    · intro h
      -- The entry that stopped the loop is the last one.
      have hlast : after = [] := by
        by_contra hne
        refine h entry ?_ ((hsame entry).1 hfails)
        rw [hsplit, List.dropLast_append_of_ne_nil (by simp), List.dropLast_cons_of_ne_nil hne]
        simp
      refine ⟨teardownProfile_reaches hread, deactivateEntries_all huntouched hout ?_ ?_⟩
      · rw [hsplit, hlast]
      · exact fun _ => ⟨e, rfl⟩

/-! ## Two radios -/

/-- `wlan0` and `wlan1`; deactivating `wlan0` raises. -/
def stubbornEnv : Env :=
  { bareEnv with
    service := fun c n => match c with
      | .deactivateConfig entry =>
        if entry.base.interface.val = "wlan0".toList then .error (.other "RunCommandError")
          else .ok ()
      | c => bareEnv.service c n }

def twoRadios : Text :=
  ("\x7b\"id\":\"lab\",\"roots\":[" ++
    "\x7b\"iface_display_name\":\"wlan0\",\"phy\":\"phy0\",\"interface\":\"wlan0\"\x7d," ++
    "\x7b\"iface_display_name\":\"wlan1\",\"phy\":\"phy1\",\"interface\":\"wlan1\"\x7d]\x7d").toList

def twoRadiosWorld : World :=
  { labWorld (Text.encode "lab".toList) with
    files := Function.update (fun _ => none) labId (some (Text.encode twoRadios)) }

/-- The radio a call deactivates. -/
def Call.deactivates : Call → Option Text
  | .deactivateConfig entry => some entry.base.interface.val
  | _ => none

/-- `wlan0` raises and `wlan1` stays up, in a profile that is no longer in force. -/
theorem not_reachesAll_two_radios : ¬ReachesAll stubbornEnv labId.val false twoRadiosWorld := by
  intro h
  have hentries : (beginDeactivation stubbornEnv labId.val false twoRadiosWorld).1.toOption.map
      (fun cfg => cfg.entries.map fun e => e.base.interface.val) =
        some ["wlan0".toList, "wlan1".toList] := by decide +kernel
  have htrace : (deactivateConfigLocked stubbornEnv labId.val false twoRadiosWorld).2.trace.map
      Call.deactivates = [some "wlan0".toList, none] := by decide +kernel
  rcases hbegin : beginDeactivation stubbornEnv labId.val false twoRadiosWorld with ⟨e | cfg, w₁⟩
  · rw [hbegin] at hentries
    cases hentries
  rw [hbegin] at hentries
  have hinterfaces : cfg.entries.map (fun e => e.base.interface.val) =
      ["wlan0".toList, "wlan1".toList] := Option.some.inj hentries
  obtain ⟨entry, hentry, hname⟩ : ∃ entry ∈ cfg.entries, entry.base.interface.val =
    "wlan1".toList := by
    apply List.mem_map.1
    rw [hinterfaces]
    decide
  obtain ⟨-, hall, -⟩ := h cfg w₁ hbegin
  have hcalled : some "wlan1".toList ∈ (deactivateConfigLocked stubbornEnv labId.val false
      twoRadiosWorld).2.trace.map Call.deactivates :=
    List.mem_map.2 ⟨_, hall entry hentry, congrArg some hname⟩
  rw [htrace] at hcalled
  revert hcalled
  decide

end WlanpiCore
