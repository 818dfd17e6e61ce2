import WlanpiCore.Config.ModelRoundTrip
import WlanpiCore.Config.Operations

/-!
# What the readers do to the store

`getConfig` reads a file and leaves the store alone, except for the default profile, which it may
build, write and move aside: `Regenerated w w'` says that nothing else differs and that no radio
was touched. A reader raises
either one of the two errors its callers handle or an exception that the bytes of a file cause and
nothing catches; `Readable` bytes cause none of the latter. `getConfig_of_ne` and
`getConfig_default` are the two cases every later proof splits on.
-/

namespace WlanpiCore

open Prog

variable (E : Env)

/-- Calls that can change a radio. -/
def Call.touches : Call → Bool
  | .activateConfig _ | .deactivateConfig _ | .revertToRoot | .killAllSupplicants => true
  | _ => false

/-- No entry has security settings, as in every profile that is regenerated. -/
def NetConfig.Plain (cfg : NetConfig) : Prop := ∀ e ∈ cfg.entries, e.base.security = none

/-- `w'` has the profiles of `w`, except that the default one may have been regenerated. -/
structure Kept (w w' : World) : Prop where
  current : w'.current = w.current
  files : ∀ path ≠ defaultId, w'.files path = w.files path
  default : w'.files defaultId = w.files defaultId ∨ w'.files defaultId = none ∨
    ∃ cfg : NetConfig, cfg.Valid ∧ cfg.Plain ∧
      w'.files defaultId = some (Text.encode (E.dumpJson cfg))
  locked : w'.locked = w.locked
  asides : w.asides.length ≤ w'.asides.length
  /-- A default profile that is no longer there was moved aside. -/
  moved : w.files defaultId ≠ none → w'.files defaultId = none → w.asides.length < w'.asides.length

/-- `w'` is `w` after calls that touched no radio. -/
def Untouched (w w' : World) : Prop :=
  ∃ calls, w'.trace = w.trace ++ calls ∧ ∀ c ∈ calls, c.touches = false

/-- `w'` is `w` after calls, which change nothing of the store. -/
def Traced (w w' : World) : Prop := w' = { w with trace := w'.trace }

/-- `w'` is `w` after calls that touched no radio. -/
structure Called (w w' : World) : Prop where
  traced : Traced w w'
  untouched : Untouched w w'

/-- What a reader does: the default profile may have been regenerated, no radio was touched. -/
structure Regenerated (w w' : World) : Prop extends Kept E w w' where
  untouched : Untouched w w'

variable {E}

theorem Kept.refl (w : World) : Kept E w w :=
  ⟨rfl, fun _ _ => rfl, Or.inl rfl, rfl, le_rfl, fun h h' => absurd h' h⟩

theorem Kept.trans {w w' w'' : World} (h : Kept E w w') (h' : Kept E w' w'') : Kept E w w'' := by
  refine ⟨h'.current.trans h.current, fun path hp => (h'.files path hp).trans (h.files path hp), ?_,
    h'.locked.trans h.locked, h.asides.trans h'.asides, fun hfile hnone => ?_⟩
  · rcases h'.default with hsame | hother
    · rw [hsame]
      exact h.default
    · exact Or.inr hother
  · by_cases hmid : w'.files defaultId = none
    · exact (h.moved hfile hmid).trans_le h'.asides
    · exact h.asides.trans_lt (h'.moved hmid hnone)

theorem Kept.call (w : World) (c : Call) : Kept E w { w with trace := w.trace ++ [c] } :=
  ⟨rfl, fun _ _ => rfl, Or.inl rfl, rfl, le_rfl, fun h h' => absurd h' h⟩

theorem Kept.currentText {w w' : World} (h : Kept E w w') : w'.currentText = w.currentText := by
  simp only [World.currentText, h.current]

theorem Untouched.refl (w : World) : Untouched w w := ⟨[], by simp, by simp⟩

theorem Untouched.trans {w w' w'' : World} (h : Untouched w w') (h' : Untouched w' w'') :
    Untouched w w'' := by
  obtain ⟨calls, htrace, hcalls⟩ := h
  obtain ⟨calls', htrace', hcalls'⟩ := h'
  refine ⟨calls ++ calls', by rw [htrace', htrace, List.append_assoc], fun c hc => ?_⟩
  rcases List.mem_append.1 hc with hc | hc
  · exact hcalls c hc
  · exact hcalls' c hc

theorem Regenerated.refl (w : World) : Regenerated E w w := ⟨.refl w, .refl w⟩

theorem Regenerated.trans {w w' w'' : World} (h : Regenerated E w w') (h' : Regenerated E w' w'') :
    Regenerated E w w'' :=
  ⟨h.toKept.trans h'.toKept, h.untouched.trans h'.untouched⟩

theorem Called.regenerated {w w' : World} (h : Called w w') : Regenerated E w w' := by
  refine ⟨?_, h.untouched⟩
  rw [h.traced]
  exact ⟨rfl, fun _ _ => rfl, Or.inl rfl, rfl, le_rfl, fun hfile hnone => absurd hnone hfile⟩

theorem Traced.trans {w w' w'' : World} (h : Traced w w') (h' : Traced w' w'') : Traced w w'' := by
  unfold Traced at *
  rw [h', h]

theorem Called.refl (w : World) : Called w w := ⟨rfl, .refl w⟩

theorem Called.trans {w w' w'' : World} (h : Called w w') (h' : Called w' w'') : Called w w'' :=
  ⟨h.traced.trans h'.traced, h.untouched.trans h'.untouched⟩

theorem Called.call {w : World} {c : Call} (hc : c.touches = false) :
    Called w { w with trace := w.trace ++ [c] } :=
  ⟨rfl, [c], rfl, by simpa using hc⟩

theorem Regenerated.write_default (w : World) {cfg : NetConfig} (hvalid : cfg.Valid)
    (hplain : cfg.Plain) :
    Regenerated E w (w.write defaultId (Text.encode (E.dumpJson cfg))) :=
  ⟨⟨rfl, fun path hp => by simp [World.write, hp],
    Or.inr (Or.inr ⟨cfg, hvalid, hplain, by simp [World.write]⟩), rfl, le_rfl,
    fun _ h => by simp [World.write] at h⟩, [], by simp [World.write], by simp⟩

theorem Regenerated.call {w : World} {c : Call} (hc : c.touches = false) :
    Regenerated E w { w with trace := w.trace ++ [c] } :=
  ⟨.call w c, [c], rfl, by simpa using hc⟩

/-- An error the callers of `get_config` handle. -/
inductive Exc.Handled : Exc → Prop where
  | fileNotFound (msg : String) : Handled (.fileNotFound msg)
  | configMalformed (msg : String) (cfgId : Option Text) : Handled (.configMalformed msg cfgId)

@[simp] theorem configPath_val (path : ConfigId) : configPath path.val = .ok path := by
  unfold configPath
  split
  · rfl
  · rename_i msg h
    rw [path.property] at h
    cases h

theorem configPath_eq_ok {cfgId : Text} {path : ConfigId} (h : configPath cfgId = .ok path) :
    path.val = cfgId := by
  unfold configPath at h
  split at h
  · cases h
    rfl
  · cases h

variable (E)

theorem ends_call {c : Call} {w : World} {Q : Except Exc c.Reply → World → Prop} :
    Ends (call E c) w Q ↔
      Q (E.service c (w.trace.count c)) { w with trace := w.trace ++ [c] } := Iff.rfl

/-! ## Parsing -/

/-- UTF-8 text on which `json.loads` runs into neither the limit of an integer's digits nor that of
recursion. -/
def Readable (bytes : Bytes) : Prop :=
  ∃ text, Text.readText bytes = some text ∧
    Json.loads E.depth (Text.strip text) ≠ .error .intDigits ∧
    Json.loads E.depth (Text.strip text) ≠ .error .recursion

/-- An exception that the bytes of a file cause and no reader handles. -/
inductive Exc.Stray : Exc → Prop where
  | unicodeDecode : Stray .unicodeDecode
  | intDigits : Stray .intDigits
  | recursion : Stray .recursion

/-- The limits of `json.loads` are exceptions that `_read_config` does not catch. -/
theorem parseConfig_limit (path : ConfigId) {bytes : Bytes} {text : Text}
    (htext : Text.readText bytes = some text) :
    (Json.loads E.depth (Text.strip text) = .error .intDigits →
      parseConfig E path bytes = .error .intDigits) ∧
    (Json.loads E.depth (Text.strip text) = .error .recursion →
      parseConfig E path bytes = .error .recursion) := by
  have hblank (e : Json.LoadsError) (h : Json.loads E.depth (Text.strip text) = .error e)
      (he : e = .intDigits ∨ e = .recursion) : Text.strip text ≠ [] := by
    intro hnil
    rw [hnil, show Json.loads E.depth [] = .error (.decode "Expecting value" 0) from rfl] at h
    cases h
    simp at he
  constructor
  · intro h
    simp only [parseConfig, htext, if_neg (hblank _ h (.inl rfl))]
    split <;> simp_all
  · intro h
    simp only [parseConfig, htext, if_neg (hblank _ h (.inr rfl))]
    split <;> simp_all

/-- Reading such bytes as a profile raises nothing that the readers do not handle. -/
theorem readable_iff (path : ConfigId) (bytes : Bytes) : Readable E bytes ↔
    ∀ e, parseConfig E path bytes = .error e → ∃ msg cfgId, e = .configMalformed msg cfgId := by
  constructor
  · rintro ⟨text, htext, hdigits, hdepth⟩ e he
    simp only [parseConfig, htext] at he
    split_ifs at he
    · cases he
      exact ⟨_, _, rfl⟩
    · split at he
      · cases he
        exact ⟨_, _, rfl⟩
      · rename_i h
        exact absurd h hdigits
      · rename_i h
        exact absurd h hdepth
      · rename_i hfuel
        exact absurd hfuel (Json.loads_ne_fuel _ _)
      · split at he <;> cases he
        exact ⟨_, _, rfl⟩
      · cases he
        exact ⟨_, _, rfl⟩
  · intro h
    cases htext : Text.readText bytes with
    | none =>
      obtain ⟨_, _, he⟩ := h .unicodeDecode (by simp [parseConfig, htext])
      cases he
    | some text =>
      obtain ⟨hdigits, hrecursion⟩ := parseConfig_limit E path htext
      refine ⟨text, htext, fun hloads => ?_, fun hloads => ?_⟩
      · obtain ⟨_, _, he⟩ := h _ (hdigits hloads)
        cases he
      · obtain ⟨_, _, he⟩ := h _ (hrecursion hloads)
        cases he

theorem parseConfig_error {path : ConfigId} {bytes : Bytes} {e : Exc}
    (h : parseConfig E path bytes = .error e) :
    (∃ msg, e = .configMalformed msg (some path.val)) ∨ e.Stray := by
  unfold parseConfig at h
  split at h
  · cases h
    exact Or.inr .unicodeDecode
  · dsimp only at h
    split_ifs at h
    · cases h
      exact Or.inl ⟨_, rfl⟩
    · split at h
      · cases h
        exact Or.inl ⟨_, rfl⟩
      · cases h
        exact Or.inr .intDigits
      · cases h
        exact Or.inr .recursion
      · rename_i hfuel
        exact absurd hfuel (Json.loads_ne_fuel _ _)
      · split at h <;> cases h
        exact Or.inl ⟨_, rfl⟩
      · cases h
        exact Or.inl ⟨_, rfl⟩

theorem parseConfig_valid {path : ConfigId} {bytes : Bytes} {cfg : NetConfig}
    (h : parseConfig E path bytes = .ok cfg) : cfg.Valid := by
  unfold parseConfig at h
  split at h
  · cases h
  · dsimp only at h
    split_ifs at h
    split at h
    · cases h
    · cases h
    · cases h
    · rename_i hfuel
      exact absurd hfuel (Json.loads_ne_fuel _ _)
    · split at h
      · rename_i hmodel
        cases h
        exact NetConfig.modelValidate_valid _ hmodel
      · cases h
    · cases h

/-! ## The default profile -/

theorem rootOfLive_security {live : LiveInterface} {root : RootConfig}
    (h : rootOfLive E live = .ok root) : ∀ s ∈ root.security, validatePskFormat s = none := by
  unfold rootOfLive at h
  dsimp only at h
  generalize hread : RootConfigBase.read E.pydantic (parseSecurity E.pydantic) _ [] = r at h
  cases r with
  | error e => cases h
  | ok root' =>
    cases h
    exact RootConfigBase.read_security E.pydantic hread

/-- An entry made for a live interface has no security settings. -/
theorem rootOfLive_noSecurity {live : LiveInterface} {root : RootConfig}
    (h : rootOfLive E live = .ok root) : root.security = none := by
  unfold rootOfLive at h
  dsimp only at h
  generalize hfields : dumpMembers false _ = members at h
  have hnull : parseField members [] "security" (some none)
      (parseOptional (parseSecurity E.pydantic)) = .valid none := by
    rw [← hfields]
    refine parseField_dump .null ?_ (by simp) fun _ => rfl
    change ["mode", "iface_display_name", "phy", "interface", "security", "default_route",
      "autostart_app"].Nodup
    decide
  generalize hread : RootConfigBase.read E.pydantic (parseSecurity E.pydantic) members [] = r at h
  cases r with
  | error e => cases h
  | ok root' =>
    cases h
    obtain ⟨f, app, hf, -, rfl⟩ := Validation.seq_eq_ok hread
    obtain ⟨g, route, hg, -, rfl⟩ := Validation.seq_eq_ok hf
    obtain ⟨k, security, hk, hsecurity, rfl⟩ := Validation.seq_eq_ok hg
    obtain ⟨l, interface, hl, -, rfl⟩ := Validation.seq_eq_ok hk
    obtain ⟨m, phy, hm, -, rfl⟩ := Validation.seq_eq_ok hl
    obtain ⟨n, display, hn, -, rfl⟩ := Validation.seq_eq_ok hm
    obtain ⟨mode, -, rfl⟩ := Validation.map_eq_ok hn
    rw [hnull] at hsecurity
    exact (Except.ok.inj hsecurity).symm

/-- The entries of the default profile are those made for live interfaces. -/
theorem defaultRoots_all {Q : RootConfig → Prop}
    (hQ : ∀ live root, rootOfLive E live = .ok root → Q root) {coreNamespaces : List Text} :
    ∀ {live : List LiveInterface} {roots roots' : List RootConfig},
      defaultRoots E coreNamespaces roots live = .ok roots' → (∀ r ∈ roots, Q r) → ∀ r ∈ roots', Q r
  | [], roots, roots', h, hroots => by
    cases h
    exact hroots
  | l :: live, roots, roots', h, hroots => by
    unfold defaultRoots at h
    split_ifs at h
    · exact defaultRoots_all hQ h hroots
    · exact defaultRoots_all hQ h hroots
    · exact defaultRoots_all hQ h hroots
    · cases hroot : rootOfLive E l with
      | error e =>
        rw [hroot] at h
        cases h
      | ok root =>
        rw [hroot] at h
        have hmore : ∀ r ∈ roots ++ [root], Q r := by
          intro r hr
          rcases List.mem_append.1 hr with hr | hr
          · exact hroots r hr
          · obtain rfl := List.mem_singleton.1 hr
            exact hQ l r hroot
        exact defaultRoots_all hQ h hmore

theorem getDefaultConfig_ends (w : World) :
    Ends (getDefaultConfig E) w fun r w' =>
      Regenerated E w w' ∧ ∀ cfg, r = .ok cfg → cfg.Valid := by
  have hcore := Regenerated.call (E := E) (w := w) (c := .coreNamespaces) rfl
  have hlive := Regenerated.call (E := E) (w := { w with trace := w.trace ++ [.coreNamespaces] })
    (c := .listInterfaces) rfl
  unfold getDefaultConfig
  rw [ends_bind, ends_call]
  cases E.service .coreNamespaces _ with
  | error e => exact ⟨hcore, by simp⟩
  | ok coreNamespaces =>
    dsimp only
    rw [ends_bind, ends_call]
    cases E.service .listInterfaces _ with
    | error e => exact ⟨hcore.trans hlive, by simp⟩
    | ok live =>
      dsimp only
      rw [ends_bind, ends_lift]
      cases hroots : defaultRoots E coreNamespaces [] live with
      | error e => exact ⟨hcore.trans hlive, by simp⟩
      | ok roots =>
        dsimp only
        split
        · rename_i hunique
          refine ⟨hcore.trans hlive, fun cfg hcfg => ?_⟩
          cases hcfg
          refine ⟨fun e he => ?_, hunique⟩
          obtain ⟨r, hr, rfl⟩ : ∃ r ∈ roots, Entry.root r = e := by
            simpa [NetConfig.entries] using he
          exact defaultRoots_all E (fun _ _ => rootOfLive_security E) hroots (by simp) r hr
        · exact ⟨hcore.trans hlive, by rintro cfg ⟨⟩⟩

theorem getDefaultConfig_noSecurity (w : World) :
    Ends (getDefaultConfig E) w fun r _ => ∀ cfg, r = .ok cfg → ∀ e ∈ cfg.entries,
      e.base.security = none := by
  unfold getDefaultConfig
  rw [ends_bind, ends_call]
  cases E.service .coreNamespaces _ with
  | error e => simp
  | ok coreNamespaces =>
    dsimp only
    rw [ends_bind, ends_call]
    cases E.service .listInterfaces _ with
    | error e => simp
    | ok live =>
      dsimp only
      rw [ends_bind, ends_lift]
      cases hroots : defaultRoots E coreNamespaces [] live with
      | error e => simp
      | ok roots =>
        dsimp only
        split
        · intro cfg hcfg e he
          cases hcfg
          obtain ⟨r, hr, rfl⟩ : ∃ r ∈ roots, Entry.root r = e := by
            simpa [NetConfig.entries] using he
          exact defaultRoots_all E (fun _ _ => rootOfLive_noSecurity E) hroots (by simp) r hr
        · rintro cfg ⟨⟩

/-- `_write_live_default` returns a valid profile, whatever the radios are. -/
theorem writeLiveDefault_spec (w : World) :
    ∃ cfg w', writeLiveDefault E w = (.ok cfg, w') ∧ cfg.Valid ∧ Regenerated E w w' := by
  obtain ⟨hregen, hvalid⟩ := getDefaultConfig_ends E w
  have hplain := getDefaultConfig_noSecurity E w
  unfold writeLiveDefault
  unfold Ends at hplain
  rcases hdefault : getDefaultConfig E w with ⟨r, w'⟩
  rw [hdefault] at hregen hvalid hplain
  cases r with
  | error e =>
    have hsome : (some <$> getDefaultConfig E) w = (.error e, w') := bind_error hdefault
    rw [bind_ok (attempt_error hsome)]
    exact ⟨_, _, rfl, ⟨by simp [NetConfig.entries], by decide⟩, hregen⟩
  | ok cfg =>
    have hsome : (some <$> getDefaultConfig E) w = (.ok (some cfg), w') := bind_ok hdefault
    rw [bind_ok (attempt_ok hsome)]
    exact ⟨cfg, _, rfl, hvalid cfg rfl,
      hregen.trans (.write_default _ (hvalid cfg rfl) (hplain cfg rfl))⟩

/-- No entry that `_write_live_default` returns has security settings. -/
theorem writeLiveDefault_noSecurity (w : World) :
    Ends (writeLiveDefault E) w fun r _ => ∀ cfg, r = .ok cfg → ∀ e ∈ cfg.entries,
      e.base.security = none := by
  have hdefault := getDefaultConfig_noSecurity E w
  unfold writeLiveDefault Ends
  rcases hrun : getDefaultConfig E w with ⟨r, w'⟩
  unfold Ends at hdefault
  rw [hrun] at hdefault
  cases r with
  | error e =>
    have hsome : (some <$> getDefaultConfig E) w = (.error e, w') := bind_error hrun
    rw [bind_ok (attempt_error hsome)]
    rintro cfg ⟨⟩
    simp [NetConfig.entries]
  | ok cfg =>
    have hsome : (some <$> getDefaultConfig E) w = (.ok (some cfg), w') := bind_ok hrun
    rw [bind_ok (attempt_ok hsome)]
    rintro cfg' ⟨⟩
    exact hdefault cfg rfl

/-! ## `get_config` -/

theorem getConfig_invalid {cfgId : Text} {e : Exc} (h : configPath cfgId = .error e) (w : World) :
    getConfig E cfgId w = (.error e, w) := by
  simp only [getConfig, h]
  rfl

theorem getConfig_eq (path : ConfigId) (w : World) :
    getConfig E path.val w =
      (match w.files path with
        | none =>
          if path = defaultId then writeLiveDefault E
          else raise (.fileNotFound s!"Configuration {String.ofList path.val} not found.")
        | some bytes =>
          attempt (readConfig E path bytes) fun e =>
            match e with
            | .configMalformed _ _ =>
              if path ≠ defaultId then raise e
              else do
                moveAside E path bytes
                writeLiveDefault E
            | e => raise e : Store NetConfig) w := by
  simp only [getConfig, configPath_val]
  rfl

theorem readConfig_error {path : ConfigId} {bytes : Bytes} {e : Exc}
    (h : parseConfig E path bytes = .error e) (w : World) :
    readConfig E path bytes w = (.error e, w) := by
  unfold readConfig
  rw [h]
  rfl

theorem readConfig_ok {path : ConfigId} {bytes : Bytes} {cfg : NetConfig}
    (h : parseConfig E path bytes = .ok cfg) (w : World) :
    readConfig E path bytes w =
      if path = defaultId ∧ cfg = legacyDefaultConfig then writeLiveDefault E w
        else (.ok cfg, w) := by
  have hbind : readConfig E path bytes w = (if path = defaultId ∧ cfg = legacyDefaultConfig
      then writeLiveDefault E else return cfg : Store NetConfig) w := by
    unfold readConfig
    rw [h]
    rfl
  rw [hbind]
  split_ifs <;> rfl

/-- A profile other than the default: its file is parsed and nothing changes. -/
theorem getConfig_of_ne {path : ConfigId} (hne : path ≠ defaultId) (w : World) :
    getConfig E path.val w =
      (match w.files path with
        | none => .error (.fileNotFound s!"Configuration {String.ofList path.val} not found.")
        | some bytes => parseConfig E path bytes, w) := by
  rw [getConfig_eq]
  cases w.files path with
  | none => simp only [if_neg hne, raise]
  | some bytes =>
    dsimp only
    cases hparse : parseConfig E path bytes with
    | ok cfg =>
      have hread : readConfig E path bytes w = (.ok cfg, w) := by
        rw [readConfig_ok E hparse, if_neg fun h => hne h.1]
      rw [attempt_ok hread]
    | error e =>
      rw [attempt_error (readConfig_error E hparse w)]
      rcases parseConfig_error E hparse with ⟨msg, rfl⟩ | hstray
      · simp only [ne_eq, hne, not_false_eq_true, if_true, raise]
      · cases hstray <;> rfl

/-- The default profile always loads, unless the bytes of its file cause a stray exception. -/
theorem getConfig_default (w : World) :
    (∃ cfg w', getConfig E defaultId.val w = (.ok cfg, w') ∧ cfg.Valid ∧ Regenerated E w w') ∧
      (∀ bytes, w.files defaultId = some bytes → Readable E bytes) ∨
    ∃ bytes e, w.files defaultId = some bytes ∧ parseConfig E defaultId bytes = .error e ∧
      e.Stray ∧ getConfig E defaultId.val w = (.error e, w) := by
  have hwrite (w : World) := writeLiveDefault_spec E w
  rw [getConfig_eq]
  cases hfile : w.files defaultId with
  | none =>
    obtain ⟨cfg, w', hw', hvalid, hregen⟩ := hwrite w
    exact Or.inl ⟨⟨cfg, w', by simpa using hw', hvalid, hregen⟩, by simp⟩
  | some bytes =>
    dsimp only
    cases hparse : parseConfig E defaultId bytes with
    | ok cfg =>
      have hreadable : ∀ b, some bytes = some b → Readable E b := by
        rintro b ⟨⟩
        refine (readable_iff E defaultId bytes).2 fun e he => ?_
        rw [hparse] at he
        cases he
      by_cases hlegacy : cfg = legacyDefaultConfig
      · obtain ⟨cfg', w', hw', hvalid, hregen⟩ := hwrite w
        refine Or.inl ⟨⟨cfg', w', attempt_ok ?_, hvalid, hregen⟩, hreadable⟩
        rw [readConfig_ok E hparse, if_pos ⟨rfl, hlegacy⟩, hw']
      · refine Or.inl ⟨⟨cfg, w, attempt_ok ?_, parseConfig_valid E hparse, .refl w⟩, hreadable⟩
        rw [readConfig_ok E hparse, if_neg fun h => hlegacy h.2]
    | error e =>
      rw [attempt_error (readConfig_error E hparse w)]
      rcases parseConfig_error E hparse with ⟨msg, rfl⟩ | hstray
      · set w₁ : World := { w.remove defaultId with
          asides := w.asides ++ [(s!"default.json.bad-{E.clock w.asides.length}", bytes)] }
        have hmoved : Regenerated E w w₁ :=
          ⟨⟨rfl, fun path hp => by simp [w₁, World.remove, hp],
            Or.inr (Or.inl (by simp [w₁, World.remove])), rfl, by simp [w₁],
            fun _ _ => by simp [w₁]⟩, [], by simp [w₁, World.remove], by simp⟩
        obtain ⟨cfg, w', hw', hvalid, hregen⟩ := hwrite w₁
        refine Or.inl ⟨⟨cfg, w', ?_, hvalid, hmoved.trans hregen⟩, ?_⟩
        · simp only [ne_eq, not_true_eq_false, if_false]
          exact (bind_ok rfl).trans hw'
        · rintro b ⟨⟩
          refine (readable_iff E defaultId bytes).2 fun e he => ?_
          rw [hparse] at he
          cases he
          exact ⟨_, _, rfl⟩
      · refine Or.inr ⟨bytes, e, rfl, hparse, hstray, ?_⟩
        cases hstray <;> rfl

theorem getConfig_regenerated (cfgId : Text) (w : World) :
    Ends (getConfig E cfgId) w fun _ w' => Regenerated E w w' := by
  unfold Ends
  cases hpath : configPath cfgId with
  | error e =>
    rw [getConfig_invalid E hpath]
    exact .refl w
  | ok path =>
    obtain rfl := configPath_eq_ok hpath
    by_cases hne : path = defaultId
    · subst hne
      rcases getConfig_default E w with ⟨⟨cfg, w', hw', -, hregen⟩, -⟩ | ⟨_, _, -, -, -, hw'⟩
      · rw [hw']
        exact hregen
      · rw [hw']
        exact .refl w
    · rw [getConfig_of_ne E hne]
      exact .refl w

/-! ## `get_current_config` -/

theorem getCurrentConfig_eq (w : World) :
    getCurrentConfig E w =
      (match w.current with
        | none => raise (.fileNotFound "No current configuration set.")
        | some bytes =>
          match Text.readText bytes with
          | none => raise .unicodeDecode
          | some text =>
            if Text.strip text = [] then
              raise (.configMalformed
                "Current configuration file is empty or contains only whitespace." none)
            else checkCurrent E (Text.strip text) : Store Text) w := rfl

theorem getCurrentConfig_absent {w : World} (h : w.current = none) :
    getCurrentConfig E w = (.error (.fileNotFound "No current configuration set."), w) := by
  rw [getCurrentConfig_eq, h]
  rfl

theorem getCurrentConfig_undecodable {w : World} {bytes : Bytes} (h : w.current = some bytes)
    (htext : Text.readText bytes = none) : getCurrentConfig E w = (.error .unicodeDecode, w) := by
  rw [getCurrentConfig_eq, h]
  simp only [htext, raise]

theorem getCurrentConfig_blank {w : World} {bytes : Bytes} {text : Text}
    (h : w.current = some bytes) (htext : Text.readText bytes = some text)
    (hblank : Text.strip text = []) :
    getCurrentConfig E w = (.error (.configMalformed
      "Current configuration file is empty or contains only whitespace." none), w) := by
  rw [getCurrentConfig_eq, h]
  simp only [htext, hblank, if_true, raise]

theorem getCurrentConfig_content {w : World} {bytes : Bytes} {text : Text}
    (h : w.current = some bytes) (htext : Text.readText bytes = some text)
    (hblank : Text.strip text ≠ []) :
    getCurrentConfig E w = checkCurrent E (Text.strip text) w := by
  rw [getCurrentConfig_eq, h]
  simp only [htext, if_neg hblank]

theorem checkCurrent_ok {content : Text} {w w' : World} {cfg : NetConfig}
    (h : getConfig E content w = (.ok cfg, w')) : checkCurrent E content w = (.ok content, w') := by
  have hdiscard : (discard (getConfig E content) : Store Unit) w = (.ok (), w') := bind_ok h
  exact (bind_ok (attempt_ok hdiscard)).trans rfl

/-- A profile that is missing or malformed makes `current.txt` malformed. -/
theorem checkCurrent_handled {content : Text} {w w' : World} {e : Exc}
    (h : getConfig E content w = (.error e, w')) (he : e.Handled) :
    ∃ msg, checkCurrent E content w = (.error (.configMalformed msg (some content)), w') := by
  have hdiscard : (discard (getConfig E content) : Store Unit) w = (.error e, w') := bind_error h
  cases he with
  | fileNotFound msg => exact ⟨_, bind_error ((attempt_error hdiscard).trans rfl)⟩
  | configMalformed msg cfgId => exact ⟨_, bind_error ((attempt_error hdiscard).trans rfl)⟩

/-- Any other exception passes. -/
theorem checkCurrent_stray {content : Text} {w w' : World} {e : Exc}
    (h : getConfig E content w = (.error e, w')) (he : ¬e.Handled) :
    checkCurrent E content w = (.error e, w') := by
  have hdiscard : (discard (getConfig E content) : Store Unit) w = (.error e, w') := bind_error h
  refine bind_error ((attempt_error hdiscard).trans ?_)
  cases e with
  | fileNotFound msg => exact absurd (.fileNotFound msg) he
  | configMalformed msg cfgId => exact absurd (.configMalformed msg cfgId) he
  | _ => rfl

/-- A profile file that does not hold a profile. -/
def Malformed (w : World) (path : ConfigId) : Prop :=
  ∃ bytes msg cfgId, w.files path = some bytes ∧
    parseConfig E path bytes = .error (.configMalformed msg cfgId)

/-- What `get_current_config` can do, and why. -/
inductive CurrentReading (w : World) : Except Exc Text × World → Prop where
  | absent (msg : String) (h : w.current = none) : CurrentReading w (.error (.fileNotFound msg), w)
  | named (content : Text) (cfg : NetConfig) (w' : World) (hname : w.Names content)
      (hload : getConfig E content w = (.ok cfg, w')) : CurrentReading w (.ok content, w')
  | blank (msg : String) (h : w.Names []) : CurrentReading w (.error (.configMalformed msg none), w)
  | unusable (msg : String) (path : ConfigId) (hname : w.Names path.val) (hne : path ≠ defaultId)
      (hfile : w.files path = none ∨ Malformed E w path) :
      CurrentReading w (.error (.configMalformed msg (some path.val)), w)
  | undecodable (bytes : Bytes) (h : w.current = some bytes) (htext : Text.readText bytes = none) :
      CurrentReading w (.error .unicodeDecode, w)
  | noId (content : Text) (e : Exc) (hname : w.Names content) (hblank : content ≠ [])
      (h : configPath content = .error e) : CurrentReading w (.error e, w)
  | stray (path : ConfigId) (bytes : Bytes) (e : Exc) (hname : w.Names path.val)
      (hfile : w.files path = some bytes) (hparse : parseConfig E path bytes = .error e)
      (he : e.Stray) : CurrentReading w (.error e, w)

theorem configPath_error {cfgId : Text} {e : Exc} (h : configPath cfgId = .error e) :
    ∃ msg, e = .validation msg 400 := by
  unfold configPath at h
  split at h
  · cases h
  · cases h
    exact ⟨_, rfl⟩

theorem Exc.Stray.not_handled {e : Exc} (h : e.Stray) : ¬e.Handled := by
  cases h <;> rintro ⟨⟩

theorem getCurrentConfig_reading (w : World) : CurrentReading E w (getCurrentConfig E w) := by
  cases hcurrent : w.current with
  | none =>
    rw [getCurrentConfig_absent E hcurrent]
    exact .absent _ hcurrent
  | some bytes =>
    cases htext : Text.readText bytes with
    | none =>
      rw [getCurrentConfig_undecodable E hcurrent htext]
      exact .undecodable bytes hcurrent htext
    | some text =>
      have hname : w.Names (Text.strip text) := by
        simp [World.Names, World.currentText, hcurrent, htext]
      by_cases hblank : Text.strip text = []
      · rw [getCurrentConfig_blank E hcurrent htext hblank]
        exact .blank _ (hblank ▸ hname)
      rw [getCurrentConfig_content E hcurrent htext hblank]
      generalize Text.strip text = content at hname hblank
      cases hpath : configPath content with
      | error e =>
        obtain ⟨msg, rfl⟩ := configPath_error hpath
        rw [checkCurrent_stray E (getConfig_invalid E hpath w) (by rintro ⟨⟩)]
        exact .noId content _ hname hblank hpath
      | ok path =>
        obtain rfl := configPath_eq_ok hpath
        by_cases hne : path = defaultId
        · subst hne
          rcases getConfig_default E w with ⟨⟨cfg, w', hload, -, -⟩, -⟩ |
            ⟨bytes, e, hfile, hparse, hstray, hload⟩
          · rw [checkCurrent_ok E hload]
            exact .named _ cfg w' hname hload
          · rw [checkCurrent_stray E hload hstray.not_handled]
            exact .stray _ bytes e hname hfile hparse hstray
        have hload := getConfig_of_ne E hne w
        cases hfile : w.files path with
        | none =>
          rw [hfile] at hload
          obtain ⟨msg, hmsg⟩ := checkCurrent_handled E hload (.fileNotFound _)
          rw [hmsg]
          exact .unusable msg path hname hne (Or.inl hfile)
        | some bytes =>
          rw [hfile] at hload
          dsimp only at hload
          cases hparse : parseConfig E path bytes with
          | ok cfg =>
            rw [hparse] at hload
            rw [checkCurrent_ok E hload]
            exact .named _ cfg w hname hload
          | error e =>
            rw [hparse] at hload
            rcases parseConfig_error E hparse with ⟨msg', rfl⟩ | hstray
            · obtain ⟨msg, hmsg⟩ := checkCurrent_handled E hload (.configMalformed _ _)
              rw [hmsg]
              exact .unusable msg path hname hne (Or.inr ⟨bytes, _, _, hfile, hparse⟩)
            · rw [checkCurrent_stray E hload hstray.not_handled]
              exact .stray path bytes e hname hfile hparse hstray

theorem getCurrentConfig_regenerated (w : World) :
    Ends (getCurrentConfig E) w fun _ w' => Regenerated E w w' := by
  have hread := getCurrentConfig_reading E w
  unfold Ends
  generalize getCurrentConfig E w = p at hread ⊢
  cases hread with
  | named content cfg w' hname hload =>
    have hregen := getConfig_regenerated E content w
    rwa [Ends, hload] at hregen
  | _ => exact .refl w

/-! ## `is_active` -/

theorem isActive_ok (cfgId : Text) {content : Text} {w w' : World}
    (h : getCurrentConfig E w = (.ok content, w')) :
    isActive E cfgId w = (.ok (decide (content = cfgId)), w') :=
  attempt_ok (bind_ok h)

/-- An unusable `current.txt` makes no profile active. -/
theorem isActive_malformed (cfgId : Text) {msg : String} {named : Option Text} {w w' : World}
    (h : getCurrentConfig E w = (.error (.configMalformed msg named), w')) :
    isActive E cfgId w = (.ok false, w') :=
  (attempt_error (bind_error h)).trans rfl

theorem isActive_raises (cfgId : Text) {e : Exc} {w w' : World}
    (h : getCurrentConfig E w = (.error e, w')) (he : ∀ msg named, e ≠ .configMalformed msg named) :
    isActive E cfgId w = (.error e, w') := by
  refine (attempt_error (bind_error h)).trans ?_
  cases e with
  | configMalformed msg named => exact absurd rfl (he msg named)
  | _ => rfl

end WlanpiCore
