import WlanpiCore.Config.Effects
import WlanpiCore.Config.ModelRoundTrip

/-!
# Editing a profile and its secrets

**Theorem (`editConfig_public`).** A profile read with GET and sent back with PATCH is stored as it
was: `editConfig` writes `cfg.normalize`, which differs from `cfg` only in an absent list, now
empty, and in a secret that is the empty text, now absent. And whatever an update holds, every
entry it leaves has its own secrets or those of the stored entry with the same namespace and
interface (`KeepsOwn`).

The first part composes three inverses: reading the public form gives the entries without their
secrets (`modelValidate_public`), validating a dump gives the profile (`modelValidate_dump`), and
the lookup by key finds the entry itself (`oldEntry_of_mem`), because a valid profile uses no
interface twice.
-/

namespace WlanpiCore

open Prog

/-! ## Entries by key -/

/-- What secrets are matched by. -/
def Entry.key (e : Entry) : SecretKey := (e.netns, e.base.interface.val)

def Entry.mapSecurity (f : NetSecurity → NetSecurity) : Entry → Entry
  | .ns e => .ns (e.mapSecurity f)
  | .root e => .root (e.mapSecurity f)

/-- Change the security settings of every entry. -/
def NetConfig.mapSecurity (f : NetSecurity → NetSecurity) (cfg : NetConfig) : NetConfig where
  id := cfg.id
  namespaces := some ((cfg.namespaces.getD []).map (·.mapSecurity f))
  roots := some ((cfg.roots.getD []).map (·.mapSecurity f))

theorem NetConfig.mapSecurity_entries (f : NetSecurity → NetSecurity) (cfg : NetConfig) :
    (cfg.mapSecurity f).entries = cfg.entries.map (·.mapSecurity f) := by
  simp only [NetConfig.entries, NetConfig.mapSecurity, Option.getD_some, List.map_append,
    List.map_map]
  rfl

/-- A secret that is the empty text counts as none. -/
def NetSecurity.dropEmpty (s : NetSecurity) : NetSecurity :=
  { s with
    psk := if isSet s.psk then s.psk else none
    password := if isSet s.password then s.password else none }

/-- Absent lists are empty, and empty secrets absent. -/
def NetConfig.normalize (cfg : NetConfig) : NetConfig := cfg.mapSecurity .dropEmpty

/-! ## The check for unique interfaces -/

theorem nodup_of_duplicates {α : Type} [BEq α] [LawfulBEq α] {l : List α}
    (h : (l.filter fun a => 1 < l.count a) = []) : l.Nodup := by
  rw [List.nodup_iff_count_le_one]
  intro a
  by_cases ha : a ∈ l
  · have hnot := List.filter_eq_nil_iff.1 h a ha
    simpa using hnot
  · rw [List.count_eq_zero_of_not_mem ha]
    exact Nat.zero_le 1

/-- What the check lets pass: no interface twice, no display name that is another entry's interface,
and no name twice in one namespace. -/
theorem validateUniqueInterfaces_none {cfg : NetConfig} (h : validateUniqueInterfaces cfg = none) :
    (cfg.entries.map fun e => e.base.interface.val).Nodup ∧
      (∀ e ∈ cfg.entries, e.base.ifaceDisplayName.val ≠ [] →
        e.base.ifaceDisplayName.val ≠ e.base.interface.val →
        e.base.ifaceDisplayName.val ∉ cfg.entries.map fun e => e.base.interface.val) ∧
      (cfg.entries.map fun e => (e.netns, if e.base.ifaceDisplayName.val = [] then
        e.base.interface.val else e.base.ifaceDisplayName.val)).Nodup := by
  unfold validateUniqueInterfaces at h
  simp only [List.map_map, Function.comp_def] at h
  split at h
  · cases h
  · rename_i hduplicates
    split at h
    · cases h
    · rename_i hfind
      split at h
      · cases h
      · rename_i hclashes
        refine ⟨nodup_of_duplicates (not_not.1 hduplicates), ?_,
          nodup_of_duplicates (not_not.1 hclashes)⟩
        intro e he hempty hother hmem
        rw [List.find?_eq_none] at hfind
        exact hfind _ (List.mem_map_of_mem he)
          (by simpa using ⟨hempty, hother, by simpa using hmem⟩)

/-- A valid profile uses no interface twice. -/
theorem NetConfig.Valid.interfaces {cfg : NetConfig} (h : cfg.Valid) :
    (cfg.entries.map fun e => e.base.interface.val).Nodup :=
  (validateUniqueInterfaces_none h.unique).1

/-- The check reads no security settings. -/
theorem validateUniqueInterfaces_mapSecurity (f : NetSecurity → NetSecurity) (cfg : NetConfig) :
    validateUniqueInterfaces (cfg.mapSecurity f) = validateUniqueInterfaces cfg := by
  have hentries : (cfg.mapSecurity f).entries.map (fun e => (e.netns, e.base)) =
      (cfg.entries.map fun e => (e.netns, e.base)).map fun e => (e.1, e.2.mapSecurity f) := by
    rw [cfg.mapSecurity_entries, List.map_map, List.map_map]
    refine List.map_congr_left fun e _ => ?_
    cases e <;> rfl
  unfold validateUniqueInterfaces
  rw [hentries]
  simp only [List.map_map, List.find?_map, Function.comp_def, RootConfigBase.mapSecurity]
  cases List.find? _ cfg.entries <;> rfl

/-! ## Matching by key -/

/-- A valid profile's entry is found under its key. -/
theorem oldEntry_of_mem {cfg : NetConfig} (h : cfg.Valid) {e : Entry} (he : e ∈ cfg.entries) :
    oldEntry cfg e.key = some e.base := by
  refine lookup_of_nodup ?_ (List.mem_reverse.2 (List.mem_map.2 ⟨e, he, rfl⟩))
  rw [List.map_reverse, List.nodup_reverse]
  have hinterfaces : ((byKey cfg).map Prod.fst).map Prod.snd =
      cfg.entries.map fun e => e.base.interface.val := by
    rw [byKey, List.map_map, List.map_map]
    rfl
  exact List.Nodup.of_map Prod.snd (hinterfaces ▸ h.interfaces)

/-- An entry found under a key is one of the profile's, with that key. -/
theorem oldEntry_mem {cfg : NetConfig} {key : SecretKey} {old : RootConfig}
    (h : oldEntry cfg key = some old) : ∃ e ∈ cfg.entries, e.key = key ∧ e.base = old := by
  unfold oldEntry at h
  obtain ⟨l₁, l₂, hl, -⟩ := List.lookup_eq_some_iff.1 h
  have hmem : (key, old) ∈ (byKey cfg).reverse := by
    rw [hl]
    simp
  obtain ⟨e, he, heq⟩ := List.mem_map.1 (List.mem_reverse.1 hmem)
  exact ⟨e, he, congrArg Prod.fst heq, congrArg Prod.snd heq⟩

/-- `_keep_stored_secrets`, for one entry. -/
def Entry.keepSecrets (stored : NetConfig) : Entry → Entry
  | .ns e =>
    .ns { WlanpiCore.keepSecrets stored (some e.netns.val) e.toRootConfigBase with netns :=
      e.netns }
  | .root e => .root (WlanpiCore.keepSecrets stored none e)

theorem keepStoredSecrets_entries (stored updated : NetConfig) :
    (keepStoredSecrets stored updated).entries = updated.entries.map (·.keepSecrets stored) := by
  unfold NetConfig.entries keepStoredSecrets
  rw [List.map_append]
  congr 1
  · cases updated.namespaces with
    | none => rfl
    | some es =>
      simp only [Option.map_some, Option.getD_some, List.map_map]
      rfl
  · cases updated.roots with
    | none => rfl
    | some es =>
      simp only [Option.map_some, Option.getD_some, List.map_map]
      rfl

/-! ## Every entry keeps its own secrets -/

def Entry.psk (e : Entry) : Option (WpaText "psk") := e.base.security.bind (·.psk)

def Entry.password (e : Entry) : Option (WpaText "password") := e.base.security.bind (·.password)

/-- `e'` is the update's entry `e` with, at most, the secrets of the stored entry that has the same
namespace and interface. -/
structure KeepsOwn (stored : NetConfig) (e e' : Entry) : Prop where
  key : e'.key = e.key
  settings : e'.mapSecurity .withoutSecrets = e.mapSecurity .withoutSecrets
  psk : e'.psk = e.psk ∨ ∃ old ∈ stored.entries, old.key = e.key ∧ e'.psk = old.psk
  password : e'.password = e.password ∨
    ∃ old ∈ stored.entries, old.key = e.key ∧ e'.password = old.password

theorem keptSecret_cases {label : String} (new old : Option (WpaText label)) :
    keptSecret new old = new ∨ keptSecret new old = old := by
  unfold keptSecret
  split_ifs
  · exact Or.inr rfl
  · exact Or.inl rfl

theorem keepSecrets_cases (stored : NetConfig) (netns : Option Text) (entry : RootConfig) :
    keepSecrets stored netns entry = entry ∨
      ∃ old ∈ stored.entries, ∃ oldSecurity security,
        old.key = (netns, entry.interface.val) ∧ old.base.security = some oldSecurity ∧
        entry.security = some security ∧
        keepSecrets stored netns entry = { entry with security := some { security with
          psk := keptSecret security.psk oldSecurity.psk
          password := keptSecret security.password oldSecurity.password } } := by
  unfold keepSecrets
  cases hold : oldEntry stored (netns, entry.interface.val) with
  | none => exact Or.inl rfl
  | some old =>
    obtain ⟨e, he, hkey, rfl⟩ := oldEntry_mem hold
    dsimp only
    split
    · rename_i oldSecurity security hos hs
      exact Or.inr ⟨e, he, oldSecurity, security, hkey, hos, hs, rfl⟩
    · exact Or.inl rfl

theorem keepSecrets_keepsOwn (stored : NetConfig) (e : Entry) :
    KeepsOwn stored e (e.keepSecrets stored) := by
  -- The settings of `e` with some secrets of a stored entry with its key.
  have hmerge {oldSecurity security : NetSecurity} {old : Entry} (hold : old ∈ stored.entries)
      (hkey : old.key = e.key) (hos : old.base.security = some oldSecurity)
      (hs : e.base.security = some security) {e' : Entry} (hkey' : e'.key = e.key)
      (hbase : e'.base.security = some { security with
        psk := keptSecret security.psk oldSecurity.psk
        password := keptSecret security.password oldSecurity.password })
      (hsettings : e'.mapSecurity .withoutSecrets = e.mapSecurity .withoutSecrets) :
      KeepsOwn stored e e' := by
    refine ⟨hkey', hsettings, ?_, ?_⟩
    · simp only [Entry.psk, hbase, hs, Option.bind_some]
      refine (keptSecret_cases security.psk oldSecurity.psk).imp id fun h => ⟨old, hold, hkey, ?_⟩
      rw [h, hos]
      rfl
    · simp only [Entry.password, hbase, hs, Option.bind_some]
      refine (keptSecret_cases security.password oldSecurity.password).imp id fun h =>
        ⟨old, hold, hkey, ?_⟩
      rw [h, hos]
      rfl
  cases e with
  | ns e =>
    rcases keepSecrets_cases stored (some e.netns.val) e.toRootConfigBase with
      heq | ⟨old, hold, oldSecurity, security, hkey, hos, hs, heq⟩
    · have hsame : (Entry.ns e).keepSecrets stored = .ns e := by
        rw [Entry.keepSecrets, heq]
      rw [hsame]
      exact ⟨rfl, rfl, Or.inl rfl, Or.inl rfl⟩
    · refine hmerge hold hkey hos hs ?_ ?_ ?_
      all_goals rw [Entry.keepSecrets, heq]
      · rfl
      · rfl
      · simp [Entry.mapSecurity, NamespaceConfigBase.mapSecurity, RootConfigBase.mapSecurity,
          NetSecurity.withoutSecrets, hs]
  | root e =>
    rcases keepSecrets_cases stored none e with
      heq | ⟨old, hold, oldSecurity, security, hkey, hos, hs, heq⟩
    · have hsame : (Entry.root e).keepSecrets stored = .root e := by
        rw [Entry.keepSecrets, heq]
      rw [hsame]
      exact ⟨rfl, rfl, Or.inl rfl, Or.inl rfl⟩
    · refine hmerge hold hkey hos hs ?_ ?_ ?_
      all_goals rw [Entry.keepSecrets, heq]
      · rfl
      · rfl
      · simp [Entry.mapSecurity, RootConfigBase.mapSecurity, NetSecurity.withoutSecrets, hs]

/-! ## The public form loses only the secrets -/

theorem keptSecret_none {label : String} (old : Option (WpaText label)) :
    keptSecret none old = if isSet old then old else none := by
  simp [keptSecret]

theorem keepSecrets_withoutSecrets {cfg : NetConfig} {netns : Option Text} {e : RootConfig}
    (hold : oldEntry cfg (netns, e.interface.val) = some e) :
    keepSecrets cfg netns (e.mapSecurity .withoutSecrets) = e.mapSecurity .dropEmpty := by
  have hold' : oldEntry cfg (netns, (e.mapSecurity .withoutSecrets).interface.val) = some e := hold
  unfold keepSecrets
  rw [hold']
  rcases hs : e.security with _ | s
  · simp [RootConfigBase.mapSecurity, hs]
  · simp [RootConfigBase.mapSecurity, hs, NetSecurity.withoutSecrets, NetSecurity.dropEmpty,
      keptSecret_none]

/-- An entry without its secrets gets them back, unless they are empty. -/
theorem Entry.keepSecrets_withoutSecrets {cfg : NetConfig} (h : cfg.Valid) {e : Entry}
    (he : e ∈ cfg.entries) :
    (e.mapSecurity .withoutSecrets).keepSecrets cfg = e.mapSecurity .dropEmpty := by
  have hold := oldEntry_of_mem h he
  cases e with
  | ns e =>
    have hbase := WlanpiCore.keepSecrets_withoutSecrets (e := e.toRootConfigBase) hold
    exact congrArg (fun b : RootConfig => Entry.ns { b with netns := e.netns }) hbase
  | root e =>
    have hbase := WlanpiCore.keepSecrets_withoutSecrets (e := e) hold
    exact congrArg Entry.root hbase

/-- What the public form of a profile updates it to. -/
def publicUpdate (cfg : NetConfig) : NetConfigUpdate where
  namespaces := some ((cfg.namespaces.getD []).map (·.mapSecurity .withoutSecrets))
  roots := some ((cfg.roots.getD []).map (·.mapSecurity .withoutSecrets))

theorem applyUpdate_publicUpdate (cfg : NetConfig) :
    applyUpdate cfg (publicUpdate cfg) = cfg.mapSecurity .withoutSecrets := rfl

theorem NetConfig.Valid.withoutSecrets {cfg : NetConfig} (h : cfg.Valid) :
    (cfg.mapSecurity .withoutSecrets).Valid := by
  refine ⟨fun e he s hs => ?_, (validateUniqueInterfaces_mapSecurity _ cfg).trans h.unique⟩
  rw [cfg.mapSecurity_entries] at he
  obtain ⟨e, -, rfl⟩ := List.mem_map.1 he
  cases e with
  | ns e =>
    obtain ⟨s, -, rfl⟩ := Option.map_eq_some_iff.1 hs
    exact validatePskFormat_withoutSecrets s
  | root e =>
    obtain ⟨s, -, rfl⟩ := Option.map_eq_some_iff.1 hs
    exact validatePskFormat_withoutSecrets s

theorem keepStoredSecrets_withoutSecrets {cfg : NetConfig} (h : cfg.Valid) :
    keepStoredSecrets cfg (cfg.mapSecurity .withoutSecrets) = cfg.normalize := by
  have hns : ∀ e ∈ cfg.namespaces.getD [],
      (Entry.ns (e.mapSecurity .withoutSecrets)).keepSecrets cfg = .ns (e.mapSecurity .dropEmpty) :=
    fun e he => Entry.keepSecrets_withoutSecrets h
      (List.mem_append_left _ (List.mem_map_of_mem (f := Entry.ns) he))
  have hroots : ∀ e ∈ cfg.roots.getD [],
      (Entry.root (e.mapSecurity .withoutSecrets)).keepSecrets cfg =
        .root (e.mapSecurity .dropEmpty) :=
    fun e he => Entry.keepSecrets_withoutSecrets h
      (List.mem_append_right _ (List.mem_map_of_mem (f := Entry.root) he))
  unfold keepStoredSecrets NetConfig.normalize NetConfig.mapSecurity
  simp only [Option.map_some, List.map_map]
  congr 2
  · exact List.map_congr_left fun e he => Entry.ns.inj (hns e he)
  · exact List.map_congr_left fun e he => Entry.root.inj (hroots e he)

/-! ## Editing -/

/-- The entries of a validated update passed their own check. -/
theorem NetConfigUpdate.modelValidate_psk {P : Pydantic} {members : List (Option Text × Json)}
    {configUpdate : NetConfigUpdate}
    (h : NetConfigUpdate.modelValidate P members = .ok configUpdate) :
    (∀ es ∈ configUpdate.namespaces, ∀ e ∈ es, ∀ s ∈ e.security, validatePskFormat s = none) ∧
      ∀ es ∈ configUpdate.roots, ∀ e ∈ es, ∀ s ∈ e.security, validatePskFormat s = none := by
  obtain ⟨f, roots, hf, hroots, rfl⟩ := Validation.seq_eq_ok h
  obtain ⟨namespaces, hnamespaces, rfl⟩ := Validation.map_eq_ok hf
  exact ⟨Yields.field (parseNamespaces_yields P).optional (by simp) hnamespaces,
    Yields.field (parseRoots_yields P).optional (by simp) hroots⟩

/-- So did the entries of the profile it makes of a valid one. -/
theorem applyUpdate_psk {cfg : NetConfig} {configUpdate : NetConfigUpdate} (hcfg : cfg.Valid)
    (h : (∀ es ∈ configUpdate.namespaces, ∀ e ∈ es, ∀ s ∈ e.security, validatePskFormat s = none) ∧
      ∀ es ∈ configUpdate.roots, ∀ e ∈ es, ∀ s ∈ e.security, validatePskFormat s = none) :
    ∀ e ∈ (applyUpdate cfg configUpdate).entries, ∀ s ∈ e.base.security,
      validatePskFormat s = none := by
  intro e he s hs
  rcases List.mem_append.1 he with he | he
  · obtain ⟨n, hn, rfl⟩ := List.mem_map.1 he
    rcases hupdate : configUpdate.namespaces with _ | es
    · refine hcfg.psk (.ns n) (List.mem_append_left _ (List.mem_map_of_mem ?_)) s hs
      simpa [applyUpdate, hupdate] using hn
    · refine h.1 es hupdate n ?_ s hs
      simpa [applyUpdate, hupdate] using hn
  · obtain ⟨r, hr, rfl⟩ := List.mem_map.1 he
    rcases hupdate : configUpdate.roots with _ | es
    · refine hcfg.psk (.root r) (List.mem_append_right _ (List.mem_map_of_mem ?_)) s hs
      simpa [applyUpdate, hupdate] using hr
    · refine h.2 es hupdate r ?_ s hs
      simpa [applyUpdate, hupdate] using hr

variable {E : Env}

theorem getConfig_valid {cfgId : Text} {w w' : World} {cfg : NetConfig}
    (h : getConfig E cfgId w = (.ok cfg, w')) : cfg.Valid := by
  rcases hpath : configPath cfgId with e | path
  · rw [getConfig_invalid E hpath] at h
    cases h
  obtain rfl := configPath_eq_ok hpath
  by_cases hne : path = defaultId
  · subst hne
    rcases getConfig_default E w with ⟨⟨cfg', w'', hload, hvalid, -⟩, -⟩ |
      ⟨bytes, e, -, -, -, hload⟩
    · rw [h] at hload
      cases hload
      exact hvalid
    · rw [h] at hload
      cases hload
  · rw [getConfig_of_ne E hne] at h
    rcases hfile : w.files path with _ | bytes
    · rw [hfile] at h
      cases h
    · rw [hfile] at h
      exact parseConfig_valid E (Prod.mk.inj h).1

/-- Validating a profile again changes nothing. -/
theorem revalidate_eq_ok (hP : E.pydantic.Coerces) {cfg cfg' : NetConfig}
    (hpsk : ∀ e ∈ cfg.entries, ∀ s ∈ e.base.security, validatePskFormat s = none)
    (h : revalidate E cfg = .ok cfg') : cfg' = cfg := by
  unfold revalidate at h
  rw [modelValidate_dump hP hpsk] at h
  split at h
  · rename_i hok
    cases h
    obtain ⟨hvalid, -⟩ := Validation.after_eq_ok hok
    cases hvalid
    rfl
  · cases h

theorem revalidate_valid (hP : E.pydantic.Coerces) {cfg : NetConfig} (h : cfg.Valid) :
    revalidate E cfg = .ok cfg := by
  unfold revalidate
  rw [modelValidate_modelDump hP h]

theorem editConfig_eq {path : ConfigId} {w w₀ w₁ : World} {cfg : NetConfig}
    (configUpdate : NetConfigUpdate) (hload : getConfig E path.val w = (.ok cfg, w₀))
    (hinactive : isActive E path.val w₀ = (.ok false, w₁)) :
    editConfig E path.val configUpdate w =
      match editedConfig E cfg configUpdate with
      | .ok cfg' => (.ok cfg', w₁.write path (Text.encode (E.dumpJson cfg')))
      | .error e => (.error e, w₁) := by
  unfold editConfig
  rw [configPath_val]
  refine (bind_ok rfl).trans ((bind_ok hload).trans ((bind_ok hinactive).trans ?_))
  cases editedConfig E cfg configUpdate <;> rfl

/-- Sending the public form of an inactive profile back stores the profile, and no update gives an
entry another entry's secrets. -/
theorem editConfig_public (E : Env) (hP : E.pydantic.Coerces) (path : ConfigId) {w w₀ w₁ : World}
    {cfg : NetConfig} (hload : getConfig E path.val w = (.ok cfg, w₀))
    (hinactive : isActive E path.val w₀ = (.ok false, w₁)) :
    (∃ configUpdate, NetConfigUpdate.modelValidate E.pydantic
        (NetConfigPublic.fromConfig cfg).modelDump = .ok configUpdate ∧
      editConfig E path.val configUpdate w =
        (.ok cfg.normalize, w₁.write path (Text.encode (E.dumpJson cfg.normalize)))) ∧
    ∀ members configUpdate,
      NetConfigUpdate.modelValidate E.pydantic members = .ok configUpdate →
      ∀ cfg' w', editConfig E path.val configUpdate w = (.ok cfg', w') →
        w'.files path = some (Text.encode (E.dumpJson cfg')) ∧
        List.Forall₂ (KeepsOwn cfg) (applyUpdate cfg configUpdate).entries cfg'.entries := by
  have hvalid := getConfig_valid hload
  constructor
  · refine ⟨publicUpdate cfg, modelValidate_public hP cfg, ?_⟩
    rw [editConfig_eq _ hload hinactive]
    have hedited : editedConfig E cfg (publicUpdate cfg) = .ok cfg.normalize := by
      unfold editedConfig
      rw [applyUpdate_publicUpdate, revalidate_valid hP hvalid.withoutSecrets]
      exact congrArg Except.ok (keepStoredSecrets_withoutSecrets hvalid)
    rw [hedited]
  · intro members configUpdate hupdate cfg' w' hedit
    rw [editConfig_eq _ hload hinactive] at hedit
    unfold editedConfig at hedit
    cases hrevalidate : revalidate E (applyUpdate cfg configUpdate) with
    | error e =>
      rw [hrevalidate] at hedit
      cases hedit
    | ok updated =>
      have hpsk := applyUpdate_psk hvalid (NetConfigUpdate.modelValidate_psk hupdate)
      obtain rfl := revalidate_eq_ok hP hpsk hrevalidate
      rw [hrevalidate] at hedit
      cases hedit
      refine ⟨by simp [World.write], ?_⟩
      rw [keepStoredSecrets_entries, List.forall₂_map_right_iff, List.forall₂_same]
      exact fun e _ => keepSecrets_keepsOwn cfg e

/-- A profile with one network and its key. -/
def homeConfig : NetConfig where
  id := labId
  roots := some
    [{ ifaceDisplayName := ⟨"wlan0".toList, wlan0_valid⟩
       phy := ⟨"phy0".toList, phy0_valid⟩
       interface := ⟨"wlan0".toList, wlan0_valid⟩
       security := some
         { ssid := ⟨"home".toList, home_valid⟩
           security := .wpa2
           psk := some ⟨"passphrase".toList, by decide⟩ } }]

def homeText : Text :=
  ("\x7b\"id\": \"lab\", \"roots\": [\x7b\"iface_display_name\": \"wlan0\", \"phy\": \"phy0\", " ++
    "\"interface\": \"wlan0\", \"security\": \x7b\"ssid\": \"home\", " ++
    "\"security\": \"WPA2-PSK\", \"psk\": \"passphrase\"\x7d\x7d]\x7d").toList

/-- The profile is stored and `current.txt` is blank. -/
def homeWorld : World :=
  { labWorld (Text.encode "\n".toList) with
    files := Function.update (fun _ => none) labId (some (Text.encode homeText)) }

theorem bareEnv_coerces : bareEnv.pydantic.Coerces := ⟨fun _ => rfl, fun _ => rfl, fun _ => rfl⟩

theorem editConfig_public_home :
    (∃ configUpdate, NetConfigUpdate.modelValidate bareEnv.pydantic
        (NetConfigPublic.fromConfig homeConfig).modelDump = .ok configUpdate ∧
      editConfig bareEnv labId.val configUpdate homeWorld =
        (.ok homeConfig.normalize,
          homeWorld.write labId (Text.encode (bareEnv.dumpJson homeConfig.normalize)))) ∧
    ∀ members configUpdate,
      NetConfigUpdate.modelValidate bareEnv.pydantic members = .ok configUpdate →
      ∀ cfg' w', editConfig bareEnv labId.val configUpdate homeWorld = (.ok cfg', w') →
        w'.files labId = some (Text.encode (bareEnv.dumpJson cfg')) ∧
        List.Forall₂ (KeepsOwn homeConfig) (applyUpdate homeConfig configUpdate).entries
          cfg'.entries := by
  have hparse : (match parseConfig bareEnv labId (Text.encode homeText) with
      | .ok cfg => decide (cfg = homeConfig)
      | .error _ => false) = true := by decide +kernel
  have hload : getConfig bareEnv labId.val homeWorld = (.ok homeConfig, homeWorld) := by
    have hfile : homeWorld.files labId = some (Text.encode homeText) := by simp [homeWorld]
    rw [getConfig_of_ne bareEnv (by decide), hfile]
    split at hparse
    · rename_i heq
      simp only [heq, of_decide_eq_true hparse]
    · cases hparse
  have hblank := getCurrentConfig_blank bareEnv (w := homeWorld) rfl
    (by decide +kernel : Text.readText (Text.encode "\n".toList) = some "\n".toList)
    (by decide +kernel)
  exact editConfig_public bareEnv bareEnv_coerces labId hload (isActive_malformed bareEnv _ hblank)

end WlanpiCore
