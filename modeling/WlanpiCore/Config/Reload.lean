import WlanpiCore.Config.Edit

/-!
# Reading a profile after an edit

`edit_config` validates the profile first and then puts the stored secrets into it. A secret that
was valid under the stored security type, or that no type checked, can be none under the new one;
then the file that was written is malformed for the next reader.

**Theorem (`editConfig_reload_iff`).** What `edit_config` returned is read back exactly when every
psk that is kept is one for the security type it is kept under, and the edit does not bring back the
hardcoded default that readers replace.
-/

namespace WlanpiCore

open Prog

/-- `json.loads` reads the dump of a profile as its `model_dump()`. -/
def Env.DumpsAs (E : Env) (cfg : NetConfig) : Prop :=
  ∃ text, Text.readText (Text.encode (E.dumpJson cfg)) = some text ∧ Text.strip text ≠ [] ∧
    Json.loads E.depth (Text.strip text) = .ok (.obj cfg.modelDump)

/-- If the entry of an update keeps the stored psk, that psk is one for the entry's security type.
-/
def KeptFits (stored : NetConfig) (e : Entry) : Prop :=
  ∀ security old oldSecurity, e.base.security = some security → oldEntry stored e.key = some old →
    old.security = some oldSecurity → security.psk = none → isSet oldSecurity.psk = true →
    validatePskFormat { security with psk := oldSecurity.psk } = none

/-- The update makes the stored profile the hardcoded default from before, and no secret is kept. -/
def RestoresLegacy (path : ConfigId) (stored : NetConfig) (configUpdate : NetConfigUpdate) : Prop :=
  path = defaultId ∧ applyUpdate stored configUpdate = legacyDefaultConfig ∧
    keepStoredSecrets stored legacyDefaultConfig = legacyDefaultConfig

/-! ## The profile that is written -/

theorem keepSecrets_psk_iff {stored : NetConfig} {netns : Option Text} {entry : RootConfig}
    (hvalid : ∀ s ∈ entry.security, validatePskFormat s = none) :
    (∀ s ∈ (keepSecrets stored netns entry).security, validatePskFormat s = none) ↔
      ∀ security old oldSecurity, entry.security = some security →
        oldEntry stored (netns, entry.interface.val) = some old → old.security = some oldSecurity →
        security.psk = none → isSet oldSecurity.psk = true →
        validatePskFormat { security with psk := oldSecurity.psk } = none := by
  unfold keepSecrets
  cases hold : oldEntry stored (netns, entry.interface.val) with
  | none => exact iff_of_true hvalid (by simp)
  | some old =>
    dsimp only
    cases hos : old.security with
    | none =>
      refine iff_of_true hvalid ?_
      rintro security old' oldSecurity hs ⟨⟩ hos'
      rw [hos] at hos'
      cases hos'
    | some oldSecurity =>
      cases hs : entry.security with
      | none => exact iff_of_true (by simp [hs]) (by simp)
      | some security =>
        have hsecurity := hvalid security hs
        dsimp only
        by_cases hkept : security.psk = none ∧ isSet oldSecurity.psk = true
        · have hpsk : keptSecret security.psk oldSecurity.psk = oldSecurity.psk := if_pos hkept
          constructor
          · rintro h security' old' oldSecurity' ⟨⟩ ⟨⟩ hos' - -
            rw [hos] at hos'
            cases hos'
            have := h _ rfl
            rwa [hpsk] at this
          · rintro h s ⟨⟩
            rw [hpsk]
            exact h security old oldSecurity rfl rfl hos hkept.1 hkept.2
        · have hpsk : keptSecret security.psk oldSecurity.psk = security.psk := if_neg hkept
          refine iff_of_true ?_ ?_
          · rintro s ⟨⟩
            rw [hpsk]
            exact hsecurity
          · rintro security' old' oldSecurity' ⟨⟩ ⟨⟩ hos' hnone hset
            rw [hos] at hos'
            cases hos'
            exact absurd ⟨hnone, hset⟩ hkept

theorem Entry.keepSecrets_psk_iff {stored : NetConfig} {e : Entry}
    (hvalid : ∀ s ∈ e.base.security, validatePskFormat s = none) :
    (∀ s ∈ (e.keepSecrets stored).base.security, validatePskFormat s = none) ↔
      KeptFits stored e := by
  cases e with
  | ns e => exact WlanpiCore.keepSecrets_psk_iff hvalid
  | root e => exact WlanpiCore.keepSecrets_psk_iff hvalid

theorem Entry.keepSecrets_mapSecurity (stored : NetConfig) (e : Entry) :
    (e.keepSecrets stored).mapSecurity .withoutSecrets = e.mapSecurity .withoutSecrets :=
  (keepSecrets_keepsOwn stored e).settings

/-- Secrets have no part in the check for unique interfaces. -/
theorem validateUniqueInterfaces_keepStoredSecrets (stored cfg : NetConfig) :
    validateUniqueInterfaces (keepStoredSecrets stored cfg) = validateUniqueInterfaces cfg := by
  have hentries : ((keepStoredSecrets stored cfg).mapSecurity .withoutSecrets).entries =
      (cfg.mapSecurity .withoutSecrets).entries := by
    rw [NetConfig.mapSecurity_entries, NetConfig.mapSecurity_entries, keepStoredSecrets_entries,
      List.map_map]
    exact List.map_congr_left fun e _ => e.keepSecrets_mapSecurity stored
  rw [← validateUniqueInterfaces_mapSecurity .withoutSecrets,
    ← validateUniqueInterfaces_mapSecurity .withoutSecrets cfg]
  unfold validateUniqueInterfaces
  rw [hentries]

/-- The profile with the kept secrets is valid exactly when they fit. -/
theorem keepStoredSecrets_valid_iff {stored cfg : NetConfig} (h : cfg.Valid) :
    (keepStoredSecrets stored cfg).Valid ↔ ∀ e ∈ cfg.entries, KeptFits stored e := by
  have hpsk : (∀ e ∈ (keepStoredSecrets stored cfg).entries, ∀ s ∈ e.base.security,
      validatePskFormat s = none) ↔ ∀ e ∈ cfg.entries, KeptFits stored e := by
    rw [keepStoredSecrets_entries, List.forall_mem_map]
    exact forall₂_congr fun e he => Entry.keepSecrets_psk_iff (h.psk e he)
  rw [← hpsk]
  constructor
  · intro hvalid
    exact hvalid.psk
  · intro hfits
    exact ⟨hfits, (validateUniqueInterfaces_keepStoredSecrets stored cfg).trans h.unique⟩

/-! ## The hardcoded default -/

theorem keptSecret_eq_none {label : String} {new old : Option (WpaText label)}
    (h : keptSecret new old = none) : new = none := by
  unfold keptSecret at h
  split_ifs at h with hkept
  · exact hkept.1
  · exact h

/-- An entry without secrets afterwards is as it was. -/
theorem keepSecrets_eq_self {stored : NetConfig} {netns : Option Text} {entry : RootConfig}
    (h : ∀ s ∈ (keepSecrets stored netns entry).security, s.psk = none ∧ s.password = none) :
    keepSecrets stored netns entry = entry := by
  rcases keepSecrets_cases stored netns entry
    with heq | ⟨_, _, oldSecurity, security, -, -, hs, heq⟩
  · exact heq
  · rw [heq] at h ⊢
    obtain ⟨hpsk, hpassword⟩ := h _ rfl
    dsimp only at hpsk hpassword
    rw [hpsk, hpassword, ← keptSecret_eq_none hpsk, ← keptSecret_eq_none hpassword, ← hs]

/-- The hardcoded default has no secret, so it comes only from itself. -/
theorem keepStoredSecrets_eq_legacy {stored cfg : NetConfig}
    (h : keepStoredSecrets stored cfg = legacyDefaultConfig) : cfg = legacyDefaultConfig := by
  have hnone : ∀ e ∈ legacyDefaultConfig.entries, ∀ s ∈ e.base.security,
      s.psk = none ∧ s.password = none := by decide
  have hself : ∀ es ∈ cfg.roots, ∀ e ∈ es, keepSecrets stored none e = e := by
    intro es hes e he
    apply keepSecrets_eq_self
    refine hnone (Entry.keepSecrets stored (.root e)) ?_
    rw [← h, keepStoredSecrets_entries]
    apply List.mem_map_of_mem
    apply List.mem_append_right
    rw [Option.mem_def.1 hes]
    exact List.mem_map_of_mem he
  have hns : cfg.namespaces = some [] := by
    have := congrArg NetConfig.namespaces h
    cases hcfg : cfg.namespaces with
    | none => simp [keepStoredSecrets, hcfg, legacyDefaultConfig] at this
    | some es => simpa [keepStoredSecrets, hcfg, legacyDefaultConfig] using this
  have hroots : (cfg.roots.map fun es => es.map (keepSecrets stored none)) = cfg.roots := by
    cases hcfg : cfg.roots with
    | none => rfl
    | some es =>
        rw [Option.map_some, List.map_congr_left (hself es hcfg), List.map_id'']; intro; rfl
  rw [← h]
  unfold keepStoredSecrets
  rw [hroots, hns]
  cases cfg
  cases hns
  rfl

variable {E : Env}

/-- The replacement for the hardcoded default never is it. -/
theorem writeLiveDefault_ne_legacy (w : World) :
    (writeLiveDefault E w).1 ≠ .ok legacyDefaultConfig := by
  intro h
  have hnone := writeLiveDefault_noSecurity E w legacyDefaultConfig h
  revert hnone
  decide

/-! ## Reading it back -/

theorem parseConfig_dump {cfg : NetConfig} (h : E.DumpsAs cfg) {path : ConfigId}
    (hmodel : NetConfig.modelValidate E.pydantic cfg.modelDump = .ok cfg) :
    parseConfig E path (Text.encode (E.dumpJson cfg)) = .ok cfg := by
  obtain ⟨text, htext, hne, hloads⟩ := h
  unfold parseConfig
  rw [htext]
  dsimp only
  rw [if_neg hne]
  split
  all_goals
    rename_i heq
    rw [hloads] at heq
    cases heq
  · rw [hmodel]
  · rename_i hobj
    exact (hobj _ rfl).elim

/-- A valid profile is read back from its dump, unless it is the hardcoded default. -/
theorem getConfig_dump (hP : E.pydantic.Coerces) {cfg : NetConfig} (h : E.DumpsAs cfg)
    (hvalid : cfg.Valid) {path : ConfigId} {w : World}
    (hfile : w.files path = some (Text.encode (E.dumpJson cfg))) :
    (getConfig E path.val w).1 =
      if path = defaultId ∧ cfg = legacyDefaultConfig then (writeLiveDefault E w).1
        else .ok cfg := by
  have hparse : parseConfig E path (Text.encode (E.dumpJson cfg)) = .ok cfg :=
    parseConfig_dump h (modelValidate_modelDump hP hvalid)
  rw [getConfig_eq, hfile]
  dsimp only
  by_cases hlegacy : path = defaultId ∧ cfg = legacyDefaultConfig
  · obtain ⟨cfg', w', hdefault, -, -⟩ := writeLiveDefault_spec E w
    have hread : readConfig E path (Text.encode (E.dumpJson cfg)) w = (.ok cfg', w') := by
      rw [readConfig_ok E hparse, if_pos hlegacy, hdefault]
    rw [if_pos hlegacy, hdefault, attempt_ok hread]
  · have hread : readConfig E path (Text.encode (E.dumpJson cfg)) w = (.ok cfg, w) := by
      rw [readConfig_ok E hparse, if_neg hlegacy]
    rw [if_neg hlegacy, attempt_ok hread]

/-- What a successful edit returned is read back exactly when the secrets it kept fit and it does
not restore the hardcoded default. -/
theorem editConfig_reload_iff (hP : E.pydantic.Coerces) (path : ConfigId) {w w₀ w₁ w' : World}
    {stored cfg : NetConfig} {members : List (Option Text × Json)} {configUpdate : NetConfigUpdate}
    (hload : getConfig E path.val w = (.ok stored, w₀))
    (hinactive : isActive E path.val w₀ = (.ok false, w₁))
    (hupdate : NetConfigUpdate.modelValidate E.pydantic members = .ok configUpdate)
    (hedit : editConfig E path.val configUpdate w = (.ok cfg, w')) (hdump : E.DumpsAs cfg) :
    (getConfig E path.val w').1 = .ok cfg ↔
      (∀ e ∈ (applyUpdate stored configUpdate).entries, KeptFits stored e) ∧
        ¬ RestoresLegacy path stored configUpdate := by
  have hpsk := applyUpdate_psk (getConfig_valid hload) (NetConfigUpdate.modelValidate_psk hupdate)
  rw [editConfig_eq _ hload hinactive] at hedit
  unfold editedConfig at hedit
  cases hrevalidate : revalidate E (applyUpdate stored configUpdate) with
  | error e =>
    rw [hrevalidate] at hedit
    cases hedit
  | ok updated =>
    obtain rfl := revalidate_eq_ok hP hpsk hrevalidate
    rw [hrevalidate] at hedit
    cases hedit
    have hupdated : (applyUpdate stored configUpdate).Valid := by
      unfold revalidate at hrevalidate
      split at hrevalidate
      · rename_i hok
        cases hrevalidate
        exact NetConfig.modelValidate_valid _ hok
      · cases hrevalidate
    have hvalid : (keepStoredSecrets stored (applyUpdate stored configUpdate)).Valid ↔ _ :=
      keepStoredSecrets_valid_iff hupdated
    have hread (h : (keepStoredSecrets stored (applyUpdate stored configUpdate)).Valid) :
        (getConfig E path.val (w₁.write path
          (Text.encode
            (E.dumpJson (keepStoredSecrets stored (applyUpdate stored configUpdate)))))).1 =
          _ :=
      getConfig_dump hP hdump h (by simp [World.write])
    constructor
    · intro hresult
      have hok := getConfig_valid (Prod.ext hresult rfl)
      refine ⟨hvalid.1 hok, ?_⟩
      rintro ⟨hpath, hupdate, hkeep⟩
      have hlegacy : keepStoredSecrets stored (applyUpdate stored configUpdate) =
          legacyDefaultConfig := by rw [hupdate, hkeep]
      rw [hread hok, if_pos ⟨hpath, hlegacy⟩, hlegacy] at hresult
      exact writeLiveDefault_ne_legacy _ hresult
    · rintro ⟨hfits, hrestores⟩
      rw [hread (hvalid.2 hfits), if_neg]
      rintro ⟨hpath, hlegacy⟩
      have hupdate := keepStoredSecrets_eq_legacy hlegacy
      exact hrestores ⟨hpath, hupdate, by rwa [hupdate] at hlegacy⟩

/-! ## A raw key kept under another type -/

/-- A profile with a raw 256-bit key. -/
def keyConfig (security : SecurityTypes) : NetConfig where
  id := labId
  roots := some
    [{ ifaceDisplayName := ⟨"wlan0".toList, wlan0_valid⟩
       phy := ⟨"phy0".toList, phy0_valid⟩
       interface := ⟨"wlan0".toList, wlan0_valid⟩
       security := some
         { ssid := ⟨"home".toList, home_valid⟩
           security
           psk := some ⟨List.replicate 64 'a', by decide⟩ } }]

/-- The file of the stored profile. -/
def keyText : Text :=
  ["\x7b\"id\": \"lab\", \"roots\": [", "\x7b\"iface_display_name\": \"wlan0\", ",
    "\"phy\": \"phy0\", \"interface\": \"wlan0\", ", "\"security\": \x7b\"ssid\": \"home\", ",
    "\"security\": \"WPA2-PSK\", \"psk\": \""].flatMap String.toList ++ List.replicate 64 'a' ++
  "\"\x7d\x7d]\x7d".toList

/-- What `model_dump_json` writes of the edited profile. -/
def keyDump (security : SecurityTypes) : Text :=
  ["\x7b\"id\": \"lab\", \"namespaces\": [], \"roots\": [", "\x7b\"mode\": \"managed\", ",
    "\"iface_display_name\": \"wlan0\", ", "\"phy\": \"phy0\", \"interface\": \"wlan0\", ",
    "\"security\": \x7b\"ssid\": \"home\", ", "\"security\": \"", security.value,
    "\", \"psk\": \""].flatMap String.toList ++ List.replicate 64 'a' ++
  ["\", \"sae_pwe\": null, \"pmf\": null, ", "\"identity\": null, \"password\": null, ",
    "\"client_cert\": null, \"private_key\": null, ", "\"ca_cert\": null\x7d, ",
    "\"default_route\": false, \"autostart_app\": ", "null\x7d]\x7d"].flatMap String.toList

def keyEnv (security : SecurityTypes) : Env :=
  { bareEnv with dumpJson := fun _ => keyDump security }

/-- The profile is stored with WPA2 and `current.txt` is blank. -/
def keyWorld : World :=
  { labWorld (Text.encode "\n".toList) with
    files := Function.update (fun _ => none) labId (some (Text.encode keyText)) }

theorem keyEnv_coerces (security : SecurityTypes) : (keyEnv security).pydantic.Coerces :=
  bareEnv_coerces

theorem keyEnv_dumpsAs {security : SecurityTypes} (h : security = .wpa2 ∨ security = .wpa3) :
    (keyEnv security).DumpsAs (keyConfig security).normalize := by
  have hloads : Json.loads bareEnv.depth (Text.strip (keyDump security)) =
      .ok (.obj (keyConfig security).normalize.modelDump) :=
    Json.loads_of_same (by rcases h with rfl | rfl <;> decide +kernel)
  have hplain : '\r' ∉ keyDump security := by
    rcases h with rfl | rfl <;> decide +kernel
  have hne : Text.strip (keyDump security) ≠ [] := by
    intro hnil
    rw [hnil] at hloads
    cases hloads
  have hread :
    Text.readText (Text.encode ((keyEnv security).dumpJson (keyConfig security).normalize)) =
      some (keyDump security) := Text.readText_encode hplain
  exact ⟨_, hread, hne, hloads⟩

/-- The parser does not look at how a profile is dumped. -/
theorem parseConfig_dumpJson (E : Env) (dumpJson : NetConfig → Text) (path : ConfigId)
    (bytes : Bytes) :
    parseConfig { E with dumpJson } path bytes = parseConfig E path bytes := rfl

theorem keyWorld_loads (security : SecurityTypes) :
    getConfig (keyEnv security) labId.val keyWorld = (.ok (keyConfig .wpa2), keyWorld) := by
  have hparse : (parseConfig bareEnv labId (Text.encode keyText)).toOption =
      some (keyConfig .wpa2) := by decide +kernel
  have hfile : keyWorld.files labId = some (Text.encode keyText) := by simp [keyWorld]
  rw [getConfig_of_ne (keyEnv security) (by decide), hfile]
  dsimp only
  rw [keyEnv, parseConfig_dumpJson]
  cases hresult : parseConfig bareEnv labId (Text.encode keyText) with
  | error e =>
    rw [hresult] at hparse
    cases hparse
  | ok cfg =>
    rw [hresult] at hparse
    rw [Option.some.inj hparse]

theorem keyWorld_inactive (security : SecurityTypes) : ∃ w,
    isActive (keyEnv security) labId.val keyWorld = (.ok false, w) :=
  ⟨_, isActive_malformed (keyEnv security) _ (getCurrentConfig_blank (keyEnv security) rfl
    (by decide +kernel : Text.readText (Text.encode "\n".toList) = some "\n".toList)
    (by decide +kernel))⟩

/-- The update that gives the entry another type and omits the key. -/
theorem keyWorld_edit {security : SecurityTypes} {w : World}
    (h : security = .wpa2 ∨ security = .wpa3)
    (hinactive : isActive (keyEnv security) labId.val keyWorld = (.ok false, w)) :
    editConfig (keyEnv security) labId.val (publicUpdate (keyConfig security)) keyWorld =
      (.ok (keyConfig security).normalize,
        w.write labId (Text.encode (keyDump security))) := by
  have hvalid : ((keyConfig security).mapSecurity .withoutSecrets).Valid := by
    refine ⟨fun e he s hs => ?_, by rcases h with rfl | rfl <;> decide +kernel⟩
    obtain rfl := List.mem_singleton.1 he
    cases hs
    rfl
  have hkept :
    keepStoredSecrets (keyConfig .wpa2) ((keyConfig security).mapSecurity .withoutSecrets) =
      (keyConfig security).normalize := by
    rcases h with rfl | rfl <;> decide +kernel
  rw [editConfig_eq _ (keyWorld_loads security) hinactive]
  have hedited :
    editedConfig (keyEnv security) (keyConfig .wpa2) (publicUpdate (keyConfig security)) =
      .ok (keyConfig security).normalize := by
    unfold editedConfig
    rw [show applyUpdate (keyConfig .wpa2) (publicUpdate (keyConfig security)) =
      (keyConfig security).mapSecurity .withoutSecrets from rfl,
      revalidate_valid (keyEnv_coerces security) hvalid]
    exact congrArg Except.ok hkept
  rw [hedited]
  rfl

/-- The key stays under WPA2. -/
theorem editConfig_reload_key : ∃ cfg w',
    editConfig (keyEnv .wpa2) labId.val (publicUpdate (keyConfig .wpa2)) keyWorld = (.ok cfg, w') ∧
      ((getConfig (keyEnv .wpa2) labId.val w').1 = .ok cfg ↔
        (∀ e ∈ (applyUpdate (keyConfig .wpa2) (publicUpdate (keyConfig .wpa2))).entries,
          KeptFits (keyConfig .wpa2) e) ∧
        ¬ RestoresLegacy labId (keyConfig .wpa2) (publicUpdate (keyConfig .wpa2))) := by
  obtain ⟨w, hinactive⟩ := keyWorld_inactive .wpa2
  have hedit := keyWorld_edit (Or.inl rfl) hinactive
  exact ⟨_, _, hedit, editConfig_reload_iff (keyEnv_coerces .wpa2) labId
    (keyWorld_loads .wpa2) hinactive
    (modelValidate_public (keyEnv_coerces .wpa2) (keyConfig .wpa2)) hedit
    (keyEnv_dumpsAs (Or.inl rfl))⟩

/-- The entry is given WPA3 and its key is omitted. 64 hex digits are no WPA3 passphrase. -/
theorem editConfig_reload_wpa3 : ∃ members cfg w',
    NetConfigUpdate.modelValidate (keyEnv .wpa3).pydantic members =
      .ok (publicUpdate (keyConfig .wpa3)) ∧
    editConfig (keyEnv .wpa3) labId.val (publicUpdate (keyConfig .wpa3)) keyWorld = (.ok cfg, w') ∧
    (keyEnv .wpa3).DumpsAs cfg ∧ ∀ cfg', (getConfig (keyEnv .wpa3) labId.val w').1 ≠ .ok cfg' := by
  obtain ⟨w, hinactive⟩ := keyWorld_inactive .wpa3
  have hedit := keyWorld_edit (Or.inr rfl) hinactive
  refine ⟨_, _, _, modelValidate_public (keyEnv_coerces .wpa3) (keyConfig .wpa3), hedit,
    keyEnv_dumpsAs (Or.inr rfl), fun cfg' hread => ?_⟩
  have hfails : (parseConfig (keyEnv .wpa3) labId (Text.encode (keyDump .wpa3))).isOk = false := by
    decide +kernel
  have hfile : (w.write labId (Text.encode (keyDump .wpa3))).files labId =
      some (Text.encode (keyDump .wpa3)) := by simp [World.write]
  rw [getConfig_of_ne (keyEnv .wpa3) (by decide), hfile] at hread
  dsimp only at hread
  exact Bool.false_ne_true (hfails.symm.trans (congrArg Except.isOk hread))

end WlanpiCore
