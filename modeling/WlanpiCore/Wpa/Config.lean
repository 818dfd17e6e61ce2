import WlanpiCore.Config.Schema
import WlanpiCore.Wpa.Grammar

/-!
# The configuration that Core writes for wpa_supplicant

`wpaConfig` is the text that `write_wpa_config` puts in the file of an entry, and `intended` the
network it is meant to have. **`readFile_wpaConfig`**: wpa_supplicant reads the text as that one
network, whatever the entry's texts are.
-/

namespace WlanpiCore.Wpa

/-! ## What is written -/

/-- `bytes.hex()` -/
def hex (bytes : Bytes) : Text :=
  bytes.flatMap fun b => [Nat.digitChar (b.toNat / 16), Nat.digitChar (b.toNat % 16)]

/-- `_ssid_value` -/
def ssidValue (ssid : Text) : Text := hex (Text.encode ssid)

/-- A raw key. -/
def isRawKey (psk : Text) : Bool := psk.length = 64 && psk.all isHexDigit

/-- `_psk_value` -/
def pskValue (psk : Text) : Text :=
  if isRawKey psk then psk.map Char.toLower else '"' :: psk ++ ['"']

/-- `generate_global_header`, with the default `update_config`, which no caller changes. -/
def generateGlobalHeader (ctrlInterface : Text) : List Text :=
  ["ctrl_interface=".toList ++ ctrlInterface, "update_config=1".toList, "sae_pwe=2".toList]

/-- The line of a key, if there is one. -/
def pskLines (s : NetSecurity) : List Text :=
  match s.psk with
  | none => []
  | some psk => if psk.val = [] then [] else ["    psk=".toList ++ pskValue psk.val]

/-- The lines for a security type. The types of a profile are these four, so the branches for
802.1X are never taken. -/
def securityLines (s : NetSecurity) : List Text :=
  match s.security with
  | .open => ["    key_mgmt=NONE".toList]
  | .owe => ["    key_mgmt=OWE".toList, "    ieee80211w=2".toList]
  | .wpa2 => pskLines s ++ ["    key_mgmt=WPA-PSK".toList, "    ieee80211w=1".toList]
  | .wpa3 => pskLines s ++
      ["    key_mgmt=SAE SAE-EXT-KEY".toList, "    pairwise=GCMP-256 CCMP".toList,
        "    group=GCMP-256 CCMP".toList, "    ieee80211w=2".toList]

/-- `generate_network_block`, with the priority that `write_wpa_config` gives. -/
def generateNetworkBlock (s : NetSecurity) : List Text :=
  "network=\x7b".toList :: ("    ssid=".toList ++ ssidValue s.ssid.val) ::
    "    priority=1".toList ::
    securityLines s ++ ["\x7d".toList]

/-- `NetworkNamespaceService._ctrl_dir` -/
def ctrlDir : Option NamespaceName → Text
  | none => "/run/wpa_supplicant".toList
  | some netns => "/run/wlanpi-core/wpa/".toList ++ netns.val ++ "/ctrl".toList

/-- What `write_wpa_config` writes: the header, an empty line and the block. -/
def wpaConfig (s : NetSecurity) (netns : Option NamespaceName) : Text :=
  ['\n'].intercalate (generateGlobalHeader (ctrlDir netns) ++ [] :: generateNetworkBlock s)

/-- The namespace of an entry. -/
def netnsName : Entry → Option NamespaceName
  | .ns e => some e.netns
  | .root _ => none

/-- `write_wpa_config` on an entry; `none` is the `ValueError` of one without security. -/
def writeWpaConfig (e : Entry) : Option Text := e.base.security.map (wpaConfig · (netnsName e))

/-! ## What it is meant to say -/

def intendedPsk (s : NetSecurity) : Fields :=
  match s.psk with
  | none => []
  | some psk =>
    [("psk".toList,
      if isRawKey psk.val then .rawKey ((hexBytes psk.val).getD []) else .passphrase psk.val)]

def intendedSecurity (s : NetSecurity) : Fields :=
  match s.security with
  | .open => [("key_mgmt".toList, .text "NONE".toList)]
  | .owe => [("key_mgmt".toList, .text "OWE".toList), ("ieee80211w".toList, .text "2".toList)]
  | .wpa2 => intendedPsk s ++
      [("key_mgmt".toList, .text "WPA-PSK".toList), ("ieee80211w".toList, .text "1".toList)]
  | .wpa3 => intendedPsk s ++
      [("key_mgmt".toList, .text "SAE SAE-EXT-KEY".toList),
        ("pairwise".toList, .text "GCMP-256 CCMP".toList),
        ("group".toList, .text "GCMP-256 CCMP".toList), ("ieee80211w".toList, .text "2".toList)]

/-- The network of an entry: the SSID's bytes, and the key as it was given. -/
def intended (s : NetSecurity) : Fields :=
  ("ssid".toList, .ssid (Text.encode s.ssid.val)) :: ("priority".toList, .text "1".toList) ::
    intendedSecurity s

def intendedFile (s : NetSecurity) (netns : Option NamespaceName) : File where
  globals := [("ctrl_interface".toList, ctrlDir netns), ("update_config".toList, "1".toList),
    ("sae_pwe".toList, "2".toList)]
  networks := [intended s]

/-! ## Hexadecimal digits -/

theorem hexDigit_digitChar : ∀ n < 16, Json.hexDigit (Nat.digitChar n) = some n := by decide

/-- Characters that end neither a line nor a value. -/
def plainChar (c : Char) : Bool :=
  !(c = '\n' || c = '"' || c = '#' || c = ' ' || c = '\t' || c = '\r')

theorem plainChar_digitChar : ∀ n < 16, plainChar (Nat.digitChar n) = true := by decide

theorem hexBytes_hex (bytes : Bytes) : hexBytes (hex bytes) = some bytes := by
  induction bytes with
  | nil => rfl
  | cons b bytes ih =>
    have hlt := b.toNat_lt
    have hcons : hex (b :: bytes) =
        Nat.digitChar (b.toNat / 16) :: Nat.digitChar (b.toNat % 16) :: hex bytes := rfl
    have hbyte : UInt8.ofNat (16 * (b.toNat / 16) + b.toNat % 16) = b := by
      rw [Nat.div_add_mod]
      exact UInt8.ofNat_toNat
    rw [hcons, hexBytes, hexDigit_digitChar _ (by omega), hexDigit_digitChar _ (by omega), ih]
    simp only [Option.bind_eq_bind, Option.bind_some, hbyte]
    rfl

theorem plain_hex (bytes : Bytes) : ∀ c ∈ hex bytes, plainChar c = true := by
  intro c hc
  obtain ⟨b, -, hmem⟩ := List.mem_flatMap.1 hc
  have hlt := b.toNat_lt
  rcases List.mem_cons.1 hmem with rfl | hmem
  · exact plainChar_digitChar _ (by omega)
  · rw [List.mem_singleton.1 hmem]
    exact plainChar_digitChar _ (by omega)

theorem hexDigit_toLower : ∀ c ∈ "0123456789abcdefABCDEF".toList,
    Json.hexDigit c.toLower = Json.hexDigit c ∧ (Json.hexDigit c).isSome = true ∧
      plainChar c.toLower = true ∧ c.toLower ≠ '"' := by
  have hall : ("0123456789abcdefABCDEF".toList.all fun c =>
      decide (Json.hexDigit c.toLower = Json.hexDigit c) && ((Json.hexDigit c).isSome &&
        (plainChar c.toLower && decide (c.toLower ≠ '"')))) = true := by decide +kernel
  intro c hc
  have hone := List.all_eq_true.1 hall c hc
  simp only [Bool.and_eq_true, decide_eq_true_eq] at hone
  exact hone

theorem mem_hexDigits {psk : Text} (h : psk.all isHexDigit = true) :
    ∀ c ∈ psk, c ∈ "0123456789abcdefABCDEF".toList := by
  intro c hc
  have hdigit := List.all_eq_true.1 h c hc
  simpa [isHexDigit] using hdigit

/-- The case of the digits does not matter. -/
theorem hexBytes_toLower : ∀ {psk : Text}, psk.all isHexDigit = true →
    hexBytes (psk.map Char.toLower) = hexBytes psk
  | [], _ => rfl
  | [_], _ => rfl
  | a :: b :: rest, h => by
    have ha := (hexDigit_toLower a (mem_hexDigits h a (by simp))).1
    have hb := (hexDigit_toLower b (mem_hexDigits h b (by simp))).1
    have hrest : hexBytes (rest.map Char.toLower) = hexBytes rest := hexBytes_toLower (by
      rw [List.all_cons, List.all_cons, Bool.and_eq_true, Bool.and_eq_true] at h
      exact h.2.2)
    rw [List.map_cons, List.map_cons, hexBytes, hexBytes, ha, hb, hrest]

theorem hexBytes_isSome : ∀ {psk : Text}, psk.all isHexDigit = true → psk.length % 2 = 0 →
    ∃ bytes, hexBytes psk = some bytes
  | [], _, _ => ⟨[], rfl⟩
  | [_], _, hlen => by cases hlen
  | a :: b :: rest, h, hlen => by
    obtain ⟨x, hx⟩ :=
      Option.isSome_iff_exists.1 (hexDigit_toLower a (mem_hexDigits h a (by simp))).2.1
    obtain ⟨y, hy⟩ :=
      Option.isSome_iff_exists.1 (hexDigit_toLower b (mem_hexDigits h b (by simp))).2.1
    obtain ⟨bytes, hrest⟩ : ∃ bytes, hexBytes rest = some bytes := hexBytes_isSome (by
      rw [List.all_cons, List.all_cons, Bool.and_eq_true, Bool.and_eq_true] at h
      exact h.2.2) (by
        simp only [List.length_cons] at hlen
        omega)
    have hbytes : hexBytes (a :: b :: rest) = some (UInt8.ofNat (16 * x + y) :: bytes) := by
      rw [hexBytes, hx, hy, hrest]
      rfl
    exact ⟨_, hbytes⟩

/-! ## The lines of a block -/

theorem plainChar_spec {c : Char} (h : plainChar c = true) :
    c ≠ '\n' ∧ c ≠ '"' ∧ c ≠ '#' ∧ isBlank c = false := by
  simp only [plainChar, Bool.not_eq_true', Bool.or_eq_false_iff, decide_eq_false_iff_not] at h
  obtain ⟨⟨⟨⟨⟨hline, hquote⟩, hhash⟩, hspace⟩, htab⟩, hreturn⟩ := h
  refine ⟨hline, hquote, hhash, ?_⟩
  simp [isBlank, hspace, htab, hreturn]

/-- A line whose value is made of plain characters. -/
theorem clean_value {line value : Text} (key : Text) (hline : line.dropWhile isBlank = key ++ value)
    (hkey : '"' ∉ key ∧ '#' ∉ key) (hne : value ≠ []) (hvalue : ∀ c ∈ value, plainChar c = true) :
    clean line = key ++ value := by
  refine clean_plain hline (fun hmem => ?_) (fun hmem => ?_) fun c hc => ?_
  · rcases List.mem_append.1 hmem with hmem | hmem
    · exact hkey.1 hmem
    · exact (plainChar_spec (hvalue _ hmem)).2.1 rfl
  · rcases List.mem_append.1 hmem with hmem | hmem
    · exact hkey.2 hmem
    · exact (plainChar_spec (hvalue _ hmem)).2.2.1 rfl
  · rw [List.getLast?_append_of_ne_nil _ hne] at hc
    exact (plainChar_spec (hvalue c (List.mem_of_mem_getLast? hc))).2.2.2

theorem readField_ssid (value : Text) :
    readField ("ssid=".toList ++ value) = (readSsid value).map fun v => ("ssid".toList, v) := by
  have hsplit : splitKey ("ssid=".toList ++ value) = some ("ssid".toList, value) := rfl
  rw [readField, hsplit, Option.bind_some, readValue, if_pos rfl]

theorem readField_psk (value : Text) :
    readField ("psk=".toList ++ value) = (readPsk value).map fun v => ("psk".toList, v) := by
  have hsplit : splitKey ("psk=".toList ++ value) = some ("psk".toList, value) := rfl
  rw [readField, hsplit, Option.bind_some, readValue]
  rw [if_neg (by decide : ("psk".toList : Text) ≠ "ssid".toList), if_pos rfl]

theorem ssid_line (ssid : Ssid) : readField (clean ("    ssid=".toList ++ ssidValue ssid.val)) =
    some ("ssid".toList, .ssid (Text.encode ssid.val)) := by
  have hplain := plain_hex (Text.encode ssid.val)
  have hne : ssidValue ssid.val ≠ [] := by
    intro hnil
    have hbytes := hexBytes_hex (Text.encode ssid.val)
    have hempty : hex (Text.encode ssid.val) = [] := hnil
    rw [hempty] at hbytes
    have hencode : Text.encode ssid.val = [] := (Option.some.inj hbytes).symm
    have hdecode := Text.decode_encode ssid.val
    rw [hencode] at hdecode
    have hval : ssid.val = [] := (Option.some.inj hdecode).symm
    have hvalid := ssid.property
    rw [hval] at hvalid
    cases hvalid
  have hclean := clean_value "ssid=".toList
    (rfl : ("    ssid=".toList ++ ssidValue ssid.val).dropWhile isBlank = _) (by decide) hne hplain
  rw [hclean, readField_ssid]
  have hread : readSsid (ssidValue ssid.val) =
      (hexBytes (ssidValue ssid.val)).map .ssid := by
    unfold readSsid
    split
    · rename_i rest heq
      have hmem : '"' ∈ ssidValue ssid.val := heq ▸ List.mem_cons_self
      exact absurd rfl (plainChar_spec (hplain _ hmem)).2.1
    · rfl
  rw [hread, ssidValue, hexBytes_hex]
  rfl

/-- What the model's own check leaves of a key. -/
theorem psk_spec {s : NetSecurity} (h : validatePskFormat s = none)
    (hsecurity : s.security = .wpa2 ∨ s.security = .wpa3) {psk : WpaText "psk"}
    (hpsk : s.psk = some psk) :
    isRawKey psk.val = true ∨ isRawKey psk.val = false ∧ 8 ≤ psk.val.length ∧
      psk.val.length ≤ 63 := by
  by_cases hraw : isRawKey psk.val = true
  · exact Or.inl hraw
  · have hraw : isRawKey psk.val = false := by simpa using hraw
    refine Or.inr ⟨hraw, ?_⟩
    have hkey : (psk.val.length == 64 && psk.val.all isHexDigit) = false := by
      rw [← hraw, isRawKey]
      rfl
    have hnot : ¬(s.security ≠ .wpa2 ∧ s.security ≠ .wpa3) := by tauto
    rw [validatePskFormat, hpsk] at h
    dsimp only at h
    rw [if_neg hnot, hkey, Bool.false_and, if_neg Bool.false_ne_true] at h
    split_ifs at h with hbad
    simp only [Bool.or_eq_true, Bool.not_eq_true', not_or, Bool.not_eq_false, Bool.and_eq_true,
      decide_eq_true_eq] at hbad
    exact hbad.1

theorem psk_line {s : NetSecurity} (h : validatePskFormat s = none)
    (hsecurity : s.security = .wpa2 ∨ s.security = .wpa3) :
    (pskLines s).map (readField <| clean ·) = (intendedPsk s).map some := by
  unfold pskLines intendedPsk
  cases hpsk : s.psk with
  | none => rfl
  | some psk =>
    dsimp only
    have hspec := psk_spec h hsecurity hpsk
    have hne : psk.val ≠ [] := by
      intro hnil
      rw [hnil] at hspec
      rcases hspec with hraw | ⟨-, hlen, -⟩
      · cases hraw
      · cases hlen
    rw [if_neg hne, List.map_singleton, List.map_singleton, pskValue]
    rcases hspec with hraw | ⟨hraw, hlow, hhigh⟩
    · rw [if_pos hraw, if_pos hraw]
      rw [isRawKey, Bool.and_eq_true, decide_eq_true_eq] at hraw
      obtain ⟨hlen, hdigits⟩ := hraw
      have hplain : ∀ c ∈ psk.val.map Char.toLower, plainChar c = true := by
        intro c hc
        obtain ⟨d, hd, rfl⟩ := List.mem_map.1 hc
        exact (hexDigit_toLower d (mem_hexDigits hdigits d hd)).2.2.1
      have hclean := clean_value "psk=".toList
        (rfl : ("    psk=".toList ++ psk.val.map Char.toLower).dropWhile isBlank = _) (by decide)
        (by simpa using hne) hplain
      obtain ⟨bytes, hbytes⟩ := hexBytes_isSome hdigits (by omega)
      have hread : readPsk (psk.val.map Char.toLower) = some (.rawKey bytes) := by
        unfold readPsk
        split
        · rename_i rest heq
          have hmem : '"' ∈ psk.val.map Char.toLower := heq ▸ List.mem_cons_self
          exact absurd rfl (plainChar_spec (hplain _ hmem)).2.1
        · rw [List.length_map, if_pos hlen, hexBytes_toLower hdigits, hbytes]
          rfl
      rw [hclean, readField_psk, hread, hbytes]
      rfl
    · rw [hraw, if_neg Bool.false_ne_true, if_neg Bool.false_ne_true]
      have hclean := clean_quoted "psk=".toList psk.val
        (rfl : ("    psk=".toList ++ ('"' :: psk.val ++ ['"'])).dropWhile isBlank = _)
      have hquoted : quoted (psk.val ++ ['"']) = some psk.val := by
        rw [quoted, if_pos List.getLast?_concat, List.dropLast_concat]
      have hread : readPsk ('"' :: psk.val ++ ['"']) = some (.passphrase psk.val) := by
        have hcons : readPsk ('"' :: psk.val ++ ['"']) = (quoted (psk.val ++ ['"'])).bind fun t =>
            if 8 ≤ t.length ∧ t.length ≤ 63 then some (.passphrase t) else none := rfl
        rw [hcons, hquoted, Option.bind_some, if_pos ⟨hlow, hhigh⟩]
      rw [hclean, List.append_assoc, readField_psk, hread]
      rfl

theorem security_lines {s : NetSecurity} (h : validatePskFormat s = none) :
    (securityLines s).map (readField <| clean ·) = (intendedSecurity s).map some := by
  unfold securityLines intendedSecurity
  cases hsecurity : s.security with
  | «open» =>
    dsimp only
    decide
  | owe =>
    dsimp only
    decide
  | wpa2 =>
    rw [List.map_append, List.map_append, psk_line h (Or.inl hsecurity)]
    refine congrArg (List.map some (intendedPsk s) ++ ·) ?_
    decide
  | wpa3 =>
    rw [List.map_append, List.map_append, psk_line h (Or.inr hsecurity)]
    refine congrArg (List.map some (intendedPsk s) ++ ·) ?_
    decide

/-! ## The file -/

theorem plain_netns (netns : NamespaceName) :
    netns.val ≠ [] ∧ ∀ c ∈ netns.val, plainChar c = true := by
  have hmatch := (validateName_eq_none.1 netns.property).2.2.2
  have htail : ∀ c : Char, isNameTail c = true → plainChar c = true := by
    intro c hc
    by_contra hplain
    simp only [plainChar, Bool.not_eq_true', Bool.not_eq_false, Bool.or_eq_true,
      decide_eq_true_eq] at hplain
    rcases hplain with ((((rfl | rfl) | rfl) | rfl) | rfl) | rfl <;> exact absurd hc (by decide)
  cases hval : netns.val with
  | nil =>
    rw [hval] at hmatch
    cases hmatch
  | cons c cs =>
    rw [hval] at hmatch
    simp only [matchesName, Bool.and_eq_true, List.all_eq_true] at hmatch
    refine ⟨List.cons_ne_nil c cs, fun d hd => ?_⟩
    rcases List.mem_cons.1 hd with rfl | hd
    · refine htail d ?_
      rw [isNameTail, hmatch.1.1, Bool.true_or]
    · exact htail d (hmatch.1.2 d hd)

theorem plain_ctrlDir (netns : Option NamespaceName) :
    ctrlDir netns ≠ [] ∧ ∀ c ∈ ctrlDir netns, plainChar c = true := by
  cases netns with
  | none => exact ⟨by decide, Text.forall_of_all (by decide +kernel)⟩
  | some netns =>
    have hfront : ∀ c ∈ "/run/wlanpi-core/wpa/".toList, plainChar c = true :=
      Text.forall_of_all (by decide +kernel)
    have hend : ∀ c ∈ "/ctrl".toList, plainChar c = true :=
      Text.forall_of_all (by decide +kernel)
    refine ⟨List.append_ne_nil_of_right_ne_nil _ (by decide), fun c hc => ?_⟩
    rcases List.mem_append.1 hc with hc | hc
    · rcases List.mem_append.1 hc with hc | hc
      · exact hfront c hc
      · exact (plain_netns netns).2 c hc
    · exact hend c hc

theorem not_mem_append {a b : Text} (ha : '\n' ∉ a) (hb : '\n' ∉ b) : '\n' ∉ a ++ b := by
  rw [List.mem_append, not_or]
  exact ⟨ha, hb⟩

theorem newline_of_plain {t : Text} (h : ∀ c ∈ t, plainChar c = true) : '\n' ∉ t :=
  fun hmem => (plainChar_spec (h _ hmem)).1 rfl

/-- A key does not end its line. -/
theorem newline_psk (psk : WpaText "psk") : '\n' ∉ pskValue psk.val := by
  have hcontrol : ∀ c ∈ psk.val, isControl c = false := by
    have hvalid := psk.property
    unfold validateWpaText at hvalid
    split_ifs at hvalid with hlong hany
    simpa using hany
  unfold pskValue
  split_ifs with hraw
  · rw [isRawKey, Bool.and_eq_true] at hraw
    refine newline_of_plain fun c hc => ?_
    obtain ⟨d, hd, rfl⟩ := List.mem_map.1 hc
    exact (hexDigit_toLower d (mem_hexDigits hraw.2 d hd)).2.2.1
  · have hmem : '\n' ∉ psk.val := by
      intro hmem
      exact absurd (hcontrol _ hmem) (by decide)
    simp [hmem]

theorem newline_pskLines (s : NetSecurity) : ∀ line ∈ pskLines s, '\n' ∉ line := by
  unfold pskLines
  cases s.psk with
  | none => exact fun _ hline => absurd hline List.not_mem_nil
  | some psk =>
    dsimp only
    split_ifs
    · exact fun _ hline => absurd hline List.not_mem_nil
    · intro line hline
      rw [List.mem_singleton.1 hline]
      exact not_mem_append (by decide) (newline_psk psk)

/-- No line of the file is ended by a value in it. -/
theorem newline_lines (s : NetSecurity) (netns : Option NamespaceName) : ∀ line ∈
    generateGlobalHeader (ctrlDir netns) ++ [] :: generateNetworkBlock s, '\n' ∉ line := by
  have hfixed : ∀ line ∈ ["update_config=1".toList, "sae_pwe=2".toList, [], "network=\x7b".toList,
      "    priority=1".toList, "\x7d".toList, "    key_mgmt=NONE".toList, "    key_mgmt=OWE".toList,
      "    ieee80211w=2".toList, "    key_mgmt=WPA-PSK".toList, "    ieee80211w=1".toList,
      "    key_mgmt=SAE SAE-EXT-KEY".toList, "    pairwise=GCMP-256 CCMP".toList,
      "    group=GCMP-256 CCMP".toList], '\n' ∉ line := by decide
  have hsecurity : ∀ line ∈ securityLines s, '\n' ∉ line := by
    unfold securityLines
    cases s.security <;> intro line hline <;> dsimp only at hline
    all_goals
      first
        | exact hfixed line (by revert hline; simp; tauto)
        | rcases List.mem_append.1 hline with hline | hline
          · exact newline_pskLines s line hline
          · exact hfixed line (by revert hline; simp; tauto)
  intro line hline
  simp only [generateGlobalHeader, generateNetworkBlock, List.cons_append, List.nil_append,
    List.mem_cons, List.mem_append, List.not_mem_nil, or_false] at hline
  rcases hline with rfl | rfl | rfl | rfl | rfl | rfl | rfl | hline | rfl
  · exact not_mem_append (by decide) (newline_of_plain (plain_ctrlDir netns).2)
  · exact hfixed _ (by simp)
  · exact hfixed _ (by simp)
  · exact hfixed _ (by simp)
  · exact hfixed _ (by simp)
  · exact not_mem_append (by decide) (newline_of_plain (plain_hex _))
  · exact hfixed _ (by simp)
  · exact hsecurity line hline
  · exact hfixed _ (by simp)

theorem readLines_block {s : NetSecurity} (h : validatePskFormat s = none) :
    readLines none (generateNetworkBlock s) = some ⟨[], [intended s]⟩ := by
  have hfields : (("    ssid=".toList ++ ssidValue s.ssid.val) :: "    priority=1".toList ::
      securityLines s).map (readField <| clean ·) = (intended s).map some := by
    have hpriority : readField (clean "    priority=1".toList) =
        some ("priority".toList, .text "1".toList) := by decide
    rw [intended, List.map_cons, List.map_cons, List.map_cons, List.map_cons, ssid_line, hpriority,
      security_lines h]
  have hopen : readLines none (generateNetworkBlock s) =
      readLines (some []) ((("    ssid=".toList ++ ssidValue s.ssid.val) ::
        "    priority=1".toList :: securityLines s) ++ ["\x7d".toList]) := by
    have hclean : clean "network=\x7b".toList = "network=\x7b".toList := by decide
    rw [generateNetworkBlock]
    simp only [List.cons_append]
    rw [readLines, hclean, if_neg (by decide : ("network=\x7b".toList : Text) ≠ []), if_pos rfl]
  have hclose : clean "\x7d".toList = "\x7d".toList := by decide
  rw [hopen, readLines_fields hfields, readLines, hclose,
    if_neg (by decide : ("\x7d".toList : Text) ≠ []), if_pos rfl]
  rfl

/-- The file of an entry with security, read back: one network, with the keys and values of the
entry. -/
theorem readFile_wpaConfig (e : Entry) {s : NetSecurity} (hs : e.base.security = some s)
    (h : validatePskFormat s = none) :
    (writeWpaConfig e).bind readFile = some (intendedFile s (netnsName e)) := by
  obtain ⟨hne, hplain⟩ := plain_ctrlDir (netnsName e)
  have hctrl : clean ("ctrl_interface=".toList ++ ctrlDir (netnsName e)) =
      "ctrl_interface=".toList ++ ctrlDir (netnsName e) :=
    clean_value "ctrl_interface=".toList rfl (by decide) hne hplain
  have hentry : splitKey (clean ("ctrl_interface=".toList ++ ctrlDir (netnsName e))) =
      some ("ctrl_interface".toList, ctrlDir (netnsName e)) := by
    rw [hctrl]
    rfl
  have hblock : clean ("ctrl_interface=".toList ++ ctrlDir (netnsName e)) ≠
    "network=\x7b".toList := by
    rw [hctrl]
    intro heq
    cases heq
  have hupdate : splitKey (clean "update_config=1".toList) =
      some ("update_config".toList, "1".toList) := by decide
  have hsae : splitKey (clean "sae_pwe=2".toList) = some ("sae_pwe".toList, "2".toList) := by decide
  have hempty : readLines none ([] :: generateNetworkBlock s) =
      readLines none (generateNetworkBlock s) := rfl
  rw [writeWpaConfig, hs, Option.map_some, Option.bind_some, readFile, wpaConfig,
    List.splitOn_intercalate '\n' (newline_lines s (netnsName e)) (by simp [generateGlobalHeader])]
  rw [generateGlobalHeader, List.cons_append, List.cons_append, List.cons_append, List.nil_append,
    readLines_global hentry hblock, readLines_global hupdate (by decide),
    readLines_global hsae (by decide), hempty, readLines_block h]
  rfl

/-- A passphrase with quotes, a backslash and a `#`. -/
theorem readFile_wpaConfig_quotes :
    (writeWpaConfig (.root
      { ifaceDisplayName := ⟨"wlan0".toList, by decide⟩
        phy := ⟨"phy0".toList, by decide⟩
        interface := ⟨"wlan0".toList, by decide⟩
        security := some
          { ssid := ⟨"caf\u00e9".toList, by decide⟩
            security := .wpa2
            psk := some ⟨"a\"b # c\\\" d".toList, by decide⟩ } })).bind readFile =
      some
        ⟨[("ctrl_interface".toList, "/run/wpa_supplicant".toList),
          ("update_config".toList, "1".toList),
            ("sae_pwe".toList, "2".toList)],
          [[("ssid".toList, .ssid [0x63, 0x61, 0x66, 0xc3, 0xa9]),
            ("priority".toList, .text "1".toList),
            ("psk".toList, .passphrase "a\"b # c\\\" d".toList),
            ("key_mgmt".toList, .text "WPA-PSK".toList),
              ("ieee80211w".toList, .text "1".toList)]]⟩ :=
  (readFile_wpaConfig _ rfl (by decide)).trans (by decide)

end WlanpiCore.Wpa
