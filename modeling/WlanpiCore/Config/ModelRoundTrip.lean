import WlanpiCore.Config.Schema
import Mathlib.Data.List.Forall2
import Mathlib.Data.List.Nodup

/-!
# Reading a dumped model

**`modelValidate_modelDump`.** Validating `cfg.model_dump()` gives `cfg` back.
**`modelValidate_public`.** Validating the public form as an update gives the stored entries without
their secrets.

A dump is a list of fields with distinct names, so a field is read from its own value whatever
stands around it (`parseField_dump`); dropping the nulls changes nothing for a field whose default
is `None`. The theorems about models apply that once for each field.
-/

namespace WlanpiCore

/-! ## Looking a field up -/

theorem lookup_of_nodup {α β : Type} [BEq α] [LawfulBEq α] {k : α} {v : β} :
    ∀ {l : List (α × β)}, (l.map Prod.fst).Nodup → (k, v) ∈ l → l.lookup k = some v
  | [], _, h => by cases h
  | (k', v') :: l, hnodup, h => by
    rw [List.map_cons, List.nodup_cons] at hnodup
    rcases List.mem_cons.1 h with heq | hmem
    · cases heq
      simp
    · have hne : k ≠ k' := by
        rintro rfl
        exact hnodup.1 (List.mem_map.2 ⟨_, hmem, rfl⟩)
      rw [List.lookup_cons, beq_eq_false_iff_ne.2 hne]
      exact lookup_of_nodup hnodup.2 hmem

/-- The names of a dump's members. -/
theorem dumpMembers_keys (excludeNone : Bool) {fields : List (String × Json)}
    (hnodup : (fields.map Prod.fst).Nodup) :
    ((dumpMembers excludeNone fields).map Prod.fst).Nodup := by
  have hkeys : (dumpMembers excludeNone fields).map Prod.fst =
      ((fields.filter fun f => !(excludeNone && f.2.isNull)).map Prod.fst).map
        fun n => some n.toList := by
    rw [dumpMembers, List.map_map, List.map_map]
    rfl
  rw [hkeys]
  refine List.Nodup.map (fun a b h => String.toList_inj.1 (Option.some.inj h)) ?_
  exact hnodup.sublist (List.filter_sublist.map _)

theorem member_dumpMembers {excludeNone : Bool} {fields : List (String × Json)} {name : String}
    {j : Json} (hnodup : (fields.map Prod.fst).Nodup) (hmem : (name, j) ∈ fields)
    (hkept : (excludeNone && j.isNull) = false) :
    Json.member (dumpMembers excludeNone fields) name.toList = some j := by
  refine lookup_of_nodup ?_ (List.mem_reverse.2 (List.mem_map.2 ⟨(name, j), ?_, rfl⟩))
  · rw [List.map_reverse, List.nodup_reverse]
    exact dumpMembers_keys excludeNone hnodup
  · exact List.mem_filter.2 ⟨hmem, by rw [hkept]; rfl⟩

theorem member_dropped {fields : List (String × Json)} {name : String}
    (h : ∀ j, (name, j) ∈ fields → j = .null) :
    Json.member (dumpMembers true fields) name.toList = none := by
  refine List.lookup_eq_none_iff.2 fun p hp => ?_
  obtain ⟨f, hf, rfl⟩ := List.mem_map.1 (List.mem_reverse.1 hp)
  obtain ⟨hmem, hkept⟩ := List.mem_filter.1 hf
  rw [bne_iff_ne]
  intro heq
  obtain rfl : name = f.1 := String.toList_inj.1 (Option.some.inj heq)
  rw [h f.2 hmem] at hkept
  cases hkept

/-! ## Reading a value -/

/-- `parse` reads `j` as `b`. -/
def ReadsAs {α : Type} (parse : Parse α) (j : Json) (b : α) : Prop := ∀ loc, parse loc j = .valid b

section

variable {α : Type} {parse : Parse α} {j : Json} {b : α}

theorem ReadsAs.null : ReadsAs (parseOptional parse) .null none := fun _ => rfl

theorem ReadsAs.some (h : ReadsAs parse j b) (hne : j ≠ .null) :
    ReadsAs (parseOptional parse) j (some b) := by
  intro loc
  unfold parseOptional
  split
  · exact absurd rfl hne
  · rw [h loc]
    rfl

/-- An optional value is dumped as itself or as null. -/
theorem ReadsAs.ofOption {β : Type} {dump : β → Json} {f : β → α} {o : Option β}
    (h : ∀ b ∈ o, ReadsAs parse (dump b) (f b)) (hne : ∀ b, dump b ≠ .null) :
    ReadsAs (parseOptional parse) (.ofOption dump o) (o.map f) := by
  cases o with
  | none => exact .null
  | some b => exact (h b rfl).some (hne b)

theorem parseItems_reads {js : List Json} {bs : List α} (h : List.Forall₂ (ReadsAs parse) js bs)
    (loc : List Loc) (i : Nat) : parseItems parse loc i js = .valid bs := by
  induction h generalizing i with
  | nil => rfl
  | cons hj _ ih =>
    rw [parseItems, hj, ih]
    rfl

theorem ReadsAs.list {js : List Json} {bs : List α} (h : List.Forall₂ (ReadsAs parse) js bs) :
    ReadsAs (parseList parse) (.arr js) bs :=
  fun loc => parseItems_reads h loc 0

/-- A field of a dump is read from its own value; a dropped null leaves the default. -/
theorem parseField_dump {excludeNone : Bool} {fields : List (String × Json)} {name : String}
    {default : Option α} {loc : List Loc} (h : ReadsAs parse j b)
    (hnodup : (fields.map Prod.fst).Nodup) (hmem : (name, j) ∈ fields)
    (hdefault : j = .null → default = .some b) :
    parseField (dumpMembers excludeNone fields) loc name default parse = .valid b := by
  unfold parseField
  by_cases hkept : (excludeNone && j.isNull) = false
  · rw [member_dumpMembers hnodup hmem hkept]
    exact h _
  · simp only [Bool.not_eq_false, Bool.and_eq_true] at hkept
    obtain ⟨rfl, hnull⟩ := hkept
    obtain rfl : j = .null := by
      cases j <;> first | rfl | cases hnull
    have honly : ∀ j, (name, j) ∈ fields → j = .null := by
      intro j' hmem'
      have hj' := lookup_of_nodup hnodup hmem'
      rw [lookup_of_nodup hnodup hmem] at hj'
      exact (Option.some.inj hj').symm
    rw [member_dropped honly, hdefault rfl]

/-- A field that the dump does not have. -/
theorem parseField_absent {excludeNone : Bool} {fields : List (String × Json)} {name : String}
    {loc : List Loc} (h : ∀ f ∈ fields, f.1 ≠ name) :
    parseField (dumpMembers excludeNone fields) loc name (.some b) parse = .valid b := by
  have hnone : Json.member (dumpMembers excludeNone fields) name.toList = none := by
    refine List.lookup_eq_none_iff.2 fun p hp => ?_
    obtain ⟨f, hf, rfl⟩ := List.mem_map.1 (List.mem_reverse.1 hp)
    rw [bne_iff_ne]
    intro heq
    exact h f (List.mem_filter.1 hf).1 (String.toList_inj.1 (Option.some.inj heq)).symm
  unfold parseField
  rw [hnone]

/-- A field that is never dumped as null. -/
theorem parseField_value {excludeNone : Bool} {fields : List (String × Json)} {name : String}
    {default : Option α} {loc : List Loc} (h : ReadsAs parse j b)
    (hnodup : (fields.map Prod.fst).Nodup) (hmem : (name, j) ∈ fields) (hne : j ≠ .null) :
    parseField (dumpMembers excludeNone fields) loc name default parse = .valid b :=
  parseField_dump h hnodup hmem fun hnull => absurd hnull hne

/-- An optional field. -/
theorem parseField_option {β : Type} {excludeNone : Bool} {fields : List (String × Json)}
    {name : String} {loc : List Loc} {dump : β → Json} {f : β → α} {o : Option β}
    (h : ∀ b ∈ o, ReadsAs parse (dump b) (f b)) (hne : ∀ b, dump b ≠ .null)
    (hnodup : (fields.map Prod.fst).Nodup) (hmem : (name, .ofOption dump o) ∈ fields) :
    parseField (dumpMembers excludeNone fields) loc name (.some none) (parseOptional parse) =
      .valid (o.map f) := by
  refine parseField_dump (.ofOption h hne) hnodup hmem fun hnull => ?_
  cases o with
  | none => rfl
  | some b => exact absurd hnull (hne b)

end

/-! ## Scalars -/

section

variable {P : Pydantic} (hP : P.Coerces)

include hP

theorem reads_checked {validate : Text → Option String} (v : Checked validate) :
    ReadsAs (parseChecked P validate) (.ofText v.val) v := by
  intro loc
  unfold parseChecked Json.ofText
  rw [hP.str]
  dsimp only
  split
  · rfl
  · rename_i msg h
    rw [v.property] at h
    cases h

theorem reads_text (t : Text) : ReadsAs (parseScalar P.str) (.ofText t) t := by
  intro loc
  unfold parseScalar Json.ofText
  rw [hP.str]

theorem reads_int (n : Int) : ReadsAs (parseScalar P.int) (.int n) n := by
  intro loc
  unfold parseScalar
  rw [hP.int]

theorem reads_bool (b : Bool) : ReadsAs (parseScalar P.bool) (.bool b) b := by
  intro loc
  unfold parseScalar
  rw [hP.bool]

omit hP

theorem reads_mode (m : NetworkModeEnum) : ReadsAs parseMode (.ofText m.value.toList) m := by
  intro loc
  cases m <;> rfl

theorem reads_securityType (t : SecurityTypes) :
    ReadsAs parseSecurityType (.ofText t.value.toList) t := by
  intro loc
  cases t <;> rfl

theorem ofText_ne_null (t : Text) : Json.ofText t ≠ .null := by rintro ⟨⟩

/-! ## Security settings -/

include hP

theorem parseWpaText_dump {label : String} {excludeNone : Bool} {fields : List (String × Json)}
    {loc : List Loc} {o : Option (WpaText label)} (hnodup : (fields.map Prod.fst).Nodup)
    (hmem : (label, .ofOption (fun t => .ofText t.val) o) ∈ fields) :
    parseWpaText P label (dumpMembers excludeNone fields) loc = .valid o := by
  have h : parseWpaText P label (dumpMembers excludeNone fields) loc = .valid (o.map id) :=
    parseField_option (fun b _ => reads_checked hP b) (fun b => ofText_ne_null b.val) hnodup hmem
  rwa [Option.map_id] at h

theorem parseInt_dump {name : String} {excludeNone : Bool} {fields : List (String × Json)}
    {loc : List Loc} {o : Option Int} (hnodup : (fields.map Prod.fst).Nodup)
    (hmem : (name, .ofOption .int o) ∈ fields) :
    parseInt P name (dumpMembers excludeNone fields) loc = .valid o := by
  have h : parseInt P name (dumpMembers excludeNone fields) loc = .valid (o.map id) :=
    parseField_option (fun b _ => reads_int hP b) (fun b => by rintro ⟨⟩) hnodup hmem
  rwa [Option.map_id] at h

theorem NetSecurity.reads (s : NetSecurity) (h : validatePskFormat s = none) :
    ReadsAs (parseSecurity P) s.toJson s := by
  intro loc
  have hnodup : (s.dumpFields.map Prod.fst).Nodup := by
    change ["ssid", "security", "psk", "sae_pwe", "pmf", "identity", "password", "client_cert",
      "private_key", "ca_cert"].Nodup
    decide
  change NetSecurity.read P (dumpMembers false s.dumpFields) loc = _
  unfold NetSecurity.read
  rw [parseField_value (reads_checked hP s.ssid) hnodup (by simp [dumpFields]) (ofText_ne_null _),
    parseField_value (reads_securityType s.security) hnodup (by simp [dumpFields])
      (ofText_ne_null _),
    parseWpaText_dump hP (o := s.psk) hnodup (by simp [dumpFields]),
    parseInt_dump hP (o := s.saePwe) hnodup (by simp [dumpFields]),
    parseInt_dump hP (o := s.pmf) hnodup (by simp [dumpFields]),
    parseWpaText_dump hP (o := s.identity) hnodup (by simp [dumpFields]),
    parseWpaText_dump hP (o := s.password) hnodup (by simp [dumpFields]),
    parseWpaText_dump hP (o := s.clientCert) hnodup (by simp [dumpFields]),
    parseWpaText_dump hP (o := s.privateKey) hnodup (by simp [dumpFields]),
    parseWpaText_dump hP (o := s.caCert) hnodup (by simp [dumpFields])]
  exact Validation.after_valid h

/-- The settings an update has when it was read from their public form. -/
def NetSecurity.withoutSecrets (s : NetSecurity) : NetSecurity :=
  { s with psk := none, password := none }

omit hP in
theorem validatePskFormat_withoutSecrets (s : NetSecurity) :
    validatePskFormat s.withoutSecrets = none := rfl

omit hP in
/-- The fields of the public form: the secrets are gone, two flags came. -/
theorem NetSecurityPublic.fromSecurity_dumpFields (s : NetSecurity) :
    (fromSecurity s).dumpFields =
      [("ssid", .ofText s.ssid.val), ("security", .ofText s.security.value.toList),
        ("psk_set", .bool (isSet s.psk)), ("password_set", .bool (isSet s.password)),
        ("sae_pwe", .ofOption .int s.saePwe), ("pmf", .ofOption .int s.pmf),
        ("identity", .ofOption (fun t => .ofText t.val) s.identity),
        ("client_cert", .ofOption (fun t => .ofText t.val) s.clientCert),
        ("private_key", .ofOption (fun t => .ofText t.val) s.privateKey),
        ("ca_cert", .ofOption (fun t => .ofText t.val) s.caCert)] := by
  have htext {label : String} (o : Option (WpaText label)) :
      Json.ofOption Json.ofText (o.map Subtype.val) = Json.ofOption (fun t => .ofText t.val) o := by
    cases o <;> rfl
  simp only [dumpFields, fromSecurity, htext]

theorem NetSecurityPublic.reads (s : NetSecurity) :
    ReadsAs (parseSecurity P) ((fromSecurity s).toJson true) s.withoutSecrets := by
  intro loc
  have hfields := fromSecurity_dumpFields s
  have hnames : (fromSecurity s).dumpFields.map Prod.fst = ["ssid", "security", "psk_set",
      "password_set", "sae_pwe", "pmf", "identity", "client_cert", "private_key", "ca_cert"] := rfl
  have hnodup : ((fromSecurity s).dumpFields.map Prod.fst).Nodup := by
    rw [hnames]
    decide
  have habsent (name : String) (h : name ∉ (fromSecurity s).dumpFields.map Prod.fst) :
      ∀ f ∈ (fromSecurity s).dumpFields, f.1 ≠ name :=
    fun f hf heq => h (List.mem_map.2 ⟨f, hf, heq⟩)
  change NetSecurity.read P (dumpMembers true (fromSecurity s).dumpFields) loc = _
  unfold NetSecurity.read
  rw [parseField_value (reads_checked hP s.ssid) hnodup (by simp [hfields]) (ofText_ne_null _),
    parseField_value (reads_securityType s.security) hnodup (by simp [hfields]) (ofText_ne_null _),
    parseWpaText, parseField_absent (habsent "psk" (by rw [hnames]; decide)),
    parseInt_dump hP (o := s.saePwe) hnodup (by simp [hfields]),
    parseInt_dump hP (o := s.pmf) hnodup (by simp [hfields]),
    parseWpaText_dump hP (o := s.identity) hnodup (by simp [hfields]),
    parseWpaText, parseField_absent (habsent "password" (by rw [hnames]; decide)),
    parseWpaText_dump hP (o := s.clientCert) hnodup (by simp [hfields]),
    parseWpaText_dump hP (o := s.privateKey) hnodup (by simp [hfields]),
    parseWpaText_dump hP (o := s.caCert) hnodup (by simp [hfields])]
  exact Validation.after_valid (validatePskFormat_withoutSecrets s)

/-! ## Entries -/

variable {security : Parse NetSecurity} {dump : NetSecurity → Json} {f : NetSecurity → NetSecurity}

/-- A root entry is read from the fields it was dumped to, with its security settings as `security`
reads them. -/
theorem RootConfigBase.read_dump {excludeNone : Bool} {fields : List (String × Json)}
    {loc : List Loc} (e : RootConfig)
    (hsecurity : ∀ s ∈ e.security, ReadsAs security (dump s) (f s)) (hne : ∀ s, dump s ≠ .null)
    (hnodup : (fields.map Prod.fst).Nodup) (hsub : ∀ f ∈ e.dumpFields dump, f ∈ fields) :
    RootConfigBase.read P security (dumpMembers excludeNone fields) loc =
      .valid { e with security := e.security.map f } := by
  have happ : parseField (dumpMembers excludeNone fields) loc "autostart_app" (some none)
      (parseOptional (parseScalar P.str)) = .valid (e.autostartApp.map id) :=
    parseField_option (fun t _ => reads_text hP t) ofText_ne_null hnodup
      (hsub _ (by simp [dumpFields]))
  rw [Option.map_id, id] at happ
  unfold RootConfigBase.read
  rw [parseField_value (reads_mode e.mode) hnodup (hsub _ (by simp [dumpFields]))
      (ofText_ne_null _),
    parseField_value (reads_checked hP e.ifaceDisplayName) hnodup (hsub _ (by simp [dumpFields]))
      (ofText_ne_null _),
    parseField_value (reads_checked hP e.phy) hnodup (hsub _ (by simp [dumpFields]))
      (ofText_ne_null _),
    parseField_value (reads_checked hP e.interface) hnodup (hsub _ (by simp [dumpFields]))
      (ofText_ne_null _),
    parseField_option hsecurity hne hnodup (hsub _ (by simp [dumpFields])),
    parseField_value (reads_bool hP e.defaultRoute) hnodup (hsub _ (by simp [dumpFields]))
      (by rintro ⟨⟩), happ]
  rfl

/-- What reading a root entry makes of its security settings. -/
def RootConfigBase.mapSecurity (f : NetSecurity → NetSecurity) (e : RootConfig) : RootConfig :=
  { e with security := e.security.map f }

def NamespaceConfigBase.mapSecurity (f : NetSecurity → NetSecurity) (e : NamespaceConfig) :
    NamespaceConfig :=
  { e.toRootConfigBase.mapSecurity f with netns := e.netns }

theorem RootConfigBase.reads {name : String} {excludeNone : Bool} (e : RootConfig)
    (hsecurity : ∀ s ∈ e.security, ReadsAs security (dump s) (f s)) (hne : ∀ s, dump s ≠ .null) :
    ReadsAs (parseModel name (RootConfigBase.read P security)) (e.toJson excludeNone dump)
      (e.mapSecurity f) := by
  intro loc
  refine RootConfigBase.read_dump hP e hsecurity hne ?_ fun f hf => hf
  change ["mode", "iface_display_name", "phy", "interface", "security", "default_route",
    "autostart_app"].Nodup
  decide

theorem NamespaceConfigBase.reads {name : String} {excludeNone : Bool} (e : NamespaceConfig)
    (hsecurity : ∀ s ∈ e.security, ReadsAs security (dump s) (f s)) (hne : ∀ s, dump s ≠ .null) :
    ReadsAs (parseModel name (NamespaceConfigBase.read P security)) (e.toJson excludeNone dump)
      (e.mapSecurity f) := by
  intro loc
  have hnodup : ((e.dumpFields dump).map Prod.fst).Nodup := by
    change ["mode", "iface_display_name", "phy", "interface", "security", "default_route",
      "autostart_app", "namespace"].Nodup
    decide
  change NamespaceConfigBase.read P security (dumpMembers excludeNone (e.dumpFields dump)) loc = _
  unfold NamespaceConfigBase.read
  rw [RootConfigBase.read_dump hP e.toRootConfigBase hsecurity hne hnodup
      fun f hf => List.mem_append_left _ hf,
    parseField_value (reads_checked hP e.netns) hnodup (by simp [dumpFields]) (ofText_ne_null _)]
  rfl

omit hP

theorem ReadsAs.map {α β : Type} {parse : Parse β} {d : α → Json} {g : α → β} {as : List α}
    (h : ∀ a ∈ as, ReadsAs parse (d a) (g a)) :
    ReadsAs (parseList parse) (.arr (as.map d)) (as.map g) := by
  refine .list ?_
  rw [List.forall₂_map_left_iff, List.forall₂_map_right_iff, List.forall₂_same]
  exact h

theorem toPublic_toJson (e : RootConfig) :
    e.toPublic.toJson true (NetSecurityPublic.toJson true) =
      e.toJson true fun s => (NetSecurityPublic.fromSecurity s).toJson true := by
  unfold RootConfigBase.toJson RootConfigBase.dumpFields RootConfigBase.toPublic
  cases e.security <;> rfl

theorem NamespaceConfigBase.toPublic_toJson (e : NamespaceConfig) :
    e.toPublic.toJson true (NetSecurityPublic.toJson true) =
      e.toJson true fun s => (NetSecurityPublic.fromSecurity s).toJson true := by
  unfold NamespaceConfigBase.toJson NamespaceConfigBase.dumpFields RootConfigBase.dumpFields
    NamespaceConfigBase.toPublic RootConfigBase.toPublic
  cases e.security <;> rfl

theorem RootConfigBase.mapSecurity_id (e : RootConfig) : e.mapSecurity id = e := by
  simp only [mapSecurity, Option.map_id, id]

theorem NamespaceConfigBase.mapSecurity_id (e : NamespaceConfig) : e.mapSecurity id = e := by
  simp only [mapSecurity, RootConfigBase.mapSecurity_id]

/-! ## Profiles -/

include hP

theorem reads_roots {es : List RootConfig}
    (hpsk : ∀ e ∈ es, ∀ s ∈ e.security, validatePskFormat s = none) :
    ReadsAs (parseRoots P) (.arr (es.map (·.toJson false NetSecurity.toJson))) es := by
  have h : ReadsAs (parseRoots P) (.arr (es.map (·.toJson false NetSecurity.toJson)))
    (es.map id) := by
    refine ReadsAs.map fun e he => ?_
    have hread : ReadsAs (parseModel "RootConfig" (RootConfigBase.read P (parseSecurity P)))
        (e.toJson false NetSecurity.toJson) (e.mapSecurity id) :=
      e.reads hP (fun s hs => NetSecurity.reads hP s (hpsk e he s hs)) (by rintro s ⟨⟩)
    rw [e.mapSecurity_id] at hread
    exact hread
  rwa [List.map_id] at h

theorem reads_namespaces {es : List NamespaceConfig}
    (hpsk : ∀ e ∈ es, ∀ s ∈ e.security, validatePskFormat s = none) :
    ReadsAs (parseNamespaces P) (.arr (es.map (·.toJson false NetSecurity.toJson))) es := by
  have h : ReadsAs (parseNamespaces P) (.arr (es.map (·.toJson false NetSecurity.toJson)))
      (es.map id) := by
    refine ReadsAs.map fun e he => ?_
    have hread :
      ReadsAs (parseModel "NamespaceConfig" (NamespaceConfigBase.read P (parseSecurity P)))
        (e.toJson false NetSecurity.toJson) (e.mapSecurity id) :=
      e.reads hP (fun s hs => NetSecurity.reads hP s (hpsk e he s hs)) (by rintro s ⟨⟩)
    rw [e.mapSecurity_id] at hread
    exact hread
  rwa [List.map_id] at h

/-- A profile whose entries passed their own check is read back from its dump, up to the check of
the profile. -/
theorem modelValidate_dump {cfg : NetConfig}
    (hpsk : ∀ e ∈ cfg.entries, ∀ s ∈ e.base.security, validatePskFormat s = none) :
    NetConfig.modelValidate P cfg.modelDump =
      (Validation.valid cfg).after (.obj cfg.modelDump) [] validateUniqueInterfaces := by
  have hns : ∀ es ∈ cfg.namespaces, ∀ e ∈ es, ∀ s ∈ e.security, validatePskFormat s = none := by
    intro es hes e he s hs
    refine hpsk (.ns e) (List.mem_append_left _ ?_) s hs
    rw [Option.mem_def.1 hes]
    exact List.mem_map_of_mem he
  have hroots : ∀ es ∈ cfg.roots, ∀ e ∈ es, ∀ s ∈ e.security, validatePskFormat s = none := by
    intro es hes e he s hs
    refine hpsk (.root e) (List.mem_append_right _ ?_) s hs
    rw [Option.mem_def.1 hes]
    exact List.mem_map_of_mem he
  have hnodup : (cfg.dumpFields.map Prod.fst).Nodup := by
    change ["id", "namespaces", "roots"].Nodup
    decide
  unfold NetConfig.modelValidate NetConfig.modelDump
  rw [parseField_value (reads_checked hP cfg.id) hnodup (by simp [NetConfig.dumpFields])
      (ofText_ne_null _),
    parseField_option (f := id) (o := cfg.namespaces)
      (fun es hes => reads_namespaces hP (hns es hes)) (by rintro es ⟨⟩) hnodup
      (by simp [NetConfig.dumpFields]),
    parseField_option (f := id) (o := cfg.roots)
      (fun es hes => reads_roots hP (hroots es hes)) (by rintro es ⟨⟩) hnodup
      (by simp [NetConfig.dumpFields]),
    Option.map_id, Option.map_id]
  rfl

/-- Validating a profile's dump gives the profile back. -/
theorem modelValidate_modelDump {cfg : NetConfig} (h : cfg.Valid) :
    NetConfig.modelValidate P cfg.modelDump = .ok cfg :=
  (modelValidate_dump hP h.psk).trans (Validation.after_valid h.unique)

/-- Validating the public form as an update gives the entries without their secrets. -/
theorem modelValidate_public (cfg : NetConfig) :
    NetConfigUpdate.modelValidate P (NetConfigPublic.fromConfig cfg).modelDump =
      .ok { namespaces := some ((cfg.namespaces.getD []).map (·.mapSecurity .withoutSecrets))
            roots := some ((cfg.roots.getD []).map (·.mapSecurity .withoutSecrets)) } := by
  have hne (s : NetSecurity) : (NetSecurityPublic.fromSecurity s).toJson true ≠ .null :=
    by rintro ⟨⟩
  have hns : ReadsAs (parseOptional (parseNamespaces P))
      (.arr (((cfg.namespaces.getD []).map (·.toPublic)).map
        (·.toJson true (NetSecurityPublic.toJson true))))
      (some ((cfg.namespaces.getD []).map (·.mapSecurity .withoutSecrets))) := by
    refine ReadsAs.some ?_ (by rintro ⟨⟩)
    rw [List.map_map]
    refine ReadsAs.map fun e _ => ?_
    rw [Function.comp_apply, NamespaceConfigBase.toPublic_toJson]
    exact e.reads hP (fun s _ => NetSecurityPublic.reads hP s) hne
  have hroots : ReadsAs (parseOptional (parseRoots P))
      (.arr (((cfg.roots.getD []).map (·.toPublic)).map
        (·.toJson true (NetSecurityPublic.toJson true))))
      (some ((cfg.roots.getD []).map (·.mapSecurity .withoutSecrets))) := by
    refine ReadsAs.some ?_ (by rintro ⟨⟩)
    rw [List.map_map]
    refine ReadsAs.map fun e _ => ?_
    rw [Function.comp_apply, toPublic_toJson]
    exact e.reads hP (fun s _ => NetSecurityPublic.reads hP s) hne
  have hfields : (NetConfigPublic.fromConfig cfg).dumpFields =
      [("id", .ofText cfg.id.val),
        ("namespaces", .arr (((cfg.namespaces.getD []).map (·.toPublic)).map
          (·.toJson true (NetSecurityPublic.toJson true)))),
        ("roots", .arr (((cfg.roots.getD []).map (·.toPublic)).map
          (·.toJson true (NetSecurityPublic.toJson true))))] := rfl
  have hnodup : ((NetConfigPublic.fromConfig cfg).dumpFields.map Prod.fst).Nodup := by
    change ["id", "namespaces", "roots"].Nodup
    decide
  unfold NetConfigUpdate.modelValidate NetConfigPublic.modelDump
  rw [parseField_value hns hnodup (by rw [hfields]; simp) (by rintro ⟨⟩),
    parseField_value hroots hnodup (by rw [hfields]; simp) (by rintro ⟨⟩)]
  rfl

end

end WlanpiCore
