import WlanpiCore.Config.Schema
import WlanpiCore.Lib.Dict

/-!
# What a profile shows of its secrets

`NetConfigPublic.from_config`, and the `str` and `repr` of a profile, of its entries and of their
security settings. A string form is the `repr` of the model's dump after `_redact_security_dict` or
`_redact_root_config_dict`, each called at its own level: a profile redacts the dumps of its entries
and never asks an entry for its string.

The dump is the python one, where an enum stays a member. `toJson_dump` says that it holds the same
values as the JSON dump of `Config.Schema`.

**Theorem (`NetConfig.Alike.hides_secrets`).** Profiles that differ only in the values of `psk` and
`password` fields that are not empty are shown alike: in public, and in the string forms of every
level.
-/

namespace WlanpiCore

/-! ## Python values -/

/-- A value in a `model_dump()`. -/
inductive PyValue where
  | none
  | bool (b : Bool)
  | int (n : Int)
  | str (text : Text)
  | member (enum name value : String)
  | list (items : List PyValue)
  | dict (items : List (String × PyValue))

namespace PyValue

/-- `bool(value)`. A member of a `StrEnum` is a `str`. -/
def truthy : PyValue → Bool
  | none => false
  | bool b => b
  | int n => n ≠ 0
  | str text => !text.isEmpty
  | member _ _ value => !value.isEmpty
  | list items => !items.isEmpty
  | dict items => !items.isEmpty

def ofOption {α : Type} (dump : α → PyValue) : Option α → PyValue
  | .none => none
  | some a => dump a

/-- An optional list of models. -/
def ofEntries {α : Type} (dump : α → Dict String PyValue) : Option (List α) → PyValue :=
  ofOption fun es => list (es.map fun e => dict (dump e))

end PyValue

section Repr

-- `str.isprintable` for characters that are not ASCII: a table of the Unicode version
variable (isPrintable : Char → Bool)

def hexText (width : Nat) (c : Char) : Text := (Nat.toDigits 16 c.toNat).leftpad width '0'

/-- One character of `repr(text)`. -/
def reprChar (quote c : Char) : Text :=
  if c = quote ∨ c = '\\' then ['\\', c]
  else if c = '\t' then "\\t".toList
  else if c = '\n' then "\\n".toList
  else if c = '\r' then "\\r".toList
  else if c.toNat < 0x20 ∨ c.toNat = 0x7f then "\\x".toList ++ hexText 2 c
  else if c.toNat < 0x7f ∨ isPrintable c then [c]
  else if c.toNat ≤ 0xff then "\\x".toList ++ hexText 2 c
  else if c.toNat ≤ 0xffff then "\\u".toList ++ hexText 4 c
  else "\\U".toList ++ hexText 8 c

/-- `repr` of a `str`: in double quotes only when it has a single quote and no double one. -/
def reprStr (text : Text) : Text :=
  let quote := if '\'' ∈ text ∧ '"' ∉ text then '"' else '\''
  quote :: text.flatMap (reprChar isPrintable quote) ++ [quote]

namespace PyValue

mutual

/-- `repr(value)` -/
def repr : PyValue → Text
  | none => "None".toList
  | bool b => if b then "True".toList else "False".toList
  | int n => (toString n).toList
  | str text => reprStr isPrintable text
  | member enum name value =>
    '<' :: enum.toList ++ '.' :: name.toList ++ ": ".toList ++ reprStr isPrintable value.toList ++
      ['>']
  | list items => '[' :: ", ".toList.intercalate (reprItems items) ++ [']']
  | dict items => '\x7b' :: ", ".toList.intercalate (reprMembers items) ++ ['\x7d']

def reprItems : List PyValue → List Text
  | [] => []
  | value :: items => value.repr :: reprItems items

def reprMembers : List (String × PyValue) → List Text
  | [] => []
  | (key, value) :: items =>
    (reprStr isPrintable key.toList ++ ": ".toList ++ value.repr) :: reprMembers items

end

end PyValue

end Repr

/-! ## Dumps -/

def NetworkModeEnum.name : NetworkModeEnum → String
  | .managed => "managed"
  | .monitor => "monitor"

def SecurityTypes.name : SecurityTypes → String
  | .wpa2 => "wpa2"
  | .wpa3 => "wpa3"
  | .open => "open"
  | .owe => "owe"

def NetSecurity.dump (s : NetSecurity) : Dict String PyValue :=
  [("ssid", .str s.ssid.val),
    ("security", .member "SecurityTypes" s.security.name s.security.value),
    ("psk", .ofOption (fun t => .str t.val) s.psk), ("sae_pwe", .ofOption .int s.saePwe),
    ("pmf", .ofOption .int s.pmf), ("identity", .ofOption (fun t => .str t.val) s.identity),
    ("password", .ofOption (fun t => .str t.val) s.password),
    ("client_cert", .ofOption (fun t => .str t.val) s.clientCert),
    ("private_key", .ofOption (fun t => .str t.val) s.privateKey),
    ("ca_cert", .ofOption (fun t => .str t.val) s.caCert)]

section Dump

variable {SecurityT : Type} (security : SecurityT → PyValue)

def RootConfigBase.dump (e : RootConfigBase SecurityT) : Dict String PyValue :=
  [("mode", .member "NetworkModeEnum" e.mode.name e.mode.value),
    ("iface_display_name", .str e.ifaceDisplayName.val), ("phy", .str e.phy.val),
    ("interface", .str e.interface.val), ("security", .ofOption security e.security),
    ("default_route", .bool e.defaultRoute), ("autostart_app", .ofOption .str e.autostartApp)]

/-- `namespace` is the last field. -/
def NamespaceConfigBase.dump (e : NamespaceConfigBase SecurityT) : Dict String PyValue :=
  e.toRootConfigBase.dump security ++ [("namespace", .str e.netns.val)]

def Entry.dump (security : NetSecurity → PyValue) : Entry → Dict String PyValue
  | .ns e => e.dump security
  | .root e => e.dump security

end Dump

/-- The dump of a profile, for a dump of the security settings. -/
def NetConfig.dumpWith (security : NetSecurity → PyValue) (cfg : NetConfig) : Dict String PyValue :=
  [("id", .str cfg.id.val), ("namespaces", .ofEntries (·.dump security) cfg.namespaces),
    ("roots", .ofEntries (·.dump security) cfg.roots)]

def NetConfig.dump (cfg : NetConfig) : Dict String PyValue := cfg.dumpWith fun s => .dict s.dump

/-! ## Redaction -/

/-- `_SENSITIVE_SECURITY_FIELDS` -/
def sensitiveSecurityFields : List String :=
  ["psk", "password", "private_key", "client_cert", "ca_cert"]

/-- `_REDACTED` -/
def redacted : PyValue := .str "***".toList

/-- `_redact_security_dict`, of a dict or `None`. -/
def redactSecurityDict : PyValue → PyValue
  | .dict security =>
    if security.isEmpty then .dict security
    else .dict (Dict.mask PyValue.truthy redacted sensitiveSecurityFields security)
  | security => security

/-- `_redact_root_config_dict` -/
def redactRootConfigDict (data : Dict String PyValue) : Dict String PyValue :=
  data.set "security" (redactSecurityDict ((data.get "security").getD .none))

def redactEntry : PyValue → PyValue
  | .dict entry => .dict (redactRootConfigDict entry)
  | entry => entry

/-- `data[key] = [_redact_root_config_dict(entry) for entry in data[key]]`, if there are any. -/
def redactEntries (data : Dict String PyValue) (key : String) : Dict String PyValue :=
  match data.get key with
  | some (.list entries) =>
    if entries.isEmpty then data
    else data.set key (.list (entries.map redactEntry))
  | _ => data

section Strings

variable (isPrintable : Char → Bool)

/-- `NetSecurity.__str__` -/
def NetSecurity.str (s : NetSecurity) : Text := (redactSecurityDict (.dict s.dump)).repr isPrintable

/-- `__repr__ = __str__` -/
def NetSecurity.repr (s : NetSecurity) : Text := s.str isPrintable

/-- `_RootConfigBase.__str__` of an entry, on the dump of its own class. -/
def Entry.str (e : Entry) : Text :=
  (PyValue.dict (redactRootConfigDict (e.dump fun s => .dict s.dump))).repr isPrintable

def Entry.repr (e : Entry) : Text := e.str isPrintable

/-- `NetConfig.__str__` -/
def NetConfig.str (cfg : NetConfig) : Text :=
  (PyValue.dict (redactEntries (redactEntries cfg.dump "namespaces") "roots")).repr isPrintable

def NetConfig.repr (cfg : NetConfig) : Text := cfg.str isPrintable

end Strings

/-! ## The dump and its JSON -/

namespace PyValue

mutual

/-- The value in a JSON dump: a member of a `StrEnum` is its value. -/
def toJson : PyValue → Json
  | none => .null
  | bool b => .bool b
  | int n => .int n
  | str text => .ofText text
  | member _ _ value => .ofText value.toList
  | list items => .arr (toJsonItems items)
  | dict items => .obj (toJsonMembers items)

def toJsonItems : List PyValue → List Json
  | [] => []
  | value :: items => value.toJson :: toJsonItems items

def toJsonMembers : List (String × PyValue) → List (Option Text × Json)
  | [] => []
  | (key, value) :: items => (some key.toList, value.toJson) :: toJsonMembers items

end

theorem toJson_ofOption {α : Type} {dump : α → PyValue} {json : α → Json}
    (h : ∀ a, (dump a).toJson = json a) (o : Option α) :
    (ofOption dump o).toJson = Json.ofOption json o := by
  cases o with
  | none => rfl
  | some a => exact h a

theorem toJsonItems_map {α : Type} {dump : α → PyValue} {json : α → Json}
    (h : ∀ a, (dump a).toJson = json a) (items : List α) :
    toJsonItems (items.map dump) = items.map json := by
  induction items with
  | nil => rfl
  | cons a items ih => simp [toJsonItems, h, ih]

end PyValue

theorem dumpMembers_false (fields : List (String × Json)) :
    dumpMembers false fields = fields.map fun f => (some f.1.toList, f.2) := by
  simp [dumpMembers]

theorem NetSecurity.toJson_dump (s : NetSecurity) : (PyValue.dict s.dump).toJson = s.toJson := by
  have htext (label : String) (t : Option (WpaText label)) :
      (PyValue.ofOption (fun t => .str t.val) t).toJson =
        Json.ofOption (fun t => .ofText t.val) t :=
    PyValue.toJson_ofOption (fun _ => rfl) t
  have hint (n : Option Int) : (PyValue.ofOption .int n).toJson = Json.ofOption .int n :=
    PyValue.toJson_ofOption (fun _ => rfl) n
  simp only [NetSecurity.toJson, dumpMembers_false, dumpFields, dump, PyValue.toJson,
    PyValue.toJsonMembers, htext, hint, List.map_cons, List.map_nil]

theorem RootConfigBase.toJsonMembers_dump (e : RootConfig) :
    PyValue.toJsonMembers (e.dump fun s => .dict s.dump) =
      dumpMembers false (e.dumpFields NetSecurity.toJson) := by
  have hsecurity := PyValue.toJson_ofOption NetSecurity.toJson_dump e.security
  have happ : (PyValue.ofOption .str e.autostartApp).toJson =
    Json.ofOption .ofText e.autostartApp :=
    PyValue.toJson_ofOption (fun _ => rfl) e.autostartApp
  simp only [dumpMembers_false, dumpFields, dump, PyValue.toJson, PyValue.toJsonMembers, hsecurity,
    happ, List.map_cons, List.map_nil]

theorem PyValue.toJsonMembers_append (d d' : List (String × PyValue)) :
    toJsonMembers (d ++ d') = toJsonMembers d ++ toJsonMembers d' := by
  induction d with
  | nil => rfl
  | cons item d ih => simp [toJsonMembers, ih]

theorem NamespaceConfigBase.toJsonMembers_dump (e : NamespaceConfig) :
    PyValue.toJsonMembers (e.dump fun s => .dict s.dump) =
      dumpMembers false (e.dumpFields NetSecurity.toJson) := by
  rw [dump, PyValue.toJsonMembers_append, e.toRootConfigBase.toJsonMembers_dump]
  simp [dumpFields, dumpMembers_false, PyValue.toJsonMembers, PyValue.toJson]

theorem PyValue.toJson_ofEntries {α : Type} {dump : α → Dict String PyValue}
    {members : α → List (Option Text × Json)} (h : ∀ e, toJsonMembers (dump e) = members e)
    (es : Option (List α)) :
    (ofEntries dump es).toJson =
      Json.ofOption (fun es => .arr (es.map fun e => .obj (members e))) es := by
  have hentry (e : α) : (dict (dump e)).toJson = .obj (members e) := congrArg Json.obj (h e)
  have hentries (es : List α) : (list (es.map fun e => dict (dump e))).toJson =
      .arr (es.map fun e => .obj (members e)) := congrArg Json.arr (toJsonItems_map hentry es)
  exact toJson_ofOption hentries es

/-- **The python dump holds the values of the JSON one.** -/
theorem NetConfig.toJson_dump (cfg : NetConfig) :
    PyValue.toJsonMembers cfg.dump = cfg.modelDump := by
  have hns := PyValue.toJson_ofEntries NamespaceConfigBase.toJsonMembers_dump cfg.namespaces
  have hroots := PyValue.toJson_ofEntries RootConfigBase.toJsonMembers_dump cfg.roots
  simp only [modelDump, dumpMembers_false, dumpFields, dump, dumpWith, PyValue.toJsonMembers,
    PyValue.toJson, hns, hroots, List.map_cons, List.map_nil]
  rfl

/-! ## What a string form holds -/

/-- The security settings in a string form. -/
def NetSecurity.shown (s : NetSecurity) : PyValue := redactSecurityDict (.dict s.dump)

theorem redactSecurityDict_ofOption (o : Option NetSecurity) :
    redactSecurityDict (.ofOption (fun s => .dict s.dump) o) = .ofOption NetSecurity.shown o := by
  cases o with
  | none => rfl
  | some s => rfl

/-- The dump of an entry is redacted by redacting its security settings. -/
theorem RootConfigBase.redact_append (e : RootConfig) (rest : Dict String PyValue) :
    redactRootConfigDict ((e.dump fun s => .dict s.dump) ++ rest) =
      e.dump NetSecurity.shown ++ rest := by
  simp [redactRootConfigDict, dump, redactSecurityDict_ofOption]

theorem RootConfigBase.redact_dump (e : RootConfig) :
    redactRootConfigDict (e.dump fun s => .dict s.dump) = e.dump NetSecurity.shown := by
  rw [← List.append_nil (e.dump _), e.redact_append [], List.append_nil]

theorem NamespaceConfigBase.redact_dump (e : NamespaceConfig) :
    redactRootConfigDict (e.dump fun s => .dict s.dump) = e.dump NetSecurity.shown :=
  e.toRootConfigBase.redact_append _

theorem Entry.redact_dump (e : Entry) :
    redactRootConfigDict (e.dump fun s => .dict s.dump) = e.dump NetSecurity.shown := by
  cases e with
  | ns e => exact e.redact_dump
  | root e => exact e.redact_dump

theorem redactEntries_ofEntries {α : Type} {dump shown : α → Dict String PyValue}
    (hredact : ∀ e, redactRootConfigDict (dump e) = shown e) {data : Dict String PyValue}
    {key : String} {es : Option (List α)} (h : data.get key = some (.ofEntries dump es)) :
    redactEntries data key = data.set key (.ofEntries shown es) := by
  cases es with
  | none =>
    have hnone : redactEntries data key = data := by
      simp [redactEntries, h, PyValue.ofEntries, PyValue.ofOption]
    rw [hnone]
    exact (Dict.set_of_get h).symm
  | some es =>
    by_cases hes : es = []
    · subst hes
      have hempty : redactEntries data key = data := by
        simp [redactEntries, h, PyValue.ofEntries, PyValue.ofOption]
      rw [hempty]
      exact (Dict.set_of_get h).symm
    · have hentry : redactEntry ∘ (fun e => PyValue.dict (dump e)) = fun e => .dict (shown e) := by
        funext e
        simp [redactEntry, hredact]
      simp [redactEntries, h, PyValue.ofEntries, PyValue.ofOption, hes, hentry]

/-- **The string form of a profile holds the redacted settings of every entry.** -/
theorem NetConfig.redact_dump (cfg : NetConfig) :
    redactEntries (redactEntries cfg.dump "namespaces") "roots" =
      cfg.dumpWith NetSecurity.shown := by
  have hns : cfg.dump.get "namespaces" =
      some (.ofEntries (·.dump fun s => .dict s.dump) cfg.namespaces) := by
    simp [dump, dumpWith]
  rw [redactEntries_ofEntries NamespaceConfigBase.redact_dump hns]
  have hroots : (cfg.dump.set "namespaces" (.ofEntries (·.dump NetSecurity.shown)
      cfg.namespaces)).get "roots" =
        some (.ofEntries (·.dump fun s => .dict s.dump) cfg.roots) := by
    simp [dump, dumpWith]
  rw [redactEntries_ofEntries RootConfigBase.redact_dump hroots]
  simp [dump, dumpWith]

/-! ## Profiles that differ in secrets only -/

/-- Equal, or both set and not empty. -/
def SecretsAlike {label : String} (a b : Option (WpaText label)) : Prop :=
  a = b ∨ isSet a = true ∧ isSet b = true

structure NetSecurity.Alike (s s' : NetSecurity) : Prop where
  psk : SecretsAlike s.psk s'.psk
  password : SecretsAlike s.password s'.password
  rest : { s with psk := s'.psk, password := s'.password } = s'

structure RootConfigBase.Alike (e e' : RootConfig) : Prop where
  security : Option.Rel NetSecurity.Alike e.security e'.security
  rest : { e with security := e'.security } = e'

structure NamespaceConfigBase.Alike (e e' : NamespaceConfig) : Prop where
  base : e.toRootConfigBase.Alike e'.toRootConfigBase
  netns : e.netns = e'.netns

structure NetConfig.Alike (cfg cfg' : NetConfig) : Prop where
  id : cfg.id = cfg'.id
  namespaces : Option.Rel (List.Forall₂ NamespaceConfigBase.Alike) cfg.namespaces cfg'.namespaces
  roots : Option.Rel (List.Forall₂ RootConfigBase.Alike) cfg.roots cfg'.roots

/-- Entries of the same kind that differ in secrets only. -/
inductive Entry.Alike : Entry → Entry → Prop
  | ns {e e' : NamespaceConfig} (h : e.Alike e') : Entry.Alike (.ns e) (.ns e')
  | root {e e' : RootConfig} (h : e.Alike e') : Entry.Alike (.root e) (.root e')

theorem optionRel_map_eq {α β : Type} {r : α → α → Prop} {f : α → β}
    (h : ∀ a b, r a b → f a = f b) {o o' : Option α} (ho : Option.Rel r o o') :
    o.map f = o'.map f := by
  cases ho with
  | none => rfl
  | some hr => exact congrArg some (h _ _ hr)

theorem PyValue.ofOption_eq {α : Type} (dump : α → PyValue) (o : Option α) :
    ofOption dump o = (o.map dump).getD none := by
  cases o <;> rfl

theorem forall₂_map_eq {α β : Type} {r : α → α → Prop} {f : α → β} (h : ∀ a b, r a b → f a = f b)
    {as bs : List α} (hr : List.Forall₂ r as bs) : as.map f = bs.map f := by
  induction hr with
  | nil => rfl
  | cons hab _ ih => rw [List.map_cons, List.map_cons, h _ _ hab, ih]

theorem SecretsAlike.isSet_eq {label : String} {a b : Option (WpaText label)}
    (h : SecretsAlike a b) : isSet a = isSet b := by
  rcases h with h | ⟨ha, hb⟩
  · rw [h]
  · rw [ha, hb]

theorem truthy_of_isSet {label : String} {a : Option (WpaText label)} (h : isSet a = true) :
    (PyValue.ofOption (fun t => .str t.val) a).truthy = true := by
  cases a with
  | none => cases h
  | some t => simpa [isSet, PyValue.truthy, PyValue.ofOption] using h

/-- The dumped items of a secret field. -/
theorem SecretsAlike.item {label : String} {a b : Option (WpaText label)} (h : SecretsAlike a b)
    (hkey : label ∈ sensitiveSecurityFields) :
    Dict.AlikeItem PyValue.truthy sensitiveSecurityFields
      (label, .ofOption (fun t => .str t.val) a) (label, .ofOption (fun t => .str t.val) b) := by
  rcases h with h | ⟨ha, hb⟩
  · exact ⟨rfl, .inl (by rw [h])⟩
  · exact ⟨rfl, .inr ⟨hkey, truthy_of_isSet ha, truthy_of_isSet hb⟩⟩

namespace NetSecurity.Alike

variable {s s' : NetSecurity}

theorem shown_eq (h : s.Alike s') : s.shown = s'.shown := by
  have hdump :
      List.Forall₂ (Dict.AlikeItem PyValue.truthy sensitiveSecurityFields) s.dump s'.dump := by
    rw [← h.rest]
    have hsame (item : String × PyValue) :
        Dict.AlikeItem PyValue.truthy sensitiveSecurityFields item item := ⟨rfl, .inl rfl⟩
    have hpsk := h.psk.item (by decide)
    have hpassword := h.password.item (by decide)
    simp [dump, hsame, hpsk, hpassword]
  have hnodup : (s.dump.map Prod.fst).Nodup := by simp [dump]
  show PyValue.dict _ = PyValue.dict _
  exact congrArg PyValue.dict (Dict.mask_eq_of_alike _ _ hnodup hdump)

theorem public_eq (h : s.Alike s') :
    NetSecurityPublic.fromSecurity s = NetSecurityPublic.fromSecurity s' := by
  rw [← h.rest]
  simp [NetSecurityPublic.fromSecurity, h.psk.isSet_eq, h.password.isSet_eq]

end NetSecurity.Alike

theorem RootConfigBase.Alike.dump_eq {e e' : RootConfig} (h : e.Alike e') :
    e.dump NetSecurity.shown = e'.dump NetSecurity.shown := by
  have hsecurity := optionRel_map_eq (fun _ _ hs => hs.shown_eq) h.security
  rw [← h.rest]
  simp [dump, PyValue.ofOption_eq, hsecurity]

theorem NamespaceConfigBase.Alike.dump_eq {e e' : NamespaceConfig} (h : e.Alike e') :
    e.dump NetSecurity.shown = e'.dump NetSecurity.shown := by
  rw [dump, dump, h.base.dump_eq, h.netns]

theorem RootConfigBase.Alike.public_eq {e e' : RootConfig} (h : e.Alike e') :
    e.toPublic = e'.toPublic := by
  have hsecurity := optionRel_map_eq (fun _ _ hs => hs.public_eq) h.security
  rw [← h.rest]
  simp [toPublic, hsecurity]

theorem NamespaceConfigBase.Alike.public_eq {e e' : NamespaceConfig} (h : e.Alike e') :
    e.toPublic = e'.toPublic := by
  simp [toPublic, h.base.public_eq, h.netns]

theorem Entry.Alike.dump_eq {e e' : Entry} (h : e.Alike e') :
    e.dump NetSecurity.shown = e'.dump NetSecurity.shown := by
  cases h with
  | ns h => exact h.dump_eq
  | root h => exact h.dump_eq

theorem Entry.Alike.security {e e' : Entry} (h : e.Alike e') :
    Option.Rel NetSecurity.Alike e.base.security e'.base.security := by
  cases h with
  | ns h => exact h.base.security
  | root h => exact h.security

theorem ofEntries_eq {α : Type} {r : α → α → Prop} {dump : α → Dict String PyValue}
    (h : ∀ e e', r e e' → dump e = dump e') {es es' : Option (List α)}
    (hes : Option.Rel (List.Forall₂ r) es es') :
    PyValue.ofEntries dump es = PyValue.ofEntries dump es' := by
  unfold PyValue.ofEntries
  rw [PyValue.ofOption_eq, PyValue.ofOption_eq]
  have hitem (e e' : α) (he : r e e') : PyValue.dict (dump e) = .dict (dump e') :=
    congrArg PyValue.dict (h e e' he)
  rw [optionRel_map_eq (fun _ _ hr => congrArg PyValue.list (forall₂_map_eq hitem hr)) hes]

theorem forall₂_getD {α : Type} {r : α → α → Prop} {es es' : Option (List α)}
    (hes : Option.Rel (List.Forall₂ r) es es') : List.Forall₂ r (es.getD []) (es'.getD []) := by
  cases hes with
  | none => exact .nil
  | some h => exact h

namespace NetConfig.Alike

variable {cfg cfg' : NetConfig}

theorem entries (h : cfg.Alike cfg') : List.Forall₂ Entry.Alike cfg.entries cfg'.entries := by
  apply List.rel_append
  · rw [List.forall₂_map_left_iff, List.forall₂_map_right_iff]
    exact (forall₂_getD h.namespaces).imp fun _ _ => .ns
  · rw [List.forall₂_map_left_iff, List.forall₂_map_right_iff]
    exact (forall₂_getD h.roots).imp fun _ _ => .root

theorem dump_eq (h : cfg.Alike cfg') :
    cfg.dumpWith NetSecurity.shown = cfg'.dumpWith NetSecurity.shown := by
  have hns := ofEntries_eq (fun _ _ he => NamespaceConfigBase.Alike.dump_eq he) h.namespaces
  have hroots := ofEntries_eq (fun _ _ he => RootConfigBase.Alike.dump_eq he) h.roots
  rw [dumpWith, dumpWith, h.id, hns, hroots]

theorem public_eq (h : cfg.Alike cfg') :
    NetConfigPublic.fromConfig cfg = NetConfigPublic.fromConfig cfg' := by
  have hns := forall₂_map_eq (fun _ _ he => NamespaceConfigBase.Alike.public_eq he)
    (forall₂_getD h.namespaces)
  have hroots := forall₂_map_eq (fun _ _ he => RootConfigBase.Alike.public_eq he)
    (forall₂_getD h.roots)
  rw [NetConfigPublic.fromConfig, NetConfigPublic.fromConfig, h.id, hns, hroots]

end NetConfig.Alike

section Strings

variable (isPrintable : Char → Bool)

/-- The string forms of the security settings are the same. -/
def NetSecurity.PrintsAlike (s s' : NetSecurity) : Prop :=
  s.str isPrintable = s'.str isPrintable ∧ s.repr isPrintable = s'.repr isPrintable

/-- The string forms of the entries and of their security settings are the same. -/
structure Entry.PrintsAlike (e e' : Entry) : Prop where
  str : e.str isPrintable = e'.str isPrintable
  repr : e.repr isPrintable = e'.repr isPrintable
  security : Option.Rel (NetSecurity.PrintsAlike isPrintable) e.base.security e'.base.security

theorem NetSecurity.Alike.printsAlike {s s' : NetSecurity} (h : s.Alike s') :
    s.PrintsAlike isPrintable s' := by
  have hstr : s.str isPrintable = s'.str isPrintable :=
    congrArg (PyValue.repr isPrintable) h.shown_eq
  exact ⟨hstr, hstr⟩

example :
    (NetSecurity.str (fun _ => true)
      { ssid := ⟨"lab's".toList, by decide⟩, security := .wpa2
        psk := some ⟨"passphrase".toList, by decide⟩ }) =
      ("\x7b'ssid': \"lab's\", 'security': <SecurityTypes.wpa2: 'WPA2-PSK'>, 'psk': '***', " ++
        "'sae_pwe': None, 'pmf': None, 'identity': None, 'password': None, 'client_cert': None, " ++
        "'private_key': None, 'ca_cert': None\x7d").toList := by
  decide +kernel

theorem Entry.Alike.printsAlike {e e' : Entry} (h : e.Alike e') : e.PrintsAlike isPrintable e' := by
  have hstr : e.str isPrintable = e'.str isPrintable := by
    rw [Entry.str, Entry.str, e.redact_dump, e'.redact_dump, h.dump_eq]
  refine ⟨hstr, hstr, ?_⟩
  have hsecurity := h.security
  revert hsecurity
  generalize e.base.security = o
  generalize e'.base.security = o'
  intro ho
  cases ho with
  | none => exact .none
  | some hs => exact .some (hs.printsAlike isPrintable)

/-- **Secrets do not influence what is shown.** -/
theorem NetConfig.Alike.hides_secrets {cfg cfg' : NetConfig} (h : cfg.Alike cfg') :
    NetConfigPublic.fromConfig cfg = NetConfigPublic.fromConfig cfg' ∧
      cfg.str isPrintable = cfg'.str isPrintable ∧
      cfg.repr isPrintable = cfg'.repr isPrintable ∧
      List.Forall₂ (Entry.PrintsAlike isPrintable) cfg.entries cfg'.entries := by
  have hstr : cfg.str isPrintable = cfg'.str isPrintable := by
    rw [NetConfig.str, NetConfig.str, cfg.redact_dump, cfg'.redact_dump, h.dump_eq]
  exact ⟨h.public_eq, hstr, hstr, h.entries.imp fun _ _ => Entry.Alike.printsAlike isPrintable⟩

end Strings

/-- A profile with secrets at the root and in a namespace. -/
def secretConfig (psk key : WpaText "psk") (password : WpaText "password") : NetConfig where
  id := ⟨"lab".toList, labId_valid⟩
  namespaces := some
    [{ ifaceDisplayName := ⟨"wlan1".toList, wlan1_valid⟩
       phy := ⟨"phy1".toList, phy1_valid⟩
       interface := ⟨"wlan1".toList, wlan1_valid⟩
       security := some { ssid := ⟨"lab".toList, by decide⟩, security := .wpa3, psk := some key }
       netns := ⟨"lab".toList, labName_valid⟩ }]
  roots := some
    [{ ifaceDisplayName := ⟨"wlan0".toList, wlan0_valid⟩
       phy := ⟨"phy0".toList, phy0_valid⟩
       interface := ⟨"wlan0".toList, wlan0_valid⟩
       security := some
         { ssid := ⟨"home".toList, home_valid⟩
           security := .wpa2
           psk := some psk
           password := some password } }]

/-- Two valid profiles without a secret in common. -/
theorem secretConfig_hidden :
    let cfg := secretConfig ⟨"passphrase".toList, by decide⟩ ⟨"first key".toList, by decide⟩
      ⟨"hunter2".toList, by decide⟩
    let cfg' := secretConfig ⟨"something else".toList, by decide⟩ ⟨"second key".toList, by decide⟩
      ⟨"letmein".toList, by decide⟩
    cfg.Valid ∧ cfg'.Valid ∧ cfg ≠ cfg' ∧
      NetConfigPublic.fromConfig cfg = NetConfigPublic.fromConfig cfg' ∧
      cfg.str (fun _ => true) = cfg'.str (fun _ => true) ∧
      cfg.repr (fun _ => true) = cfg'.repr (fun _ => true) ∧
      List.Forall₂ (Entry.PrintsAlike fun _ => true) cfg.entries cfg'.entries :=
  ⟨⟨by decide, by decide⟩, ⟨by decide, by decide⟩, by decide,
    NetConfig.Alike.hides_secrets (fun _ => true)
      { id := rfl
        namespaces := .some (.cons
          { base :=
              { security := .some { psk := .inr (by decide), password := .inl rfl, rest := rfl }
                rest := rfl }
            netns := rfl } .nil)
        roots := .some (.cons
          { security := .some
              { psk := .inr (by decide), password := .inr (by decide), rest := rfl }
            rest := rfl } .nil) }⟩

end WlanpiCore
