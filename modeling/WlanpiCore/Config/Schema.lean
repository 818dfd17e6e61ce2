import WlanpiCore.Lib.Json
import WlanpiCore.Config.Validation

/-!
# Network profiles

The pydantic models of `schemas/network/network.py` that describe a stored profile. Validation
reads a JSON value field by field, collects every error of a model, and runs the model's own
check only when all fields are valid, as pydantic does.

Pydantic's coercions of a scalar are a parameter, `Pydantic`; what the models rely on is `Coerces`:
a value that already has the field's type is taken as it is. `modelValidate_modelDump` and its
relatives say that a model's own dump validates to the model again.
-/

namespace WlanpiCore

/-! ## Validation -/

inductive Loc where
  | field (name : String)
  | index (i : Nat)

/-- One line of a pydantic `ValidationError`. -/
structure FieldError where
  loc : List Loc
  msg : String
  input : Json

/-- A validated value, or every error found. -/
def Validation (α : Type) : Type := Except (List FieldError) α

namespace Validation

variable {α β : Type}

def valid (a : α) : Validation α := Except.ok a

def invalid (errors : List FieldError) : Validation α := Except.error errors

instance : Applicative Validation where
  pure := valid
  seq f x :=
    match f, x () with
    | .ok f, .ok a => .ok (f a)
    | .ok _, .error e => .error e
    | .error e, .ok _ => .error e
    | .error e, .error e' => .error (e ++ e')

/-- A `model_validator(mode="after")`: it sees the model when all its fields are valid. -/
def after (x : Validation α) (input : Json) (loc : List Loc) (check : α → Option String) :
    Validation α :=
  match x with
  | .error e => .error e
  | .ok a =>
    match check a with
    | none => .ok a
    | some msg => .error [⟨loc, "Value error, " ++ msg, input⟩]

theorem after_valid {a : α} {input : Json} {loc : List Loc} {check : α → Option String}
    (h : check a = none) : (valid a).after input loc check = valid a := by
  have hafter : (valid a).after input loc check = match check a with
      | none => valid a
      | some msg => invalid [⟨loc, "Value error, " ++ msg, input⟩] := rfl
  rw [hafter, h]

end Validation

/-- What was validated: the file's content, or the profile with an update in it. -/
inductive Stage where
  | stored
  | edited

/-- What the models take from pydantic: its coercions of a scalar, each with the message of a
refusal, and the text of a `ValidationError`, which shows the members of an enumeration that
`model_dump` leaves in an edited profile, where a file has strings. A string with a lone surrogate
is no `Text`, so every field refuses one here; pydantic's plain `str`, the type of `autostart_app`,
takes it. -/
structure Pydantic where
  str : Json → Except String Text
  int : Json → Except String Int
  bool : Json → Except String Bool
  errorText : Stage → List FieldError → String

/-- A value of the field's own type is taken as it is. -/
structure Pydantic.Coerces (P : Pydantic) : Prop where
  str : ∀ t : Text, P.str (.str (some t)) = .ok t
  int : ∀ n : Int, P.int (.int n) = .ok n
  bool : ∀ b : Bool, P.bool (.bool b) = .ok b

/-- How one field is read: from its place and its value. -/
abbrev Parse (α : Type) := List Loc → Json → Validation α

section Fields

variable {α : Type} (P : Pydantic)

def parseScalar (coerce : Json → Except String α) : Parse α := fun loc j =>
  match coerce j with
  | .ok a => .valid a
  | .error msg => .invalid [⟨loc, msg, j⟩]

/-- A `str` field with a validator. -/
def parseChecked (validate : Text → Option String) : Parse (Checked validate) := fun loc j =>
  match P.str j with
  | .error msg => .invalid [⟨loc, msg, j⟩]
  | .ok value =>
    match h : validate value with
    | none => .valid ⟨value, h⟩
    | some msg => .invalid [⟨loc, "Value error, " ++ msg, j⟩]

def parseOptional (parse : Parse α) : Parse (Option α) := fun loc j =>
  match j with
  | .null => .valid none
  | j => some <$> parse loc j

def parseItems (parse : Parse α) (loc : List Loc) : Nat → List Json → Validation (List α)
  | _, [] => .valid []
  | i, j :: js => List.cons <$> parse (loc ++ [.index i]) j <*> parseItems parse loc (i + 1) js

def parseList (parse : Parse α) : Parse (List α) := fun loc j =>
  match j with
  | .arr items => parseItems parse loc 0 items
  | j => .invalid [⟨loc, "Input should be a valid list", j⟩]

/-- A field of a model. Without a default the field is required. -/
def parseField (members : List (Option Text × Json)) (loc : List Loc) (name : String)
    (default : Option α) (parse : Parse α) : Validation α :=
  match Json.member members name.toList, default with
  | some j, _ => parse (loc ++ [.field name]) j
  | none, some a => .valid a
  | none, none => .invalid [⟨loc ++ [.field name], "Field required", .obj members⟩]

end Fields

/-! ## The models -/

inductive NetworkModeEnum where
  | managed
  | monitor
  deriving DecidableEq, Repr

def NetworkModeEnum.value : NetworkModeEnum → String
  | .managed => "managed"
  | .monitor => "monitor"

inductive SecurityTypes where
  | wpa2
  | wpa3
  | «open»
  | owe
  deriving DecidableEq, Repr

def SecurityTypes.value : SecurityTypes → String
  | .wpa2 => "WPA2-PSK"
  | .wpa3 => "WPA3-PSK"
  | .open => "OPEN"
  | .owe => "OWE"

structure NetSecurity where
  ssid : Ssid
  security : SecurityTypes
  psk : Option (WpaText "psk") := none
  saePwe : Option Int := none
  pmf : Option Int := none
  identity : Option (WpaText "identity") := none
  password : Option (WpaText "password") := none
  clientCert : Option (WpaText "client_cert") := none
  privateKey : Option (WpaText "private_key") := none
  caCert : Option (WpaText "ca_cert") := none
  deriving DecidableEq

/-- `_RootConfigBase[SecurityT]` -/
structure RootConfigBase (SecurityT : Type) where
  mode : NetworkModeEnum := .managed
  ifaceDisplayName : InterfaceName
  phy : PhyName
  interface : InterfaceName
  security : Option SecurityT := none
  defaultRoute : Bool := false
  autostartApp : Option Text := none
  deriving DecidableEq

/-- A root entry with the `namespace` field of `_NamespaceField`. -/
structure NamespaceConfigBase (SecurityT : Type) extends RootConfigBase SecurityT where
  netns : NamespaceName
  deriving DecidableEq

abbrev RootConfig := RootConfigBase NetSecurity
abbrev NamespaceConfig := NamespaceConfigBase NetSecurity

structure NetConfig where
  id : ConfigId
  namespaces : Option (List NamespaceConfig) := none
  roots : Option (List RootConfig) := none
  deriving DecidableEq

/-- `NamespaceConfig | RootConfig` -/
inductive Entry where
  | ns (entry : NamespaceConfig)
  | root (entry : RootConfig)
  deriving DecidableEq

def Entry.base : Entry → RootConfig
  | .ns e => e.toRootConfigBase
  | .root e => e

/-- The namespace of an entry; `none` is root. -/
def Entry.netns : Entry → Option Text
  | .ns e => some e.netns.val
  | .root _ => none

/-- `_all_entries`: namespaces first. -/
def NetConfig.entries (cfg : NetConfig) : List Entry :=
  (cfg.namespaces.getD []).map .ns ++ (cfg.roots.getD []).map .root

/-! ## The models' own checks -/

def isHexDigit (c : Char) : Bool := "0123456789abcdefABCDEF".toList.contains c

/-- `validate_psk_format` -/
def validatePskFormat (s : NetSecurity) : Option String :=
  match s.psk with
  | none => none
  | some psk =>
    if s.security ≠ .wpa2 ∧ s.security ≠ .wpa3 then none
    else
      let isHexKey := psk.val.length == 64 && psk.val.all isHexDigit
      if isHexKey && s.security = .wpa2 then none
      else if !(8 ≤ psk.val.length && psk.val.length ≤ 63) ||
          !psk.val.all (fun c => 32 ≤ c.toNat && c.toNat ≤ 126) then
        some ("psk must be 8-63 printable ASCII characters" ++
          if s.security = .wpa2 then " or 64 hex digits" else "")
      else none

/-- The sorted set of a list of names. -/
def sortedSet (names : List String) : List String :=
  names.dedup.mergeSort (fun a b => decide (a ≤ b))

/-- `repr` of a list of strings that need no escapes. -/
def reprNames (names : List String) : String :=
  "[" ++ ", ".intercalate (names.map fun n => s!"'{n}'") ++ "]"

/-- `validate_unique_interfaces` -/
def validateUniqueInterfaces (cfg : NetConfig) : Option String :=
  let entries := cfg.entries.map fun e => (e.netns, e.base)
  let interfaces := entries.map fun e => e.2.interface.val
  let duplicates := interfaces.filter fun i => 1 < interfaces.count i
  if duplicates ≠ [] then
    some
      ("interface used by more than one entry: " ++
        reprNames (sortedSet (duplicates.map String.ofList)))
  else
    match entries.find? fun e =>
        let display := e.2.ifaceDisplayName.val
        display ≠ [] ∧ display ≠ e.2.interface.val ∧ display ∈ interfaces with
    | some e =>
      some
        (s!"iface_display_name '{String.ofList e.2.ifaceDisplayName.val}'" ++
          " is another entry's interface")
    | none =>
      let names := entries.map fun e =>
        (e.1, if e.2.ifaceDisplayName.val = [] then e.2.interface.val else e.2.ifaceDisplayName.val)
      let clashes := names.filter fun n => 1 < names.count n
      if clashes ≠ [] then
        let labels := clashes.map fun n =>
          String.ofList (n.1.getD "root".toList) ++ "/" ++ String.ofList n.2
        some s!"interface name used twice in one namespace: {reprNames (sortedSet labels)}"
      else none

/-- The models' checks on values that may have been set without them. -/
structure NetConfig.Valid (cfg : NetConfig) : Prop where
  psk : ∀ e ∈ cfg.entries, ∀ s ∈ e.base.security, validatePskFormat s = none
  unique : validateUniqueInterfaces cfg = none

/-! ## Reading a model -/

section Read

variable (P : Pydantic)

/-- An enum of strings: the value of a member. -/
def parseEnum {α : Type} (members : List α) (value : α → String) (expected : String) : Parse α :=
  fun loc j =>
    match j with
    | .str (some text) =>
      match members.find? fun m => (value m).toList = text with
      | some m => .valid m
      | none => .invalid [⟨loc, s!"Input should be {expected}", j⟩]
    | j => .invalid [⟨loc, s!"Input should be {expected}", j⟩]

def parseMode : Parse NetworkModeEnum :=
  parseEnum [.managed, .monitor] NetworkModeEnum.value "'managed' or 'monitor'"

def parseSecurityType : Parse SecurityTypes :=
  parseEnum [.wpa2, .wpa3, .open, .owe] SecurityTypes.value
    "'WPA2-PSK', 'WPA3-PSK', 'OPEN' or 'OWE'"

/-- A model is read from an object. -/
def parseModel {α : Type} (name : String)
    (parse : List (Option Text × Json) → List Loc → Validation α) : Parse α := fun loc j =>
  match j with
  | .obj members => parse members loc
  | j => .invalid [⟨loc, s!"Input should be a valid dictionary or instance of {name}", j⟩]

/-- An optional WPA text of `NetSecurity`. -/
def parseWpaText (label : String) (members : List (Option Text × Json)) (loc : List Loc) :
    Validation (Option (WpaText label)) :=
  parseField members loc label (some none) (parseOptional (parseChecked P (validateWpaText label)))

/-- An optional integer. -/
def parseInt (name : String) (members : List (Option Text × Json)) (loc : List Loc) :
    Validation (Option Int) :=
  parseField members loc name (some none) (parseOptional (parseScalar P.int))

def NetSecurity.read (members : List (Option Text × Json)) (loc : List Loc) :
    Validation NetSecurity :=
  (NetSecurity.mk
    <$> parseField members loc "ssid" none (parseChecked P validateSsid)
    <*> parseField members loc "security" none parseSecurityType
    <*> parseWpaText P "psk" members loc
    <*> parseInt P "sae_pwe" members loc
    <*> parseInt P "pmf" members loc
    <*> parseWpaText P "identity" members loc
    <*> parseWpaText P "password" members loc
    <*> parseWpaText P "client_cert" members loc
    <*> parseWpaText P "private_key" members loc
    <*> parseWpaText P "ca_cert" members loc).after (.obj members) loc validatePskFormat

def RootConfigBase.read {SecurityT : Type} (security : Parse SecurityT)
    (members : List (Option Text × Json)) (loc : List Loc) : Validation
    (RootConfigBase SecurityT) :=
  RootConfigBase.mk
    <$> parseField members loc "mode" (some .managed) parseMode
    <*> parseField members loc "iface_display_name" none (parseChecked P validateInterfaceName)
    <*> parseField members loc "phy" none (parseChecked P validatePhyName)
    <*> parseField members loc "interface" none (parseChecked P validateInterfaceName)
    <*> parseField members loc "security" (some none) (parseOptional security)
    <*> parseField members loc "default_route" (some false) (parseScalar P.bool)
    <*> parseField members loc "autostart_app" (some none) (parseOptional (parseScalar P.str))

def NamespaceConfigBase.read {SecurityT : Type} (security : Parse SecurityT)
    (members : List (Option Text × Json)) (loc : List Loc) :
    Validation (NamespaceConfigBase SecurityT) :=
  NamespaceConfigBase.mk
    <$> RootConfigBase.read P security members loc
    <*> parseField members loc "namespace" none (parseChecked P validateNamespaceName)

def parseSecurity : Parse NetSecurity := parseModel "NetSecurity" (NetSecurity.read P)

def parseNamespaces : Parse (List NamespaceConfig) :=
  parseList (parseModel "NamespaceConfig" (NamespaceConfigBase.read P (parseSecurity P)))

def parseRoots : Parse (List RootConfig) :=
  parseList (parseModel "RootConfig" (RootConfigBase.read P (parseSecurity P)))

/-- `NetConfig(**data)` -/
def NetConfig.modelValidate (members : List (Option Text × Json)) : Validation NetConfig :=
  (NetConfig.mk
    <$> parseField members [] "id" none (parseChecked P validateConfigId)
    <*> parseField members [] "namespaces" (some none) (parseOptional (parseNamespaces P))
    <*> parseField members [] "roots" (some none) (parseOptional (parseRoots P))).after
      (.obj members) [] validateUniqueInterfaces

/-- A partial update: what it has replaces the stored list. -/
structure NetConfigUpdate where
  namespaces : Option (List NamespaceConfig) := none
  roots : Option (List RootConfig) := none
  deriving DecidableEq

def NetConfigUpdate.modelValidate (members : List (Option Text × Json)) :
    Validation NetConfigUpdate :=
  NetConfigUpdate.mk
    <$> parseField members [] "namespaces" (some none) (parseOptional (parseNamespaces P))
    <*> parseField members [] "roots" (some none) (parseOptional (parseRoots P))

end Read

/-! ## What validation ensures -/

theorem Validation.seq_eq_ok {α β : Type} {f : Validation (α → β)} {x : Validation α} {b : β}
    (h : (f <*> x) = .ok b) : ∃ g a, f = .ok g ∧ x = .ok a ∧ b = g a := by
  cases f with
  | ok g =>
    cases x with
    | ok a => exact ⟨g, a, rfl, rfl, (Except.ok.inj h).symm⟩
    | error e => cases h
  | error e => cases x <;> cases h

theorem Validation.map_eq_ok {α β : Type} {f : α → β} {x : Validation α} {b : β}
    (h : f <$> x = .ok b) : ∃ a, x = .ok a ∧ b = f a := by
  obtain ⟨g, a, hg, hx, rfl⟩ := Validation.seq_eq_ok (f := valid f) h
  cases hg
  exact ⟨a, hx, rfl⟩

theorem Validation.after_eq_ok {α : Type} {x : Validation α} {input : Json} {loc : List Loc}
    {check : α → Option String} {a : α} (h : x.after input loc check = .ok a) :
    x = .ok a ∧ check a = none := by
  cases x with
  | error e => cases h
  | ok b =>
    simp only [after] at h
    split at h
    · cases h
      exact ⟨rfl, ‹_›⟩
    · cases h

/-- Every value a parser accepts satisfies `Q`. -/
def Yields {α : Type} (parse : Parse α) (Q : α → Prop) : Prop :=
  ∀ loc j a, parse loc j = .ok a → Q a

section Yields

variable {α : Type} {parse : Parse α} {Q : α → Prop}

theorem Yields.optional (h : Yields parse Q) :
    Yields (parseOptional parse) fun o => ∀ a ∈ o, Q a := by
  intro loc j o ho a ha
  unfold parseOptional at ho
  split at ho
  · cases ho
    cases ha
  · obtain ⟨b, hb, rfl⟩ := Validation.map_eq_ok ho
    cases ha
    exact h _ _ _ hb

theorem parseItems_all (h : Yields parse Q) (loc : List Loc) :
    ∀ {js : List Json} {i : Nat} {as : List α}, parseItems parse loc i js = .ok as → ∀ a ∈ as, Q a
  | [], _, _, has => by
    cases has
    simp
  | j :: js, i, as, has => by
    obtain ⟨g, tail, hg, htail, rfl⟩ := Validation.seq_eq_ok has
    obtain ⟨a, ha, rfl⟩ := Validation.map_eq_ok hg
    exact List.forall_mem_cons.2 ⟨h _ _ _ ha, parseItems_all h loc htail⟩

theorem Yields.list (h : Yields parse Q) : Yields (parseList parse) fun as => ∀ a ∈ as, Q a := by
  intro loc j as has
  unfold parseList at has
  split at has
  · exact parseItems_all h loc has
  · cases has

theorem Yields.field (h : Yields parse Q) {members : List (Option Text × Json)} {loc : List Loc}
    {name : String} {default : Option α} (hdefault : ∀ a ∈ default, Q a) {a : α}
    (ha : parseField members loc name default parse = .ok a) : Q a := by
  unfold parseField at ha
  split at ha
  · exact h _ _ _ ha
  · cases ha
    exact hdefault _ rfl
  · cases ha

end Yields

section

variable (P : Pydantic)

theorem parseSecurity_yields : Yields (parseSecurity P) fun s => validatePskFormat s = none := by
  intro loc j s hs
  unfold parseSecurity parseModel at hs
  split at hs
  · exact (Validation.after_eq_ok hs).2
  · cases hs

theorem RootConfigBase.read_security {members : List (Option Text × Json)} {loc : List Loc}
    {e : RootConfig} (h : RootConfigBase.read P (parseSecurity P) members loc = .ok e) :
    ∀ s ∈ e.security, validatePskFormat s = none := by
  obtain ⟨f, app, hf, -, rfl⟩ := Validation.seq_eq_ok h
  obtain ⟨g, route, hg, -, rfl⟩ := Validation.seq_eq_ok hf
  obtain ⟨k, security, hk, hsecurity, rfl⟩ := Validation.seq_eq_ok hg
  obtain ⟨l, interface, hl, -, rfl⟩ := Validation.seq_eq_ok hk
  obtain ⟨m, phy, hm, -, rfl⟩ := Validation.seq_eq_ok hl
  obtain ⟨n, display, hn, -, rfl⟩ := Validation.seq_eq_ok hm
  obtain ⟨mode, -, rfl⟩ := Validation.map_eq_ok hn
  exact Yields.field (parseSecurity_yields P).optional (by simp) hsecurity

theorem parseRoots_yields : Yields (parseRoots P) fun es =>
    ∀ e ∈ es, ∀ s ∈ e.security, validatePskFormat s = none := by
  refine Yields.list fun loc j e he => ?_
  unfold parseModel at he
  split at he
  · exact RootConfigBase.read_security P he
  · cases he

theorem parseNamespaces_yields : Yields (parseNamespaces P) fun es =>
    ∀ e ∈ es, ∀ s ∈ e.security, validatePskFormat s = none := by
  refine Yields.list fun loc j e he => ?_
  unfold parseModel at he
  split at he
  · obtain ⟨f, netns, hf, -, rfl⟩ := Validation.seq_eq_ok he
    obtain ⟨base, hbase, rfl⟩ := Validation.map_eq_ok hf
    exact RootConfigBase.read_security P hbase
  · cases he

/-- A validated profile passed the models' own checks. -/
theorem NetConfig.modelValidate_valid {members : List (Option Text × Json)} {cfg : NetConfig}
    (h : NetConfig.modelValidate P members = .ok cfg) : cfg.Valid := by
  obtain ⟨hfields, hunique⟩ := Validation.after_eq_ok h
  obtain ⟨f, roots, hf, hroots, rfl⟩ := Validation.seq_eq_ok hfields
  obtain ⟨g, namespaces, hg, hnamespaces, rfl⟩ := Validation.seq_eq_ok hf
  obtain ⟨id, -, rfl⟩ := Validation.map_eq_ok hg
  have hroots := Yields.field (parseRoots_yields P).optional (by simp) hroots
  have hnamespaces := Yields.field (parseNamespaces_yields P).optional (by simp) hnamespaces
  refine ⟨fun e he => ?_, hunique⟩
  rcases List.mem_append.1 he with he | he
  · obtain ⟨n, hn, rfl⟩ := List.mem_map.1 he
    cases namespaces with
    | none => cases hn
    | some es => exact hnamespaces es rfl n hn
  · obtain ⟨r, hr, rfl⟩ := List.mem_map.1 he
    cases roots with
    | none => cases hr
    | some es => exact hroots es rfl r hr

end

/-! ## The public form -/

/-- `NetSecurityPublic`: the secrets become flags. -/
structure NetSecurityPublic where
  ssid : Ssid
  security : SecurityTypes
  pskSet : Bool := false
  passwordSet : Bool := false
  saePwe : Option Int := none
  pmf : Option Int := none
  identity : Option Text := none
  clientCert : Option Text := none
  privateKey : Option Text := none
  caCert : Option Text := none
  deriving DecidableEq

abbrev RootConfigPublic := RootConfigBase NetSecurityPublic
abbrev NamespaceConfigPublic := NamespaceConfigBase NetSecurityPublic

structure NetConfigPublic where
  id : ConfigId
  namespaces : Option (List NamespaceConfigPublic)
  roots : Option (List RootConfigPublic)
  deriving DecidableEq

/-- `bool(text)` of an optional text: set and not empty. -/
def isSet {label : String} (text : Option (WpaText label)) : Bool :=
  text.any fun t => t.val ≠ []

def NetSecurityPublic.fromSecurity (s : NetSecurity) : NetSecurityPublic where
  ssid := s.ssid
  security := s.security
  pskSet := isSet s.psk
  passwordSet := isSet s.password
  saePwe := s.saePwe
  pmf := s.pmf
  identity := s.identity.map Subtype.val
  clientCert := s.clientCert.map Subtype.val
  privateKey := s.privateKey.map Subtype.val
  caCert := s.caCert.map Subtype.val

/-- `public(entry)`: everything but the secrets. -/
def RootConfigBase.toPublic (e : RootConfig) : RootConfigPublic :=
  { e with security := e.security.map .fromSecurity }

def NamespaceConfigBase.toPublic (e : NamespaceConfig) : NamespaceConfigPublic :=
  { e.toRootConfigBase.toPublic with netns := e.netns }

/-- `NetConfigPublic.from_config`: an absent list becomes an empty one. -/
def NetConfigPublic.fromConfig (cfg : NetConfig) : NetConfigPublic where
  id := cfg.id
  namespaces := some ((cfg.namespaces.getD []).map (·.toPublic))
  roots := some ((cfg.roots.getD []).map (·.toPublic))

/-! ## Dumps -/

section Dump

def Json.isNull : Json → Bool
  | .null => true
  | _ => false

/-- The members of a dumped model. With `excludeNone` the nulls are dropped. -/
def dumpMembers (excludeNone : Bool) (fields : List (String × Json)) : List (Option Text × Json) :=
  (fields.filter fun f => !(excludeNone && f.2.isNull)).map fun f => (some f.1.toList, f.2)

def Json.ofText (t : Text) : Json := .str (some t)

def Json.ofOption {α : Type} (dump : α → Json) : Option α → Json
  | none => .null
  | some a => dump a

def NetSecurity.dumpFields (s : NetSecurity) : List (String × Json) :=
  [("ssid", .ofText s.ssid.val), ("security", .ofText s.security.value.toList),
    ("psk", .ofOption (fun t => .ofText t.val) s.psk), ("sae_pwe", .ofOption .int s.saePwe),
    ("pmf", .ofOption .int s.pmf), ("identity", .ofOption (fun t => .ofText t.val) s.identity),
    ("password", .ofOption (fun t => .ofText t.val) s.password),
    ("client_cert", .ofOption (fun t => .ofText t.val) s.clientCert),
    ("private_key", .ofOption (fun t => .ofText t.val) s.privateKey),
    ("ca_cert", .ofOption (fun t => .ofText t.val) s.caCert)]

def NetSecurity.toJson (s : NetSecurity) : Json := .obj (dumpMembers false s.dumpFields)

def NetSecurityPublic.dumpFields (s : NetSecurityPublic) : List (String × Json) :=
  [("ssid", .ofText s.ssid.val), ("security", .ofText s.security.value.toList),
    ("psk_set", .bool s.pskSet), ("password_set", .bool s.passwordSet),
    ("sae_pwe", .ofOption .int s.saePwe), ("pmf", .ofOption .int s.pmf),
    ("identity", .ofOption .ofText s.identity), ("client_cert", .ofOption .ofText s.clientCert),
    ("private_key", .ofOption .ofText s.privateKey), ("ca_cert", .ofOption .ofText s.caCert)]

def NetSecurityPublic.toJson (excludeNone : Bool) (s : NetSecurityPublic) : Json :=
  .obj (dumpMembers excludeNone s.dumpFields)

variable {SecurityT : Type} (excludeNone : Bool) (security : SecurityT → Json)

def RootConfigBase.dumpFields (e : RootConfigBase SecurityT) : List (String × Json) :=
  [("mode", .ofText e.mode.value.toList), ("iface_display_name", .ofText e.ifaceDisplayName.val),
    ("phy", .ofText e.phy.val), ("interface", .ofText e.interface.val),
    ("security", .ofOption security e.security), ("default_route", .bool e.defaultRoute),
    ("autostart_app", .ofOption .ofText e.autostartApp)]

def RootConfigBase.toJson (e : RootConfigBase SecurityT) : Json :=
  .obj (dumpMembers excludeNone (e.dumpFields security))

def NamespaceConfigBase.dumpFields (e : NamespaceConfigBase SecurityT) : List (String × Json) :=
  e.toRootConfigBase.dumpFields security ++ [("namespace", .ofText e.netns.val)]

def NamespaceConfigBase.toJson (e : NamespaceConfigBase SecurityT) : Json :=
  .obj (dumpMembers excludeNone (e.dumpFields security))

end Dump

def NetConfig.dumpFields (cfg : NetConfig) : List (String × Json) :=
  [("id", .ofText cfg.id.val),
    ("namespaces", .ofOption (fun es => .arr (es.map (·.toJson false NetSecurity.toJson)))
      cfg.namespaces),
    ("roots", .ofOption (fun es => .arr (es.map (·.toJson false NetSecurity.toJson))) cfg.roots)]

/-- The members of `cfg.model_dump()`. -/
def NetConfig.modelDump (cfg : NetConfig) : List (Option Text × Json) :=
  dumpMembers false cfg.dumpFields

def NetConfigPublic.dumpFields (cfg : NetConfigPublic) : List (String × Json) :=
  [("id", .ofText cfg.id.val),
    ("namespaces", .ofOption
      (fun es => .arr (es.map (·.toJson true (NetSecurityPublic.toJson true)))) cfg.namespaces),
    ("roots", .ofOption
      (fun es => .arr (es.map (·.toJson true (NetSecurityPublic.toJson true)))) cfg.roots)]

/-- The members of the public form as the API sends it, with the nulls dropped. -/
def NetConfigPublic.modelDump (cfg : NetConfigPublic) : List (Option Text × Json) :=
  dumpMembers true cfg.dumpFields

end WlanpiCore
