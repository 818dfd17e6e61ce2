import WlanpiCore.Config.Edit

/-!
# What an error message shows of a profile

`get_config` and `edit_config` put pydantic's text into the errors they raise, and that text shows
the input of every rule that failed: the value at the rule's place, or the object a required field
is missing from (`modelValidate_located`).

Two runs are compared whose profiles and updates differ only in the values of `psk` and `password`
(`SecretsApart`) and that are rejected by the same rules.

**Theorem (`hides_iff`).** Their messages are equal exactly when every value a failed rule looked
at is shown alike. So a message tells the secret of an entry whose other fields are wrong, since the
rule shows the whole entry, and of one whose psk is too short.
-/

namespace WlanpiCore

open Prog

/-! ## Places in a document -/

/-- The value at a place, or the last value on the way there. -/
def Json.at : List Loc → Json → Json
  | [], j => j
  | .field name :: rest, .obj members =>
    match Json.member members name.toList with
    | some j => Json.at rest j
    | none => .obj members
  | .index i :: rest, .arr items =>
    match items[i]? with
    | some j => Json.at rest j
    | none => .arr items
  | _, j => j

/-- `e` is about the value at its place in `j`, which stands at `loc`. -/
def FieldError.LocatedIn (e : FieldError) (loc : List Loc) (j : Json) : Prop :=
  ∃ rel, e.loc = loc ++ rel ∧ e.input = j.at rel

/-- Every error of a parser shows what is at its place. -/
def Located {α : Type} (parse : Parse α) : Prop :=
  ∀ loc j errors, parse loc j = .error errors → ∀ e ∈ errors, e.LocatedIn loc j

theorem Json.at_nil (j : Json) : j.at [] = j := rfl

theorem Json.at_field {members : List (Option Text × Json)} {name : String} {j : Json}
    (h : Json.member members name.toList = some j) (rest : List Loc) :
    (Json.obj members).at (.field name :: rest) = j.at rest := by
  rw [Json.at, h]

theorem Json.at_missing {members : List (Option Text × Json)} {name : String}
    (h : Json.member members name.toList = none) (rest : List Loc) :
    (Json.obj members).at (.field name :: rest) = .obj members := by
  rw [Json.at, h]

theorem Json.at_index {items : List Json} {i : Nat} {j : Json} (h : items[i]? = some j)
    (rest : List Loc) : (Json.arr items).at (.index i :: rest) = j.at rest := by
  rw [Json.at, h]

theorem FieldError.LocatedIn.self {loc : List Loc} {msg : String} {j : Json} :
    FieldError.LocatedIn ⟨loc, msg, j⟩ loc j := ⟨[], (List.append_nil loc).symm, j.at_nil.symm⟩

section Located

variable {α β : Type}

theorem Validation.seq_errors {f : Validation (α → β)} {x : Validation α} {errors : List FieldError}
    (h : (f <*> x) = .error errors) {e : FieldError} (he : e ∈ errors) :
    (∃ errors', f = .error errors' ∧ e ∈ errors') ∨ ∃ errors', x = .error errors' ∧
      e ∈ errors' := by
  cases f with
  | ok g =>
    cases x with
    | ok a => cases h
    | error ex => exact .inr ⟨ex, rfl, Except.error.inj h ▸ he⟩
  | error ef =>
    cases x with
    | ok a => exact .inl ⟨ef, rfl, Except.error.inj h ▸ he⟩
    | error ex =>
      rw [← Except.error.inj h] at he
      rcases List.mem_append.1 he with he | he
      · exact .inl ⟨ef, rfl, he⟩
      · exact .inr ⟨ex, rfl, he⟩

/-- The errors of a validation all satisfy `Q`. -/
def Validation.Errors (x : Validation α) (Q : FieldError → Prop) : Prop :=
  ∀ errors, x = .error errors → ∀ e ∈ errors, Q e

variable {Q : FieldError → Prop}

theorem Validation.Errors.seq {f : Validation (α → β)} {x : Validation α} (hf : f.Errors Q)
    (hx : x.Errors Q) : Validation.Errors (f <*> x) Q := by
  intro errors h e he
  rcases Validation.seq_errors h he with ⟨errors', hf', he'⟩ | ⟨errors', hx', he'⟩
  · exact hf errors' hf' e he'
  · exact hx errors' hx' e he'

theorem Validation.Errors.valid (a : α) : (Validation.valid a).Errors Q := by
  intro errors h
  cases h

theorem Validation.Errors.single {e : FieldError} (h : Q e) :
    (Validation.invalid [e] : Validation α).Errors Q := by
  intro errors herrors e' he'
  obtain rfl := Except.error.inj herrors
  exact List.mem_singleton.1 he' ▸ h

theorem Validation.Errors.map {f : α → β} {x : Validation α} (hx : x.Errors Q) :
    Validation.Errors (f <$> x) Q := Validation.Errors.seq (.valid f) hx

theorem Validation.Errors.after {x : Validation α} {input : Json} {loc : List Loc}
    {check : α → Option String} (hx : x.Errors Q)
    (hcheck : ∀ msg, Q ⟨loc, "Value error, " ++ msg, input⟩) :
    (x.after input loc check).Errors Q := by
  cases x with
  | error e => exact hx
  | ok a =>
    intro errors h
    unfold Validation.after at h
    dsimp only at h
    cases hmsg : check a with
    | none =>
      rw [hmsg] at h
      cases h
    | some msg =>
      rw [hmsg] at h
      obtain rfl := Except.error.inj h
      intro e he
      exact List.mem_singleton.1 he ▸ hcheck msg

variable {parse : Parse α}

theorem Located.optional (h : Located parse) : Located (parseOptional parse) := by
  intro loc j
  cases j with
  | null => exact Validation.Errors.valid none
  | _ => exact Validation.Errors.map (h loc _)

theorem located_scalar (coerce : Json → Except String α) : Located (parseScalar coerce) := by
  intro loc j
  unfold parseScalar
  cases coerce j with
  | ok a => exact Validation.Errors.valid a
  | error msg => exact Validation.Errors.single .self

theorem located_checked (P : Pydantic) (validate : Text → Option String) :
    Located (parseChecked P validate) := by
  intro loc j
  unfold parseChecked
  cases P.str j with
  | error msg => exact Validation.Errors.single .self
  | ok value =>
    dsimp only
    split
    · exact Validation.Errors.valid _
    · exact Validation.Errors.single .self

theorem located_enum (members : List α) (value : α → String) (expected : String) :
    Located (parseEnum members value expected) := by
  intro loc j
  unfold parseEnum
  split
  · split
    · exact Validation.Errors.valid _
    · exact Validation.Errors.single .self
  · exact Validation.Errors.single .self

theorem Located.items (h : Located parse) (loc : List Loc) (all : List Json) :
    ∀ {js : List Json} {i : Nat}, all.drop i = js →
      (parseItems parse loc i js).Errors fun e => e.LocatedIn loc (.arr all)
  | [], _, _ => Validation.Errors.valid []
  | j :: js, i, hdrop => by
    have hi : all[i]? = some j := by
      rw [← List.head?_drop, hdrop]
      rfl
    have htail : all.drop (i + 1) = js := by
      rw [← List.tail_drop, hdrop]
      rfl
    refine Validation.Errors.seq (Validation.Errors.map ?_) (h.items loc all htail)
    intro errors herrors e he
    obtain ⟨rel, hloc, hinput⟩ := h _ j errors herrors e he
    refine ⟨.index i :: rel, ?_, ?_⟩
    · rw [hloc, List.append_assoc]
      rfl
    · rw [hinput, Json.at_index hi]

theorem Located.list (h : Located parse) : Located (parseList parse) := by
  intro loc j
  unfold parseList
  split
  · exact h.items loc _ rfl
  · exact Validation.Errors.single .self

theorem Located.field (h : Located parse) (members : List (Option Text × Json)) (loc : List Loc)
    (name : String) (default : Option α) :
    (parseField members loc name default parse).Errors fun e => e.LocatedIn loc (.obj members) := by
  unfold parseField
  cases hmember : Json.member members name.toList with
  | some j =>
    intro errors herrors e he
    obtain ⟨rel, hloc, hinput⟩ := h _ j errors herrors e he
    refine ⟨.field name :: rel, ?_, ?_⟩
    · rw [hloc, List.append_assoc]
      rfl
    · rw [hinput, Json.at_field hmember]
  | none =>
    cases default with
    | some a => exact Validation.Errors.valid a
    | none => exact Validation.Errors.single ⟨[.field name], rfl, (Json.at_missing hmember []).symm⟩

theorem located_model {name : String} {read : List (Option Text × Json) → List Loc → Validation α}
    (h : ∀ members loc, (read members loc).Errors fun e => e.LocatedIn loc (.obj members)) :
    Located (parseModel name read) := by
  intro loc j
  unfold parseModel
  split
  · exact h _ loc
  · exact Validation.Errors.single .self

end Located

section Models

variable (P : Pydantic)

theorem located_security : Located (parseSecurity P) := by
  refine located_model fun members loc => Validation.Errors.after ?_ fun msg => .self
  have htext (label : String) :=
    (located_checked P (validateWpaText label)).optional.field members loc
    label (some none)
  have hint (name : String) := (located_scalar P.int).optional.field members loc name (some none)
  exact ((((((((((((located_checked P validateSsid).field members loc "ssid" none).map).seq
    ((located_enum _ _ _).field members loc "security" none)).seq (htext "psk")).seq
    (hint "sae_pwe")).seq (hint "pmf")).seq (htext "identity")).seq (htext "password")).seq
    (htext "client_cert")).seq (htext "private_key")).seq (htext "ca_cert"))

theorem located_base (members : List (Option Text × Json)) (loc : List Loc) :
    (RootConfigBase.read P (parseSecurity P) members loc).Errors
      fun e => e.LocatedIn loc (.obj members) :=
  (((((((located_enum _ _ _).field members loc "mode" _).map.seq
    ((located_checked P validateInterfaceName).field members loc "iface_display_name" none)).seq
    ((located_checked P validatePhyName).field members loc "phy" none)).seq
    ((located_checked P validateInterfaceName).field members loc "interface" none)).seq
    ((located_security P).optional.field members loc "security" _)).seq
    ((located_scalar P.bool).field members loc "default_route" _)).seq
    ((located_scalar P.str).optional.field members loc "autostart_app" _)

theorem located_namespaces : Located (parseNamespaces P) :=
  (located_model fun members loc => (located_base P members loc).map.seq
    ((located_checked P validateNamespaceName).field members loc "namespace" none)).list

theorem located_roots : Located (parseRoots P) := (located_model (located_base P)).list

/-- **A failed rule shows the value at its place in the profile.** -/
theorem modelValidate_located (members : List (Option Text × Json)) :
    (NetConfig.modelValidate P members).Errors fun e => e.input = (Json.obj members).at e.loc := by
  have hlocated : (NetConfig.modelValidate P members).Errors
      fun e => e.LocatedIn [] (.obj members) := by
    refine Validation.Errors.after ?_ fun msg => .self
    exact (((located_checked P validateConfigId).field members [] "id" none).map.seq
      ((located_namespaces P).optional.field members [] "namespaces" _)).seq
      ((located_roots P).optional.field members [] "roots" _)
  intro errors herrors e he
  obtain ⟨rel, hloc, hinput⟩ := hlocated errors herrors e he
  rw [hinput, hloc, List.nil_append]

end Models

/-! ## Rejections -/

structure Rejection where
  stage : Stage
  doc : Json
  errors : List FieldError

/-- A rule that failed: its place and its message. -/
def FieldError.rule (e : FieldError) : List Loc × String := (e.loc, e.msg)

def Rejection.rules (r : Rejection) : Stage × List (List Loc × String) :=
  (r.stage, r.errors.map (·.rule))

def rejection (P : Pydantic) (stage : Stage) (members : List (Option Text × Json)) :
    Option Rejection :=
  match NetConfig.modelValidate P members with
  | .ok _ => none
  | .error errors => some ⟨stage, .obj members, errors⟩

section Runs

variable (E : Env) (path : ConfigId)

/-- The object in a profile's file. -/
def storedDoc (w : World) : Option (List (Option Text × Json)) :=
  match w.files path with
  | none => none
  | some bytes =>
    match Text.readText bytes with
    | none => none
    | some text =>
      match Json.loads E.depth (Text.strip text) with
      | .ok (.obj members) => some members
      | _ => none

/-- How `get_config` rejects what is stored. A default profile that is rejected is regenerated. -/
def rejectedRead (w : World) : Option Rejection :=
  if path = defaultId then none else (storedDoc E path w).bind (rejection E.pydantic .stored)

/-- The profile `edit_config` validates again. -/
def editedProfile (configUpdate : NetConfigUpdate) : Store NetConfig := do
  let stored ← getConfig E path.val
  if ← isActive E path.val then
    raise (.configActive s!"Cannot edit active configuration {String.ofList path.val}.")
  return applyUpdate stored configUpdate

/-- How `edit_config` rejects what is stored or what the update makes of it. -/
def rejectedEdit (configUpdate : NetConfigUpdate) (w : World) : Option Rejection :=
  match rejectedRead E path w with
  | some r => some r
  | none =>
    match (editedProfile E path configUpdate w).1 with
    | .ok cfg => rejection E.pydantic .edited cfg.modelDump
    | .error _ => none

/-- The text of an exception. -/
def Exc.message : Exc → Option String
  | .fileNotFound msg => some msg
  | .configMalformed msg _ => some msg
  | .configActive msg => some msg
  | .configBusy msg => some msg
  | .validation msg _ => some msg
  | .pydantic _ | .unicodeDecode | .intDigits | .recursion | .other _ => none

def raisedMessage {α : Type} : Except Exc α → Option String
  | .ok _ => none
  | .error e => e.message

end Runs

/-! ## Secrets -/

mutual

/-- A document without the strings under `psk` and `password`. -/
def Json.mask : Json → Json
  | .arr items => .arr (Json.maskItems items)
  | .obj members => .obj (Json.maskMembers members)
  | j => j

def Json.maskItems : List Json → List Json
  | [] => []
  | j :: items => j.mask :: Json.maskItems items

def Json.maskMembers : List (Option Text × Json) → List (Option Text × Json)
  | [] => []
  | (key, .str s) :: members =>
    (key, if key = some "psk".toList ∨ key = some "password".toList then .str (some [])
      else .str s) ::
      Json.maskMembers members
  | (key, j) :: members => (key, j.mask) :: Json.maskMembers members

end

/-- A secret without its text. -/
def maskText {label : String} (h : validateWpaText label [] = none)
    (text : Option (WpaText label)) :
    Option (WpaText label) :=
  text.map fun _ => ⟨[], h⟩

def NetSecurity.mask (s : NetSecurity) : NetSecurity :=
  { s with psk := maskText (by decide) s.psk, password := maskText (by decide) s.password }

def NetConfigUpdate.mask (u : NetConfigUpdate) : NetConfigUpdate where
  namespaces := u.namespaces.map fun es => es.map (·.mapSecurity .mask)
  roots := u.roots.map fun es => es.map (·.mapSecurity .mask)

/-- Two runs whose profiles at `path` and whose updates differ only in the strings of `psk` and
`password`. -/
structure SecretsApart (E : Env) (path : ConfigId) (w₁ w₂ : World) (u₁ u₂ : NetConfigUpdate) :
    Prop where
  world : w₂ = { w₁ with files := Function.update w₁.files path (w₂.files path) }
  content : w₁.files path = w₂.files path ∨ ∃ members₁ members₂, storedDoc E path w₁ =
    some members₁ ∧
    storedDoc E path w₂ = some members₂ ∧ (Json.obj members₁).mask = (Json.obj members₂).mask
  updates : u₁.mask = u₂.mask

/-! ## The messages -/

/-- The text of a `ValidationError` shows each input, with `shown` its repr at either stage,
possibly shortened, and depends on nothing else but the rules. -/
def Pydantic.Prints (P : Pydantic) (shown : Stage → Json → Text) : Prop :=
  ∀ (stage : Stage) (es es' : List FieldError), es.map (·.rule) = es'.map (·.rule) →
    (P.errorText stage es = P.errorText stage es' ↔
      es.map (shown stage ·.input) = es'.map (shown stage ·.input))

/-- Two rejections by the same rules. -/
def SameRules (r₁ r₂ : Option Rejection) (Q : Rejection → Rejection → Prop) : Prop :=
  ∀ a ∈ r₁, ∀ b ∈ r₂, a.rules = b.rules → Q a b

/-- Every value a failed rule looked at is shown alike. -/
def AlikeAt (shown : Stage → Json → Text) (a b : Rejection) : Prop :=
  ∀ rule ∈ a.errors.map (·.rule), shown a.stage (a.doc.at rule.1) = shown a.stage (b.doc.at rule.1)

section Messages

variable (E : Env) (path : ConfigId)

/-- Runs that differ in secrets only and are rejected by the same rules raise the same message. -/
def Hides (w₁ w₂ : World) (u₁ u₂ : NetConfigUpdate) : Prop :=
  SecretsApart E path w₁ w₂ u₁ u₂ →
    SameRules (rejectedRead E path w₁) (rejectedRead E path w₂) (fun _ _ =>
      raisedMessage (getConfig E path.val w₁).1 = raisedMessage (getConfig E path.val w₂).1) ∧
    SameRules (rejectedEdit E path u₁ w₁) (rejectedEdit E path u₂ w₂) fun _ _ =>
      raisedMessage (editConfig E path.val u₁ w₁).1 = raisedMessage (editConfig E path.val u₂ w₂).1

/-- What the rules that reject both runs looked at is shown alike. -/
def ShownAlike (shown : Stage → Json → Text) (w₁ w₂ : World) (u₁ u₂ : NetConfigUpdate) : Prop :=
  SecretsApart E path w₁ w₂ u₁ u₂ →
    SameRules (rejectedRead E path w₁) (rejectedRead E path w₂) (AlikeAt shown) ∧
    SameRules (rejectedEdit E path u₁ w₁) (rejectedEdit E path u₂ w₂) (AlikeAt shown)

def Rejection.Located (r : Rejection) : Prop := ∀ e ∈ r.errors, e.input = r.doc.at e.loc

/-- Where the file or the update was rejected, and what is raised then. -/
def Rejection.raised (P : Pydantic) (r : Rejection) : String :=
  match r.stage with
  | .stored =>
      s!"Failed to parse configuration {String.ofList path.val}: {P.errorText .stored r.errors}"
  | .edited => P.errorText .edited r.errors

variable {E path}

theorem rejection_eq_some {P : Pydantic} {stage : Stage} {members : List (Option Text × Json)}
    {r : Rejection} (h : rejection P stage members = some r) :
    NetConfig.modelValidate P members = .error r.errors ∧ r.stage = stage ∧
      r.doc = .obj members := by
  unfold rejection at h
  cases hvalidate : NetConfig.modelValidate P members with
  | ok cfg =>
    rw [hvalidate] at h
    cases h
  | error errors =>
    rw [hvalidate] at h
    obtain rfl := Option.some.inj h
    exact ⟨rfl, rfl, rfl⟩

theorem rejection_located {P : Pydantic} {stage : Stage} {members : List (Option Text × Json)}
    {r : Rejection} (h : rejection P stage members = some r) : r.Located := by
  obtain ⟨hvalidate, -, hdoc⟩ := rejection_eq_some h
  intro e he
  rw [hdoc]
  exact modelValidate_located P members _ hvalidate e he

theorem parseConfig_rejected {w : World} {bytes : Bytes} {members : List (Option Text × Json)}
    {errors : List FieldError} (hfile : w.files path = some bytes)
    (hdoc : storedDoc E path w = some members)
    (h : NetConfig.modelValidate E.pydantic members = .error errors) :
    parseConfig E path bytes = .error (.configMalformed
      (s!"Failed to parse configuration {String.ofList path.val}: " ++
        E.pydantic.errorText .stored errors) (some path.val)) := by
  unfold storedDoc at hdoc
  rw [hfile] at hdoc
  dsimp only at hdoc
  unfold parseConfig
  cases hread : Text.readText bytes with
  | none =>
    rw [hread] at hdoc
    cases hdoc
  | some text =>
    rw [hread] at hdoc
    dsimp only at hdoc ⊢
    have hne : Text.strip text ≠ [] := by
      intro hnil
      rw [hnil] at hdoc
      cases hdoc
    rw [if_neg hne]
    split at hdoc
    · rename_i hloads
      obtain rfl := Option.some.inj hdoc
      split
      · rename_i heq
        rw [hloads] at heq
        cases heq
      · rename_i heq
        rw [hloads] at heq
        cases heq
      · rename_i heq
        rw [hloads] at heq
        cases heq
      · rename_i heq
        rw [hloads] at heq
        cases heq
      · rename_i heq
        rw [hloads] at heq
        obtain rfl := Json.obj.inj (Except.ok.inj heq)
        rw [h]
        rfl
      · rename_i hother heq
        rw [hloads] at heq
        exact absurd (Except.ok.inj heq).symm (hother _)
    · cases hdoc

/-- A rejected profile makes `get_config` raise its text. -/
theorem rejectedRead_raises {w : World} {r : Rejection} (h : rejectedRead E path w = some r) :
    r.Located ∧ ∃ e, getConfig E path.val w = (.error e, w) ∧
      e.message = some (r.raised path E.pydantic) := by
  unfold rejectedRead at h
  split_ifs at h with hdefault
  obtain ⟨members, hdoc, hr⟩ := Option.bind_eq_some_iff.1 h
  obtain ⟨hvalidate, hstage, -⟩ := rejection_eq_some hr
  refine ⟨rejection_located hr, ?_⟩
  cases hfile : w.files path with
  | none =>
    unfold storedDoc at hdoc
    rw [hfile] at hdoc
    cases hdoc
  | some bytes =>
    have hparse := parseConfig_rejected hfile hdoc hvalidate
    rw [getConfig_of_ne E hdefault, hfile]
    dsimp only
    rw [hparse]
    refine ⟨_, rfl, ?_⟩
    unfold Rejection.raised
    rw [hstage]
    rfl

theorem rejectedEdit_raises {configUpdate : NetConfigUpdate} {w : World} {r : Rejection}
    (h : rejectedEdit E path configUpdate w = some r) :
    r.Located ∧ raisedMessage (editConfig E path.val configUpdate w).1 =
      some (r.raised path E.pydantic) := by
  unfold rejectedEdit at h
  cases hread : rejectedRead E path w with
  | some r' =>
    rw [hread] at h
    obtain rfl := Option.some.inj h
    obtain ⟨hlocated, e, hget, hmessage⟩ := rejectedRead_raises hread
    have hedit : editConfig E path.val configUpdate w = (.error e, w) := by
      unfold editConfig
      rw [configPath_val]
      exact (bind_ok rfl).trans (bind_error hget)
    rw [hedit]
    exact ⟨hlocated, hmessage⟩
  | none =>
    rw [hread] at h
    dsimp only at h
    rcases hget : getConfig E path.val w with ⟨e | stored, w₀⟩
    · have hprofile : editedProfile E path configUpdate w = (.error e, w₀) := bind_error hget
      rw [hprofile] at h
      cases h
    rcases hactive : isActive E path.val w₀ with ⟨e | active, w₁⟩
    · have hprofile : editedProfile E path configUpdate w = (.error e, w₁) :=
        (bind_ok hget).trans (bind_error hactive)
      rw [hprofile] at h
      cases h
    cases active with
    | true =>
      have hprofile : (editedProfile E path configUpdate w).1 = .error
          (.configActive s!"Cannot edit active configuration {String.ofList path.val}.") := by
        unfold editedProfile
        rw [bind_ok hget, bind_ok hactive]
        rfl
      rw [hprofile] at h
      cases h
    | false =>
      have hprofile : (editedProfile E path configUpdate w).1 =
        .ok (applyUpdate stored configUpdate) := by
        unfold editedProfile
        rw [bind_ok hget, bind_ok hactive]
        rfl
      rw [hprofile] at h
      dsimp only at h
      obtain ⟨hvalidate, hstage, -⟩ := rejection_eq_some h
      refine ⟨rejection_located h, ?_⟩
      have hedited : editedConfig E stored configUpdate =
          .error (.validation (E.pydantic.errorText .edited r.errors) 422) := by
        unfold editedConfig revalidate
        rw [hvalidate]
        rfl
      rw [editConfig_eq configUpdate hget hactive, hedited]
      unfold Rejection.raised
      rw [hstage]
      rfl

/-- The texts of two rejections by the same rules. -/
theorem raised_eq_iff {shown : Stage → Json → Text} (hprints : E.pydantic.Prints shown)
    {a b : Rejection}
    (ha : a.Located) (hb : b.Located) (hrules : a.rules = b.rules) :
    a.raised path E.pydantic = b.raised path E.pydantic ↔ AlikeAt shown a b := by
  obtain ⟨hstage, hrule⟩ := Prod.mk.inj hrules
  have htext : a.raised path E.pydantic = b.raised path E.pydantic ↔
      E.pydantic.errorText a.stage a.errors = E.pydantic.errorText a.stage b.errors := by
    unfold Rejection.raised
    rw [hstage]
    cases b.stage with
    | stored => exact String.append_right_inj _
    | edited => exact Iff.rfl
  have hshown {r : Rejection} (hr : r.Located) : r.errors.map (shown a.stage ·.input) =
      (r.errors.map (·.rule)).map fun rule => shown a.stage (r.doc.at rule.1) := by
    rw [List.map_map]
    refine List.map_congr_left fun e he => ?_
    rw [hr e he]
    rfl
  rw [htext, hprints _ _ _ hrule, hshown ha, hshown hb, hrule]
  unfold AlikeAt
  rw [hrule]
  exact List.map_inj_left

/-- **A message hides the secrets exactly when the failed rules show no difference.** -/
theorem hides_iff (E : Env) {shown : Stage → Json → Text} (hprints : E.pydantic.Prints shown)
    (path : ConfigId)
    (w₁ w₂ : World) (u₁ u₂ : NetConfigUpdate) :
    Hides E path w₁ w₂ u₁ u₂ ↔ ShownAlike E path shown w₁ w₂ u₁ u₂ := by
  refine imp_congr_right fun _ => and_congr ?_ ?_
  · refine forall₂_congr fun a ha => forall₂_congr fun b hb => imp_congr_right fun hrules => ?_
    obtain ⟨ha', e₁, hget₁, hmessage₁⟩ := rejectedRead_raises ha
    obtain ⟨hb', e₂, hget₂, hmessage₂⟩ := rejectedRead_raises hb
    rw [hget₁, hget₂]
    show e₁.message = e₂.message ↔ _
    rw [hmessage₁, hmessage₂, Option.some_inj, raised_eq_iff hprints ha' hb' hrules]
  · refine forall₂_congr fun a ha => forall₂_congr fun b hb => imp_congr_right fun hrules => ?_
    obtain ⟨ha', hmessage₁⟩ := rejectedEdit_raises ha
    obtain ⟨hb', hmessage₂⟩ := rejectedEdit_raises hb
    rw [hmessage₁, hmessage₂, Option.some_inj, raised_eq_iff hprints ha' hb' hrules]

end Messages

/-! ## A psk that is too short -/

/-- `', '.join(texts)` -/
def joinTexts (texts : List Text) : Text := ", ".toList.intercalate texts

def reprText (t : Text) : Text := '\'' :: t ++ ['\'']

mutual

/-- `repr`, of texts that need no escapes. -/
def Json.pyRepr : Json → Text
  | .null => "None".toList
  | .bool b => if b then "True".toList else "False".toList
  | .int n => (toString n).toList
  | .float text => text
  | .str s => reprText (s.getD [])
  | .arr items => '[' :: joinTexts (Json.pyReprItems items) ++ [']']
  | .obj members => '\x7b' :: joinTexts (Json.pyReprMembers members) ++ ['\x7d']

def Json.pyReprItems : List Json → List Text
  | [] => []
  | j :: items => j.pyRepr :: Json.pyReprItems items

def Json.pyReprMembers : List (Option Text × Json) → List Text
  | [] => []
  | (key, j) :: members =>
    (reprText (key.getD []) ++ ": ".toList ++ j.pyRepr) :: Json.pyReprMembers members

end

/-- The first 25 and the last 24 characters of a long `repr`, on one line. -/
def shortRepr (j : Json) : Text :=
  let text := j.pyRepr.filter (· ≠ '\n')
  if 50 < text.length then text.take 25 ++ "...".toList ++ text.drop (text.length - 24) else text

def Loc.text : Loc → Text
  | .field name => name.toList
  | .index i => (toString i).toList

/-- What stands in front of the input in the text of an error. -/
def FieldError.front (rule : List Loc × String) : Text :=
  ".".toList.intercalate (rule.1.map Loc.text) ++ "\n  ".toList ++ rule.2.toList ++
    " [type=value_error, input_value=".toList

def FieldError.text (e : FieldError) : Text :=
  FieldError.front e.rule ++ (shortRepr e.input ++ ", input_type=dict]".toList) ++ ['\n']

def shownErrors (errors : List FieldError) : String :=
  String.ofList ("validation errors for NetConfig\n".toList ++ errors.flatMap (·.text))

theorem shortRepr_line (j : Json) : '\n' ∉ shortRepr j ++ ", input_type=dict]".toList := by
  have hfilter : '\n' ∉ j.pyRepr.filter (· ≠ '\n') := by simp
  have hdots : '\n' ∉ "...".toList := by decide
  have htype : '\n' ∉ ", input_type=dict]".toList := by decide
  rw [List.mem_append, not_or]
  refine ⟨?_, htype⟩
  unfold shortRepr
  dsimp only
  split_ifs
  · rw [List.mem_append, List.mem_append, not_or, not_or]
    exact ⟨⟨fun h => hfilter (List.mem_of_mem_take h), hdots⟩, fun h =>
      hfilter (List.mem_of_mem_drop h)⟩
  · exact hfilter

theorem FieldError.text_append (e : FieldError) (r : Text) :
    e.text ++ r = FieldError.front e.rule ++
      ((shortRepr e.input ++ ", input_type=dict]".toList) ++ '\n' :: r) := by
  unfold FieldError.text
  rw [List.append_assoc, List.append_assoc]
  rfl

theorem line_inj {a : Text} : ∀ {b r r' : Text}, '\n' ∉ a → '\n' ∉ b →
    (a ++ '\n' :: r = b ++ '\n' :: r' ↔ a = b ∧ r = r') := by
  induction a with
  | nil =>
    intro b r r' _ hb
    cases b with
    | nil => simp
    | cons c b =>
      rw [List.mem_cons, not_or] at hb
      simp [hb.1]
  | cons c a ih =>
    intro b r r' ha hb
    rw [List.mem_cons, not_or] at ha
    cases b with
    | nil => simp [Ne.symm ha.1]
    | cons d b =>
      rw [List.mem_cons, not_or] at hb
      rw [List.cons_append, List.cons_append, List.cons.injEq, ih ha.2 hb.2,
        List.cons.injEq, and_assoc]

/-- Errors of the same rules whose texts are equal show the same inputs. -/
theorem shown_of_flatMap_text : ∀ {es es' : List FieldError}, es.map (·.rule) = es'.map (·.rule) →
    (es.flatMap (·.text) = es'.flatMap (·.text) ↔
      es.map (shortRepr ·.input) = es'.map (shortRepr ·.input))
  | [], [], _ => by simp
  | [], _ :: _, h => by cases h
  | _ :: _, [], h => by cases h
  | e :: es, e' :: es', h => by
    obtain ⟨hhead, hrest⟩ := List.cons.inj h
    have hrule : e.rule = e'.rule := hhead
    have hcancel (r r' : Text) : e.text ++ r = e'.text ++ r' ↔
        shortRepr e.input = shortRepr e'.input ∧ r = r' := by
      rw [FieldError.text_append, FieldError.text_append, hrule, List.append_cancel_left_eq,
        line_inj (shortRepr_line _) (shortRepr_line _), List.append_cancel_right_eq]
    rw [List.flatMap_cons, List.flatMap_cons, hcancel, List.map_cons, List.map_cons,
      List.cons.injEq,
      shown_of_flatMap_text hrest]

/-- A device whose errors show a shortened `repr` of each input. -/
def shownEnv : Env :=
  { bareEnv with pydantic := { bareEnv.pydantic with errorText := fun _ => shownErrors } }

theorem shownEnv_prints : shownEnv.pydantic.Prints fun _ => shortRepr := by
  intro _ es es' hrules
  show shownErrors es = shownErrors es' ↔ _
  unfold shownErrors
  rw [String.ofList_inj, List.append_cancel_left_eq, shown_of_flatMap_text hrules]

/-- A profile with one radio. -/
def pskDoc (psk : String) : Text :=
  "\x7b\"id\":\"lab\",\"roots\":[\x7b\"iface_display_name\":\"wlan0\",\"phy\":\"phy0\",".toList ++
    "\"interface\":\"wlan0\",\"security\":\x7b\"ssid\":\"x\",".toList ++
    "\"security\":\"WPA2-PSK\",\"psk\":\"".toList ++
    psk.toList ++ "\"\x7d\x7d]\x7d".toList

def pskSecurity (psk : String) : Json :=
  .obj [(some "ssid".toList, .str (some "x".toList)),
    (some "security".toList, .str (some "WPA2-PSK".toList)),
    (some "psk".toList, .str (some psk.toList))]

def pskMembers (psk : String) : List (Option Text × Json) :=
  [(some "id".toList, .str (some "lab".toList)),
    (some "roots".toList,
      .arr [.obj [(some "iface_display_name".toList, .str (some "wlan0".toList)),
      (some "phy".toList, .str (some "phy0".toList)),
      (some "interface".toList, .str (some "wlan0".toList)),
        (some "security".toList, pskSecurity psk)]])]

def pskWorld (psk : String) : World where
  current := none
  files := Function.update (fun _ => none) labId (some (Text.encode (pskDoc psk)))
  asides := []
  locked := false
  trace := []

def pskErrors (psk : String) : List FieldError :=
  [⟨[.field "roots", .index 0, .field "security"], "Value error, " ++
    ("psk must be 8-63 printable ASCII characters" ++ " or 64 hex digits"), pskSecurity psk⟩]

theorem storedDoc_psk {psk : String}
    (h : (match Json.loads 100 (Text.strip (pskDoc psk)) with
      | .ok j => j.same (.obj (pskMembers psk))
      | .error _ => false) = true)
    (hline : '\r' ∉ pskDoc psk) : storedDoc shownEnv labId (pskWorld psk) = some
    (pskMembers psk) := by
  unfold storedDoc pskWorld
  dsimp only
  rw [Function.update_self]
  dsimp only
  rw [Text.readText_encode hline]
  dsimp only
  have hdepth : shownEnv.depth = 100 := rfl
  rw [hdepth]
  cases hloads : Json.loads 100 (Text.strip (pskDoc psk)) with
  | error e =>
    rw [hloads] at h
    cases h
  | ok j =>
    rw [hloads] at h
    obtain rfl := Json.eq_of_same h
    rfl

theorem rejectedRead_psk {psk : String}
    (hdoc : storedDoc shownEnv labId (pskWorld psk) = some (pskMembers psk))
    (h : NetConfig.modelValidate shownEnv.pydantic (pskMembers psk) = .error (pskErrors psk)) :
    rejectedRead shownEnv labId (pskWorld psk) =
      some ⟨.stored, .obj (pskMembers psk), pskErrors psk⟩ := by
  unfold rejectedRead rejection
  rw [if_neg (by decide), hdoc, Option.bind_some, h]

theorem hides_iff_one :
    Hides shownEnv labId (pskWorld "short-1") (pskWorld "short-2") {} {} ↔
      ShownAlike shownEnv labId (fun _ => shortRepr) (pskWorld "short-1") (pskWorld "short-2") {}
        {} :=
  hides_iff shownEnv shownEnv_prints labId (pskWorld "short-1") (pskWorld "short-2") {} {}

/-- Two profiles whose psk is too short: the message shows the psk. -/
theorem not_hides_shortPsk :
    ¬Hides shownEnv labId (pskWorld "short-1") (pskWorld "short-2") {} {} := by
  intro h
  have hdoc₁ : storedDoc shownEnv labId (pskWorld "short-1") = some (pskMembers "short-1") :=
    storedDoc_psk (by decide +kernel) (by decide)
  have hdoc₂ : storedDoc shownEnv labId (pskWorld "short-2") = some (pskMembers "short-2") :=
    storedDoc_psk (by decide +kernel) (by decide)
  have hread₁ := rejectedRead_psk hdoc₁ rfl
  have hread₂ := rejectedRead_psk hdoc₂ rfl
  have hapart : SecretsApart shownEnv labId (pskWorld "short-1") (pskWorld "short-2") {} {} := by
    refine ⟨?_, .inr ⟨_, _, hdoc₁, hdoc₂, rfl⟩, rfl⟩
    unfold pskWorld
    simp only [Function.update_self, Function.update_idem]
  have hrule (psk : String) : (pskErrors psk).map (·.rule) =
    [([.field "roots", .index 0, .field "security"],
      "Value error, " ++ ("psk must be 8-63 printable ASCII characters" ++ " or 64 hex digits"))] :=
        rfl
  have hrules : Rejection.rules ⟨.stored, .obj (pskMembers "short-1"), pskErrors "short-1"⟩ =
      Rejection.rules ⟨.stored, .obj (pskMembers "short-2"), pskErrors "short-2"⟩ := by
    unfold Rejection.rules
    rw [hrule, hrule]
  have hsame := (h hapart).1 _ hread₁ _ hread₂ hrules
  obtain ⟨hlocated₁, e₁, hget₁, hmessage₁⟩ := rejectedRead_raises hread₁
  obtain ⟨hlocated₂, e₂, hget₂, hmessage₂⟩ := rejectedRead_raises hread₂
  rw [hget₁, hget₂] at hsame
  have hmessages : e₁.message = e₂.message := hsame
  rw [hmessage₁, hmessage₂, Option.some_inj] at hmessages
  have halike := (raised_eq_iff shownEnv_prints hlocated₁ hlocated₂ hrules).1 hmessages
  have hat (psk : String) :
    (Json.obj (pskMembers psk)).at [.field "roots", .index 0, .field "security"] =
      pskSecurity psk := rfl
  have hmem := List.mem_singleton_self (([.field "roots", .index 0, .field "security"],
    "Value error, " ++ ("psk must be 8-63 printable ASCII characters" ++ " or 64 hex digits")) :
      List Loc × String)
  have hshown := halike _ ((hrule "short-1").symm ▸ hmem)
  dsimp only at hshown
  rw [hat, hat] at hshown
  have hne : shortRepr (pskSecurity "short-1") ≠ shortRepr (pskSecurity "short-2") := by
    decide +kernel
  exact hne hshown

end WlanpiCore
