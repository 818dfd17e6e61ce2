import WlanpiCore.Lib.Text

/-!
# Validators for names and texts

`utils/validation.py` as far as the network profiles use it. A validator answers the message of
its `ValueError`, or `none` for a value it accepts, and `Checked v` is the type of the values that
`v` accepts: a profile built from them needs no second check.
-/

namespace WlanpiCore

/-- The values a validator accepts. -/
abbrev Checked (validate : Text → Option String) : Type := { value : Text // validate value = none }

/-- `[A-Za-z0-9_.]` -/
def isNameHead (c : Char) : Bool := c.isAlphanum || c == '_' || c == '.'

/-- `[A-Za-z0-9_.-]` -/
def isNameTail (c : Char) : Bool := isNameHead c || c == '-'

/-- `^[A-Za-z0-9_.][A-Za-z0-9_.-]{0,tail}$`, the whole value. -/
def matchesName (tail : Nat) : Text → Bool
  | [] => false
  | c :: cs => isNameHead c && cs.all isNameTail && decide (cs.length ≤ tail)

/-- `^phy[0-9]{1,10}$`, the whole value. -/
def matchesPhy (value : Text) : Bool :=
  let digits := value.drop 3
  value.take 3 == "phy".toList && digits.all Char.isDigit &&
    decide (1 ≤ digits.length ∧ digits.length ≤ 10)

/-- `_validate_name`. -/
def validateName (pattern : Text → Bool) (label : String) (value : Text) : Option String :=
  if value ≠ Text.strip value then some s!"invalid {label}"
  else if value = ['.'] ∨ value = ['.', '.'] ∨ !pattern value then some s!"invalid {label}"
  else none

def validateInterfaceName : Text → Option String := validateName (matchesName 14) "interface name"

def validateNamespaceName : Text → Option String := validateName (matchesName 62) "namespace name"

def validateConfigId : Text → Option String := validateName (matchesName 63) "configuration ID"

def validatePhyName : Text → Option String := validateName matchesPhy "PHY name"

/-- A control character as the SSID and WPA validators see it. -/
def isControl (c : Char) : Bool := c.toNat < 32 || c.toNat == 127

def validateSsid (value : Text) : Option String :=
  if value = [] then some "SSID must not be empty"
  else if 32 < (Text.encode value).length then some "SSID must not exceed 32 UTF-8 bytes"
  else if value.any isControl then some "SSID must not contain control characters"
  else none

/-- `validate_wpa_text` with its default limit of 1024 bytes. -/
def validateWpaText (label : String) (value : Text) : Option String :=
  if 1024 < (Text.encode value).length then some s!"{label} is too long"
  else if value.any isControl then some s!"{label} must not contain control characters"
  else none

abbrev InterfaceName := Checked validateInterfaceName
abbrev NamespaceName := Checked validateNamespaceName
abbrev ConfigId := Checked validateConfigId
abbrev PhyName := Checked validatePhyName
abbrev Ssid := Checked validateSsid

/-- A WPA text field, named in its error message. -/
abbrev WpaText (label : String) := Checked (validateWpaText label)

/-- The id of the built-in default profile. -/
def defaultId : ConfigId := ⟨"default".toList, by decide⟩

/-! ## Values that are used below -/

theorem wlan0_valid : validateInterfaceName "wlan0".toList = none := by decide

theorem wlan1_valid : validateInterfaceName "wlan1".toList = none := by decide

theorem phy0_valid : validatePhyName "phy0".toList = none := by decide

theorem phy1_valid : validatePhyName "phy1".toList = none := by decide

theorem labId_valid : validateConfigId "lab".toList = none := by decide

theorem labName_valid : validateNamespaceName "lab".toList = none := by decide

theorem home_valid : validateSsid "home".toList = none := by decide

/-! ## What a name is made of -/

theorem validateName_eq_none {pattern : Text → Bool} {label : String} {value : Text} :
    validateName pattern label value = none ↔
      value = Text.strip value ∧ value ≠ ['.'] ∧ value ≠ ['.', '.'] ∧ pattern value = true := by
  unfold validateName
  split_ifs with h1 h2
  · simp [h1]
  · simp only [false_iff]
    rintro ⟨-, h3, h4, h5⟩
    simp [h3, h4, h5] at h2
  · rw [not_not] at h1
    push Not at h2
    exact ⟨fun _ => ⟨h1, h2.1, h2.2.1, by simpa using h2.2.2⟩, fun _ => rfl⟩

theorem ConfigId.strip (id : ConfigId) : Text.strip id.val = id.val :=
  (validateName_eq_none.1 id.property).1.symm

theorem ConfigId.ne_nil (id : ConfigId) : id.val ≠ [] := by
  intro h
  have := (validateName_eq_none.1 id.property).2.2.2
  rw [h] at this
  cases this

/-- An id has no carriage return, so reading a file that holds it gives it back. -/
theorem ConfigId.readText_encode (id : ConfigId) : Text.readText (Text.encode id.val) =
    some id.val := by
  refine Text.readText_encode fun hmem => ?_
  have hmatch := (validateName_eq_none.1 id.property).2.2.2
  cases hval : id.val with
  | nil => exact id.ne_nil hval
  | cons c cs =>
    rw [hval] at hmatch hmem
    simp only [matchesName, Bool.and_eq_true, List.all_eq_true] at hmatch
    rcases List.mem_cons.1 hmem with rfl | hmem
    · exact absurd hmatch.1.1 (by decide)
    · exact absurd (hmatch.1.2 _ hmem) (by decide)

end WlanpiCore
