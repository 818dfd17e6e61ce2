import Mathlib.Data.Rat.Defs
import WlanpiCore.Lib.JsonTrim

/-!
# The two readers of an app's pidfile

`_recorded_app_running` reads the pidfile before a start and refuses the start when it cannot;
`stop_app_in_namespace` reads it again, with a parser of its own and other exceptions in its lists.
The first reads a JSON object with a `pid` or a bare JSON value, the second an object, or else a
text that is no JSON but an integer.

**Theorem (`readersAgree_iff`).** The readers agree on exactly these texts: an object whose `pid` is
a positive integer, and a text that neither reads as JSON nor as an integer. On everything else
(a bare pid, a pid that is absent, null, a string, negative or no integer) one of them reads or
refuses what the other does not, and the file a start is refused for stays. A pid `123.0` or `true`
is such a case: the first reader takes `int` of it, the second uses it as it is.
-/

namespace WlanpiCore.PidFile

open Text Json

/-- A value of `float`. -/
inductive PyFloat where
  | nan
  | infinite
  | finite (q : ℚ)

/-- The interpreter: how deep containers may nest, `float(text)` of a JSON number and `int(text)`,
with `none` for its `ValueError`. -/
structure Python where
  depth : Nat
  float : Text → PyFloat
  int : Text → Option Int

inductive Exc where
  | json (e : LoadsError)
  | keyError
  | typeError
  | valueError
  | overflowError
  | attributeError
  deriving DecidableEq

/-- `json.loads` raised a `ValueError`, of which a `JSONDecodeError` is one. -/
def isValueError : LoadsError → Bool
  | .decode _ _ | .intDigits => true
  | .recursion | .fuel => false

/-- `except (json.JSONDecodeError, KeyError, TypeError, ValueError)` -/
def Exc.caught : Exc → Bool
  | .json e => isValueError e
  | .keyError | .typeError | .valueError => true
  | .overflowError | .attributeError => false

section Readers

variable (py : Python)

/-- `int` of a value `json.loads` gives. -/
def intOf : Json → Except Exc Int
  | .null | .arr _ | .obj _ => .error .typeError
  | .bool b => .ok (if b then 1 else 0)
  | .int n => .ok n
  | .float text =>
    match py.float text with
    | .nan => .error .valueError
    | .infinite => .error .overflowError
    | .finite q => .ok (q.num.tdiv q.den)
  | .str none => .error .valueError
  | .str (some s) =>
    match py.int s with
    | none => .error .valueError
    | some n => .ok n

/-- `data.get(key, default)` of a `dict`. -/
def get (members : List (Option Text × Json)) (key : String) (default : Json) : Json :=
  (member members key.toList).getD default

def emptyStr : Json := .str (some [])

/-- `pid_data["pid"] if isinstance(pid_data, dict) else pid_data`, as an `int`. -/
def pidOf (data : Json) : Except Exc Int :=
  match data with
  | .obj members =>
    match member members "pid".toList with
    | none => .error .keyError
    | some value => intOf py value
  | data => intOf py data

def appCommandOf (data : Json) : Json :=
  match data with
  | .obj members => get members "app_command" emptyStr
  | _ => emptyStr

/-- The pid and the app command `_recorded_app_running` reads. -/
def recordedPid (t : Text) : Except Exc (Int × Json) :=
  match loads py.depth t with
  | .error e => .error (.json e)
  | .ok data =>
    match pidOf py data with
    | .error e => .error e
    | .ok pid => if pid ≤ 0 then .error .valueError else .ok (pid, appCommandOf data)

/-- What `stop_app_in_namespace` reads. -/
structure Fields where
  pid : Json
  appCommand : Json
  appId : Json

/-- The fields `stop_app_in_namespace` reads, or `none` where it calls the format invalid. A JSON
value that is no object has no `get`. -/
def stopFields (t : Text) : Except Exc (Option Fields) :=
  match loads py.depth (strip t) with
  | .ok (.obj members) =>
    .ok (some ⟨get members "pid" .null, get members "app_command" emptyStr,
      get members "app_id" emptyStr⟩)
  | .ok _ => .error .attributeError
  | .error e =>
    if isValueError e then
      match py.int (strip t) with
      | none => .ok none
      | some n => .ok (some ⟨.int n, emptyStr, emptyStr⟩)
    else .error (.json e)

end Readers

/-! ## The functions -/

/-- `os.kill(pid, 0)` -/
inductive KillAnswer where
  | delivered
  | processLookupError
  | permissionError
  | otherError

/-- The processes: what `os.kill` says, whether a live process is the recorded app in the namespace
(`_is_recorded_app` and `in_netns`) and whether the app was stopped (`_stop_owned_app`,
`_stop_app_in_root` and `_stop_app_in_namespace_safe`); `none` where these raise. -/
structure Processes where
  kill : Int → KillAnswer
  isRecordedApp : Int → Json → Option Bool
  stop : Fields → Option Bool

/-- How `_recorded_app_running` ends; `invalid` is `ValueError("Invalid app PID file …")`. -/
inductive Running where
  | returned (b : Bool)
  | invalid (cause : Exc)
  | raised

/-- Python's truth of a JSON value. -/
def truthy (py : Python) : Json → Bool
  | .null => false
  | .bool b => b
  | .int n => n ≠ 0
  | .float text => match py.float text with
    | .finite q => q ≠ 0
    | _ => true
  | .str s => s ≠ some []
  | .arr items => !items.isEmpty
  | .obj members => !members.isEmpty

/-- `_recorded_app_running`, on a pidfile and to what it leaves of it. -/
def recordedAppRunning (py : Python) (os : Processes) (file : Option Text) :
    Running × Option Text :=
  match file with
  | none => (.returned false, none)
  | some t =>
    match recordedPid py t with
    | .error e => if e.caught then (.invalid e, some t) else (.raised, some t)
    | .ok (pid, appCommand) =>
      match os.kill pid with
      | .processLookupError => (.returned false, none)
      | .permissionError => (.returned true, some t)
      | .otherError => (.raised, some t)
      | .delivered =>
        if truthy py appCommand then
          match os.isRecordedApp pid appCommand with
          | some true => (.returned true, some t)
          -- The pid was reused.
          | some false => (.returned false, none)
          | none => (.raised, some t)
        else (.returned true, some t)

/-- `stop_app_in_namespace`, on a pidfile and to what it leaves of it. -/
def stopAppInNamespace (py : Python) (os : Processes) (file : Option Text) : Bool × Option Text :=
  match file with
  | none => (false, none)
  | some t =>
    match stopFields py t with
    | .error _ => (false, some t)
    | .ok none => (false, none)
    | .ok (some fields) =>
      match os.stop fields with
      | none => (false, some t)
      | some true => (true, none)
      | some false => (false, some t)

/-! ## Agreement -/

section Agreement

variable (py : Python) (os : Processes)

/-- Both readers get the same pid and app command. -/
def SameFields (t : Text) : Prop :=
  ∃ pid fields, recordedPid py t = .ok (pid, fields.appCommand) ∧
    stopFields py t = .ok (some fields) ∧ fields.pid = .int pid

/-- The first raises its `ValueError`, the second removes the file and returns `False`. -/
def BothInvalid (t : Text) : Prop :=
  (∃ e, recordedAppRunning py os (some t) = (.invalid e, some t)) ∧
    stopAppInNamespace py os (some t) = (false, none)

/-- After a stop, a file the first reader calls invalid does not block a start. -/
def NotBlocked (t : Text) : Prop :=
  (∃ e, recordedAppRunning py os (some t) = (.invalid e, some t)) →
    (recordedAppRunning py os (stopAppInNamespace py os (some t)).2).1 = .returned false

def ReadersAgree (t : Text) : Prop :=
  (SameFields py t ∨ BothInvalid py os t) ∧ NotBlocked py os t

/-- An object whose `pid` is a positive integer. -/
def HasPid (t : Text) : Prop :=
  ∃ members pid, loads py.depth t = .ok (.obj members) ∧
    member members "pid".toList = some (.int pid) ∧ 0 < pid

/-- Neither JSON, as it is or stripped, nor an integer. -/
def Garbled (t : Text) : Prop :=
  (∃ e, loads py.depth t = .error e ∧ isValueError e = true) ∧
    (∃ e, loads py.depth (strip t) = .error e ∧ isValueError e = true) ∧ py.int (strip t) = none

variable {py os}

theorem recordedAppRunning_invalid_iff {t : Text} :
    (∃ e, recordedAppRunning py os (some t) = (.invalid e, some t)) ↔
      ∃ e, recordedPid py t = .error e ∧ e.caught = true := by
  unfold recordedAppRunning
  dsimp only
  cases hread : recordedPid py t with
  | error e =>
    by_cases hcaught : e.caught = true
    · simp [hcaught]
    · simp [hcaught]
  | ok p =>
    dsimp only
    refine iff_of_false ?_ (by simp)
    rintro ⟨e, he⟩
    split at he
    · cases he
    · cases he
    · cases he
    · split at he
      · split at he <;> cases he
      · cases he

theorem stopAppInNamespace_invalid_iff {t : Text} :
    stopAppInNamespace py os (some t) = (false, none) ↔ stopFields py t = .ok none := by
  unfold stopAppInNamespace
  dsimp only
  rcases stopFields py t with e | _ | fields
  · simp
  · simp
  · dsimp only
    rcases os.stop fields with _ | _ | _ <;> simp

theorem recordedPid_ok {t : Text} {pid : Int} {appCommand : Json}
    (h : recordedPid py t = .ok (pid, appCommand)) :
    ∃ data, loads py.depth t = .ok data ∧ pidOf py data = .ok pid ∧ 0 < pid ∧
      appCommandOf data = appCommand := by
  unfold recordedPid at h
  cases hloads : loads py.depth t with
  | error e =>
    rw [hloads] at h
    cases h
  | ok data =>
    rw [hloads] at h
    dsimp only at h
    cases hpid : pidOf py data with
    | error e =>
      rw [hpid] at h
      cases h
    | ok n =>
      rw [hpid] at h
      dsimp only at h
      split_ifs at h with hpos
      obtain ⟨rfl, hcommand⟩ := Prod.mk.inj (Except.ok.inj h)
      exact ⟨data, rfl, hpid, not_le.1 hpos, hcommand⟩

/-- What is left to read of a file that holds an object: the stripped text is the same document. -/
theorem stopFields_obj {t : Text} {members : List (Option Text × Json)}
    (h : loads py.depth t = .ok (.obj members)) :
    stopFields py t = .ok (some ⟨get members "pid" .null, get members "app_command" emptyStr,
      get members "app_id" emptyStr⟩) := by
  unfold stopFields
  rw [loads_strip h]

theorem sameFields_of_hasPid {t : Text} (h : HasPid py t) : SameFields py t := by
  obtain ⟨members, pid, hloads, hmember, hpos⟩ := h
  have hpid : pidOf py (.obj members) = .ok pid := by
    show (match member members "pid".toList with
      | none => Except.error Exc.keyError
      | some value => intOf py value) = .ok pid
    rw [hmember]
    rfl
  refine ⟨pid, _, ?_, stopFields_obj hloads, ?_⟩
  · unfold recordedPid
    rw [hloads]
    dsimp only
    rw [hpid]
    exact if_neg (not_le.2 hpos)
  · show (member members "pid".toList).getD .null = .int pid
    rw [hmember]
    rfl

theorem hasPid_of_sameFields {t : Text} (h : SameFields py t) : HasPid py t := by
  obtain ⟨pid, fields, hread, hstop, hsame⟩ := h
  obtain ⟨data, hloads, hpid, hpos, -⟩ := recordedPid_ok hread
  cases data with
  | obj members =>
    rw [stopFields_obj hloads] at hstop
    obtain rfl := Option.some.inj (Except.ok.inj hstop)
    have hvalue : (member members "pid".toList).getD .null = .int pid := hsame
    cases hmember : member members "pid".toList with
    | none =>
      rw [hmember] at hvalue
      cases hvalue
    | some value =>
      rw [hmember] at hvalue
      obtain rfl : value = .int pid := hvalue
      exact ⟨members, pid, hloads, hmember, hpos⟩
  | _ =>
    unfold stopFields at hstop
    rw [loads_strip hloads] at hstop
    cases hstop

theorem bothInvalid_iff {t : Text} : BothInvalid py os t ↔ Garbled py t := by
  unfold BothInvalid
  rw [recordedAppRunning_invalid_iff, stopAppInNamespace_invalid_iff]
  constructor
  · rintro ⟨⟨e, hread, hcaught⟩, hstop⟩
    unfold stopFields at hstop
    cases hstrip : loads py.depth (strip t) with
    | ok data =>
      rw [hstrip] at hstop
      cases data <;> cases hstop
    | error e₂ =>
      rw [hstrip] at hstop
      dsimp only at hstop
      split_ifs at hstop with hvalue
      cases hint : py.int (strip t) with
      | some n =>
        rw [hint] at hstop
        cases hstop
      | none =>
        refine ⟨?_, ⟨e₂, hstrip, hvalue⟩, hint⟩
        cases hloads : loads py.depth t with
        | ok data =>
          -- A text that reads as JSON still does when it is stripped.
          rw [loads_strip hloads] at hstrip
          cases hstrip
        | error e₁ =>
          unfold recordedPid at hread
          rw [hloads] at hread
          obtain rfl := Except.error.inj hread
          exact ⟨e₁, rfl, hcaught⟩
  · rintro ⟨⟨e₁, hloads, hcaught⟩, ⟨e₂, hstrip, hvalue⟩, hint⟩
    refine ⟨⟨.json e₁, ?_, hcaught⟩, ?_⟩
    · unfold recordedPid
      rw [hloads]
    · unfold stopFields
      rw [hstrip]
      dsimp only
      rw [if_pos hvalue, hint]

/-- **The readers agree on an object with a positive integer as its pid and on what is neither JSON
nor an integer.** -/
theorem readersAgree_iff (py : Python) (os : Processes) (t : Text) :
    ReadersAgree py os t ↔ HasPid py t ∨ Garbled py t := by
  constructor
  · rintro ⟨hsame | hinvalid, -⟩
    · exact .inl (hasPid_of_sameFields hsame)
    · exact .inr (bothInvalid_iff.1 hinvalid)
  · intro h
    obtain hpid | hgarbled := h
    · have hsame := sameFields_of_hasPid hpid
      refine ⟨.inl hsame, fun hinvalid => ?_⟩
      obtain ⟨pid, fields, hread, -⟩ := hsame
      obtain ⟨e, herror, -⟩ := recordedAppRunning_invalid_iff.1 hinvalid
      rw [hread] at herror
      cases herror
    · have hinvalid : BothInvalid py os t := bothInvalid_iff.2 hgarbled
      refine ⟨.inr hinvalid, fun _ => ?_⟩
      rw [hinvalid.2]
      rfl

end Agreement

/-- A pidfile of the old format, the bare pid: a start refuses while the process lives, and a stop
raises `AttributeError`, returns `False` and keeps the file. -/
theorem not_readersAgree_bare :
    ¬ReadersAgree ⟨1000, fun _ => .nan, Text.int⟩ ⟨fun _ => .delivered, fun _ _ =>
      some true, fun _ => some true⟩
      "123".toList := by
  have hfirst : recordedPid ⟨1000, fun _ => .nan, Text.int⟩ "123".toList = .ok (123, emptyStr) :=
    rfl
  have hsecond : stopFields ⟨1000, fun _ => .nan, Text.int⟩ "123".toList = .error .attributeError :=
    rfl
  rintro ⟨⟨pid, fields, -, hfields, -⟩ | ⟨hinvalid, -⟩, -⟩
  · rw [hsecond] at hfields
    cases hfields
  · obtain ⟨e, herror, -⟩ := recordedAppRunning_invalid_iff.1 hinvalid
    rw [hfirst] at herror
    cases herror

end WlanpiCore.PidFile
