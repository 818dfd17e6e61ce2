import WlanpiCore.Lib.Text

/-!
# `json.loads`

Python's JSON reader on a text. It is more liberal than JSON (`NaN`, `Infinity`, raw non-ASCII
text, lone surrogate escapes) and it can fail in three ways a caller may treat differently: a
`JSONDecodeError` with a message and a position, the `ValueError` for an integer of more than 4300
digits, and a `RecursionError` for containers nested deeper than the interpreter's stack allows.

The scanner follows CPython's: `scanOnce` on a value, `parseArray` and `parseObject` on the inside
of a container. Each call gets a bound on the calls that may follow; `scan_ne_fuel` says that the
length of the text is enough, so `loads` never ends for lack of it (`loads_ne_fuel`).
-/

namespace WlanpiCore

/-- A JSON document as Python holds it. A string is `none` when it has a lone surrogate escape:
which code points it holds is then left open, and what reads it as a text refuses it. An object
keeps its members in the order of the document, duplicates included. -/
inductive Json where
  | null
  | bool (b : Bool)
  | int (n : Int)
  | float (text : Text)
  | str (s : Option Text)
  | arr (items : List Json)
  | obj (members : List (Option Text × Json))
  deriving Repr, Inhabited

namespace Json

/-- The member of a `dict`: the last of the document's members with that key. -/
def member (members : List (Option Text × Json)) (key : Text) : Option Json :=
  members.reverse.lookup (some key)

/-- Why a scan failed. A position is the number of characters from there to the end. -/
inductive ScanError where
  | decode (msg : String) (left : Nat)
  | intDigits
  | recursion
  | fuel
  deriving DecidableEq, Repr

/-- The whitespace the scanner skips: `" \t\n\r"`. -/
def skipSpace (t : Text) : Text := t.dropWhile (" \t\n\r".toList.contains ·)

def isDigit (c : Char) : Bool := 0x30 ≤ c.toNat && c.toNat ≤ 0x39

/-! ## Strings -/

def hexDigit (c : Char) : Option Nat :=
  let n := c.toNat
  if 0x30 ≤ n ∧ n ≤ 0x39 then some (n - 0x30)
  else if 0x61 ≤ n ∧ n ≤ 0x66 then some (n - 0x61 + 10)
  else if 0x41 ≤ n ∧ n ≤ 0x46 then some (n - 0x41 + 10)
  else none

def hexValue (digits : List Char) : Option Nat :=
  digits.foldlM (fun n c => (hexDigit c).map (16 * n + ·)) 0

def escapes : List (Char × Char) :=
  [('"', '"'), ('\\', '\\'), ('/', '/'), ('b', '\x08'), ('f', '\x0c'), ('n', '\n'), ('r', '\r'),
    ('t', '\t')]

/-- Add a code point to a string read so far; a surrogate makes it no text. -/
def addCode (acc : Option Text) (code : Nat) : Option Text :=
  if 0xd800 ≤ code ∧ code ≤ 0xdfff then none else acc.map (· ++ [Char.ofNat code])

/-- The four digits of a `\u` escape and the text after them. The scanner wants one more
character behind them. `left` is the position of the `u`. -/
def hexEscape (left : Nat) (t : Text) : Except ScanError (Nat × Text) :=
  if t.length < 5 then .error (.decode "Invalid \\uXXXX escape" left)
  else match hexValue (t.take 4) with
    | none => .error (.decode "Invalid \\uXXXX escape" left)
    | some code => .ok (code, t.drop 4)

/-- A `\u` escape, joined with the one behind it when the two are a surrogate pair. -/
def unicodeEscape (left : Nat) (t : Text) : Except ScanError (Nat × Text) := do
  let (code, rest) ← hexEscape left t
  if 0xd800 ≤ code ∧ code ≤ 0xdbff ∧ rest.take 2 = ['\\', 'u'] ∧ 7 ≤ rest.length then
    let (low, rest') ← hexEscape (rest.length - 1) (rest.drop 2)
    if 0xdc00 ≤ low ∧ low ≤ 0xdfff then
      return (0x10000 + (code - 0xd800) * 0x400 + (low - 0xdc00), rest')
  return (code, rest)

/-- The code point of an escape, after its backslash. `opened` is where the string starts. -/
def escapeCode (opened : Nat) (t : Text) : Except ScanError (Nat × Text) :=
  match t with
  | [] => .error (.decode "Unterminated string starting at" opened)
  | e :: rest =>
    if e = 'u' then unicodeEscape t.length rest
    else match escapes.lookup e with
      | some d => .ok (d.toNat, rest)
      | none => .error (.decode "Invalid \\escape" (t.length + 1))

/-- The inside of a string and its closing quote. `opened` is the position of the opening one. -/
def scanString (opened : Nat) : Nat → Option Text → Text → Except ScanError (Option Text × Text)
  | 0, _, _ => .error .fuel
  | _ + 1, _, [] => .error (.decode "Unterminated string starting at" opened)
  | n + 1, acc, c :: rest =>
    if c = '"' then .ok (acc, rest)
    else if c = '\\' then do
      let (code, rest) ← escapeCode opened rest
      scanString opened n (addCode acc code) rest
    else if c.toNat ≤ 0x1f then .error (.decode "Invalid control character at" (rest.length + 1))
    else scanString opened n (acc.map (· ++ [c])) rest

/-! ## Numbers -/

/-- `sys.get_int_max_str_digits()`. -/
def maxStrDigits : Nat := 4300

def digitsValue (digits : List Char) : Nat :=
  digits.foldl (fun n c => 10 * n + (c.toNat - 0x30)) 0

def intValue (negative : Bool) (digits : List Char) : Except ScanError Json :=
  if maxStrDigits < digits.length then .error .intDigits
  else .ok (.int (if negative then -(digitsValue digits : Int) else digitsValue digits))

/-- The digits before the point: `0`, or a run that does not start with it. -/
def wholeDigits (t : Text) : List Char :=
  match t with
  | '0' :: _ => ['0']
  | _ => t.takeWhile isDigit

/-- A point and the digits behind it, if there is one. -/
def fractionPart (t : Text) : List Char :=
  match t with
  | '.' :: rest => if rest.takeWhile isDigit = [] then [] else '.' :: rest.takeWhile isDigit
  | _ => []

/-- An exponent, if there is one. -/
def exponentPart (t : Text) : List Char :=
  match t with
  | e :: rest =>
    if e = 'e' ∨ e = 'E' then
      let sign := rest.take 1 |>.filter (fun c => c = '+' ∨ c = '-')
      let digits := (rest.drop sign.length).takeWhile isDigit
      if digits = [] then [] else e :: sign ++ digits
    else []
  | [] => []

/-- A number; `left` is where the value starts. -/
def matchNumber (t : Text) : Except ScanError (Json × Text) :=
  let negative := t.head? = some '-'
  let body := if negative then t.drop 1 else t
  let whole := wholeDigits body
  if whole = [] then .error (.decode "Expecting value" t.length)
  else
    let rest := body.drop whole.length
    let fraction := fractionPart rest
    let rest := rest.drop fraction.length
    let exponent := exponentPart rest
    let rest := rest.drop exponent.length
    if fraction = [] ∧ exponent = [] then (intValue negative whole).map (·, rest)
    else .ok (.float (t.take (t.length - rest.length)), rest)

/-- The words that stand for a value. -/
def constants : List (Text × Json) :=
  [("null".toList, .null), ("true".toList, .bool true), ("false".toList, .bool false),
    ("NaN".toList, .float "NaN".toList), ("Infinity".toList, .float "Infinity".toList),
    ("-Infinity".toList, .float "-Infinity".toList)]

/-- A value that is no string and no container. -/
def scanScalar (t : Text) : Except ScanError (Json × Text) :=
  match constants.find? (·.1.isPrefixOf t) with
  | some (word, value) => .ok (value, t.drop word.length)
  | none => matchNumber t

/-! ## Containers -/

mutual

/-- A value. `depth` is how many containers may still be entered. -/
def scanOnce : Nat → Nat → Text → Except ScanError (Json × Text)
  | 0, _, _ => .error .fuel
  | n + 1, depth, t =>
    match t with
    | '"' :: rest => do
      let (s, rest') ← scanString t.length (rest.length + 1) (some []) rest
      return (.str s, rest')
    | '{' :: rest =>
      match depth with
      | 0 => .error .recursion
      | depth + 1 =>
        match skipSpace rest with
        | '}' :: rest' => .ok (.obj [], rest')
        | rest' => parseObject n depth [] rest'
    | '[' :: rest =>
      match depth with
      | 0 => .error .recursion
      | depth + 1 =>
        match skipSpace rest with
        | ']' :: rest' => .ok (.arr [], rest')
        | rest' => parseArray n depth [] rest'
    | _ => scanScalar t

/-- The items of an array from one of them on. -/
def parseArray : Nat → Nat → List Json → Text → Except ScanError (Json × Text)
  | 0, _, _, _ => .error .fuel
  | n + 1, depth, acc, t => do
    let (item, rest) ← scanOnce n depth t
    match skipSpace rest with
    | ']' :: rest => return (.arr (acc ++ [item]), rest)
    | ',' :: rest =>
      match skipSpace rest with
      | ']' :: _ =>
        .error (.decode "Illegal trailing comma before end of array" (rest.length + 1))
      | rest' => parseArray n depth (acc ++ [item]) rest'
    | rest' => .error (.decode "Expecting ',' delimiter" rest'.length)

/-- The members of an object from one of them on. -/
def parseObject : Nat → Nat → List (Option Text × Json) → Text → Except ScanError (Json × Text)
  | 0, _, _, _ => .error .fuel
  | n + 1, depth, acc, t =>
    match t with
    | '"' :: rest => do
      let (key, rest) ← scanString t.length (rest.length + 1) (some []) rest
      match skipSpace rest with
      | ':' :: rest =>
        let (value, rest) ← scanOnce n depth (skipSpace rest)
        match skipSpace rest with
        | '}' :: rest => return (.obj (acc ++ [(key, value)]), rest)
        | ',' :: rest =>
          match skipSpace rest with
          | '}' :: _ =>
            .error (.decode "Illegal trailing comma before end of object" (rest.length + 1))
          | rest' => parseObject n depth (acc ++ [(key, value)]) rest'
        | rest' => .error (.decode "Expecting ',' delimiter" rest'.length)
      | rest' => .error (.decode "Expecting ':' delimiter" rest'.length)
    | _ => .error (.decode "Expecting property name enclosed in double quotes" t.length)

end

/-! ## The bound on the calls is enough -/

/-- A scan that was not cut short by the bound and that moved forward in `t`. -/
def Advances {α : Type} (t : Text) : Except ScanError (α × Text) → Prop
  | .ok (_, rest) => rest.length < t.length
  | .error e => e ≠ .fuel

theorem Advances.of_le {α : Type} {t t' : Text} {x : Except ScanError (α × Text)}
    (h : Advances t x) (hle : t.length ≤ t'.length) : Advances t' x := by
  cases x with
  | ok p => exact Nat.lt_of_lt_of_le h hle
  | error e => exact h

theorem Advances.bind {α β : Type} {t t' : Text} {x : Except ScanError (α × Text)}
    {f : α × Text → Except ScanError (β × Text)} (h : Advances t x)
    (hf : ∀ a rest, rest.length < t.length → Advances t' (f (a, rest))) : Advances t'
    (x >>= f) := by
  cases x with
  | ok p => exact hf p.1 p.2 h
  | error e => exact h

theorem skipSpace_length (t : Text) : (skipSpace t).length ≤ t.length :=
  (List.dropWhile_sublist _).length_le

theorem hexEscape_advances (left : Nat) (t : Text) : Advances t (hexEscape left t) := by
  unfold hexEscape
  split_ifs with hlen
  · simp [Advances]
  · cases hexValue (t.take 4) with
    | none => simp [Advances]
    | some code =>
      simp only [Advances, List.length_drop]
      omega

theorem unicodeEscape_advances (left : Nat) (t : Text) : Advances t (unicodeEscape left t) := by
  unfold unicodeEscape
  refine (hexEscape_advances left t).bind fun code rest hrest => ?_
  dsimp only
  split_ifs with hpair
  · refine (hexEscape_advances _ (rest.drop 2)).bind fun low rest' hrest' => ?_
    simp only [List.length_drop] at hrest'
    dsimp only
    split_ifs
    · exact show rest'.length < t.length by omega
    · exact hrest
  · exact hrest

theorem escapeCode_advances (opened : Nat) (t : Text) : Advances t (escapeCode opened t) := by
  unfold escapeCode
  cases t with
  | nil => simp [Advances]
  | cons e rest =>
    dsimp only
    split_ifs
    · exact (unicodeEscape_advances _ rest).of_le (by simp)
    · cases escapes.lookup e <;> simp [Advances]

theorem scanString_advances (opened : Nat) : ∀ {n : Nat} {acc : Option Text} {t : Text},
    t.length < n → Advances t (scanString opened n acc t)
  | n + 1, acc, [], _ => by simp [scanString, Advances]
  | n + 1, acc, c :: rest, h => by
    have hn : rest.length < n := by simpa using h
    have hle : rest.length ≤ (c :: rest).length := by simp
    simp only [scanString]
    split_ifs with hquote hback hctrl
    · simp [Advances]
    · refine (escapeCode_advances opened rest).bind fun code rest' hrest' => ?_
      dsimp only
      exact (scanString_advances opened (by omega)).of_le (by omega)
    · simp [Advances]
    · exact (scanString_advances opened hn).of_le hle

theorem wholeDigits_nil {t : Text} (h : wholeDigits t ≠ []) : 0 < t.length := by
  cases t with
  | nil => exact absurd rfl h
  | cons c t => simp

theorem matchNumber_advances (t : Text) : Advances t (matchNumber t) := by
  unfold matchNumber
  dsimp only
  generalize hbody : (if t.head? = some '-' then t.drop 1 else t) = body
  have hle : body.length ≤ t.length := by
    rw [← hbody]
    split_ifs <;> simp
  split_ifs with hwhole hint
  · simp [Advances]
  all_goals
    have hbody := wholeDigits_nil hwhole
    have hpos : 0 < (wholeDigits body).length := List.length_pos_iff.2 hwhole
  · unfold intValue
    split_ifs
    · simp [Advances, Except.map]
    all_goals
      simp only [Except.map, Advances, List.length_drop]
      omega
  · simp only [Advances, List.length_drop]
    omega

theorem scanScalar_advances (t : Text) : Advances t (scanScalar t) := by
  unfold scanScalar
  cases hfind : constants.find? (·.1.isPrefixOf t) with
  | none => exact matchNumber_advances t
  | some p =>
    have hword : 0 < p.1.length :=
      (by decide : ∀ p ∈ constants, 0 < p.1.length) p (List.mem_of_find?_eq_some hfind)
    have hpre : p.1 <+: t := by simpa using List.find?_some hfind
    have hlen := hpre.length_le
    simp only [Advances, List.length_drop]
    omega

mutual

theorem scanOnce_advances : ∀ {n depth : Nat} {t : Text}, 2 * t.length < n →
    Advances t (scanOnce n depth t)
  | n + 1, depth, t, h => by
    rw [scanOnce.eq_def]
    dsimp only
    split
    · rename_i rest
      exact (scanString_advances _ (Nat.lt_succ_self _)).bind fun s rest' hrest' =>
        Nat.lt_succ_of_lt hrest'
    · rename_i rest
      have hspace := skipSpace_length rest
      simp only [List.length_cons] at h
      split
      · simp [Advances]
      · split
        · rename_i heq
          rw [heq] at hspace
          simp only [List.length_cons] at hspace
          exact show _ < _ by simp only [List.length_cons]; omega
        · exact (parseObject_advances (by omega)).of_le (by simp only [List.length_cons]; omega)
    · rename_i rest
      have hspace := skipSpace_length rest
      simp only [List.length_cons] at h
      split
      · simp [Advances]
      · split
        · rename_i heq
          rw [heq] at hspace
          simp only [List.length_cons] at hspace
          exact show _ < _ by simp only [List.length_cons]; omega
        · exact (parseArray_advances (by omega)).of_le (by simp only [List.length_cons]; omega)
    · exact scanScalar_advances t

theorem parseArray_advances : ∀ {n depth : Nat} {acc : List Json} {t : Text},
    2 * t.length + 1 < n → Advances t (parseArray n depth acc t)
  | n + 1, depth, acc, t, h => by
    rw [parseArray.eq_def]
    refine (scanOnce_advances (by omega)).bind fun item rest hrest => ?_
    dsimp only
    have hspace := skipSpace_length rest
    split
    · rename_i heq
      rw [heq] at hspace
      simp only [List.length_cons] at hspace
      exact show _ < _ by omega
    · rename_i rest' heq
      rw [heq] at hspace
      simp only [List.length_cons] at hspace
      have hspace' := skipSpace_length rest'
      split
      · simp [Advances]
      · exact (parseArray_advances (by omega)).of_le (by omega)
    · simp [Advances]

theorem parseObject_advances : ∀ {n depth : Nat} {acc : List (Option Text × Json)} {t : Text},
    2 * t.length < n → Advances t (parseObject n depth acc t)
  | n + 1, depth, acc, t, h => by
    rw [parseObject.eq_def]
    dsimp only
    split
    · rename_i rest
      simp only [List.length_cons] at h
      refine (scanString_advances _ (Nat.lt_succ_self _)).bind fun key rest hrest => ?_
      dsimp only
      have hspace := skipSpace_length rest
      split
      · rename_i rest' heq
        rw [heq] at hspace
        simp only [List.length_cons] at hspace
        have hspace' := skipSpace_length rest'
        refine (scanOnce_advances (by omega)).bind fun value rest hrest => ?_
        dsimp only
        have hvalue := skipSpace_length rest
        split
        · rename_i heq'
          rw [heq'] at hvalue
          simp only [List.length_cons] at hvalue
          exact show _ < _ by simp only [List.length_cons]; omega
        · rename_i rest' heq'
          rw [heq'] at hvalue
          simp only [List.length_cons] at hvalue
          have hcomma := skipSpace_length rest'
          split
          · simp [Advances]
          · exact (parseObject_advances (by omega)).of_le (by simp only [List.length_cons]; omega)
        · simp [Advances]
      · simp [Advances]
    · simp [Advances]

end

/-! ## Documents -/

/-- What `json.loads` raises. `decode` is the `JSONDecodeError` with its position. -/
inductive LoadsError where
  | decode (msg : String) (pos : Nat)
  | intDigits
  | recursion
  | fuel
  deriving DecidableEq, Repr

def ScanError.toLoads (total : Nat) : ScanError → LoadsError
  | .decode msg left => .decode msg (total - left)
  | .intDigits => .intDigits
  | .recursion => .recursion
  | .fuel => .fuel

/-- A value, and nothing but whitespace around it. -/
def document (depth : Nat) (t : Text) : Except ScanError Json := do
  let start := skipSpace t
  let (value, rest) ← scanOnce (2 * start.length + 1) depth start
  match skipSpace rest with
  | [] => return value
  | extra => .error (.decode "Extra data" extra.length)

/-- `json.loads(text)` with room for `depth` nested containers. -/
def loads (depth : Nat) (t : Text) : Except LoadsError Json :=
  if t.head? = some '\ufeff' then
    .error (.decode "Unexpected UTF-8 BOM (decode using utf-8-sig)" 0)
  else (document depth t).mapError (ScanError.toLoads t.length)

/-- `loads` never ends for lack of calls. -/
theorem loads_ne_fuel (depth : Nat) (t : Text) : loads depth t ≠ .error .fuel := by
  have hdoc : document depth t ≠ .error .fuel := by
    have h : Advances (skipSpace t) (scanOnce (2 * (skipSpace t).length + 1) depth (skipSpace t)) :=
      scanOnce_advances (Nat.lt_succ_self _)
    unfold document
    dsimp only
    cases hscan : scanOnce (2 * (skipSpace t).length + 1) depth (skipSpace t) with
    | error e =>
      rw [hscan] at h
      intro he
      exact h (Except.error.inj he)
    | ok p =>
      simp only [bind, Except.bind]
      split <;> simp [pure, Except.pure]
  unfold loads
  split_ifs
  · simp
  · cases hd : document depth t with
    | ok j => simp [Except.mapError]
    | error e =>
      rw [hd] at hdoc
      cases e <;> simp_all [Except.mapError, ScanError.toLoads]

/-- `str` of a `JSONDecodeError`. -/
def errorText (doc : Text) (msg : String) (pos : Nat) : Text :=
  let before := doc.take pos
  let line := before.count '\n' + 1
  let col := (before.reverse.takeWhile (· ≠ '\n')).length + 1
  msg.toList ++ s!": line {line} column {col} (char {pos})".toList

/-! ## Equality -/

mutual

/-- Equality of documents, to compute with. -/
def same : Json → Json → Bool
  | .null, .null => true
  | .bool a, .bool b => a == b
  | .int a, .int b => a == b
  | .float a, .float b => a == b
  | .str a, .str b => a == b
  | .arr as, .arr bs => sameItems as bs
  | .obj as, .obj bs => sameMembers as bs
  | _, _ => false

def sameItems : List Json → List Json → Bool
  | [], [] => true
  | a :: as, b :: bs => same a b && sameItems as bs
  | _, _ => false

def sameMembers : List (Option Text × Json) → List (Option Text × Json) → Bool
  | [], [] => true
  | (k, a) :: as, (l, b) :: bs => k == l && same a b && sameMembers as bs
  | _, _ => false

end

mutual

theorem eq_of_same : ∀ {a b : Json}, same a b = true → a = b := by
  intro a b h
  cases a with
  | arr as =>
    cases b <;> simp only [same, Bool.false_eq_true] at h
    rw [eq_of_sameItems h]
  | obj as =>
    cases b <;> simp only [same, Bool.false_eq_true] at h
    rw [eq_of_sameMembers h]
  | _ =>
    cases b <;> simp only [same, Bool.false_eq_true, beq_iff_eq] at h
    first
      | rfl
      | rw [h]

theorem eq_of_sameItems : ∀ {as bs : List Json}, sameItems as bs = true → as = bs
  | [], [], _ => rfl
  | a :: as, b :: bs, h => by
    simp only [sameItems, Bool.and_eq_true] at h
    rw [eq_of_same h.1, eq_of_sameItems h.2]
  | [], _ :: _, h => by simp [sameItems] at h
  | _ :: _, [], h => by simp [sameItems] at h

theorem eq_of_sameMembers : ∀ {as bs : List (Option Text × Json)}, sameMembers as bs = true →
    as = bs
  | [], [], _ => rfl
  | (k, a) :: as, (l, b) :: bs, h => by
    simp only [sameMembers, Bool.and_eq_true, beq_iff_eq] at h
    rw [h.1.1, eq_of_same h.1.2, eq_of_sameMembers h.2]
  | [], _ :: _, h => by simp [sameMembers] at h
  | _ :: _, [], h => by simp [sameMembers] at h

end

theorem loads_of_same {depth : Nat} {t : Text} {value : Json}
    (h : (match loads depth t with
      | .ok read => same read value
      | _ => false) = true) : loads depth t = .ok value := by
  split at h
  · rename_i hloads
    rw [hloads, eq_of_same h]
  · cases h

end Json

end WlanpiCore
