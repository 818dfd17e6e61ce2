import WlanpiCore.Lib.Json

/-!
# The configuration file of wpa_supplicant

The part of the file's grammar that the profiles use: lines, comments, one `network` block after
another, and the values of `ssid` and `psk`. A quoted value goes up to the last quote of its line,
so quotes and backslashes in it need no escape. `readLines_fields` reads the lines of a block and
`readLines_global` a line outside the blocks.
-/

namespace WlanpiCore.Wpa

inductive Value where
  | ssid (bytes : Bytes)
  | passphrase (text : Text)
  | rawKey (bytes : Bytes)
  | text (text : Text)
  deriving DecidableEq

abbrev Fields := List (Text × Value)

structure File where
  globals : List (Text × Text)
  networks : List Fields
  deriving DecidableEq

def isBlank (c : Char) : Bool := c = ' ' || c = '\t' || c = '\r'

/-- A line without indentation, comment and blanks at its end. A `#` between the first and the last
quote starts no comment. -/
def clean (line : Text) : Text :=
  let pos := line.dropWhile isBlank
  let tail := pos.rtakeWhile (· ≠ '"')
  let kept :=
    if 2 ≤ pos.count '"' then pos.rdropWhile (· ≠ '"') ++ tail.takeWhile (· ≠ '#')
    else pos.takeWhile (· ≠ '#')
  kept.rdropWhile isBlank

/-- A value after its first quote. -/
def quoted (rest : Text) : Option Text :=
  if rest.getLast? = some '"' then some rest.dropLast else none

/-- Bytes in hexadecimal digits. -/
def hexBytes : Text → Option Bytes
  | [] => some []
  | [_] => none
  | a :: b :: rest => do
    let high ← Json.hexDigit a
    let low ← Json.hexDigit b
    return UInt8.ofNat (16 * high + low) :: (← hexBytes rest)

def readSsid : Text → Option Value
  | '"' :: rest => (quoted rest).map fun t => .ssid (Text.encode t)
  | value => (hexBytes value).map .ssid

def readPsk : Text → Option Value
  | '"' :: rest => (quoted rest).bind fun t =>
    if 8 ≤ t.length ∧ t.length ≤ 63 then some (.passphrase t) else none
  | value => if value.length = 64 then (hexBytes value).map .rawKey else none

/-- The key of a line and what stands after the first `=`. -/
def splitKey (line : Text) : Option (Text × Text) :=
  match line.dropWhile (· ≠ '=') with
  | _ :: value => some (line.takeWhile (· ≠ '='), value)
  | [] => none

def readValue (key value : Text) : Option Value :=
  if key = "ssid".toList then readSsid value
  else if key = "psk".toList then readPsk value
  else some (.text value)

/-- A line in a `network` block. -/
def readField (line : Text) : Option (Text × Value) :=
  (splitKey line).bind fun entry => (readValue entry.1 entry.2).map (entry.1, ·)

/-- The lines of a file, `network` being what is read of the current block; `none` is a file that
wpa_supplicant refuses. -/
def readLines (network : Option Fields) : List Text → Option File
  | [] => if network.isNone then some ⟨[], []⟩ else none
  | line :: rest =>
    if clean line = [] then readLines network rest
    else
      match network with
      | none =>
        if clean line = "network=\x7b".toList then readLines (some []) rest
        else do
          let entry ← splitKey (clean line)
          let file ← readLines none rest
          return { file with globals := entry :: file.globals }
      | some fields =>
        if clean line = "\x7d".toList then do
          let file ← readLines none rest
          return { file with networks := fields :: file.networks }
        else do
          let field ← readField (clean line)
          readLines (some (fields ++ [field])) rest

def readFile (content : Text) : Option File := readLines none (content.splitOn '\n')

/-! ## Lines -/

/-- A line with neither quotes nor comments. -/
theorem clean_plain {line body : Text} (hline : line.dropWhile isBlank = body) (hquote : '"' ∉ body)
    (hcomment : '#' ∉ body) (hlast : ∀ c ∈ body.getLast?, isBlank c = false) :
      clean line = body := by
  have hcount : ¬2 ≤ body.count '"' := by
    rw [List.count_eq_zero_of_not_mem hquote]
    exact Nat.not_le.2 Nat.two_pos
  have htake : body.takeWhile (· ≠ '#') = body := by
    rw [List.takeWhile_eq_self_iff]
    intro c hc
    have hne : c ≠ '#' := fun heq => hcomment (heq ▸ hc)
    simpa using hne
  unfold clean
  dsimp only
  rw [hline, if_neg hcount, htake, List.rdropWhile_eq_self_iff]
  intro hne
  simp [hlast _ (List.getLast_mem_getLast? hne)]

/-- A line that ends with a quoted value. -/
theorem clean_quoted {line : Text} (key value : Text)
    (hline : line.dropWhile isBlank = key ++ '"' :: value ++ ['"']) :
    clean line = key ++ '"' :: value ++ ['"'] := by
  have hcount : 2 ≤ (key ++ '"' :: value ++ ['"']).count '"' := by
    simp only [List.count_append, List.count_cons_self, List.count_nil]
    omega
  have htail : (key ++ '"' :: value ++ ['"']).rtakeWhile (· ≠ '"') = [] := by
    rw [List.rtakeWhile_concat_neg _ _ _ (by simp)]
  have hdrop : (key ++ '"' :: value ++ ['"']).rdropWhile (· ≠ '"') = key ++ '"' :: value ++ ['"'] :=
    List.rdropWhile_concat_neg _ _ _ (by simp)
  unfold clean
  dsimp only
  rw [hline, if_pos hcount, htail, hdrop, List.takeWhile_nil, List.append_nil]
  exact List.rdropWhile_concat_neg _ _ _ (by decide)

theorem readLines_field {line : Text} {field : Text × Value}
    (h : readField (clean line) = some field) (fields : Fields) (rest : List Text) :
    readLines (some fields) (line :: rest) = readLines (some (fields ++ [field])) rest := by
  have hnil : clean line ≠ [] := by
    intro heq
    rw [heq] at h
    cases h
  have hend : clean line ≠ "\x7d".toList := by
    intro heq
    have hnone : readField "\x7d".toList = none := by decide
    rw [heq, hnone] at h
    cases h
  rw [readLines, if_neg hnil]
  rw [if_neg hend, h]
  rfl

/-- The lines of a block, each with its field. -/
theorem readLines_fields {lines : List Text} {new : Fields}
    (h : lines.map (readField <| clean ·) = new.map some) (fields : Fields) (rest : List Text) :
    readLines (some fields) (lines ++ rest) = readLines (some (fields ++ new)) rest := by
  induction lines generalizing new fields with
  | nil =>
    cases new with
    | nil => rw [List.nil_append, List.append_nil]
    | cons field new => cases h
  | cons line lines ih =>
    cases new with
    | nil => cases h
    | cons field new =>
      rw [List.map_cons, List.map_cons, List.cons.injEq] at h
      rw [List.cons_append, readLines_field h.1, ih h.2, List.append_assoc]
      rfl

/-- A line outside the blocks. -/
theorem readLines_global {line : Text} {entry : Text × Text}
    (h : splitKey (clean line) = some entry)
    (hblock : clean line ≠ "network=\x7b".toList) (rest : List Text) :
    readLines none (line :: rest) = (readLines none rest).map fun file =>
      { file with globals := entry :: file.globals } := by
  have hnil : clean line ≠ [] := by
    intro heq
    rw [heq] at h
    cases h
  rw [readLines, if_neg hnil]
  rw [if_neg hblock, h]
  cases readLines none rest <;> rfl

end WlanpiCore.Wpa
