import WlanpiCore.Lib.Text

/-!
# Python's strings

A `str` is a sequence of code points, and a surrogate may stand alone in it: `json.loads` makes one
of the escape `\ud800`, and `os.fsdecode` one of a byte that is no UTF-8. A string without
surrogates is a `Text`, and what is done to strings agrees with what is done to texts
(`strip_ofText`, `splitOn_ofText`).
-/

namespace WlanpiCore

/-- An element of a Python string: a character, or a surrogate. -/
inductive PyChar where
  | char (c : Char)
  | surrogate (n : Nat)
  deriving DecidableEq

/-- `os.fsencode` of an element: a surrogate between U+DC80 and U+DCFF stands for a byte. -/
def PyChar.fsencode : PyChar → Option Bytes
  | .char c => some (String.utf8EncodeChar c)
  | .surrogate n => if 0xdc80 ≤ n ∧ n ≤ 0xdcff then some [UInt8.ofNat (n - 0xdc00)] else none

def PyChar.isSpace : PyChar → Bool
  | .char c => Text.isSpace c
  | .surrogate _ => false

abbrev PyStr := List PyChar

namespace PyStr

def ofText (t : Text) : PyStr := t.map .char

/-- The text, unless there is a surrogate, which no strict encoder accepts. -/
def toText : PyStr → Option Text
  | [] => some []
  | .char c :: s => (toText s).map (c :: ·)
  | .surrogate _ :: _ => none

/-- `os.fsencode`; `none` is a `UnicodeEncodeError`. -/
def fsencode : PyStr → Option Bytes
  | [] => some []
  | c :: s =>
    match c.fsencode, fsencode s with
    | some bytes, some rest => some (bytes ++ rest)
    | _, _ => none

/-- `s.strip()` -/
def strip (s : PyStr) : PyStr := (s.dropWhile PyChar.isSpace).rdropWhile PyChar.isSpace

theorem ofText_injective : Function.Injective ofText :=
  List.map_injective_iff.2 fun _ _ h => PyChar.char.inj h

theorem toText_ofText (t : Text) : toText (ofText t) = some t := by
  induction t with
  | nil => rfl
  | cons c t ih =>
    show (toText (ofText t)).map (c :: ·) = _
    rw [ih, Option.map_some]

theorem ofText_of_toText {s : PyStr} {t : Text} (h : toText s = some t) : s = ofText t := by
  induction s generalizing t with
  | nil =>
    cases h
    rfl
  | cons c s ih =>
    cases c with
    | surrogate n => cases h
    | char c =>
      obtain ⟨rest, hrest, rfl⟩ := Option.map_eq_some_iff.1 h
      rw [ih hrest]
      rfl

theorem dropWhile_ofText (t : Text) :
    (ofText t).dropWhile PyChar.isSpace = ofText (t.dropWhile Text.isSpace) := by
  rw [ofText, List.dropWhile_map]
  rfl

theorem strip_ofText (t : Text) : strip (ofText t) = ofText t.strip := by
  rw [strip, dropWhile_ofText, List.rdropWhile, ofText, ← List.map_reverse, ← ofText,
    dropWhile_ofText, ofText, ← List.map_reverse]
  rfl

theorem splitOn_ofText (sep : Char) (t : Text) :
    (ofText t).splitOn (.char sep) = (t.splitOn sep).map ofText := by
  induction t with
  | nil => rfl
  | cons c t ih =>
    show (PyChar.char c :: ofText t).splitOn (.char sep) = _
    have hbeq : (PyChar.char c == .char sep) = (c == sep) := by
      by_cases hc : c = sep
      · subst hc
        rw [beq_self_eq_true, beq_self_eq_true]
      · have hne : PyChar.char c ≠ .char sep := fun h => hc (PyChar.char.inj h)
        rw [beq_eq_false_iff_ne.2 hc, beq_eq_false_iff_ne.2 hne]
    rw [List.splitOn_cons_eq_if_modifyHead, List.splitOn_cons_eq_if_modifyHead, hbeq, ih]
    obtain ⟨q, qs, hq⟩ := List.exists_cons_of_ne_nil (List.splitOn_ne_nil sep t)
    rw [hq]
    by_cases hc : (c == sep) = true
    · rw [if_pos hc, if_pos hc]
      rfl
    · rw [if_neg hc, if_neg hc]
      rfl

end PyStr

end WlanpiCore
