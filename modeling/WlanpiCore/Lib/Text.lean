import Mathlib.Data.List.DropRight

/-!
# Text and its bytes

A Python `str` without lone surrogates is a list of `Char`s. `readText` is `Path.read_text` on a
file's bytes: strict UTF-8 and universal newlines; `none` is the `UnicodeDecodeError`. `encode` is
what writing the text puts in the file. `readText_encode` reads an ASCII text back.
-/

namespace WlanpiCore

abbrev Bytes := List UInt8

abbrev Text := List Char

instance instLawfulBEqText : LawfulBEq Text := inferInstance

namespace Text

/-- `str.isspace` on one character. -/
def isSpace (c : Char) : Bool :=
  let n := c.toNat
  (0x09 ≤ n && n ≤ 0x0d) || (0x1c ≤ n && n ≤ 0x20) || (0x2000 ≤ n && n ≤ 0x200a) ||
    [0x85, 0xa0, 0x1680, 0x2028, 0x2029, 0x202f, 0x205f, 0x3000].contains n

/-- What a check of each character of a text gives. -/
theorem forall_of_all {p : Char → Bool} {b : Bool} {t : Text}
    (h : (t.all fun c => p c == b) = true) : ∀ c ∈ t, p c = b := by
  intro c hc
  simpa using List.all_eq_true.1 h c hc

/-- `str.strip()`. -/
def strip (t : Text) : Text := (t.dropWhile isSpace).rdropWhile isSpace

/-- A UTF-8 continuation byte. -/
def isTail (b : Nat) : Bool := 0x80 ≤ b && b ≤ 0xbf

/-- The range of the second byte of a character that starts with `a`: what rules out overlong
forms, surrogates and code points above U+10FFFF. -/
def isSecond (a b : Nat) : Bool :=
  if a = 0xe0 then 0xa0 ≤ b && b ≤ 0xbf
  else if a = 0xed then 0x80 ≤ b && b ≤ 0x9f
  else if a = 0xf0 then 0x90 ≤ b && b ≤ 0xbf
  else if a = 0xf4 then 0x80 ≤ b && b ≤ 0x8f
  else isTail b

/-- The first character of a byte string and the bytes after it. -/
def decodeChar : List UInt8 → Option (Char × List UInt8)
  | [] => none
  | a :: rest =>
    if a.toNat < 0x80 then some (Char.ofNat a.toNat, rest)
    else if a.toNat < 0xc2 then none
    else if a.toNat < 0xe0 then
      match rest with
      | b :: rest =>
        if isTail b.toNat then some (Char.ofNat (a.toNat % 32 * 64 + b.toNat % 64), rest) else none
      | _ => none
    else if a.toNat < 0xf0 then
      match rest with
      | b :: c :: rest =>
        if isSecond a.toNat b.toNat && isTail c.toNat then
          some (Char.ofNat ((a.toNat % 16 * 64 + b.toNat % 64) * 64 + c.toNat % 64), rest)
        else none
      | _ => none
    else if a.toNat < 0xf5 then
      match rest with
      | b :: c :: d :: rest =>
        if isSecond a.toNat b.toNat && isTail c.toNat && isTail d.toNat then
          some (Char.ofNat
            (((a.toNat % 8 * 64 + b.toNat % 64) * 64 + c.toNat % 64) * 64 + d.toNat % 64), rest)
        else none
      | _ => none
    else none

/-- Strict UTF-8, with a bound on the number of characters. -/
def decodeFuel : Nat → List UInt8 → Option Text
  | _, [] => some []
  | 0, _ => none
  | n + 1, bytes => do
    let (c, rest) ← decodeChar bytes
    return c :: (← decodeFuel n rest)

/-- Strict UTF-8: there are at most as many characters as bytes. -/
def decode (bytes : Bytes) : Option Text := decodeFuel bytes.length bytes

def encode (t : Text) : Bytes := t.flatMap String.utf8EncodeChar

/-- The newline translation of a file opened in text mode. -/
def universalNewlines : Text → Text
  | '\r' :: '\n' :: rest => '\n' :: universalNewlines rest
  | '\r' :: rest => '\n' :: universalNewlines rest
  | c :: rest => c :: universalNewlines rest
  | [] => []

/-- `Path.read_text()`; `none` is a `UnicodeDecodeError`. -/
def readText (bytes : Bytes) : Option Text := (decode bytes).map universalNewlines

example : readText [0xc3, 0xa9, 0x0d, 0x0a] = some ['é', '\n'] ∧ readText [0xc3] = none ∧
    readText [0xed, 0xa0, 0x80] = none := by decide

/-! ## Round trip -/

theorem decodeChar_encode (c : Char) (rest : Bytes) :
    decodeChar (String.utf8EncodeChar c ++ rest) = some (c, rest) := by
  have hvalid : c.toNat < 0xd800 ∨ 0xdfff < c.toNat ∧ c.toNat < 0x110000 := c.valid
  have hc : Char.ofNat c.toNat = c := Char.ofNat_toNat c
  have hdef : c.val.toNat = c.toNat := rfl
  simp only [String.utf8EncodeChar, hdef]
  generalize c.toNat = v at *
  subst hc
  split_ifs with h1 h2 h3
  · have ha : (UInt8.ofNat v).toNat = v := by simp; omega
    simp only [List.cons_append, List.nil_append, decodeChar, ha]
    rw [if_pos (by omega)]
  · have ha : (UInt8.ofNat (v / 64 % 32 + 192)).toNat = v / 64 + 192 := by simp; omega
    have hb : (UInt8.ofNat (v % 64 + 128)).toNat = v % 64 + 128 := by simp; omega
    simp only [List.cons_append, List.nil_append, decodeChar, ha, hb, isTail]
    rw [if_neg (by omega), if_neg (by omega), if_pos (by omega), if_pos (by simp; omega)]
    congr 3
    omega
  · have ha : (UInt8.ofNat (v / 4096 % 16 + 224)).toNat = v / 4096 + 224 := by simp; omega
    have hb : (UInt8.ofNat (v / 64 % 64 + 128)).toNat = v / 64 % 64 + 128 := by simp; omega
    have hc : (UInt8.ofNat (v % 64 + 128)).toNat = v % 64 + 128 := by simp; omega
    simp only [List.cons_append, List.nil_append, decodeChar, ha, hb, hc, isSecond, isTail]
    rw [if_neg (by omega), if_neg (by omega), if_neg (by omega), if_pos (by omega), if_pos]
    · congr 3
      omega
    · split_ifs <;> simp <;> omega
  · have ha : (UInt8.ofNat (v / 262144 % 8 + 240)).toNat = v / 262144 + 240 := by simp; omega
    have hb : (UInt8.ofNat (v / 4096 % 64 + 128)).toNat = v / 4096 % 64 + 128 := by simp; omega
    have hc : (UInt8.ofNat (v / 64 % 64 + 128)).toNat = v / 64 % 64 + 128 := by simp; omega
    have hd : (UInt8.ofNat (v % 64 + 128)).toNat = v % 64 + 128 := by simp; omega
    simp only [List.cons_append, List.nil_append, decodeChar, ha, hb, hc, hd, isSecond, isTail]
    rw [if_neg (by omega), if_neg (by omega), if_neg (by omega), if_neg (by omega),
      if_pos (by omega), if_pos]
    · congr 3
      omega
    · split_ifs <;> simp <;> omega

theorem decodeFuel_encode : ∀ {t : Text} {n : Nat}, t.length ≤ n → decodeFuel n (encode t) = some t
  | [], n, _ => by cases n <;> rfl
  | c :: t, n + 1, h => by
    have ht := decodeFuel_encode (t := t) (n := n) (by simpa using h)
    have hchar := decodeChar_encode c (encode t)
    change decodeChar (encode (c :: t)) = _ at hchar
    cases henc : encode (c :: t) with
    | nil =>
      rw [henc] at hchar
      cases hchar
    | cons b bytes =>
      rw [henc] at hchar
      simp [decodeFuel, hchar, ht]

theorem decode_encode (t : Text) : decode (encode t) = some t := by
  refine decodeFuel_encode ?_
  induction t with
  | nil => rfl
  | cons c t ih =>
    have hpos : 0 < (String.utf8EncodeChar c).length := by
      rw [String.length_utf8EncodeChar]
      exact Char.utf8Size_pos c
    simp only [encode, List.flatMap_cons, List.length_append, List.length_cons] at ih ⊢
    omega

theorem toNat_ofNat_of_valid {n : Nat} (h : n < 0xd800 ∨ 0xdfff < n ∧ n < 0x110000) :
    (Char.ofNat n).toNat = n := by
  have hvalid : n.isValidChar := h
  rw [Char.ofNat, dif_pos hvalid]
  rfl

/-- A character is read only from its own bytes. -/
theorem encode_of_decodeChar {bytes rest : Bytes} {c : Char}
    (h : decodeChar bytes = some (c, rest)) :
    bytes = String.utf8EncodeChar c ++ rest := by
  have hdef : c.val.toNat = c.toNat := rfl
  unfold decodeChar at h
  cases bytes with
  | nil => cases h
  | cons a tail =>
  have ha : a.toNat < 256 := a.toNat_lt
  have hbyte (x : UInt8) (n : Nat) (hn : x.toNat = n) : x = UInt8.ofNat n := by
    rw [← hn, UInt8.ofNat_toNat]
  dsimp only at h
  split_ifs at h with h1 h2 h3 h4 h5
  · obtain ⟨rfl, rfl⟩ := Prod.mk.inj (Option.some.inj h)
    have hc := toNat_ofNat_of_valid (n := a.toNat) (by omega)
    simp only [String.utf8EncodeChar, hdef, hc]
    rw [if_pos (by omega)]
    simp
  · cases tail with
    | nil => cases h
    | cons b tail =>
      dsimp only at h
      split_ifs at h with hb
      obtain ⟨rfl, rfl⟩ := Prod.mk.inj (Option.some.inj h)
      simp only [isTail, Bool.and_eq_true, decide_eq_true_eq] at hb
      have hc := toNat_ofNat_of_valid (n := a.toNat % 32 * 64 + b.toNat % 64) (by omega)
      simp only [String.utf8EncodeChar, hdef, hc]
      rw [if_neg (by omega), if_pos (by omega)]
      simp only [List.cons_append, List.nil_append, List.cons.injEq, and_true]
      exact ⟨hbyte _ _ (by omega), hbyte _ _ (by omega)⟩
  · match tail, h with
    | b :: c :: tail, h =>
      dsimp only at h
      split_ifs at h with hb
      obtain ⟨rfl, rfl⟩ := Prod.mk.inj (Option.some.inj h)
      simp only [isTail, isSecond, Bool.and_eq_true, decide_eq_true_eq] at hb
      obtain ⟨hb, hlow, hhigh⟩ := hb
      have hsecond : 0x80 ≤ b.toNat ∧ b.toNat ≤ 0xbf ∧ (a.toNat = 0xe0 → 0xa0 ≤ b.toNat) ∧
          (a.toNat = 0xed → b.toNat ≤ 0x9f) := by
        split_ifs at hb <;> simp only [Bool.and_eq_true, decide_eq_true_eq] at hb <;> omega
      have hchar := toNat_ofNat_of_valid
        (n := (a.toNat % 16 * 64 + b.toNat % 64) * 64 + c.toNat % 64) (by omega)
      simp only [String.utf8EncodeChar, hdef, hchar]
      rw [if_neg (by omega), if_neg (by omega), if_pos (by omega)]
      simp only [List.cons_append, List.nil_append, List.cons.injEq, and_true]
      exact ⟨hbyte _ _ (by omega), hbyte _ _ (by omega), hbyte _ _ (by omega)⟩
  · match tail, h with
    | b :: c :: d :: tail, h =>
      dsimp only at h
      split_ifs at h with hb
      obtain ⟨rfl, rfl⟩ := Prod.mk.inj (Option.some.inj h)
      simp only [isTail, isSecond, Bool.and_eq_true, decide_eq_true_eq] at hb
      obtain ⟨⟨hb, hc⟩, hd⟩ := hb
      have hsecond : 0x80 ≤ b.toNat ∧ b.toNat ≤ 0xbf ∧ (a.toNat = 0xf0 → 0x90 ≤ b.toNat) ∧
          (a.toNat = 0xf4 → b.toNat ≤ 0x8f) := by
        split_ifs at hb <;> simp only [Bool.and_eq_true, decide_eq_true_eq] at hb <;> omega
      have hchar := toNat_ofNat_of_valid
        (n := ((a.toNat % 8 * 64 + b.toNat % 64) * 64 + c.toNat % 64) * 64 + d.toNat % 64)
          (by omega)
      simp only [String.utf8EncodeChar, hdef, hchar]
      rw [if_neg (by omega), if_neg (by omega), if_neg (by omega)]
      simp only [List.cons_append, List.nil_append, List.cons.injEq, and_true]
      exact ⟨hbyte _ _ (by omega), hbyte _ _ (by omega), hbyte _ _ (by omega), hbyte _ _ (by omega)⟩

theorem encode_of_decodeFuel : ∀ {n : Nat} {bytes : Bytes} {t : Text}, decodeFuel n bytes = some t →
    encode t = bytes
  | n, [], t, h => by
    have ht : t = [] := by cases n <;> simpa [decodeFuel, eq_comm] using h
    rw [ht]
    rfl
  | n + 1, b :: bytes, t, h => by
    simp only [decodeFuel, Option.bind_eq_bind, Option.bind_eq_some_iff, Option.pure_def,
      Option.some.injEq] at h
    obtain ⟨⟨c, rest⟩, hchar, text, htext, rfl⟩ := h
    rw [encode, List.flatMap_cons, encode_of_decodeChar hchar]
    exact congrArg (_ ++ ·) (encode_of_decodeFuel htext)

/-- Two byte strings that decode to one text are equal. -/
theorem encode_of_decode {bytes : Bytes} {t : Text} (h : decode bytes = some t) :
    encode t = bytes :=
  encode_of_decodeFuel h
theorem universalNewlines_id : ∀ {t : Text}, '\r' ∉ t → universalNewlines t = t
  | [], _ => rfl
  | c :: t, h => by
    simp only [List.mem_cons, not_or] at h
    rw [universalNewlines.eq_def]
    split
    · simp_all
    · simp_all
    · rename_i heq
      cases heq
      rw [universalNewlines_id h.2]
    · simp_all

/-- A text without carriage returns is read back as it was written. -/
theorem readText_encode {t : Text} (h : '\r' ∉ t) : readText (encode t) = some t := by
  rw [readText, decode_encode, Option.map_some, universalNewlines_id h]

theorem strip_id {t : Text} (h : ∀ c ∈ t, isSpace c = false) : strip t = t := by
  have hdrop : t.dropWhile isSpace = t := by
    cases t with
    | nil => rfl
    | cons c t => simp [h c List.mem_cons_self]
  rw [strip, hdrop, List.rdropWhile_eq_self_iff]
  intro hne
  simp [h _ (List.getLast_mem hne)]

/-! ## Letter case -/

/-- The properties of the characters in the Unicode database that the methods of `str` ask for. -/
structure Unicode where
  lowercase : Char → Text
  uppercase : Char → Text
  cased : Char → Bool
  caseIgnorable : Char → Bool
  decimal : Char → Bool
  alphanumeric : Char → Bool

/-- `str.lower()` of what follows `before`, whose last character comes first. A capital sigma that
ends a word becomes a final one. -/
def lowerAfter (U : Unicode) : Text → Text → Text
  | _, [] => []
  | before, c :: t =>
    let lowered : Text :=
      if c = 'Σ' then
        if (before.dropWhile U.caseIgnorable).head?.any U.cased &&
            !(t.dropWhile U.caseIgnorable).head?.any U.cased then ['ς'] else ['σ']
      else U.lowercase c
    lowered ++ lowerAfter U (c :: before) t

def lower (U : Unicode) (t : Text) : Text := lowerAfter U [] t

/-- `str.upper()` -/
def upper (U : Unicode) (t : Text) : Text := t.flatMap U.uppercase

/-- The database as far as ASCII goes. -/
def Unicode.ascii : Unicode where
  lowercase c := [c.toLower]
  uppercase c := [c.toUpper]
  cased := Char.isAlpha
  caseIgnorable c := c ∈ "'.:^`".toList
  decimal := Char.isDigit
  alphanumeric := Char.isAlphanum

example : lower Unicode.ascii "AA:0b".toList = "aa:0b".toList := by decide

end Text

end WlanpiCore
