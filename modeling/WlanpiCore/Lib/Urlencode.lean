import WlanpiCore.Lib.Text
import Mathlib.Data.List.Basic

/-!
# `urllib.parse.urlencode`

Each byte of the UTF-8 of a key or a value is written as itself, as `+` or as `%XX`, and the pairs
are joined with `=` and `&`. `unquote` reads the bytes back, so the encoding of a list of pairs can
be taken apart in one way only (`urlencode_injective`), and no newline is in it
(`newline_not_mem_urlencode`).
-/

namespace WlanpiCore.Urlencode

/-- A digit of `'{:02X}'`. -/
def hexDigit (n : Nat) : Char := Char.ofNat (if n < 10 then 0x30 + n else 0x41 + (n - 10))

/-- `_ALWAYS_SAFE` -/
def isSafe (n : Nat) : Bool :=
  (0x41 ≤ n && n ≤ 0x5a) || (0x61 ≤ n && n ≤ 0x7a) || (0x30 ≤ n && n ≤ 0x39) ||
    n = 0x5f || n = 0x2e || n = 0x2d || n = 0x7e

def quoteByte (b : UInt8) : Text :=
  if b.toNat = 0x20 then ['+']
  else if isSafe b.toNat then [Char.ofNat b.toNat]
  else ['%', hexDigit (b.toNat / 16), hexDigit (b.toNat % 16)]

def quoteBytes (bytes : Bytes) : Text := bytes.flatMap quoteByte

/-- `quote_plus` -/
def quotePlus (t : Text) : Text := quoteBytes (Text.encode t)

/-- One pair. -/
def quotePair (pair : Text × Text) : Text := quotePlus pair.1 ++ '=' :: quotePlus pair.2

/-- `urlencode` of a list of pairs. -/
def urlencode (pairs : List (Text × Text)) : Text := ['&'].intercalate (pairs.map quotePair)

example : urlencode [("a b".toList, "é".toList), ("c".toList, "".toList)] =
    "a+b=%C3%A9&c=".toList := by
  decide +kernel

/-! ## Reading back -/

/-- The value of a digit of `'{:02X}'`. -/
def hexValue (c : Char) : Nat := if c.toNat < 0x41 then c.toNat - 0x30 else c.toNat - 0x41 + 10

def unquote : Text → Bytes
  | [] => []
  | '%' :: hi :: lo :: rest => UInt8.ofNat (16 * hexValue hi + hexValue lo) :: unquote rest
  | c :: rest => (if c = '+' then 0x20 else UInt8.ofNat c.toNat) :: unquote rest

theorem hexValue_hexDigit : ∀ n < 16, hexValue (hexDigit n) = n := by decide

theorem isSafe_spec {n : Nat} (h : isSafe n = true) :
    n ∉ [0x0a, 0x25, 0x26, 0x2b, 0x3d] ∧ (Char.ofNat n).toNat = n := by
  simp only [isSafe, Bool.or_eq_true, Bool.and_eq_true, decide_eq_true_eq] at h
  constructor
  · simp only [List.mem_cons, List.not_mem_nil, or_false]
    omega
  · exact Text.toNat_ofNat_of_valid (by omega)

theorem unquote_plain {c : Char} (h : c ≠ '%') (rest : Text) :
    unquote (c :: rest) = (if c = '+' then 0x20 else UInt8.ofNat c.toNat) :: unquote rest := by
  rw [unquote.eq_def]
  split
  · rename_i heq
    cases heq
  · rename_i heq
    cases heq
    exact absurd rfl h
  · rename_i heq
    cases heq
    rfl

theorem unquote_quoteByte (b : UInt8) (rest : Text) :
    unquote (quoteByte b ++ rest) = b :: unquote rest := by
  have hb : b.toNat < 256 := b.toNat_lt
  unfold quoteByte
  by_cases hspace : b.toNat = 0x20
  · rw [if_pos hspace, List.singleton_append, unquote_plain (by decide), if_pos rfl]
    congr 1
    exact UInt8.toNat_inj.1 hspace.symm
  rw [if_neg hspace]
  by_cases hsafe : isSafe b.toNat = true
  · obtain ⟨hother, hchar⟩ := isSafe_spec hsafe
    simp only [List.mem_cons, List.not_mem_nil, or_false, not_or] at hother
    obtain ⟨-, hpercent, -, hplus, -⟩ := hother
    have hne (c : Char) (hc : b.toNat ≠ c.toNat) : Char.ofNat b.toNat ≠ c := by
      intro h
      rw [h] at hchar
      exact hc hchar.symm
    rw [if_pos hsafe, List.singleton_append, unquote_plain (hne '%' hpercent),
      if_neg (hne '+' hplus), hchar, UInt8.ofNat_toNat]
  · rw [if_neg hsafe]
    simp only [List.cons_append, List.nil_append, unquote]
    rw [hexValue_hexDigit _ (by omega), hexValue_hexDigit _ (by omega), Nat.div_add_mod,
      UInt8.ofNat_toNat]

theorem unquote_quoteBytes (bytes : Bytes) : unquote (quoteBytes bytes) = bytes := by
  induction bytes with
  | nil => rfl
  | cons b bytes ih =>
    rw [quoteBytes, List.flatMap_cons, unquote_quoteByte]
    exact congrArg (b :: ·) ih

theorem quotePlus_injective : Function.Injective quotePlus := by
  intro s t h
  have hbytes : Text.encode s = Text.encode t := by
    rw [← unquote_quoteBytes (Text.encode s), ← unquote_quoteBytes (Text.encode t)]
    exact congrArg unquote h
  have htext := congrArg Text.decode hbytes
  rw [Text.decode_encode, Text.decode_encode] at htext
  exact Option.some.inj htext

/-! ## Separators -/

/-- What separates fields and lines is always quoted. -/
def isSeparator (c : Char) : Bool := c = '&' || c = '=' || c = '\n'

theorem hexDigit_plain : ∀ n < 16, isSeparator (hexDigit n) = false := by decide

theorem quoteByte_plain (b : UInt8) : ∀ c ∈ quoteByte b, isSeparator c = false := by
  have hb : b.toNat < 256 := b.toNat_lt
  unfold quoteByte
  intro c hc
  by_cases hspace : b.toNat = 0x20
  · rw [if_pos hspace] at hc
    obtain rfl := List.mem_singleton.1 hc
    rfl
  rw [if_neg hspace] at hc
  by_cases hsafe : isSafe b.toNat = true
  · obtain ⟨hother, hchar⟩ := isSafe_spec hsafe
    rw [if_pos hsafe] at hc
    obtain rfl := List.mem_singleton.1 hc
    by_contra hseparator
    simp only [isSeparator, Bool.not_eq_false, Bool.or_eq_true, decide_eq_true_eq] at hseparator
    apply hother
    rw [← hchar]
    rcases hseparator with (h | h) | h <;> rw [h] <;> decide
  · rw [if_neg hsafe] at hc
    simp only [List.mem_cons, List.not_mem_nil, or_false] at hc
    rcases hc with rfl | rfl | rfl
    · rfl
    · exact hexDigit_plain _ (by omega)
    · exact hexDigit_plain _ (by omega)

theorem separator_not_mem_quotePlus {c : Char} (hc : isSeparator c = true) (t : Text) :
    c ∉ quotePlus t := by
  intro hmem
  obtain ⟨b, -, hb⟩ := List.mem_flatMap.1 hmem
  have hplain := quoteByte_plain b c hb
  rw [hc] at hplain
  cases hplain

theorem quotePair_injective : Function.Injective quotePair := by
  intro p q h
  obtain ⟨hkey, -, hvalue⟩ := (List.append_cons_inj_of_notMem
    (separator_not_mem_quotePlus rfl p.1) (separator_not_mem_quotePlus rfl p.2)).1 h
  exact Prod.ext (quotePlus_injective hkey) (quotePlus_injective hvalue)

theorem not_mem_quotePair {c : Char} (hc : isSeparator c = true) (hne : c ≠ '=')
    (pair : Text × Text) :
    c ∉ quotePair pair := by
  intro hmem
  rcases List.mem_append.1 hmem with hkey | hvalue
  · exact separator_not_mem_quotePlus hc _ hkey
  · rcases List.mem_cons.1 hvalue with heq | hvalue
    · exact hne heq
    · exact separator_not_mem_quotePlus hc _ hvalue

/-- The pairs, as they are found between the `&`. -/
theorem splitOn_urlencode {pairs : List (Text × Text)} (h : pairs ≠ []) :
    (urlencode pairs).splitOn '&' = pairs.map quotePair := by
  apply List.splitOn_intercalate
  · intro part hpart
    obtain ⟨pair, -, rfl⟩ := List.mem_map.1 hpart
    exact not_mem_quotePair rfl (by decide) pair
  · simpa using h

theorem urlencode_eq_nil {pairs : List (Text × Text)} (h : urlencode pairs = []) : pairs = [] := by
  by_contra hne
  have hsplit := splitOn_urlencode hne
  rw [h] at hsplit
  cases pairs with
  | nil => exact hne rfl
  | cons pair pairs =>
    have hpair : quotePair pair = [] := by
      simp only [List.splitOn_nil, List.map_cons, List.cons.injEq] at hsplit
      exact hsplit.1.symm
    simp [quotePair] at hpair

theorem urlencode_injective : Function.Injective urlencode := by
  intro pairs pairs' h
  by_cases hp : pairs = []
  · rw [hp] at h
    rw [hp, urlencode_eq_nil h.symm]
  · have hp' : pairs' ≠ [] := by
      intro hnil
      rw [hnil] at h
      exact hp (urlencode_eq_nil h)
    apply quotePair_injective.list_map
    rw [← splitOn_urlencode hp, ← splitOn_urlencode hp', h]

theorem newline_not_mem_urlencode (pairs : List (Text × Text)) : '\n' ∉ urlencode pairs := by
  induction pairs with
  | nil => simp [urlencode]
  | cons pair pairs ih =>
    have hpair : '\n' ∉ quotePair pair := not_mem_quotePair rfl (by decide) pair
    cases pairs with
    | nil => simpa [urlencode] using hpair
    | cons next pairs =>
      simp only [urlencode, List.map_cons, List.intercalate_cons_cons, List.mem_append,
        List.mem_singleton] at ih ⊢
      simp [hpair, ih]

end WlanpiCore.Urlencode
