import Mathlib.Data.List.Find
import WlanpiCore.Lib.Json
import WlanpiCore.Lib.Lines

/-!
# `json.loads` of a stripped text

White space behind a document does not change what is read (`loads_strip`): a scan that succeeds
with `ws` behind a text leaves `ws` unread and succeeds the same way without it, since every value
ends in a character that is no space. `str.strip` takes more off than the scanner skips, so this
needs the scan itself, one lemma for each of its functions.
-/

namespace WlanpiCore

namespace Json

open Text

/-- What a step returned, and what followed it. -/
theorem bind_eq_ok {ε α β : Type} {x : Except ε α} {f : α → Except ε β} {r : β} :
    x.bind f = .ok r ↔ ∃ a, x = .ok a ∧ f a = .ok r := by
  cases x with
  | error e => simp [Except.bind]
  | ok a => simp [Except.bind]

/-- White space as `str.strip` sees it. -/
def Blank (ws : Text) : Prop := ∀ c ∈ ws, isSpace c = true

variable {ws : Text}

theorem Blank.tail {c : Char} (h : Blank (c :: ws)) : Blank ws :=
  fun c hc => h c (List.mem_cons_of_mem _ hc)

/-- A blank text does not start with a character that is no space. -/
theorem Blank.head_ne {c d : Char} (h : Blank (c :: ws)) (hd : isSpace d = false) : c ≠ d := by
  rintro rfl
  rw [h c List.mem_cons_self] at hd
  cases hd

theorem isSpace_of_isDigit {c : Char} (h : isDigit c = true) : isSpace c = false := by
  simp only [isDigit, Bool.and_eq_true, decide_eq_true_eq] at h
  simp only [isSpace, List.contains_eq_mem, List.mem_cons, List.not_mem_nil, or_false,
    Bool.or_eq_false_iff, Bool.and_eq_false_iff, decide_eq_false_iff_not]
  omega

theorem takeWhile_isDigit_append (h : Blank ws) (t : Text) :
    (t ++ ws).takeWhile isDigit = t.takeWhile isDigit := by
  have hws : ws.takeWhile isDigit = [] := by
    cases ws with
    | nil => rfl
    | cons c ws =>
      rw [List.takeWhile_cons, if_neg]
      intro hdigit
      exact h.head_ne (isSpace_of_isDigit hdigit) rfl
  rw [List.takeWhile_append, hws]
  split_ifs with hall
  · rw [List.append_nil]
    have hpre := List.takeWhile_prefix isDigit (l := t)
    exact (hpre.eq_of_length hall).symm
  · rfl

/-- Skipped white space in front of more white space. -/
theorem skipSpace_append (t : Text) :
    skipSpace (t ++ ws) = if skipSpace t = [] then skipSpace ws else skipSpace t ++ ws := by
  unfold skipSpace
  rw [List.dropWhile_append]
  simp

theorem Blank.skipSpace (h : Blank ws) : Blank (skipSpace ws) :=
  fun c hc => h c ((List.dropWhile_sublist _).subset hc)

/-! ## Strings -/

theorem scanString_blank (h : Blank ws) (opened n : Nat) (acc : Option Text)
    (p : Option Text × Text) :
    scanString opened n acc ws ≠ .ok p := by
  induction ws generalizing n acc with
  | nil => cases n <;> simp [scanString]
  | cons c ws ih =>
    cases n with
    | zero => simp [scanString]
    | succ n =>
      have hquote : c ≠ '"' := h.head_ne (by decide)
      have hback : c ≠ '\\' := h.head_ne (by decide)
      rw [scanString, if_neg hquote, if_neg hback]
      split_ifs
      · simp
      · exact ih h.tail n _

theorem hexEscape_ok {l : Nat} {t q : Text} {code : Nat} :
    hexEscape l t = .ok (code, q) ↔ 5 ≤ t.length ∧ hexValue (t.take 4) = some code ∧
      q = t.drop 4 := by
  unfold hexEscape
  by_cases hlen : t.length < 5
  · rw [if_pos hlen]
    simp
    omega
  · rw [if_neg hlen]
    cases hexValue (t.take 4) with
    | none => simp
    | some value =>
      simp only [Except.ok.injEq, Prod.mk.injEq, Option.some.injEq]
      exact ⟨fun ⟨hcode, hq⟩ => ⟨by omega, hcode, hq.symm⟩, fun ⟨_, hcode, hq⟩ => ⟨hcode, hq.symm⟩⟩

theorem hexEscape_append {l : Nat} (k : Nat) {t q : Text} {code : Nat}
    (hlong : 5 ≤ t.length) (hok : hexEscape l (t ++ ws) = .ok (code, q)) :
    q = t.drop 4 ++ ws ∧ hexEscape k t = .ok (code, t.drop 4) := by
  obtain ⟨-, hvalue, hq⟩ := hexEscape_ok.1 hok
  rw [List.take_append_of_le_length (by omega)] at hvalue
  rw [List.drop_append_of_le_length (by omega)] at hq
  exact ⟨hq, hexEscape_ok.2 ⟨hlong, hvalue, rfl⟩⟩

theorem hexEscape_length {l : Nat} {t q : Text} {code : Nat} (hok : hexEscape l t = .ok (code, q)) :
    q.length + 4 = t.length := by
  obtain ⟨hlen, -, rfl⟩ := hexEscape_ok.1 hok
  rw [List.length_drop]
  omega

/-- The second half of a surrogate pair follows. -/
def Pairs (code : Nat) (rest : Text) : Prop :=
  0xd800 ≤ code ∧ code ≤ 0xdbff ∧ rest.take 2 = ['\\', 'u'] ∧ 7 ≤ rest.length

instance (code : Nat) (rest : Text) : Decidable (Pairs code rest) := by unfold Pairs; infer_instance

/-- A code point, joined with the escape behind it when the two are a surrogate pair. -/
def join (code : Nat) (rest : Text) : Except ScanError (Nat × Text) :=
  if Pairs code rest then (hexEscape (rest.length - 1) (rest.drop 2)).bind fun p =>
    if 0xdc00 ≤ p.1 ∧ p.1 ≤ 0xdfff then
      .ok (0x10000 + (code - 0xd800) * 0x400 + (p.1 - 0xdc00), p.2)
    else .ok (code, rest)
  else .ok (code, rest)

theorem unicodeEscape_eq (left : Nat) (t : Text) :
    unicodeEscape left t = (hexEscape left t).bind fun p => join p.1 p.2 := rfl

/-- Without white space behind it, the second half is found as before if the text is as long. -/
theorem pairs_append {code : Nat} {t : Text} (h : 7 ≤ t.length) : Pairs code (t ++ ws) ↔
    Pairs code t := by
  unfold Pairs
  rw [List.take_append_of_le_length (by omega), List.length_append]
  refine and_congr_right fun _ => and_congr_right fun _ => and_congr_right fun _ => ?_
  omega

/-- The two ways to join: with a low half, or not at all. -/
theorem join_cases {code code' : Nat} {t r : Text} (hok : join code t = .ok (code', r)) :
    (∃ low, Pairs code t ∧ hexEscape (t.length - 1) (t.drop 2) = .ok (low, r) ∧
      (0xdc00 ≤ low ∧ low ≤ 0xdfff) ∧ code' = 0x10000 + (code - 0xd800) * 0x400 + (low - 0xdc00)) ∨
    code' = code ∧ r = t ∧
      (Pairs code t → ∃ low q, hexEscape (t.length - 1) (t.drop 2) = .ok (low, q) ∧
      ¬(0xdc00 ≤ low ∧ low ≤ 0xdfff)) := by
  unfold join at hok
  by_cases hp : Pairs code t
  · rw [if_pos hp] at hok
    obtain ⟨⟨low, q⟩, hsecond, hok⟩ := bind_eq_ok.1 hok
    dsimp only at hok
    by_cases hrange : 0xdc00 ≤ low ∧ low ≤ 0xdfff
    · rw [if_pos hrange] at hok
      obtain ⟨rfl, rfl⟩ := Prod.mk.inj (Except.ok.inj hok)
      exact .inl ⟨low, hp, hsecond, hrange, rfl⟩
    · rw [if_neg hrange] at hok
      obtain ⟨rfl, rfl⟩ := Prod.mk.inj (Except.ok.inj hok)
      exact .inr ⟨rfl, rfl, fun _ => ⟨low, q, hsecond, hrange⟩⟩
  · rw [if_neg hp] at hok
    obtain ⟨rfl, rfl⟩ := Prod.mk.inj (Except.ok.inj hok)
    exact .inr ⟨rfl, rfl, fun h => absurd h hp⟩

theorem join_suffix {code code' : Nat} {t r : Text} (hok : join code t = .ok (code', r)) :
    r <:+ t := by
  obtain ⟨low, -, hsecond, -⟩ | ⟨-, rfl, -⟩ := join_cases hok
  · obtain ⟨-, -, rfl⟩ := hexEscape_ok.1 hsecond
    exact (List.drop_suffix 4 _).trans (List.drop_suffix 2 t)
  · exact List.suffix_refl _

theorem join_append {code code' : Nat} {t r : Text} (hne : r ≠ [])
    (hok : join code (t ++ ws) = .ok (code', r ++ ws)) : join code t = .ok (code', r) := by
  have hr : 0 < r.length := List.length_pos_iff.2 hne
  obtain ⟨low, hp, hsecond, hrange, hcode⟩ | ⟨rfl, heq, hlow⟩ := join_cases hok
  · have hlen := hexEscape_length hsecond
    have hp7 := hp.2.2.2
    rw [List.length_drop, List.length_append, List.length_append] at hlen
    rw [List.length_append] at hp7
    have h7 : 7 ≤ t.length := by omega
    rw [List.drop_append_of_le_length (by omega)] at hsecond
    obtain ⟨hrest, hfirst⟩ := hexEscape_append (t.length - 1) (by simp; omega) hsecond
    obtain rfl := List.append_cancel_right hrest
    unfold join
    rw [if_pos ((pairs_append h7).1 hp), hfirst, hcode]
    exact if_pos hrange
  · obtain rfl := List.append_cancel_right heq
    unfold join
    by_cases hp : Pairs code' r
    · have h7 : 7 ≤ r.length := hp.2.2.2
      obtain ⟨low, q, hsecond, hrange⟩ := hlow ((pairs_append h7).2 hp)
      rw [List.drop_append_of_le_length (by omega)] at hsecond
      obtain ⟨-, hfirst⟩ := hexEscape_append (r.length - 1) (by simp; omega) hsecond
      rw [if_pos hp, hfirst]
      exact if_neg hrange
    · rw [if_neg hp]

theorem unicodeEscape_append {l l' : Nat} {t r : Text} {code : Nat} (hne : r ≠ [])
    (hok : unicodeEscape l (t ++ ws) = .ok (code, r ++ ws)) :
    unicodeEscape l' t = .ok (code, r) := by
  have hr : 0 < r.length := List.length_pos_iff.2 hne
  rw [unicodeEscape_eq] at hok ⊢
  obtain ⟨⟨code₁, q⟩, hfirst, hok⟩ := bind_eq_ok.1 hok
  dsimp only at hok
  -- What is left behind the escape is more than white space, so `t` has all its digits.
  have hlen := hexEscape_length hfirst
  have hle := (join_suffix hok).length_le
  rw [List.length_append] at hlen hle
  obtain ⟨rfl, hfirst'⟩ := hexEscape_append l' (by omega) hfirst
  rw [hfirst']
  exact join_append hne hok

theorem escapeCode_append (h : Blank ws) {opened : Nat} (k : Nat) {t r : Text} {code : Nat}
    (hne : r ≠ [])
    (hok : escapeCode opened (t ++ ws) = .ok (code, r ++ ws)) :
    escapeCode k t = .ok (code, r) := by
  have hescapes : ∀ p ∈ escapes, isSpace p.1 = false := by decide
  cases t with
  | nil =>
    cases ws with
    | nil => cases hok
    | cons e ws =>
      have hu : e ≠ 'u' := h.head_ne (by decide)
      simp only [List.nil_append, escapeCode, if_neg hu] at hok
      cases hlookup : escapes.lookup e with
      | none =>
        rw [hlookup] at hok
        cases hok
      | some d =>
        obtain ⟨before, after, hmem, -⟩ := List.lookup_eq_some_iff.1 hlookup
        have hspace := hescapes (e, d) (by rw [hmem]; simp)
        exact absurd rfl (h.head_ne hspace)
  | cons e t =>
    unfold escapeCode at hok ⊢
    simp only [List.cons_append] at hok ⊢
    split_ifs at hok ⊢ with hu
    · exact unicodeEscape_append hne hok
    · cases hlookup : escapes.lookup e with
      | none =>
        rw [hlookup] at hok
        cases hok
      | some d =>
        rw [hlookup] at hok
        obtain ⟨rfl, hrest⟩ := Prod.mk.inj (Except.ok.inj hok)
        rw [List.append_cancel_right hrest]

theorem unicodeEscape_suffix {l : Nat} {t r : Text} {code : Nat}
    (hok : unicodeEscape l t = .ok (code, r)) : r <:+ t := by
  rw [unicodeEscape_eq] at hok
  obtain ⟨⟨code₁, q⟩, hfirst, hok⟩ := bind_eq_ok.1 hok
  obtain ⟨-, -, rfl⟩ := hexEscape_ok.1 hfirst
  exact (join_suffix hok).trans (List.drop_suffix 4 t)

theorem escapeCode_suffix {opened : Nat} {t r : Text} {code : Nat}
    (hok : escapeCode opened t = .ok (code, r)) : r <:+ t := by
  cases t with
  | nil => cases hok
  | cons e t =>
    unfold escapeCode at hok
    dsimp only at hok
    split_ifs at hok with hu
    · exact (unicodeEscape_suffix hok).trans (List.suffix_cons e t)
    · cases hlookup : escapes.lookup e with
      | none =>
        rw [hlookup] at hok
        cases hok
      | some d =>
        rw [hlookup] at hok
        obtain ⟨-, rfl⟩ := Prod.mk.inj (Except.ok.inj hok)
        exact List.suffix_cons e t

/-- The end of a text with white space behind it: it is white space, or it has all of it. -/
theorem Blank.suffix_cases (h : Blank ws) {t r : Text} (hr : r <:+ t ++ ws) :
    Blank r ∨ ∃ r', r' ≠ [] ∧ r = r' ++ ws ∧ r'.length ≤ t.length := by
  obtain ⟨before, heq⟩ := hr
  obtain ⟨mid, rfl, hmid⟩ | ⟨mid, rfl, hmid⟩ := List.append_eq_append_iff.1 heq
  · by_cases hnil : mid = []
    · subst hnil
      rw [List.nil_append] at hmid
      exact .inl (hmid ▸ h)
    · exact .inr ⟨mid, hnil, hmid, by simp⟩
  · refine .inl fun c hc => h c ?_
    rw [hmid]
    exact List.mem_append_right mid hc

theorem scanString_append (h : Blank ws) {opened : Nat} (k : Nat) {s : Option Text} :
    ∀ {n m : Nat} {acc : Option Text} {t rest : Text},
      scanString opened n acc (t ++ ws) = .ok (s, rest) → t.length < m →
      ∃ rest', rest = rest' ++ ws ∧ scanString k m acc t = .ok (s, rest')
  | 0, _, _, _, _, hok, _ => by cases hok
  | n + 1, m, acc, [], rest, hok, _ => absurd hok (scanString_blank h _ _ _ _)
  | n + 1, 0, _, c :: t, _, _, hm => absurd hm (Nat.not_lt_zero _)
  | n + 1, m + 1, acc, c :: t, rest, hok, hm => by
    rw [List.length_cons, Nat.succ_lt_succ_iff] at hm
    rw [List.cons_append, scanString] at hok
    rw [scanString]
    split_ifs at hok ⊢ with hquote hback hctrl
    · obtain ⟨rfl, rfl⟩ := Prod.mk.inj (Except.ok.inj hok)
      exact ⟨t, rfl, rfl⟩
    · obtain ⟨⟨code, r⟩, hescape, hok⟩ := bind_eq_ok.1 hok
      -- The string goes on behind the escape, so what is left there is more than white space.
      obtain hblank | ⟨r', hne, rfl, hlen⟩ := h.suffix_cases (escapeCode_suffix hescape)
      · exact absurd hok (scanString_blank hblank _ _ _ _)
      rw [escapeCode_append h k hne hescape]
      have hlt : r'.length < m := by
        have hadv := escapeCode_advances k t
        rw [escapeCode_append h k hne hescape] at hadv
        exact Nat.lt_trans hadv hm
      exact scanString_append h k hok hlt
    · exact scanString_append h k hok hm

/-! ## Numbers and words -/

theorem wholeDigits_append (h : Blank ws) (t : Text) : wholeDigits (t ++ ws) = wholeDigits t := by
  have hother {t : Text} (ht : t.head? ≠ some '0') : wholeDigits t = t.takeWhile isDigit := by
    unfold wholeDigits
    split
    · exact absurd rfl ht
    · rfl
  cases t with
  | nil =>
    have hzero : ([] ++ ws).head? ≠ some '0' := by
      cases ws with
      | nil => simp
      | cons c ws => simpa using h.head_ne (by decide)
    rw [hother hzero, hother (by simp), takeWhile_isDigit_append h]
  | cons c t =>
    by_cases hc : c = '0'
    · subst hc
      rfl
    · rw [hother (by simpa using hc), hother (by simpa using hc), takeWhile_isDigit_append h]

theorem fractionPart_append (h : Blank ws) (t : Text) : fractionPart (t ++ ws) =
    fractionPart t := by
  have hother {t : Text} (ht : t.head? ≠ some '.') : fractionPart t = [] := by
    unfold fractionPart
    split
    · exact absurd rfl ht
    · rfl
  cases t with
  | nil =>
    have hpoint : ([] ++ ws).head? ≠ some '.' := by
      cases ws with
      | nil => simp
      | cons c ws => simpa using h.head_ne (by decide)
    rw [hother hpoint, hother (by simp)]
  | cons c t =>
    by_cases hc : c = '.'
    · subst hc
      show (if (t ++ ws).takeWhile isDigit = [] then [] else '.' :: (t ++ ws).takeWhile isDigit) = _
      rw [takeWhile_isDigit_append h]
      rfl
    · rw [hother (by simpa using hc), hother (by simpa using hc)]

theorem exponentPart_append (h : Blank ws) (t : Text) : exponentPart (t ++ ws) =
    exponentPart t := by
  have hblank : exponentPart ws = [] := by
    cases ws with
    | nil => rfl
    | cons c ws =>
      have he : ¬(c = 'e' ∨ c = 'E') :=
        fun hc => hc.elim (h.head_ne (by decide)) (h.head_ne (by decide))
      exact if_neg he
  have hsign (r : Text) : ((r ++ ws).take 1).filter (fun c => c = '+' ∨ c = '-') =
      (r.take 1).filter (fun c => c = '+' ∨ c = '-') := by
    cases r with
    | cons c r => simp
    | nil =>
      cases ws with
      | nil => rfl
      | cons c ws =>
        have hplus : c ≠ '+' := h.head_ne (by decide)
        have hminus : c ≠ '-' := h.head_ne (by decide)
        simp [hplus, hminus]
  cases t with
  | nil => exact hblank
  | cons e r =>
    have hlen : ((r.take 1).filter (fun c => c = '+' ∨ c = '-')).length ≤ r.length := by
      refine (List.length_filter_le _ _).trans ?_
      rw [List.length_take]
      exact Nat.min_le_right 1 _
    unfold exponentPart
    simp only [List.cons_append]
    rw [hsign, List.drop_append_of_le_length hlen, takeWhile_isDigit_append h]

theorem length_wholeDigits_le (t : Text) : (wholeDigits t).length ≤ t.length := by
  unfold wholeDigits
  split
  · simp
  · exact (List.takeWhile_sublist _).length_le

theorem length_fractionPart_le (t : Text) : (fractionPart t).length ≤ t.length := by
  unfold fractionPart
  split
  · rename_i rest
    split_ifs
    · simp
    · have hlen := (List.takeWhile_sublist (l := rest) isDigit).length_le
      simp only [List.length_cons]
      omega
  · simp

theorem length_exponentPart_le (t : Text) : (exponentPart t).length ≤ t.length := by
  unfold exponentPart
  split
  · rename_i e rest
    dsimp only
    split_ifs
    · simp
    · generalize hsign : (rest.take 1).filter (fun c => decide (c = '+' ∨ c = '-')) = sign
      have hlen := (List.takeWhile_sublist (l := rest.drop sign.length) isDigit).length_le
      have hle : sign.length ≤ rest.length := by
        rw [← hsign]
        refine (List.length_filter_le _ _).trans ?_
        rw [List.length_take]
        exact Nat.min_le_right 1 _
      simp only [List.length_cons, List.length_append, List.length_drop] at hlen ⊢
      omega
    · simp
  · simp

theorem intValue_eq_ok {b : Bool} {digits : List Char} {rest : Text} {p : Json × Text}
    (hok : (intValue b digits).map (·, rest) = .ok p) :
    p.2 = rest ∧ ∀ rest' : Text, (intValue b digits).map (·, rest') = .ok (p.1, rest') := by
  cases hvalue : intValue b digits with
  | error e =>
    rw [hvalue] at hok
    cases hok
  | ok v =>
    rw [hvalue] at hok
    obtain rfl := Except.ok.inj hok
    exact ⟨rfl, fun _ => rfl⟩

theorem matchNumber_append (h : Blank ws) {t rest : Text} {v : Json}
    (hok : matchNumber (t ++ ws) = .ok (v, rest)) :
    ∃ rest', rest = rest' ++ ws ∧ matchNumber t = .ok (v, rest') := by
  -- The sign belongs to `t`, and so does the first digit.
  have hsign : (t ++ ws).head? = some '-' ↔ t.head? = some '-' := by
    cases t with
    | cons c t => simp
    | nil =>
      cases ws with
      | nil => simp
      | cons c ws => simpa using h.head_ne (d := '-') (by decide)
  have hbody : (if (t ++ ws).head? = some '-' then (t ++ ws).drop 1 else t ++ ws) =
      (if t.head? = some '-' then t.drop 1 else t) ++ ws := by
    by_cases hneg : t.head? = some '-'
    · rw [if_pos (hsign.2 hneg), if_pos hneg]
      cases t with
      | nil => cases hneg
      | cons c t => rfl
    · rw [if_neg (mt hsign.1 hneg), if_neg hneg]
  unfold matchNumber at hok ⊢
  dsimp only at hok ⊢
  rw [hbody, wholeDigits_append h] at hok
  generalize (if t.head? = some '-' then t.drop 1 else t) = body at hok ⊢
  have hwhole := length_wholeDigits_le body
  rw [List.drop_append_of_le_length hwhole, fractionPart_append h] at hok
  generalize body.drop (wholeDigits body).length = r at hok ⊢
  rw [List.drop_append_of_le_length (length_fractionPart_le r), exponentPart_append h] at hok
  generalize r.drop (fractionPart r).length = q at hok ⊢
  rw [List.drop_append_of_le_length (length_exponentPart_le q)] at hok
  split_ifs at hok ⊢ with hnil hint
  · have hneg : decide ((t ++ ws).head? = some '-') = decide (t.head? = some '-') :=
      decide_eq_decide.2 hsign
    rw [hneg] at hok
    obtain ⟨hrest, hvalue⟩ := intValue_eq_ok hok
    exact ⟨_, hrest, hvalue _⟩
  · obtain ⟨hv, hrest⟩ := Prod.mk.inj (Except.ok.inj hok)
    refine ⟨_, hrest.symm, ?_⟩
    rw [← hv, List.length_append, List.length_append, Nat.add_sub_add_right,
      List.take_append_of_le_length (Nat.sub_le _ _)]

theorem isPrefixOf_append_blank (h : Blank ws) {w : Text} (hw : ∀ c ∈ w, isSpace c = false)
    (t : Text) :
    w.isPrefixOf (t ++ ws) = w.isPrefixOf t := by
  induction w generalizing t with
  | nil => simp
  | cons c w ih =>
    have hw' : ∀ c ∈ w, isSpace c = false := fun d hd => hw d (List.mem_cons_of_mem c hd)
    cases t with
    | cons d t => simp only [List.cons_append, List.isPrefixOf, ih hw' t]
    | nil =>
      cases ws with
      | nil => simp
      | cons d ws =>
        have hne : c ≠ d := (h.head_ne (hw c List.mem_cons_self)).symm
        simp [List.isPrefixOf, hne]

theorem scanScalar_append (h : Blank ws) {t rest : Text} {v : Json}
    (hok : scanScalar (t ++ ws) = .ok (v, rest)) :
    ∃ rest', rest = rest' ++ ws ∧ scanScalar t = .ok (v, rest') := by
  have hall : (constants.all fun p => p.1.all fun c => isSpace c == false) = true := by decide
  have hwords (p : Text × Json) (hp : p ∈ constants) : ∀ c ∈ p.1, isSpace c = false :=
    forall_of_all (List.all_eq_true.1 hall p hp)
  have hfind : constants.find? (·.1.isPrefixOf (t ++ ws)) = constants.find? (·.1.isPrefixOf t) :=
    List.find?_congr fun p hp => isPrefixOf_append_blank h (hwords p hp) t
  unfold scanScalar at hok ⊢
  rw [hfind] at hok
  cases hword : constants.find? (·.1.isPrefixOf t) with
  | none =>
    rw [hword] at hok
    exact matchNumber_append h hok
  | some p =>
    rw [hword] at hok
    obtain ⟨hv, hrest⟩ := Prod.mk.inj (Except.ok.inj hok)
    have hpre : p.1 <+: t := by simpa using List.find?_some hword
    rw [List.drop_append_of_le_length hpre.length_le] at hrest
    exact ⟨_, hrest.symm, by rw [← hv]⟩

/-! ## Containers -/

theorem skipSpace_cases (h : Blank ws) (t : Text) :
    Blank (skipSpace (t ++ ws)) ∨ skipSpace t ≠ [] ∧ skipSpace (t ++ ws) = skipSpace t ++ ws := by
  rw [skipSpace_append]
  by_cases hnil : skipSpace t = []
  · rw [if_pos hnil]
    exact .inl h.skipSpace
  · rw [if_neg hnil]
    exact .inr ⟨hnil, rfl⟩

theorem head_skipSpace (h : Blank ws) {c : Char} (hc : isSpace c = false) (t : Text) :
    (skipSpace (t ++ ws)).head? = some c ↔ (skipSpace t).head? = some c := by
  rw [skipSpace_append]
  by_cases hnil : skipSpace t = []
  · rw [if_pos hnil, hnil]
    refine iff_of_false (fun hhead => ?_) (by simp)
    have hmem := List.mem_of_mem_head? hhead
    rw [h.skipSpace c hmem] at hc
    cases hc
  · rw [if_neg hnil, List.head?_append_of_ne_nil _ hnil]

theorem tail_skipSpace {c : Char} {t : Text} (hhead : (skipSpace t).head? = some c) :
    (skipSpace (t ++ ws)).tail = (skipSpace t).tail ++ ws := by
  have hne : skipSpace t ≠ [] := by
    intro hnil
    rw [hnil] at hhead
    cases hhead
  rw [skipSpace_append, if_neg hne, List.tail_append_of_ne_nil hne]

theorem head?_ne_of_forall {c : Char} {t : Text} (h : ∀ rest, t ≠ c :: rest) :
    t.head? ≠ some c := by
  intro hhead
  obtain ⟨rest, heq⟩ := List.head?_eq_some_iff.1 hhead
  exact h rest heq

theorem scanOnce_scalar {n depth : Nat} {t : Text} (hquote : t.head? ≠ some '"')
    (hbrace : t.head? ≠ some '{') (hbracket : t.head? ≠ some '[') :
    scanOnce (n + 1) depth t = scanScalar t := by
  rw [scanOnce.eq_def]
  dsimp only
  split
  · exact absurd rfl hquote
  · exact absurd rfl hbrace
  · exact absurd rfl hbracket
  · rfl

theorem scanOnce_quote (n depth : Nat) (t : Text) :
    scanOnce (n + 1) depth ('"' :: t) =
      (scanString (t.length + 1) (t.length + 1) (some []) t).bind fun p => .ok (.str p.1, p.2) := by
  rw [scanOnce.eq_def]
  rfl

/-- What follows the start of a container: its end, or its first item. -/
def afterOpening (close : Char) (value : Json) (next : Text → Except ScanError (Json × Text))
    (t : Text) : Except ScanError (Json × Text) :=
  if (skipSpace t).head? = some close then .ok (value, (skipSpace t).tail) else next (skipSpace t)

theorem scanOnce_brace (n depth : Nat) (t : Text) :
    scanOnce (n + 1) (depth + 1) ('{' :: t) =
      afterOpening '}' (.obj []) (parseObject n depth []) t := by
  rw [scanOnce.eq_def]
  unfold afterOpening
  conv_lhs => whnf
  split
  · rename_i heq
    rw [heq]
    rfl
  · rename_i hne
    rw [if_neg (head?_ne_of_forall hne)]

theorem scanOnce_bracket (n depth : Nat) (t : Text) :
    scanOnce (n + 1) (depth + 1) ('[' :: t) =
      afterOpening ']' (.arr []) (parseArray n depth []) t := by
  rw [scanOnce.eq_def]
  unfold afterOpening
  conv_lhs => whnf
  split
  · rename_i heq
    rw [heq]
    rfl
  · rename_i hne
    rw [if_neg (head?_ne_of_forall hne)]

/-- What follows an item or a member, up to the next one or the end of the container. -/
def afterItem (close : Char) (value : Json) (next : Text → Except ScanError (Json × Text))
    (rest : Text) (trailing : String) : Except ScanError (Json × Text) :=
  if (skipSpace rest).head? = some close then .ok (value, (skipSpace rest).tail)
  else if (skipSpace rest).head? = some ',' then
    if (skipSpace (skipSpace rest).tail).head? = some close then
      .error (.decode trailing ((skipSpace rest).tail.length + 1))
    else next (skipSpace (skipSpace rest).tail)
  else .error (.decode "Expecting ',' delimiter" (skipSpace rest).length)

theorem parseArray_eq (n depth : Nat) (acc : List Json) (t : Text) :
    parseArray (n + 1) depth acc t = (scanOnce n depth t).bind fun p =>
      afterItem ']' (.arr (acc ++ [p.1])) (parseArray n depth (acc ++ [p.1])) p.2
        "Illegal trailing comma before end of array" := by
  rw [parseArray.eq_def]
  refine congrArg (Except.bind (scanOnce n depth t)) (funext fun p => ?_)
  unfold afterItem
  dsimp only
  split
  · rename_i heq
    rw [heq]
    rfl
  · rename_i rest heq
    rw [heq, if_neg (by simp), if_pos List.head?_cons]
    split
    · rename_i heq'
      rw [List.tail_cons, heq']
      rfl
    · rename_i hne
      rw [List.tail_cons, if_neg (head?_ne_of_forall hne)]
  · rename_i hclose hcomma
    rw [if_neg (head?_ne_of_forall hclose), if_neg (head?_ne_of_forall hcomma)]

theorem parseObject_quote (n depth : Nat) (acc : List (Option Text × Json)) (t : Text) :
    parseObject (n + 1) depth acc ('"' :: t) =
      (scanString (t.length + 1) (t.length + 1) (some []) t).bind fun key =>
        if (skipSpace key.2).head? = some ':' then
          (scanOnce n depth (skipSpace (skipSpace key.2).tail)).bind fun p =>
            afterItem '}' (.obj (acc ++ [(key.1, p.1)]))
              (parseObject n depth (acc ++ [(key.1, p.1)]))
              p.2 "Illegal trailing comma before end of object"
        else .error (.decode "Expecting ':' delimiter" (skipSpace key.2).length) := by
  rw [parseObject.eq_def]
  refine congrArg (Except.bind (scanString (t.length + 1) (t.length + 1) (some []) t))
    (funext fun key => ?_)
  dsimp only
  split
  · rename_i rest heq
    rw [heq, if_pos List.head?_cons]
    refine congrArg (Except.bind (scanOnce n depth (skipSpace rest))) (funext fun p => ?_)
    unfold afterItem
    split
    · rename_i heq
      rw [heq]
      rfl
    · rename_i rest heq
      rw [heq, if_neg (by simp), if_pos List.head?_cons]
      split
      · rename_i heq'
        rw [List.tail_cons, heq']
        rfl
      · rename_i hne
        rw [List.tail_cons, if_neg (head?_ne_of_forall hne)]
    · rename_i hclose hcomma
      rw [if_neg (head?_ne_of_forall hclose), if_neg (head?_ne_of_forall hcomma)]
  · rename_i hne
    rw [if_neg (head?_ne_of_forall hne)]

theorem parseObject_other {n depth : Nat} {acc : List (Option Text × Json)} {t : Text}
    (hquote : t.head? ≠ some '"') (p : Json × Text) : parseObject n depth acc t ≠ .ok p := by
  cases n with
  | zero => simp [parseObject]
  | succ n =>
    rw [parseObject.eq_def]
    dsimp only
    split
    · exact absurd rfl hquote
    · simp

theorem Blank.head?_ne (h : Blank ws) {c : Char} (hc : isSpace c = false) : ws.head? ≠ some c := by
  intro hhead
  rw [h c (List.mem_of_mem_head? hhead)] at hc
  cases hc

theorem scanOnce_blank (h : Blank ws) (n depth : Nat) (p : Json × Text) :
    scanOnce n depth ws ≠ .ok p := by
  cases n with
  | zero => simp [scanOnce]
  | succ n =>
    rw [scanOnce_scalar (h.head?_ne (by decide)) (h.head?_ne (by decide)) (h.head?_ne (by decide))]
    intro hok
    obtain ⟨rest', -, hnil⟩ := scanScalar_append (t := []) h hok
    cases hnil

theorem parseArray_blank (h : Blank ws) (n depth : Nat) (acc : List Json) (p : Json × Text) :
    parseArray n depth acc ws ≠ .ok p := by
  cases n with
  | zero => simp [parseArray]
  | succ n =>
    rw [parseArray_eq]
    intro hok
    obtain ⟨q, hitem, -⟩ := bind_eq_ok.1 hok
    exact scanOnce_blank h n depth q hitem

/-- `f` on a text with white space behind it, and `g` on the text alone. -/
def Trims (ws : Text) (f g : Text → Except ScanError (Json × Text)) (t : Text) : Prop :=
  ∀ v rest, f (t ++ ws) = .ok (v, rest) → ∃ rest', rest = rest' ++ ws ∧ g t = .ok (v, rest')

theorem afterOpening_append (h : Blank ws) {close : Char} (hclose : isSpace close = false)
    {value : Json}
    {next next' : Text → Except ScanError (Json × Text)} {t : Text}
    (hblank : ∀ u p, Blank u → next u ≠ .ok p) (hnext : Trims ws next next' (skipSpace t)) :
    Trims ws (afterOpening close value next) (afterOpening close value next') t := by
  intro v rest hok
  unfold afterOpening at hok ⊢
  simp only [head_skipSpace h hclose] at hok
  by_cases hc : (skipSpace t).head? = some close
  · rw [if_pos hc, tail_skipSpace hc] at hok
    obtain ⟨rfl, rfl⟩ := Prod.mk.inj (Except.ok.inj hok)
    exact ⟨_, rfl, if_pos hc⟩
  rw [if_neg hc] at hok ⊢
  obtain hspace | ⟨-, heq⟩ := skipSpace_cases h t
  · exact absurd hok (hblank _ _ hspace)
  · rw [heq] at hok
    exact hnext v rest hok

theorem afterItem_append (h : Blank ws) {close : Char} (hclose : isSpace close = false)
    {value : Json}
    {next next' : Text → Except ScanError (Json × Text)} {t : Text} {trailing : String}
    (hblank : ∀ u p, Blank u → next u ≠ .ok p)
    (hnext : ∀ u : Text, u.length < t.length → Trims ws next next' u) :
    Trims ws (afterItem close value next · trailing) (afterItem close value next' · trailing)
      t := by
  intro v rest hok
  unfold afterItem at hok ⊢
  have hcomma : isSpace ',' = false := by decide
  simp only [head_skipSpace h hclose, head_skipSpace h hcomma] at hok
  by_cases hc : (skipSpace t).head? = some close
  · rw [if_pos hc, tail_skipSpace hc] at hok
    obtain ⟨rfl, rfl⟩ := Prod.mk.inj (Except.ok.inj hok)
    exact ⟨_, rfl, if_pos hc⟩
  rw [if_neg hc] at hok
  simp only [if_neg hc]
  by_cases hk : (skipSpace t).head? = some ','
  · simp only [if_pos hk, tail_skipSpace hk, head_skipSpace h hclose] at hok ⊢
    split_ifs at hok ⊢ with htrail
    obtain hspace | ⟨-, heq⟩ := skipSpace_cases h (skipSpace t).tail
    · exact absurd hok (hblank _ _ hspace)
    · rw [heq] at hok
      refine hnext _ ?_ v rest hok
      have hlen := skipSpace_length t
      have htail := skipSpace_length (skipSpace t).tail
      have hne : 0 < (skipSpace t).length := List.length_pos_of_mem (List.mem_of_mem_head? hk)
      rw [List.length_tail] at htail
      omega
  · rw [if_neg hk] at hok
    cases hok

mutual

theorem scanOnce_append (h : Blank ws) : ∀ {n m depth : Nat} {t : Text}, 2 * t.length < m →
    Trims ws (scanOnce n depth) (scanOnce m depth) t
  | 0, _, _, _, _, _, _, hok => by cases hok
  | n + 1, 0, _, _, hm, _, _, _ => absurd hm (Nat.not_lt_zero _)
  | n + 1, m + 1, depth, [], _, _, _, hok => absurd hok (scanOnce_blank h _ _ _)
  | n + 1, m + 1, depth, c :: t, hm, v, rest, hok => by
    rw [List.length_cons] at hm
    have hspace := skipSpace_length t
    rw [List.cons_append] at hok
    by_cases hquote : c = '"'
    · subst hquote
      rw [scanOnce_quote] at hok ⊢
      obtain ⟨⟨s, r⟩, hscan, hok⟩ := bind_eq_ok.1 hok
      obtain ⟨r', rfl, hscan'⟩ :=
        scanString_append h (t.length + 1) hscan (Nat.lt_succ_self t.length)
      obtain ⟨rfl, rfl⟩ := Prod.mk.inj (Except.ok.inj hok)
      exact ⟨r', rfl, bind_eq_ok.2 ⟨_, hscan', rfl⟩⟩
    by_cases hbrace : c = '{'
    · subst hbrace
      cases depth with
      | zero => cases hok
      | succ depth =>
        rw [scanOnce_brace] at hok ⊢
        exact afterOpening_append h (by decide)
          (fun u p hu => parseObject_other (hu.head?_ne (by decide)) p)
          (parseObject_append h (by omega)) v rest hok
    by_cases hbracket : c = '['
    · subst hbracket
      cases depth with
      | zero => cases hok
      | succ depth =>
        rw [scanOnce_bracket] at hok ⊢
        exact afterOpening_append h (by decide) (fun u p hu => parseArray_blank hu _ _ _ p)
          (parseArray_append h (by omega)) v rest hok
    have hhead {d : Char} (hd : c ≠ d) (u : Text) : (c :: u).head? ≠ some d := by simpa using hd
    rw [scanOnce_scalar (hhead hquote _) (hhead hbrace _) (hhead hbracket _)] at hok ⊢
    exact scanScalar_append h (t := c :: t) hok

theorem parseArray_append (h : Blank ws) : ∀ {n m depth : Nat} {acc : List Json} {t : Text},
    2 * t.length + 1 < m → Trims ws (parseArray n depth acc) (parseArray m depth acc) t
  | 0, _, _, _, _, _, _, _, hok => by cases hok
  | n + 1, 0, _, _, _, hm, _, _, _ => absurd hm (Nat.not_lt_zero _)
  | n + 1, m + 1, depth, acc, t, hm, v, rest, hok => by
    rw [parseArray_eq] at hok ⊢
    obtain ⟨⟨item, r⟩, hitem, hok⟩ := bind_eq_ok.1 hok
    obtain ⟨r', rfl, hitem'⟩ := scanOnce_append h (n := n) (m := m) (by omega) item r hitem
    have hadv : Advances t (scanOnce m depth t) := scanOnce_advances (by omega)
    rw [hitem'] at hadv ⊢
    have hlt : r'.length < t.length := hadv
    exact afterItem_append h (by decide) (fun u p hu => parseArray_blank hu _ _ _ p)
      (fun u (hu : u.length < r'.length) => parseArray_append h (by omega)) v rest hok

theorem parseObject_append (h : Blank ws) : ∀ {n m depth : Nat} {acc : List (Option Text × Json)}
    {t : Text}, 2 * t.length < m → Trims ws (parseObject n depth acc) (parseObject m depth acc) t
  | 0, _, _, _, _, _, _, _, hok => by cases hok
  | n + 1, 0, _, _, _, hm, _, _, _ => absurd hm (Nat.not_lt_zero _)
  | n + 1, m + 1, depth, acc, t, hm, v, rest, hok => by
    by_cases hquote : t.head? = some '"'
    · obtain ⟨t, rfl⟩ := List.head?_eq_some_iff.1 hquote
      rw [List.length_cons] at hm
      rw [List.cons_append, parseObject_quote] at hok
      rw [parseObject_quote]
      obtain ⟨⟨key, r⟩, hscan, hok⟩ := bind_eq_ok.1 hok
      obtain ⟨r', rfl, hscan'⟩ :=
        scanString_append h (t.length + 1) hscan (Nat.lt_succ_self t.length)
      have hadv : Advances t (scanString (t.length + 1) (t.length + 1) (some []) t) :=
        scanString_advances (t.length + 1) (Nat.lt_succ_self t.length)
      rw [hscan'] at hadv
      have hkey : r'.length < t.length := hadv
      rw [hscan']
      simp only [Except.bind, head_skipSpace h (show isSpace ':' = false by decide)] at hok ⊢
      by_cases hcolon : (skipSpace r').head? = some ':'
      · rw [if_pos hcolon, tail_skipSpace hcolon] at hok
        rw [if_pos hcolon]
        have hlen := skipSpace_length r'
        have hlen' := skipSpace_length (skipSpace r').tail
        rw [List.length_tail] at hlen'
        obtain hblank | ⟨-, heq⟩ := skipSpace_cases h (skipSpace r').tail
        · obtain ⟨p, hvalue, -⟩ := bind_eq_ok.1 hok
          exact absurd hvalue (scanOnce_blank hblank _ _ _)
        rw [heq] at hok
        obtain ⟨⟨value, q⟩, hvalue, hok⟩ := bind_eq_ok.1 hok
        obtain ⟨q', rfl, hvalue'⟩ := scanOnce_append h (n := n) (m := m) (by omega) value q hvalue
        have hadv : Advances _ (scanOnce m depth (skipSpace (skipSpace r').tail)) :=
          scanOnce_advances (by omega)
        rw [hvalue'] at hadv
        have hval : q'.length < (skipSpace (skipSpace r').tail).length := hadv
        rw [hvalue']
        exact afterItem_append h (by decide) (fun u p hu =>
          parseObject_other (hu.head?_ne (by decide)) p)
          (fun u (hu : u.length < q'.length) => parseObject_append h (by omega)) v rest hok
      · rw [if_neg hcolon] at hok
        cases hok
    · refine absurd hok (parseObject_other (fun hhead => hquote ?_) _)
      cases t with
      | nil => exact absurd hhead (h.head?_ne (by decide))
      | cons c t => exact hhead

end

/-! ## Documents -/

/-- White space behind a document does not change what is read. -/
theorem document_append (h : Blank ws) {depth : Nat} {t : Text} {v : Json}
    (hok : document depth (t ++ ws) = .ok v) : document depth t = .ok v := by
  unfold document at hok ⊢
  obtain hblank | ⟨-, heq⟩ := skipSpace_cases h t
  · obtain ⟨p, hscan, -⟩ := bind_eq_ok.1 hok
    exact absurd hscan (scanOnce_blank hblank _ _ _)
  · rw [heq] at hok
    dsimp only at hok ⊢
    obtain ⟨⟨value, r⟩, hscan, hok⟩ := bind_eq_ok.1 hok
    obtain ⟨r', rfl, hscan'⟩ :=
      scanOnce_append h (m := 2 * (skipSpace t).length + 1) (Nat.lt_succ_self _) value r hscan
    rw [hscan']
    simp only [bind, Except.bind] at hok ⊢
    rw [skipSpace_append] at hok
    by_cases hnil : skipSpace r' = []
    · rw [hnil]
      split at hok
      · exact hok
      · cases hok
    · rw [if_neg hnil] at hok
      split at hok
      · rename_i happ
        exact absurd (List.append_eq_nil_iff.1 happ).1 hnil
      · cases hok

/-- White space or a byte order mark: no value starts with it. -/
def Foreign (c : Char) : Prop := isSpace c = true ∨ c = '\ufeff'

instance (c : Char) : Decidable (Foreign c) := by unfold Foreign; infer_instance

theorem scanOnce_foreign {c : Char} (hc : Foreign c) (n depth : Nat) (t : Text)
    (p : Json × Text) : scanOnce n depth (c :: t) ≠ .ok p := by
  have hne {d : Char} (hd : ¬Foreign d) : (c :: t).head? ≠ some d := by
    intro hhead
    rw [List.head?_cons] at hhead
    exact hd (Option.some.inj hhead ▸ hc)
  have hconst : constants.find? (·.1.isPrefixOf (c :: t)) = none := by
    have hall : (constants.all fun p => p.1 ≠ [] && p.1.all fun c => decide (Foreign c) == false) =
      true := by
      decide
    refine List.find?_eq_none.2 fun p hp hpre => ?_
    have hword := List.all_eq_true.1 hall p hp
    rw [Bool.and_eq_true, decide_eq_true_eq] at hword
    obtain ⟨hnonempty, hforeign⟩ := hword
    have hspace := forall_of_all hforeign
    obtain ⟨d, w, hw⟩ := List.exists_cons_of_ne_nil hnonempty
    rw [hw, List.isPrefixOf, Bool.and_eq_true, beq_iff_eq] at hpre
    have hd := hspace d (by rw [hw]; exact List.mem_cons_self)
    exact absurd (hpre.1 ▸ hc) (by simpa using hd)
  have hdigit : isDigit c = false := by
    by_contra hdigit
    rw [Bool.not_eq_false] at hdigit
    obtain hspace | rfl := hc
    · rw [isSpace_of_isDigit hdigit] at hspace
      cases hspace
    · exact absurd hdigit (by decide)
  have hwhole : wholeDigits (c :: t) = [] := by
    unfold wholeDigits
    split
    · rename_i heq
      exact absurd (congrArg List.head? heq) (hne (by decide))
    · exact List.takeWhile_cons_of_neg (by simp [hdigit])
  cases n with
  | zero => simp [scanOnce]
  | succ n =>
    rw [scanOnce_scalar (hne (by decide)) (hne (by decide)) (hne (by decide))]
    unfold scanScalar
    rw [hconst]
    dsimp only
    unfold matchNumber
    dsimp only
    rw [if_neg (hne (by decide)), if_pos hwhole]
    simp

/-- Nor does white space in front of it: the scanner skips what it takes and refuses the rest. -/
theorem document_lstrip {depth : Nat} {t : Text} {v : Json} (hok : document depth t = .ok v) :
    document depth (lstrip t) = .ok v := by
  have hsub (c : Char) (hc : (" \t\n\r".toList.contains c) = true) : isSpace c = true := by
    have hall : ∀ c ∈ " \t\n\r".toList, isSpace c = true := forall_of_all (by decide)
    exact hall c (by simpa using hc)
  have hsplit : t = t.takeWhile (" \t\n\r".toList.contains ·) ++ skipSpace t :=
    List.takeWhile_append_dropWhile.symm
  have hstrip : lstrip t = lstrip (skipSpace t) := by
    conv_lhs => rw [hsplit]
    exact List.dropWhile_append_of_pos fun c hc => hsub c (List.mem_takeWhile_imp hc)
  have hsame : skipSpace (lstrip t) = skipSpace t := by
    rw [hstrip]
    cases hskip : skipSpace t with
    | nil => rfl
    | cons c rest =>
      have hc : ¬isSpace c = true := by
        intro hc
        unfold document at hok
        rw [hskip] at hok
        obtain ⟨p, hscan, -⟩ := bind_eq_ok.1 hok
        exact scanOnce_foreign (.inl hc) _ _ _ _ hscan
      have hskipped : ¬(" \t\n\r".toList.contains c) = true := mt (hsub c) hc
      unfold lstrip
      rw [List.dropWhile_cons_of_neg hc]
      exact List.dropWhile_cons_of_neg hskipped
  unfold document at hok ⊢
  rw [hsame]
  exact hok

theorem document_ne_bom (depth : Nat) (t : Text) (v : Json) :
    document depth ('\ufeff' :: t) ≠ .ok v := by
  intro hok
  have hskip : skipSpace ('\ufeff' :: t) = '\ufeff' :: t := by
    unfold skipSpace
    exact List.dropWhile_cons_of_neg (by decide)
  unfold document at hok
  rw [hskip] at hok
  obtain ⟨p, hscan, -⟩ := bind_eq_ok.1 hok
  exact scanOnce_foreign (.inr rfl) _ _ _ _ hscan

/-- **What Python strips around a document does not change what is read.** -/
theorem loads_strip {depth : Nat} {t : Text} {v : Json} (hok : loads depth t = .ok v) :
    loads depth (strip t) = .ok v := by
  have hdoc : document depth t = .ok v := by
    unfold loads at hok
    split_ifs at hok
    cases hd : document depth t with
    | error e =>
      rw [hd] at hok
      cases hok
    | ok w =>
      rw [hd] at hok
      exact congrArg _ (Except.ok.inj hok)
  have hstrip : document depth (strip t) = .ok v := by
    have hback : Blank (t.reverse.takeWhile isSpace).reverse := by
      intro c hc
      exact List.mem_takeWhile_imp (List.mem_reverse.1 hc)
    have hsplit : t = rstrip t ++ (t.reverse.takeWhile isSpace).reverse := by
      unfold rstrip List.rdropWhile
      rw [← List.reverse_append, List.takeWhile_append_dropWhile, List.reverse_reverse]
    rw [← lstrip_rstrip]
    rw [hsplit] at hdoc
    exact document_lstrip (document_append hback hdoc)
  unfold loads
  rw [if_neg, hstrip]
  · rfl
  · intro hbom
    obtain ⟨rest, heq⟩ := List.head?_eq_some_iff.1 hbom
    rw [heq] at hstrip
    exact document_ne_bom depth rest v hstrip

end Json

end WlanpiCore
