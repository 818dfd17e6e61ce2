import WlanpiCore.Lib.Text

/-!
# Lines and words

`splitlines`, `words` and `int` are Python's `str.splitlines`, `str.split` and `int`; `cut` is
`str.split(None, 1)`. `splitlines_flatMap`: the lines of a text that is written line by line are the
lines that were written. `trimmed_strip`: white space around a text changes none of its lines but
for their margins and the blank ones.
-/

namespace WlanpiCore

namespace Text

/-- A character that `str.splitlines` ends a line at. -/
def isLineBreak (c : Char) : Bool :=
  let n := c.toNat
  (0x0a ≤ n && n ≤ 0x0d) || (0x1c ≤ n && n ≤ 0x1e) || [0x85, 0x2028, 0x2029].contains n

/-- `str.splitlines`, `line` being what is read of the current line, last character first. -/
def splitlinesFrom (line : Text) : Text → List Text
  | [] => if line = [] then [] else [line.reverse]
  | '\r' :: '\n' :: rest => line.reverse :: splitlinesFrom [] rest
  | c :: rest =>
    if isLineBreak c then line.reverse :: splitlinesFrom [] rest
      else splitlinesFrom (c :: line) rest

def splitlines (t : Text) : List Text := splitlinesFrom [] t

/-- `str.lstrip()`. -/
def lstrip (t : Text) : Text := t.dropWhile isSpace

/-- `str.rstrip()`. -/
def rstrip (t : Text) : Text := t.rdropWhile isSpace

/-- `str.split()`. -/
def words (t : Text) : List Text := (t.splitOnP isSpace).filter (· ≠ [])

/-- The first word of a stripped text and what follows it, `[]` if nothing does. -/
def cut (t : Text) : Text × Text :=
  (t.takeWhile (!isSpace ·), (t.dropWhile (!isSpace ·)).dropWhile isSpace)

def digitsValue (t : Text) : Nat := t.foldl (fun n c => 10 * n + (c.toNat - '0'.toNat)) 0

/-- Decimal digits, with single underscores between them. -/
def natural (t : Text) : Option Nat :=
  if (t.splitOn '_').all fun group => group ≠ [] && group.all Char.isDigit then
    some (digitsValue (t.filter (· ≠ '_')))
  else none

/-- `int(t)`, of ASCII digits and without the limit of 4300 of them; `none` is a `ValueError`. -/
def int (t : Text) : Option Int :=
  match strip t with
  | '-' :: digits => (natural digits).map fun n => -(n : Int)
  | '+' :: digits => (natural digits).map Int.ofNat
  | digits => (natural digits).map Int.ofNat

example : splitlines "a\r\n\x0bb\n".toList = ["a".toList, [], "b".toList] ∧
    words " a \t b".toList = ["a".toList, "b".toList] ∧ int " 1_2 ".toList = some 12 := by
  decide +kernel

/-! ## Lines -/

theorem isSpace_of_isLineBreak {c : Char} (h : isLineBreak c = true) : isSpace c = true := by
  simp only [isLineBreak, isSpace, List.contains_eq_mem, List.mem_cons,
    List.not_mem_nil, Bool.or_eq_true, Bool.and_eq_true, decide_eq_true_eq, or_false] at h ⊢
  omega

theorem splitlinesFrom_line {line : Text} : ∀ {t rest : Text},
    (∀ c ∈ t, isLineBreak c = false) →
    splitlinesFrom line (t ++ '\n' :: rest) = (line.reverse ++ t) :: splitlinesFrom [] rest
  | [], rest, _ => by
    rw [List.nil_append, List.append_nil, splitlinesFrom]
    · rfl
    · intro rest' heq
      cases heq
  | c :: t, rest, h => by
    have hc := h c List.mem_cons_self
    have hr : c ≠ '\r' := by
      rintro rfl
      exact absurd hc (by decide)
    rw [List.cons_append, splitlinesFrom]
    · rw [hc]
      have ih : splitlinesFrom (c :: line) (t ++ '\n' :: rest) =
          ((c :: line).reverse ++ t) :: splitlinesFrom [] rest :=
        splitlinesFrom_line fun c' hc' => h c' (List.mem_cons_of_mem c hc')
      simpa using ih
    · rintro rest' rfl
      exact absurd rfl hr

/-- A line break ends a line whatever is around it, except between `\r` and `\n`. -/
theorem splitlinesFrom_append {c : Char} (hc : isLineBreak c = true) {rest : Text}
    (hrest : c = '\r' → rest.head? ≠ some '\n') : ∀ line t : Text,
    splitlinesFrom line (t ++ c :: rest) = splitlinesFrom line (t ++ [c]) ++ splitlines rest
  | line, [] => by
    have hone : splitlinesFrom line [c] = [line.reverse] := by
      rw [splitlinesFrom.eq_3 line c [] (by rintro rest' - heq; cases heq), if_pos hc]
      rfl
    have hall : splitlinesFrom line (c :: rest) = line.reverse :: splitlinesFrom [] rest := by
      rw [splitlinesFrom.eq_3 line c rest, if_pos hc]
      rintro rest' hr rfl
      exact hrest hr rfl
    rw [List.nil_append, List.nil_append, hone, hall]
    rfl
  | line, [x] => by
    by_cases hpair : x = '\r' ∧ c = '\n'
    · obtain ⟨rfl, rfl⟩ := hpair
      rfl
    · have hstep (t : Text) : splitlinesFrom line (x :: c :: t) =
          if isLineBreak x then line.reverse :: splitlinesFrom [] (c :: t)
          else splitlinesFrom (x :: line) (c :: t) := by
        apply splitlinesFrom.eq_3
        rintro rest' rfl heq
        exact hpair ⟨rfl, (List.cons.inj heq).1⟩
      rw [List.singleton_append, List.singleton_append, hstep, hstep]
      split_ifs
      · exact congrArg (line.reverse :: ·) (splitlinesFrom_append hc hrest [] [])
      · exact splitlinesFrom_append hc hrest (x :: line) []
  | line, x :: y :: t => by
    by_cases hpair : x = '\r' ∧ y = '\n'
    · obtain ⟨rfl, rfl⟩ := hpair
      exact congrArg (line.reverse :: ·) (splitlinesFrom_append hc hrest [] t)
    · have hstep (t : Text) : splitlinesFrom line (x :: y :: t) =
          if isLineBreak x then line.reverse :: splitlinesFrom [] (y :: t)
          else splitlinesFrom (x :: line) (y :: t) := by
        apply splitlinesFrom.eq_3
        rintro rest' rfl heq
        exact hpair ⟨rfl, (List.cons.inj heq).1⟩
      rw [List.cons_append, List.cons_append, List.cons_append, List.cons_append, hstep, hstep]
      split_ifs
      · exact congrArg (line.reverse :: ·) (splitlinesFrom_append hc hrest [] (y :: t))
      · exact splitlinesFrom_append hc hrest (x :: line) (y :: t)

/-- The lines of several texts, each ended by a newline. -/
theorem splitlines_records (records : List Text) :
    splitlines (records.flatMap (· ++ ['\n'])) =
      records.flatMap fun record => splitlines (record ++ ['\n']) := by
  induction records with
  | nil => rfl
  | cons record records ih =>
    rw [List.flatMap_cons, List.flatMap_cons, ← ih, List.append_assoc, List.singleton_append]
    exact splitlinesFrom_append (by decide) (fun h => absurd h (by decide)) [] record

/-- What follows the last line break of a text is a line of its own. -/
theorem mem_splitlines_last {c : Char} (hc : isLineBreak c = true) (a : Text) {b : Text}
    (hne : b ≠ []) (hb : ∀ x ∈ b, isLineBreak x = false) :
    b ∈ splitlines (a ++ c :: b ++ ['\n']) := by
  have hhead : c = '\r' → (b ++ ['\n']).head? ≠ some '\n' := by
    intro _ heq
    obtain ⟨x, b, rfl⟩ := List.exists_cons_of_ne_nil hne
    have hx := hb x List.mem_cons_self
    obtain rfl : x = '\n' := Option.some.inj heq
    exact absurd hx (by decide)
  rw [List.append_assoc, List.cons_append]
  show b ∈ splitlinesFrom [] (a ++ c :: (b ++ ['\n']))
  rw [splitlinesFrom_append hc hhead]
  apply List.mem_append_right
  show b ∈ splitlinesFrom [] (b ++ ['\n'])
  rw [splitlinesFrom_line hb]
  exact List.mem_cons_self

theorem splitlines_flatMap {lines : List Text}
    (h : ∀ line ∈ lines, ∀ c ∈ line, isLineBreak c = false) :
    splitlines (lines.flatMap (· ++ ['\n'])) = lines := by
  induction lines with
  | nil => rfl
  | cons line lines ih =>
    have hrest := ih fun line' hline' => h line' (List.mem_cons_of_mem line hline')
    rw [List.flatMap_cons, List.append_assoc, splitlines, List.singleton_append,
      splitlinesFrom_line (h line List.mem_cons_self)]
    exact congrArg (line :: ·) hrest

/-! ## White space -/

theorem rstrip_append {a b : Text} (h : rstrip b ≠ []) : rstrip (a ++ b) = a ++ rstrip b := by
  simp only [rstrip, List.rdropWhile] at h ⊢
  have hne : (b.reverse.dropWhile isSpace).isEmpty = false := by simpa using h
  rw [List.reverse_append, List.dropWhile_append, hne]
  simp

theorem rstrip_eq_nil {t : Text} : rstrip t = [] ↔ lstrip t = [] := by
  simp [rstrip, lstrip, List.rdropWhile_eq_nil_iff, List.dropWhile_eq_nil_iff]

theorem strip_eq_nil {t : Text} : strip t = [] ↔ ∀ c ∈ t, isSpace c = true := by
  show rstrip (lstrip t) = [] ↔ _
  rw [rstrip_eq_nil]
  simp [lstrip, List.dropWhile_eq_nil_iff, List.dropWhile_idempotent isSpace t]

/-- It does not matter which end is stripped first. -/
theorem lstrip_rstrip (t : Text) : lstrip (rstrip t) = strip t := by
  change lstrip (rstrip t) = rstrip (lstrip t)
  by_cases hnil : lstrip t = []
  · rw [rstrip_eq_nil.2 hnil, hnil]
    rfl
  · have hsplit : t = t.takeWhile isSpace ++ lstrip t := List.takeWhile_append_dropWhile.symm
    have hcore : rstrip (lstrip t) ≠ [] := by
      rw [Ne, rstrip_eq_nil]
      intro h
      exact hnil (by simpa [lstrip, List.dropWhile_idempotent] using h)
    have hhead : lstrip (rstrip (lstrip t)) = rstrip (lstrip t) := by
      cases hc : lstrip t with
      | nil => exact absurd hc hnil
      | cons c rest =>
        have hspace : isSpace c = false := by
          have hne : t.dropWhile isSpace ≠ [] := hnil
          have hhead := List.head_dropWhile_not isSpace hne
          have hd : t.dropWhile isSpace = c :: rest := hc
          simpa [hd] using hhead
        have hkeep : rstrip (c :: rest) = c :: rstrip rest := by
          by_cases hrest : rstrip rest = []
          · rw [hrest]
            have hall := List.rdropWhile_eq_nil_iff.1 hrest
            have hsingle : rstrip ([c] ++ rest) = [c] := by
              simp only [rstrip, List.rdropWhile, List.reverse_append, List.dropWhile_append]
              rw [if_pos]
              · simp [hspace]
              · simpa using hall
            exact hsingle
          · exact rstrip_append (a := [c]) hrest
        rw [hkeep]
        simp [lstrip, hspace]
    have happend : rstrip t = t.takeWhile isSpace ++ rstrip (lstrip t) := by
      conv_lhs => rw [hsplit]
      exact rstrip_append hcore
    rw [happend]
    have hdrop : lstrip (t.takeWhile isSpace ++ rstrip (lstrip t)) =
      lstrip (rstrip (lstrip t)) := by
      simp only [lstrip]
      rw [List.dropWhile_append_of_pos]
      intro c hc
      exact List.mem_takeWhile_imp hc
    rw [hdrop, hhead]

theorem strip_rstrip (t : Text) : strip (rstrip t) = strip t := by
  have hrstrip : strip (rstrip t) = rstrip (lstrip (rstrip t)) := rfl
  rw [hrstrip, lstrip_rstrip]
  exact List.rdropWhile_idempotent isSpace (lstrip t)

theorem strip_cons {c : Char} (h : isSpace c = true) (t : Text) : strip (c :: t) = strip t := by
  simp only [strip, List.dropWhile_cons, h, if_true]

/-- A text whose ends are not white space. -/
theorem strip_eq_self {t : Text} (hhead : ∀ c ∈ t.head?, isSpace c = false)
    (hlast : ∀ c ∈ t.getLast?, isSpace c = false) : strip t = t := by
  have hdrop : t.dropWhile isSpace = t := by
    cases t with
    | nil => rfl
    | cons c t => simp [hhead c rfl]
  rw [strip, hdrop, List.rdropWhile_eq_self_iff]
  intro hne
  simp [hlast _ (List.getLast_mem_getLast? hne)]

/-! ## Lines without their margins -/

/-- A line without its margins, or nothing if that is all it is. -/
def trim (line : Text) : List Text := if strip line = [] then [] else [strip line]

/-- The lines of a text, without their margins and without the blank ones. -/
def trimmed (t : Text) : List Text := (splitlines t).flatMap trim

def trimmedFrom (line t : Text) : List Text := (splitlinesFrom line t).flatMap trim

theorem trim_cons {c : Char} (hc : isSpace c = true) (line : Text) : trim (c :: line) =
    trim line := by
  rw [trim, strip_cons hc]
  rfl

theorem trim_concat {c : Char} (hc : isSpace c = true) (line : Text) :
    trim (line ++ [c]) = trim line := by
  have hstrip : strip (line ++ [c]) = strip line := by
    rw [← strip_rstrip, rstrip, List.rdropWhile_concat_pos _ _ _ hc]
    exact strip_rstrip line
  rw [trim, hstrip]
  rfl

theorem trimmedFrom_nil (line : Text) : trimmedFrom line [] = trim line.reverse := by
  rw [trimmedFrom, splitlinesFrom]
  split_ifs with hline
  · subst hline
    rfl
  · exact List.append_nil _

theorem trimmedFrom_pair (line t : Text) :
    trimmedFrom line ('\r' :: '\n' :: t) = trim line.reverse ++ trimmedFrom [] t := rfl

theorem trimmedFrom_cons {c : Char} {t : Text} (h : ¬(c = '\r' ∧ t.head? = some '\n'))
    (line : Text) :
    trimmedFrom line (c :: t) =
      if isLineBreak c then trim line.reverse ++ trimmedFrom [] t
        else trimmedFrom (c :: line) t := by
  rw [trimmedFrom, splitlinesFrom.eq_3 line c t]
  · split_ifs <;> rfl
  · rintro rest rfl rfl
    exact h ⟨rfl, rfl⟩

/-- The margin of the line that is being read does not matter. -/
theorem trimmedFrom_margin {c : Char} (hc : isSpace c = true) (t : Text) :
    ∀ line, trimmedFrom (line ++ [c]) t = trimmedFrom line t := by
  have hreverse (line : Text) : trim (line ++ [c]).reverse = trim line.reverse := by
    rw [List.reverse_append]
    exact trim_cons hc line.reverse
  induction t with
  | nil =>
    intro line
    rw [trimmedFrom_nil, trimmedFrom_nil, hreverse]
  | cons x t ih =>
    intro line
    by_cases hpair : x = '\r' ∧ t.head? = some '\n'
    · obtain ⟨rfl, hhead⟩ := hpair
      obtain ⟨t, rfl⟩ := List.head?_eq_some_iff.1 hhead
      rw [trimmedFrom_pair, trimmedFrom_pair, hreverse]
    · rw [trimmedFrom_cons hpair, trimmedFrom_cons hpair, hreverse]
      split_ifs
      · rfl
      · exact ih (x :: line)

theorem trimmed_cons {c : Char} (hc : isSpace c = true) (t : Text) : trimmed (c :: t) =
    trimmed t := by
  show trimmedFrom [] (c :: t) = trimmedFrom [] t
  by_cases hpair : c = '\r' ∧ t.head? = some '\n'
  · obtain ⟨rfl, hhead⟩ := hpair
    obtain ⟨t, rfl⟩ := List.head?_eq_some_iff.1 hhead
    rfl
  · rw [trimmedFrom_cons hpair]
    split_ifs
    · rfl
    · exact trimmedFrom_margin hc t []

theorem trimmedFrom_concat {c : Char} (hc : isSpace c = true) :
    ∀ t line : Text, trimmedFrom line (t ++ [c]) = trimmedFrom line t
  | [], line => by
    rw [List.nil_append, trimmedFrom_cons (by simp), trimmedFrom_nil, trimmedFrom_nil,
      trimmedFrom_nil]
    split_ifs
    · exact List.append_nil _
    · rw [List.reverse_cons]
      exact trim_concat hc line.reverse
  | [x], line => by
    by_cases hpair : x = '\r' ∧ c = '\n'
    · obtain ⟨rfl, rfl⟩ := hpair
      rfl
    · have hx : ¬(x = '\r' ∧ [c].head? = some '\n') := fun h => hpair ⟨h.1, Option.some.inj h.2⟩
      have hx' : ¬(x = '\r' ∧ ([] : Text).head? = some '\n') := by simp
      rw [List.singleton_append, trimmedFrom_cons hx, trimmedFrom_cons hx']
      split_ifs
      · rw [← trimmedFrom_concat hc [] []]
        rfl
      · exact trimmedFrom_concat hc [] (x :: line)
  | x :: y :: t, line => by
    by_cases hpair : x = '\r' ∧ y = '\n'
    · obtain ⟨rfl, rfl⟩ := hpair
      rw [List.cons_append, List.cons_append, trimmedFrom_pair, trimmedFrom_pair,
        trimmedFrom_concat hc t []]
    · have hx (s : Text) : ¬(x = '\r' ∧ (y :: s).head? = some '\n') :=
        fun h => hpair ⟨h.1, Option.some.inj h.2⟩
      rw [List.cons_append, List.cons_append, trimmedFrom_cons (hx _), trimmedFrom_cons (hx _)]
      have hrest := trimmedFrom_concat hc (y :: t)
      split_ifs
      · rw [← hrest []]
        rfl
      · exact hrest (x :: line)

theorem trimmed_lstrip (t : Text) : trimmed (lstrip t) = trimmed t := by
  induction t with
  | nil => rfl
  | cons c t ih =>
    by_cases hc : isSpace c = true
    · rw [lstrip, List.dropWhile_cons_of_pos hc, trimmed_cons hc]
      exact ih
    · rw [lstrip, List.dropWhile_cons_of_neg hc]

theorem trimmed_rstrip (t : Text) : trimmed (rstrip t) = trimmed t := by
  induction t using List.reverseRecOn with
  | nil => rfl
  | append_singleton t c ih =>
    by_cases hc : isSpace c = true
    · rw [rstrip, List.rdropWhile_concat_pos _ _ _ hc]
      exact ih.trans (trimmedFrom_concat hc t []).symm
    · rw [rstrip, List.rdropWhile_concat_neg _ _ _ hc]

/-- White space around a text adds no line to it. -/
theorem trimmed_strip (t : Text) : trimmed (strip t) = trimmed t :=
  (trimmed_rstrip (lstrip t)).trans (trimmed_lstrip t)

/-- A loop over the stripped lines that passes over the blank ones. -/
theorem foldl_trimmed {σ : Type} {read : σ → Text → σ} (h : ∀ s, read s [] = s) (s : σ)
    (lines : List Text) : (lines.map strip).foldl read s = (lines.flatMap trim).foldl read s := by
  induction lines generalizing s with
  | nil => rfl
  | cons line lines ih =>
    rw [List.map_cons, List.foldl_cons, List.flatMap_cons, List.foldl_append, ih, trim]
    split_ifs with hline
    · rw [hline, h]
      rfl
    · rfl

theorem trimmed_append (head rest : Text) :
    trimmed (head ++ '\n' :: rest) = trimmed head ++ trimmed rest := by
  have hlines : splitlinesFrom [] (head ++ '\n' :: rest) =
      splitlinesFrom [] (head ++ ['\n']) ++ splitlines rest :=
    splitlinesFrom_append (by decide) (fun h => absurd h (by decide)) [] head
  have hhead : trimmedFrom [] (head ++ ['\n']) = trimmedFrom [] head :=
    trimmedFrom_concat (by decide) head []
  show (splitlinesFrom [] (head ++ '\n' :: rest)).flatMap trim = _
  rw [hlines, List.flatMap_append]
  exact congrArg (· ++ trimmed rest) hhead

theorem trimmed_line {line : Text} (h : ∀ c ∈ line, isLineBreak c = false) :
    trimmed line = trim line := by
  have hline : splitlinesFrom [] (line ++ ['\n']) = ([].reverse ++ line) :: splitlinesFrom [] [] :=
    splitlinesFrom_line h
  show trimmedFrom [] line = trim line
  rw [← trimmedFrom_concat (c := '\n') (by decide) line [], trimmedFrom, hline]
  exact List.append_nil _

theorem trimmed_flatMap {lines : List Text}
    (h : ∀ line ∈ lines, ∀ c ∈ line, isLineBreak c = false) :
    trimmed (lines.flatMap (· ++ ['\n'])) = lines.flatMap trim := by
  rw [trimmed, splitlines_flatMap h]

theorem rstrip_blank (a : Text) {b : Text} (h : ∀ c ∈ b, isSpace c = true) :
    rstrip (a ++ b) = rstrip a := by
  have hdrop : b.reverse.dropWhile isSpace = [] :=
    List.dropWhile_eq_nil_iff.2 fun c hc => h c (List.mem_reverse.1 hc)
  rw [rstrip, rstrip, List.rdropWhile, List.rdropWhile, List.reverse_append, List.dropWhile_append,
    hdrop]
  rfl

/-- A character that is no white space keeps what stands before it. -/
theorem rstrip_keep {c : Char} (hc : isSpace c = false) (a b : Text) :
    rstrip (a ++ c :: b) = a ++ c :: rstrip b := by
  have hsolid : rstrip [c] = [c] := List.rdropWhile_concat_neg isSpace [] c (by simp [hc])
  by_cases hb : rstrip b = []
  · have hone : rstrip (c :: b) = [c] :=
      (rstrip_blank [c] (List.rdropWhile_eq_nil_iff.1 hb)).trans hsolid
    rw [rstrip_append (by rw [hone]; exact List.cons_ne_nil c []), hone, hb]
  · have hcons : rstrip (c :: b) = c :: rstrip b := rstrip_append (a := [c]) hb
    rw [rstrip_append (by rw [hcons]; exact List.cons_ne_nil c _), hcons]

theorem mem_of_mem_rstrip {c : Char} {t : Text} (h : c ∈ rstrip t) : c ∈ t :=
  (List.rdropWhile_prefix isSpace t).subset h

/-! ## Splitting at newlines -/

theorem splitOn_flatMap {lines : List Text} (h : ∀ line ∈ lines, '\n' ∉ line) :
    (lines.flatMap (· ++ ['\n'])).splitOn '\n' = lines ++ [[]] := by
  induction lines with
  | nil => rfl
  | cons line lines ih =>
    have hrest := ih fun line' hline' => h line' (List.mem_cons_of_mem line hline')
    rw [List.flatMap_cons, List.append_assoc, List.singleton_append, List.splitOn_append_cons_self,
      List.splitOn_eq_singleton (h line List.mem_cons_self), hrest]
    rfl

/-- The pieces of what a text begins with are beginnings of its pieces. -/
theorem splitOn_append_prefix (a b : Text) :
    ∃ first rest first' rest', a.splitOn '\n' = first :: rest ∧
      (a ++ b).splitOn '\n' = first' :: rest' ∧ first <+: first' ∧
      ∀ line ∈ rest, ∃ line' ∈ rest', line <+: line' := by
  induction a with
  | nil =>
    obtain ⟨first', rest', hsplit⟩ := List.exists_cons_of_ne_nil (List.splitOn_ne_nil '\n' b)
    exact ⟨[], [], first', rest', rfl, hsplit, List.nil_prefix, by simp⟩
  | cons c a ih =>
    obtain ⟨first, rest, first', rest', ha, hab, hfirst, hrest⟩ := ih
    rw [List.cons_append, List.splitOn_cons_eq_if_modifyHead, List.splitOn_cons_eq_if_modifyHead,
      ha, hab]
    split_ifs
    · refine ⟨[], first :: rest, [], first' :: rest', rfl, rfl, List.prefix_rfl, ?_⟩
      intro line hline
      rcases List.mem_cons.1 hline with rfl | hline
      · exact ⟨first', List.mem_cons_self, hfirst⟩
      · obtain ⟨line', hline', hprefix⟩ := hrest line hline
        exact ⟨line', List.mem_cons_of_mem first' hline', hprefix⟩
    · exact ⟨c :: first, rest, c :: first', rest', rfl, rfl, List.prefix_cons_inj c |>.2 hfirst,
        hrest⟩

theorem mem_splitOn_prefix {a t line : Text} (h : a <+: t) (hline : line ∈ a.splitOn '\n') :
    ∃ line' ∈ t.splitOn '\n', line <+: line' := by
  obtain ⟨b, rfl⟩ := h
  obtain ⟨first, rest, first', rest', ha, hab, hfirst, hrest⟩ := splitOn_append_prefix a b
  rw [ha] at hline
  rw [hab]
  rcases List.mem_cons.1 hline with rfl | hline
  · exact ⟨first', List.mem_cons_self, hfirst⟩
  · obtain ⟨line', hline', hprefix⟩ := hrest line hline
    exact ⟨line', List.mem_cons_of_mem first' hline', hprefix⟩

/-! ## Words -/

/-- The part of a text up to the white space. -/
def word (t : Text) : Text := t.takeWhile (!isSpace ·)

theorem word_append {w : Text} (h : ∀ c ∈ w, isSpace c = false) (t : Text) :
    word (w ++ t) = w ++ word t :=
  List.takeWhile_append_of_pos fun c hc => by simp [h c hc]

theorem word_append_space {w : Text} (h : ∀ c ∈ w, isSpace c = false) {c : Char}
    (hc : isSpace c = true) (t : Text) : word (w ++ c :: t) = w := by
  rw [word_append h, word, List.takeWhile_cons, hc]
  exact List.append_nil w

theorem word_eq_self {w : Text} (h : ∀ c ∈ w, isSpace c = false) : word w = w := by
  have happend := word_append h []
  rwa [List.append_nil, show word [] = [] from rfl, List.append_nil] at happend

theorem isSpace_word {t : Text} {c : Char} (hc : c ∈ word t) : isSpace c = false := by
  have h := List.mem_takeWhile_imp hc
  simpa using h

/-- The second word of a line, the first one being known. -/
theorem words_pair {w t : Text} (hw : ∀ c ∈ w, isSpace c = false) (hne : w ≠ []) {c : Char}
    (hhead : t.head? = some c) (hc : isSpace c = false) :
    (words (w ++ ' ' :: t)).getD 1 [] = word t := by
  have hsplit : t = word t ++ t.dropWhile (!isSpace ·) := List.takeWhile_append_dropWhile.symm
  have hword : word t ≠ [] := by
    cases t with
    | nil => cases hhead
    | cons d t =>
      cases hhead
      simp [word, hc]
  have hsecond : ∃ ts, t.splitOnP isSpace = word t :: ts := by
    cases hrest : t.dropWhile (!isSpace ·) with
    | nil =>
      rw [hrest, List.append_nil] at hsplit
      refine ⟨[], ?_⟩
      rw [← hsplit]
      exact List.splitOnP_eq_singleton fun d hd => isSpace_word (hsplit ▸ hd)
    | cons d rest =>
      have hd : isSpace d = true := by
        have hne' : t.dropWhile (!isSpace ·) ≠ [] := by simp [hrest]
        have hhead' := List.head_dropWhile_not (!isSpace ·) hne'
        simpa [hrest] using hhead'
      refine ⟨rest.splitOnP isSpace, ?_⟩
      conv_lhs => rw [hsplit, hrest]
      exact List.splitOnP_append_cons_of_forall_mem (fun d hd => isSpace_word hd) d hd rest
  obtain ⟨ts, hts⟩ := hsecond
  rw [words, List.splitOnP_append_cons_of_forall_mem hw ' ' rfl t, hts]
  simp [hne, hword]

/-! ## Numbers -/

theorem isSpace_digit {c : Char} (h : c.isDigit = true) : isSpace c = false := by
  simp only [Char.isDigit, Bool.and_eq_true, decide_eq_true_eq, UInt32.le_iff_toNat_le] at h
  have h1 : 48 ≤ c.toNat := h.1
  have h2 : c.toNat ≤ 57 := h.2
  by_contra hs
  simp only [isSpace, List.contains_eq_mem, List.mem_cons, List.not_mem_nil, or_false,
    Bool.or_eq_true, Bool.and_eq_true, decide_eq_true_eq, Bool.not_eq_false] at hs
  omega

theorem int_digits {t : Text} (hne : t ≠ []) (h : ∀ c ∈ t, c.isDigit = true) :
    int t = some (digitsValue t : Int) := by
  have hspace : ∀ c ∈ t, isSpace c = false := fun c hc => isSpace_digit (h c hc)
  have hnatural : natural t = some (digitsValue t) := by
    have hno : '_' ∉ t := by
      intro hmem
      exact absurd (h '_' hmem) (by decide)
    have hfilter : t.filter (· ≠ '_') = t := by
      rw [List.filter_eq_self]
      intro c hc
      have hne' : c ≠ '_' := fun heq => hno (heq ▸ hc)
      simpa using hne'
    rw [natural, List.splitOn_eq_singleton hno, hfilter, if_pos]
    simpa [hne] using h
  rw [int, strip_id hspace]
  cases t with
  | nil => exact absurd rfl hne
  | cons c t =>
    have hminus : c ≠ '-' := by
      rintro rfl
      exact absurd (h '-' List.mem_cons_self) (by decide)
    have hplus : c ≠ '+' := by
      rintro rfl
      exact absurd (h '+' List.mem_cons_self) (by decide)
    split
    · rename_i heq
      cases heq
      exact absurd rfl hminus
    · rename_i heq
      cases heq
      exact absurd rfl hplus
    · rw [hnatural]
      rfl

end Text

end WlanpiCore
