import WlanpiCore.Adapter.IwDevAgree
import Mathlib.Data.List.Infix

/-!
# Looking interfaces up in the text of `iw`

Before it makes monitors, `SystemManager` asks `iw dev` for the netdevs and their types
(`getInterfacesByType`), and `iw dev <iface> info` for the phy of one of them (`getWiphyIndex`).
Both look for a word anywhere in a line, where the inventory's parser looks for it at the line's
start.

A command's output is read without the white space at its ends, which changes its last line only:
`splitlines_captured`.
-/

namespace WlanpiCore.Monitors

open Text Adapter

/-! ## The lookups -/

/-- The decimal zeros; nine digits follow each. -/
def zeros : List Nat :=
  [0x30, 0x660, 0x6f0, 0x7c0, 0x966, 0x9e6, 0xa66, 0xae6, 0xb66, 0xbe6, 0xc66, 0xce6, 0xd66, 0xde6,
    0xe50, 0xed0, 0xf20, 0x1040, 0x1090, 0x17e0, 0x1810, 0x1946, 0x19d0, 0x1a80, 0x1a90, 0x1b50,
    0x1bb0, 0x1c40, 0x1c50, 0xa620, 0xa8d0, 0xa900, 0xa9d0, 0xa9f0, 0xaa50, 0xabf0, 0xff10, 0x104a0,
    0x10d30, 0x11066, 0x110f0, 0x11136, 0x111d0, 0x112f0, 0x11450, 0x114d0, 0x11650, 0x116c0,
    0x11730, 0x118e0, 0x11950, 0x11c50, 0x11d50, 0x11da0, 0x11f50, 0x16a60, 0x16ac0, 0x16b50,
    0x1d7ce, 0x1d7d8, 0x1d7e2, 0x1d7ec, 0x1d7f6, 0x1e140, 0x1e2f0, 0x1e4f0, 0x1e950, 0x1fbf0]

/-- The other runs of digits (superscript, circled and the like): the first and the last of each. -/
def digitRuns : List (Nat × Nat) :=
  [(0xb2, 0xb3), (0xb9, 0xb9), (0x1369, 0x1371), (0x19da, 0x19da), (0x2070, 0x2070),
    (0x2074, 0x2079), (0x2080, 0x2089), (0x2460, 0x2468), (0x2474, 0x247c), (0x2488, 0x2490),
    (0x24ea, 0x24ea), (0x24f5, 0x24fd), (0x24ff, 0x24ff), (0x2776, 0x277e), (0x2780, 0x2788),
    (0x278a, 0x2792), (0x10a40, 0x10a43), (0x10e60, 0x10e68), (0x11052, 0x1105a),
      (0x1f100, 0x1f10a)]

/-- `str.isdigit` of a character. -/
def isDigit (c : Char) : Bool :=
  zeros.any (fun first => first ≤ c.toNat && c.toNat ≤ first + 9) ||
    digitRuns.any fun run => run.1 ≤ c.toNat && c.toNat ≤ run.2

/-- `text in line`. -/
def holds (text line : Text) : Bool := decide (text <:+: line)

/-- What `_run` returns of a command's output. -/
def captured (stdout : Text) : Text := strip stdout

/-- `_get_wiphy_index`: the digits of the first line with `wiphy` in it. -/
def getWiphyIndex (output : Text) : Option Text :=
  ((splitlines output).find? (holds "wiphy".toList)).map (·.filter isDigit)

/-- A dict; the order of its keys is not read. -/
abbrev Types := AList fun _ : Text => Text

structure TypeState where
  interfaces : Types := ∅
  currentIface : Option Text := none

/-- One line of the output; `none` is an `IndexError`. -/
def TypeState.read (exclusions : List Text) (s : TypeState) (line : Text) : Option TypeState :=
  if "Interface".toList.isPrefixOf (strip line) then
    (words (strip line))[1]?.map fun iface => { s with currentIface := some iface }
  else
    match s.currentIface with
    | none => some s
    | some iface =>
      if holds "type".toList line then
        (words (strip line))[1]?.map fun ifaceType =>
          -- An excluded interface stays the current one.
          if iface ∈ exclusions then s else ⟨s.interfaces.insert iface ifaceType, none⟩
      else some s

/-- `_get_interfaces_by_type`. -/
def getInterfacesByType (exclusions : List Text) (output : Text) : Option Types :=
  ((splitlines output).foldlM (TypeState.read exclusions) {}).map (·.interfaces)

/-! ## Stripped lines -/

theorem strip_strip (t : Text) : strip (strip t) = strip t := by
  have hcore : strip (strip t) = strip (lstrip t) := strip_rstrip (lstrip t)
  rw [hcore, strip, lstrip, List.dropWhile_idempotent]
  rfl

theorem infix_dropWhile {w t : Text} (hne : w ≠ []) (hw : ∀ c ∈ w, isSpace c = false)
    (h : w <:+: t) : w <:+: t.dropWhile isSpace := by
  induction t with
  | nil => exact h
  | cons c t ih =>
    by_cases hc : isSpace c = true
    · rw [List.dropWhile_cons_of_pos hc]
      rcases List.infix_cons_iff.1 h with hstart | hrest
      · obtain ⟨rest, heq⟩ := hstart
        cases w with
        | nil => exact absurd rfl hne
        | cons d w =>
          rw [List.cons_append, List.cons.injEq] at heq
          rw [heq.1] at hw
          rw [hw c List.mem_cons_self] at hc
          cases hc
      · exact ih hrest
    · rwa [List.dropWhile_cons_of_neg hc]

/-- White space at the ends of a line hides no word. -/
theorem holds_strip {w : Text} (hne : w ≠ []) (hw : ∀ c ∈ w, isSpace c = false) (line : Text) :
    holds w (strip line) = holds w line := by
  refine decide_eq_decide.2 ⟨fun h => ?_, fun h => ?_⟩
  · have hend : lstrip line <:+ line := List.dropWhile_suffix isSpace
    have hstart : strip line <+: lstrip line := List.rdropWhile_prefix isSpace (lstrip line)
    exact h.trans (List.IsInfix.trans (List.IsPrefix.isInfix hstart) (List.IsSuffix.isInfix hend))
  · have hleft := infix_dropWhile hne hw h
    have hreverse := infix_dropWhile (w := w.reverse) (by simpa using hne) (by simpa using hw)
      (List.reverse_infix.2 hleft)
    rw [← List.reverse_infix, strip, List.rdropWhile, List.reverse_reverse]
    exact hreverse

theorem read_strip (exclusions : List Text) (s : TypeState) (line : Text) :
    s.read exclusions (strip line) = s.read exclusions line := by
  simp only [TypeState.read, strip_strip,
    holds_strip (w := "type".toList) (by decide) (forall_of_all (by decide)) line]

theorem isDigit_space {c : Char} (h : isSpace c = true) : isDigit c = false := by
  have hspaces : ∀ n ∈ [0x9, 0xa, 0xb, 0xc, 0xd, 0x1c, 0x1d, 0x1e, 0x1f, 0x20, 0x85, 0xa0, 0x1680,
      0x2000, 0x2001, 0x2002, 0x2003, 0x2004, 0x2005, 0x2006, 0x2007, 0x2008, 0x2009,
        0x200a, 0x2028,
      0x2029, 0x202f, 0x205f, 0x3000], zeros.any (fun first => first ≤ n && n ≤ first + 9) = false ∧
      (digitRuns.any fun run => run.1 ≤ n && n ≤ run.2) = false := by
    decide
  have hmem := hspaces c.toNat (by
    simp only [isSpace, List.contains_eq_mem, List.mem_cons, List.not_mem_nil, or_false,
      Bool.or_eq_true, Bool.and_eq_true, decide_eq_true_eq] at h ⊢
    omega)
  rw [isDigit, hmem.1, hmem.2]
  rfl

theorem isDigit_ascii {c : Char} (h : c.isDigit = true) : isDigit c = true := by
  simp only [Char.isDigit, Bool.and_eq_true, decide_eq_true_eq, UInt32.le_iff_toNat_le] at h
  have hlow : 48 ≤ c.toNat := h.1
  have hhigh : c.toNat ≤ 57 := h.2
  rw [isDigit, Bool.or_eq_true]
  exact Or.inl (List.any_eq_true.2 ⟨0x30, List.mem_cons_self, by simp; omega⟩)

theorem digits_dropWhile (t : Text) : (t.dropWhile isSpace).filter isDigit = t.filter isDigit := by
  induction t with
  | nil => rfl
  | cons c t ih =>
    by_cases hc : isSpace c = true
    · rw [List.dropWhile_cons_of_pos hc, ih, List.filter_cons_of_neg (by simp [isDigit_space hc])]
    · rw [List.dropWhile_cons_of_neg hc]

theorem digits_strip (t : Text) : (strip t).filter isDigit = t.filter isDigit := by
  rw [strip, List.rdropWhile, List.filter_reverse, digits_dropWhile, List.filter_reverse,
    List.reverse_reverse, digits_dropWhile]

/-! ## The output as it is captured -/

theorem splitlinesFrom_unbroken {t : Text} (h : ∀ c ∈ t, isLineBreak c = false) (line : Text)
    (hne : line.reverse ++ t ≠ []) : splitlinesFrom line t = [line.reverse ++ t] := by
  induction t generalizing line with
  | nil =>
    rw [List.append_nil] at hne ⊢
    rw [splitlinesFrom, if_neg (by simpa using hne)]
  | cons c t ih =>
    have hc := h c List.mem_cons_self
    rw [splitlinesFrom, hc, if_neg Bool.false_ne_true,
      ih (fun d hd => h d (List.mem_cons_of_mem c hd)) (c :: line) (by simp)]
    · simp
    · rintro rest rfl
      exact absurd hc (by decide)

theorem splitlines_append {lines : List Text}
    (h : ∀ line ∈ lines, ∀ c ∈ line, isLineBreak c = false)
    {t : Text} (ht : ∀ c ∈ t, isLineBreak c = false) (hne : t ≠ []) :
    splitlines (lines.flatMap (· ++ ['\n']) ++ t) = lines ++ [t] := by
  induction lines with
  | nil => exact splitlinesFrom_unbroken ht [] hne
  | cons line lines ih =>
    have hrest := ih fun line' hline' => h line' (List.mem_cons_of_mem line hline')
    rw [List.flatMap_cons, List.append_assoc, List.append_assoc, splitlines, List.singleton_append,
      splitlinesFrom_line (h line List.mem_cons_self)]
    exact congrArg (line :: ·) hrest

/-- The lines that were written, up to white space at their ends. -/
theorem splitlines_captured {lines : List Text}
    (hunbroken : ∀ line ∈ lines, ∀ c ∈ line, isLineBreak c = false)
    (hblank : ∀ line ∈ lines, strip line ≠ [])
    (hhead : ∀ line ∈ lines.head?, ∀ c ∈ line.head?, isSpace c = false) :
    (splitlines (captured (lines.flatMap (· ++ ['\n'])))).map strip = lines.map strip := by
  rcases List.eq_nil_or_concat lines with rfl | ⟨init, last, rfl⟩
  · rfl
  · rw [List.concat_eq_append] at *
    have hlast : last ∈ init ++ [last] := List.mem_append_right init List.mem_cons_self
    have hne : rstrip last ≠ [] := by
      intro hnil
      apply hblank last hlast
      rw [← strip_rstrip, hnil]
      rfl
    have hnewline : rstrip (last ++ ['\n']) = rstrip last :=
      List.rdropWhile_concat_pos isSpace last '\n' rfl
    have hlstrip : lstrip ((init ++ [last]).flatMap (· ++ ['\n'])) =
        (init ++ [last]).flatMap (· ++ ['\n']) := by
      cases hlines : init ++ [last] with
      | nil => rfl
      | cons line lines =>
        rw [hlines] at hhead hblank
        cases line with
        | nil => exact absurd rfl (hblank [] List.mem_cons_self)
        | cons c line =>
          rw [List.flatMap_cons]
          exact List.dropWhile_cons_of_neg (by simp [hhead _ rfl c rfl])
    have hcaptured : captured ((init ++ [last]).flatMap (· ++ ['\n'])) =
        init.flatMap (· ++ ['\n']) ++ rstrip last := by
      have hstrip : captured ((init ++ [last]).flatMap (· ++ ['\n'])) =
          rstrip (lstrip ((init ++ [last]).flatMap (· ++ ['\n']))) := rfl
      rw [hstrip, hlstrip, List.flatMap_append, List.flatMap_singleton,
        rstrip_append (by rwa [hnewline]), hnewline]
    have hrstrip : ∀ c ∈ rstrip last, isLineBreak c = false := fun c hc =>
      hunbroken last hlast c ((List.rdropWhile_prefix isSpace last).subset hc)
    rw [hcaptured, splitlines_append (fun line hline =>
      hunbroken line (List.mem_append_left _ hline))
      hrstrip hne]
    simp only [List.map_append, List.map_cons, List.map_nil, strip_rstrip]

/-! ## What `iw` prints -/

/-- The wdevs of a phy. -/
def phyWdevs (p : Phy) : List Wdev :=
  p.unnamed ++ p.netdevs.flatMap fun n => n.toWdev :: n.unnamed

/-- The output of `iw dev`: only the first line of a netdev starts with `Interface`. -/
structure IwPrinted extends IwDev where
  heading : ∀ p ∈ phys, ∀ w ∈ phyWdevs p, ∀ line ∈ w.before ++ w.after,
    "Interface".toList.isPrefixOf (strip line.text) = false

/-- The output of `iw dev <iface> info`. -/
structure IwInfo where
  name : { t : Text // isWord t = true }
  /-- The lines above the type, the SSID's among them. -/
  before : List Line
  type : { t : Text // isTypeName t = true }
  between : List Line
  wiphy : { t : Text // isIndex t = true }
  after : List Line

/-- The lines above the `wiphy` line. -/
def IwInfo.ahead (info : IwInfo) : List Text :=
  ("Interface ".toList ++ info.name) :: (info.before.map (·.text) ++
    ("\ttype ".toList ++ info.type) :: info.between.map (·.text))

def IwInfo.lines (info : IwInfo) : List Text :=
  info.ahead ++ ("\twiphy ".toList ++ info.wiphy) :: info.after.map (·.text)

def IwInfo.output (info : IwInfo) : Text := info.lines.flatMap (· ++ ['\n'])

end WlanpiCore.Monitors
