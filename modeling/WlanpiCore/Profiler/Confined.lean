import Mathlib.Data.List.Forall2
import WlanpiCore.Profiler.Files

/-!
# Reads stay below the data root

A name that `read_file` lets through has no slash and is no `.` or `..`, also as the bytes the
kernel gets: a surrogate stands for one byte beyond ASCII. So each open looks one entry up, and
`O_NOFOLLOW` refuses it if it is a symlink.

**Theorem (`readFile_confined`).** Whatever is swapped between the calls, bytes that `read_file`
returns are those of a regular file at `clients/<dir>/<file>` or `reports/<file>`, reached from the
data root over directories that are no symlinks.
-/

namespace WlanpiCore.Profiler

open Text PyStr

/-! ## Names as bytes -/

theorem utf8EncodeChar_low {c : Char} {b : UInt8} (hb : b ∈ String.utf8EncodeChar c)
    (hlow : b.toNat < 0x80) : String.utf8EncodeChar c = [b] ∧ c = Char.ofNat b.toNat := by
  have hvalid : c.toNat < 0xd800 ∨ 0xdfff < c.toNat ∧ c.toNat < 0x110000 := c.valid
  have hdef : c.val.toNat = c.toNat := rfl
  have hc : Char.ofNat c.toNat = c := Char.ofNat_toNat c
  simp only [String.utf8EncodeChar, hdef] at hb ⊢
  generalize c.toNat = v at *
  split_ifs at hb ⊢ with h1 h2 h3
  · obtain rfl := List.mem_singleton.1 hb
    refine ⟨rfl, ?_⟩
    have hv : (UInt8.ofNat v).toNat = v := by simp; omega
    rw [hv, hc]
  all_goals
    simp only [List.mem_cons, List.not_mem_nil, or_false] at hb
    rcases hb with rfl | rfl | rfl | rfl <;> simp at hlow <;> omega

theorem fsencode_low {c : PyChar} {bytes : Bytes} (h : c.fsencode = some bytes) {b : UInt8}
    (hb : b ∈ bytes) (hlow : b.toNat < 0x80) : bytes = [b] ∧ c = .char (Char.ofNat b.toNat) := by
  cases c with
  | char c =>
    obtain rfl := Option.some.inj h
    obtain ⟨hbytes, hc⟩ := utf8EncodeChar_low hb hlow
    exact ⟨hbytes, congrArg _ hc⟩
  | surrogate n =>
    simp only [PyChar.fsencode] at h
    split_ifs at h with hn
    obtain rfl := Option.some.inj h
    obtain rfl := List.mem_singleton.1 hb
    simp at hlow
    omega

theorem PyChar.fsencode_ne_nil {c : PyChar} {bytes : Bytes} (h : c.fsencode = some bytes) :
    bytes ≠ [] := by
  cases c with
  | char c =>
    obtain rfl := Option.some.inj h
    intro hnil
    have hlen := String.length_utf8EncodeChar c
    rw [hnil] at hlen
    exact absurd hlen (Nat.ne_of_lt (Char.utf8Size_pos c))
  | surrogate n =>
    simp only [PyChar.fsencode] at h
    split_ifs at h
    obtain rfl := Option.some.inj h
    exact List.cons_ne_nil _ _

theorem fsencode_cons {c : PyChar} {s : PyStr} {bytes : Bytes}
    (h : fsencode (c :: s) = some bytes) :
    ∃ first rest, c.fsencode = some first ∧ fsencode s = some rest ∧ bytes = first ++ rest := by
  rw [fsencode] at h
  cases hc : c.fsencode with
  | none =>
    rw [hc] at h
    cases h
  | some first =>
    cases hs : fsencode s with
    | none =>
      rw [hc, hs] at h
      cases h
    | some rest =>
      rw [hc, hs] at h
      exact ⟨first, rest, rfl, rfl, (Option.some.inj h).symm⟩

theorem mem_of_mem_fsencode {s : PyStr} : ∀ {bytes : Bytes}, fsencode s = some bytes →
    ∀ {b : UInt8}, b ∈ bytes → b.toNat < 0x80 → .char (Char.ofNat b.toNat) ∈ s := by
  induction s with
  | nil =>
    intro bytes h b hb
    obtain rfl := Option.some.inj h
    cases hb
  | cons c s ih =>
    intro bytes h b hb hlow
    obtain ⟨first, rest, hc, hs, rfl⟩ := fsencode_cons h
    rcases List.mem_append.1 hb with hfirst | hrest
    · rw [(fsencode_low hc hfirst hlow).2]
      exact List.mem_cons_self
    · exact List.mem_cons_of_mem c (ih hs hrest hlow)

/-- Only the ASCII text itself is encoded as ASCII bytes. -/
theorem eq_of_fsencode_low {s : PyStr} : ∀ {bytes : Bytes}, fsencode s = some bytes →
    (∀ b ∈ bytes, b.toNat < 0x80) → s = bytes.map fun b => .char (Char.ofNat b.toNat) := by
  induction s with
  | nil =>
    intro bytes h _
    obtain rfl := Option.some.inj h
    rfl
  | cons c s ih =>
    intro bytes h hlow
    obtain ⟨first, rest, hc, hs, rfl⟩ := fsencode_cons h
    obtain ⟨b, tail, rfl⟩ := List.exists_cons_of_ne_nil (PyChar.fsencode_ne_nil hc)
    obtain ⟨hfirst, rfl⟩ := fsencode_low hc List.mem_cons_self (hlow b (by simp))
    rw [hfirst, List.singleton_append, List.map_cons,
      ih hs fun b hb => hlow b (List.mem_append_right _ hb)]

/-- What `read_file` lets through is the name of an entry. -/
theorem isName_of_not_bad {p : PyStr} (hbad : bad p = false) (hslash : slash ∉ p) {bytes : Bytes}
    (h : fsencode p = some bytes) : isName bytes = true := by
  simp only [bad, Bool.or_eq_false_iff, decide_eq_false_iff_not, List.contains_eq_mem] at hbad
  obtain ⟨⟨⟨hnil, hdot⟩, hdots⟩, hnul⟩ := hbad
  simp only [isName, Bool.and_eq_true, decide_eq_true_eq, Bool.not_eq_true', List.contains_eq_mem,
    decide_eq_false_iff_not]
  refine ⟨⟨⟨⟨?_, ?_⟩, ?_⟩, ?_⟩, ?_⟩
  · rintro rfl
    exact hnil (eq_of_fsencode_low h (by simp))
  · rintro rfl
    exact hdot (eq_of_fsencode_low h (List.forall_mem_singleton.2 (by decide)))
  · rintro rfl
    have hlow : ∀ b ∈ ([0x2e, 0x2e] : Bytes), b.toNat < 0x80 :=
      List.forall_mem_cons.2 ⟨by decide, List.forall_mem_singleton.2 (by decide)⟩
    exact hdots (eq_of_fsencode_low h hlow)
  · intro hmem
    exact hslash (mem_of_mem_fsencode h hmem (by decide))
  · intro hmem
    exact hnul (mem_of_mem_fsencode h hmem (by decide))

theorem fsencode_append {s s' : PyStr} {bytes bytes' : Bytes} (h : fsencode s = some bytes)
    (h' : fsencode s' = some bytes') : fsencode (s ++ s') = some (bytes ++ bytes') := by
  induction s generalizing bytes with
  | nil =>
    obtain rfl := Option.some.inj h
    exact h'
  | cons c s ih =>
    obtain ⟨first, rest, hc, hs, rfl⟩ := fsencode_cons h
    rw [List.cons_append, fsencode, hc, ih hs, List.append_assoc]

theorem fsencode_ofText (t : Text) : fsencode (ofText t) = some (encode t) := by
  induction t with
  | nil => rfl
  | cons c t ih =>
    show fsencode (.char c :: ofText t) = _
    rw [fsencode, ih]
    rfl

/-- The parts of a path, and what the kernel gets for each. -/
def Encodes (parts : List PyStr) (names : List Name) : Prop :=
  List.Forall₂ (fun p name => fsencode p = some name.val) parts names

theorem fsencode_intercalate {parts : List PyStr} {names : List Name} (h : Encodes parts names) :
    fsencode ([slash].intercalate parts) = some ([0x2f].intercalate (names.map (·.val))) := by
  induction h with
  | nil => rfl
  | @cons p name parts names hp hrest ih =>
    cases hrest with
    | nil => simpa using hp
    | @cons p' name' parts names hp' hrest =>
      have hslash : fsencode [slash] = some [0x2f] := rfl
      simp only [List.map_cons, List.intercalate_cons_cons] at ih ⊢
      exact fsencode_append (fsencode_append hp hslash) ih

/-! ## One open -/

variable {ι : Type}

/-- `i` is an entry of the directory `d`. -/
def Tree.Entry (k : Tree ι) (d : ι) (name : Name) (i : ι) : Prop :=
  ∃ dir, k.node d = .dir dir ∧ dir.entry name = some i

theorem lookup_eq_some {k : Tree ι} {d i : ι} {name : Name} :
    k.lookup d name.val = some i ↔ k.Entry d name i := by
  unfold Tree.lookup Tree.Entry
  cases hd : k.node d with
  | dir dir => simp [name.property]
  | _ => simp

/-- **An open with `O_NOFOLLOW` and the name of an entry opens that entry.** -/
theorem openat_eq_some {k : Tree ι} {d i : ι} {name : Name} {flags : Flags}
    (hno : flags.nofollow = true) :
    k.openat d name.val flags = some i ↔ k.Entry d name i ∧ k.node i ≠ .symlink ∧
      k.may i = true ∧ (flags.directory = true → (k.node i).isDir = true) := by
  have hname := name.property
  simp only [isName, Bool.and_eq_true, decide_eq_true_eq, Bool.not_eq_true', List.contains_eq_mem,
    decide_eq_false_iff_not] at hname
  obtain ⟨⟨⟨⟨hnil, hdot⟩, hdots⟩, hslash⟩, -⟩ := hname
  have hresolve : k.resolve d name.val flags = some i ↔ k.Entry d name i ∧ k.node i ≠ .symlink := by
    unfold Tree.resolve
    rw [if_neg hnil, if_neg hslash, if_neg hdot, if_neg hdots, ← lookup_eq_some]
    cases hlookup : k.lookup d name.val with
    | none => simp
    | some j =>
      cases hj : k.node j with
      | symlink =>
        dsimp only
        rw [hj, hno]
        simp only [if_true]
        refine iff_of_false (by simp) ?_
        rintro ⟨hi, hne⟩
        obtain rfl := Option.some.inj hi
        exact hne hj
      | _ =>
        dsimp only
        rw [hj]
        dsimp only
        constructor
        · intro hi
          obtain rfl := Option.some.inj hi
          exact ⟨rfl, by simp [hj]⟩
        · exact fun h => h.1
  unfold Tree.openat
  rw [Option.filter_eq_some_iff, hresolve, and_assoc]
  simp only [Bool.and_eq_true, Bool.or_eq_true, Bool.not_eq_true']
  refine and_congr_right fun _ => and_congr_right fun _ => and_congr_right fun _ => ?_
  cases flags.directory <;> simp

theorem osOpen_eq_ok {k : Tree ι} {d i : ι} {p : PyStr} {flags : Flags} (hbad : bad p = false)
    (hslash : slash ∉ p) (hno : flags.nofollow = true) :
    k.osOpen d p flags = .ok i ↔ ∃ name : Name, fsencode p = some name.val ∧ k.Entry d name i ∧
      k.node i ≠ .symlink ∧ k.may i = true ∧
        (flags.directory = true → (k.node i).isDir = true) := by
  unfold Tree.osOpen
  cases hp : fsencode p with
  | none => simp
  | some bytes =>
    have hname := isName_of_not_bad hbad hslash hp
    have hnul : (0 : UInt8) ∉ bytes := by
      simp only [isName, Bool.and_eq_true, Bool.not_eq_true', List.contains_eq_mem,
        decide_eq_false_iff_not] at hname
      exact hname.2
    dsimp only
    rw [if_neg hnul]
    have hopen : k.openat d bytes flags = some i ↔ k.Entry d ⟨bytes, hname⟩ i ∧
      k.node i ≠ .symlink ∧
        k.may i = true ∧ (flags.directory = true → (k.node i).isDir = true) :=
      @openat_eq_some _ k d i ⟨bytes, hname⟩ flags hno
    constructor
    · intro h
      refine ⟨⟨bytes, hname⟩, rfl, hopen.1 ?_⟩
      cases ho : k.openat d bytes flags with
      | none =>
        rw [ho] at h
        cases h
      | some j =>
        rw [ho] at h
        exact congrArg _ (Except.ok.inj h)
    · rintro ⟨name, hbytes, h⟩
      obtain rfl : name = ⟨bytes, hname⟩ := Subtype.ext (Option.some.inj hbytes).symm
      rw [hopen.2 h]

/-! ## The way down -/

/-- `i` is reached from `d` over entries that are no symlinks, each looked up by the call that
opens it. -/
inductive Below (w : Nat → Tree ι) : Nat → ι → List Name → ι → Prop
  | last {n : Nat} {d i : ι} {name : Name} : (w n).Entry d name i → (w n).node i ≠ .symlink →
      Below w n d [name] i
  | step {n : Nat} {d c i : ι} {name : Name} {names : List Name} : (w n).Entry d name c →
      ((w n).node c).isDir = true → Below w (n + 1) c names i → Below w n d (name :: names) i

/-- `i` is reached from the data root. -/
def Reached (w : Nat → Tree ι) (names : List Name) (i : ι) : Prop :=
  ∃ root, (w 0).root = some root ∧ ((w 0).node root).isDir = true ∧ Below w 1 root names i

/-- Parts that are names: what the check of `read_file` leaves. -/
def Clean (parts : List PyStr) : Prop := ∀ p ∈ parts, bad p = false ∧ slash ∉ p

theorem Clean.tail {p : PyStr} {parts : List PyStr} (h : Clean (p :: parts)) : Clean parts :=
  fun q hq => h q (List.mem_cons_of_mem p hq)

theorem descend_cons (w : Nat → Tree ι) (n : Nat) (fd : ι) (name next : PyStr) (rest : List PyStr)
    (flags : Flags) :
    descend w n fd (name :: next :: rest) flags =
      match (w n).osOpen fd name { directory := true, nofollow := true } with
      | .error e => .error e
      | .ok child => descend w (n + 1) child (next :: rest) flags := rfl

theorem descend_cons_ok {w : Nat → Tree ι} {n : Nat} {fd i : ι} {name next : PyStr}
    {rest : List PyStr}
    {flags : Flags} :
    descend w n fd (name :: next :: rest) flags = .ok i ↔
      ∃ child, (w n).osOpen fd name { directory := true, nofollow := true } = .ok child ∧
        descend w (n + 1) child (next :: rest) flags = .ok i := by
  rw [descend_cons]
  cases (w n).osOpen fd name { directory := true, nofollow := true } with
  | error e => simp
  | ok child => simp

theorem openRoot_ok {k : Tree ι} {i : ι} :
    k.openRoot = .ok i ↔ k.root = some i ∧ k.may i = true ∧ (k.node i).isDir = true := by
  unfold Tree.openRoot
  cases k.root with
  | none => simp
  | some root =>
    dsimp only
    by_cases hopen : (k.may root && (k.node root).isDir) = true
    · rw [if_pos hopen, Except.ok.injEq, Option.some.injEq]
      rw [Bool.and_eq_true] at hopen
      exact ⟨fun h => ⟨h, h ▸ hopen⟩, And.left⟩
    · rw [if_neg hopen]
      rw [Bool.and_eq_true] at hopen
      refine iff_of_false (fun h => by cases h) ?_
      intro ⟨heq, hroot⟩
      exact hopen (Option.some.inj heq ▸ hroot)

theorem openBelowRoot_ok {w : Nat → Tree ι} {parts : List PyStr} {flags : Flags} {i : ι} :
    openBelowRoot w parts flags = .ok i ↔
      ∃ root, (w 0).openRoot = .ok root ∧ descend w 1 root parts flags = .ok i := by
  unfold openBelowRoot
  cases (w 0).openRoot with
  | error e => simp
  | ok root => simp

theorem below_of_descend {w : Nat → Tree ι} {flags : Flags} {i : ι} {parts : List PyStr} :
    ∀ {n : Nat} {fd : ι}, Clean parts → descend w n fd parts flags = .ok i →
      ∃ names, Encodes parts names ∧ Below w n fd names i := by
  induction parts with
  | nil =>
    intro n fd _ h
    cases h
  | cons p rest ih =>
    intro n fd hclean h
    obtain ⟨hbad, hslash⟩ := hclean p List.mem_cons_self
    cases rest with
    | nil =>
      obtain ⟨name, hname, hentry, hlink, -⟩ := (osOpen_eq_ok hbad hslash rfl).1 h
      exact ⟨[name], .cons hname .nil, .last hentry hlink⟩
    | cons next rest =>
      obtain ⟨child, hopen, hnext⟩ := descend_cons_ok.1 h
      obtain ⟨name, hname, hentry, -, -, hdir⟩ := (osOpen_eq_ok hbad hslash rfl).1 hopen
      obtain ⟨names, hnames, hbelow⟩ := ih hclean.tail hnext
      exact ⟨name :: names, .cons hname hnames, .step hentry (hdir rfl) hbelow⟩

theorem reached_of_openBelowRoot {w : Nat → Tree ι} {flags : Flags} {i : ι} {parts : List PyStr}
    (hclean : Clean parts) (h : openBelowRoot w parts flags = .ok i) :
    ∃ names, Encodes parts names ∧ Reached w names i := by
  obtain ⟨root, hopen, hdescend⟩ := openBelowRoot_ok.1 h
  obtain ⟨hroot, -, hdir⟩ := openRoot_ok.1 hopen
  obtain ⟨names, hnames, hbelow⟩ := below_of_descend hclean hdescend
  exact ⟨names, hnames, root, hroot, hdir, hbelow⟩

/-! ## Reading -/

/-- The path of a file `read_file` serves: `clients/<dir>/<file>` or `reports/<file>`. -/
def Served (names : List Bytes) : Prop :=
  (∃ d f, names = [encode "clients".toList, d, f]) ∨ ∃ f, names = [encode "reports".toList, f]

theorem notMem_of_mem_splitOn {α : Type} [BEq α] [LawfulBEq α] {a : α} {s p : List α}
    (h : p ∈ s.splitOn a) : a ∉ p := by
  induction s generalizing p with
  | nil =>
    rw [List.splitOn_nil, List.mem_singleton] at h
    subst h
    exact List.not_mem_nil
  | cons c s ih =>
    rw [List.splitOn_cons_eq_if_modifyHead] at h
    obtain ⟨q, qs, hq⟩ := List.exists_cons_of_ne_nil (List.splitOn_ne_nil a s)
    rw [hq] at h ih
    by_cases hc : (c == a) = true
    · rw [if_pos hc] at h
      rcases List.mem_cons.1 h with rfl | h
      · exact List.not_mem_nil
      · exact ih h
    · rw [if_neg hc, List.modifyHead_cons] at h
      rcases List.mem_cons.1 h with rfl | h
      · intro hmem
        rcases List.mem_cons.1 hmem with rfl | hmem
        · exact hc (beq_self_eq_true _)
        · exact ih List.mem_cons_self hmem
      · exact ih (List.mem_cons_of_mem q h)

/-- What the check of `read_file` leaves of a path. -/
theorem clean_of_checked {path : PyStr} (h : (path.splitOn slash).any bad ≠ true) :
    Clean (path.splitOn slash) := by
  intro p hp
  refine ⟨?_, notMem_of_mem_splitOn hp⟩
  by_contra hbad
  exact h (List.any_eq_true.2 ⟨p, hp, by simpa using hbad⟩)

theorem served_of_depth {parts : List PyStr} {names : List Name}
    (h : some parts.length = depthOf (parts.headD [])) (hnames : Encodes parts names) :
    Served (names.map (·.val)) := by
  have hlen := hnames.length_eq
  cases hnames with
  | nil => cases h
  | @cons p name parts names hp hrest =>
    unfold depthOf at h
    rw [List.headD_cons] at h
    split_ifs at h with hclients hreports
    · have hlength := Option.some.inj h
      rw [hclients, fsencode_ofText] at hp
      obtain ⟨d, f, rfl⟩ : ∃ d f, names = [d, f] := by
        have hlen₂ : names.length = 2 := by simp at hlength hlen; omega
        exact List.length_eq_two.1 hlen₂
      exact .inl ⟨d.val, f.val, by rw [Option.some.inj hp]; rfl⟩
    · have hlength := Option.some.inj h
      rw [hreports, fsencode_ofText] at hp
      obtain ⟨f, rfl⟩ : ∃ f, names = [f] := by
        have hlen₁ : names.length = 1 := by simp at hlength hlen; omega
        exact List.length_eq_one_iff.1 hlen₁
      exact .inr ⟨f.val, by rw [Option.some.inj hp]; rfl⟩

/-- The bytes of `path` name a served file that was reached as a regular one, with that content
when it was read. -/
def Confined (w : Nat → Tree ι) (path : PyStr) (content : Bytes) : Prop :=
  ∃ names : List Name, ∃ i, fsencode path = some ([0x2f].intercalate (names.map (·.val))) ∧
    Served (names.map (·.val)) ∧ Reached w names i ∧
    (∃ before mtime, (w (names.length + 2)).node i = .regular before mtime) ∧
    ∃ mtime, (w (names.length + 3)).node i = .regular content mtime

theorem readOpened_eq_ok {w : Nat → Tree ι} {n : Nat} {fd : ι} {content : Bytes} :
    readOpened w n fd = .ok content ↔ ((w n).node fd).isDir = false ∧
      (∃ before mtime, (w (n + 1)).node fd = .regular before mtime) ∧
      ∃ mtime, (w (n + 2)).node fd = .regular content mtime := by
  unfold readOpened
  by_cases hdir : ((w n).node fd).isDir = true
  · simp [hdir]
  · rw [if_neg hdir]
    rw [Bool.not_eq_true] at hdir
    cases (w (n + 1)).node fd <;> cases (w (n + 2)).node fd <;> simp [hdir]

/-- What a read that succeeds went through. -/
theorem readFile_ok {w : Nat → Tree ι} {path : PyStr} {content : Bytes} {media : String}
    (h : readFile w path = .ok (content, media)) :
    ∃ names i, Encodes (path.splitOn slash) names ∧
      some (path.splitOn slash).length = depthOf ((path.splitOn slash).headD []) ∧
      Reached w names i ∧ (∃ before mtime, (w (names.length + 2)).node i = .regular before mtime) ∧
      ∃ mtime, (w (names.length + 3)).node i = .regular content mtime := by
  unfold readFile at h
  dsimp only at h
  split_ifs at h with hcheck
  rw [not_or, not_not] at hcheck
  obtain ⟨hdepth, hbad⟩ := hcheck
  cases hopen : openBelowRoot w (path.splitOn slash) {} with
  | error e =>
    rw [hopen] at h
    cases e <;> cases h
  | ok fd =>
    rw [hopen] at h
    dsimp only at h
    obtain ⟨names, hnames, hreached⟩ := reached_of_openBelowRoot (clean_of_checked hbad) hopen
    have hlen := hnames.length_eq
    cases hread : readOpened w ((path.splitOn slash).length + 1) fd with
    | error e =>
      rw [hread] at h
      cases h
    | ok bytes =>
      rw [hread] at h
      obtain ⟨rfl, -⟩ := Prod.mk.inj (Except.ok.inj h)
      obtain ⟨-, hstat, hcontent⟩ := readOpened_eq_ok.1 hread
      rw [hlen] at hstat hcontent
      exact ⟨names, fd, hnames, hdepth, hreached, hstat, hcontent⟩

/-- **Whatever is swapped between the calls, what is read is a regular file below the root.** -/
theorem readFile_confined {w : Nat → Tree ι} {path : PyStr} {content : Bytes} {media : String}
    (h : readFile w path = .ok (content, media)) : Confined w path content := by
  obtain ⟨names, i, hnames, hdepth, hreached, hstat, hcontent⟩ := readFile_ok h
  refine ⟨names, i, ?_, served_of_depth hdepth hnames, hreached, hstat, hcontent⟩
  rw [← fsencode_intercalate hnames, List.intercalate_splitOn]

end WlanpiCore.Profiler
