import WlanpiCore.Profiler.Confined

/-!
# What is listed is what can be read

On a tree that does not change and that the process may read, `list_files` comes to the same files
as `read_file`: the regular files at `clients/<dir>/<file>` and `reports/<file>` with UTF-8 names
and no symlink on the way (`FileAt`).

**Theorem (`readFile_listFiles_iff`).** Reads stay below the root, and a UTF-8 path is readable if
and only if it is listed, exactly when the modification time of each such file is one that
`datetime` knows. A file from beyond the year 9999 makes `list_files` raise, and then nothing is
listed.
-/

namespace WlanpiCore.Profiler

open Text PyStr

variable {ι : Type} {k : Tree ι}

/-! ## A tree that does not change -/

theorem below_singleton {w : Nat → Tree ι} {n : Nat} {d i : ι} {name : Name} :
    Below w n d [name] i ↔ (w n).Entry d name i ∧ (w n).node i ≠ .symlink := by
  constructor
  · intro h
    cases h with
    | last hentry hlink => exact ⟨hentry, hlink⟩
    | step _ _ h => cases h
  · exact fun h => .last h.1 h.2

theorem below_cons_cons {w : Nat → Tree ι} {n : Nat} {d i : ι} {name next : Name}
    {names : List Name} :
    Below w n d (name :: next :: names) i ↔
      ∃ c, (w n).Entry d name c ∧ ((w n).node c).isDir = true ∧
        Below w (n + 1) c (next :: names) i := by
  constructor
  · intro h
    cases h with
    | step hentry hdir h => exact ⟨_, hentry, hdir, h⟩
  · rintro ⟨c, hentry, hdir, h⟩
    exact .step hentry hdir h

theorem isDir_ne_symlink {d : ι} (h : (k.node d).isDir = true) : k.node d ≠ .symlink := by
  intro hlink
  rw [hlink] at h
  cases h

theorem below_snoc {name : Name} {i : ι} {names : List Name} (hne : names ≠ []) :
    ∀ {n : Nat} {fd : ι}, Below (fun _ => k) n fd (names ++ [name]) i ↔
      ∃ d, Below (fun _ => k) n fd names d ∧ (k.node d).isDir = true ∧ k.Entry d name i ∧
        k.node i ≠ .symlink := by
  induction names with
  | nil => exact absurd rfl hne
  | cons a rest ih =>
    intro n fd
    cases rest with
    | nil =>
      show Below _ _ _ [a, name] _ ↔ _
      rw [below_cons_cons]
      simp only [below_singleton]
      constructor
      · rintro ⟨c, hentry, hdir, hlast⟩
        exact ⟨c, ⟨hentry, isDir_ne_symlink hdir⟩, hdir, hlast⟩
      · rintro ⟨c, ⟨hentry, -⟩, hdir, hlast⟩
        exact ⟨c, hentry, hdir, hlast⟩
    | cons b rest =>
      show Below _ _ _ (a :: b :: (rest ++ [name])) _ ↔ _
      have hstep {n : Nat} {c : ι} := @ih (List.cons_ne_nil b rest) n c
      rw [below_cons_cons]
      simp only [below_cons_cons]
      constructor
      · rintro ⟨c, hentry, hdir, hbelow⟩
        obtain ⟨d, hbelow, hd⟩ := hstep.1 hbelow
        exact ⟨d, ⟨c, hentry, hdir, hbelow⟩, hd⟩
      · rintro ⟨d, ⟨c, hentry, hdir, hbelow⟩, hd⟩
        exact ⟨c, hentry, hdir, hstep.2 ⟨d, hbelow, hd⟩⟩

/-- `i` is at these names below the root. -/
def Tree.At (k : Tree ι) (texts : List Text) (i : ι) : Prop :=
  ∃ names : List Name, names.map (·.val) = texts.map encode ∧ Reached (fun _ => k) names i

/-- `i` is the entry of `d` that is called `t`. -/
def Tree.Called (k : Tree ι) (d : ι) (t : Text) (i : ι) : Prop :=
  ∃ name : Name, name.val = encode t ∧ k.Entry d name i

theorem at_snoc {texts : List Text} (hne : texts ≠ []) {t : Text} {i : ι} :
    k.At (texts ++ [t]) i ↔ ∃ d, k.At texts d ∧ (k.node d).isDir = true ∧ k.Called d t i ∧
      k.node i ≠ .symlink := by
  constructor
  · rintro ⟨names, hnames, root, hroot, hdir, hbelow⟩
    obtain ⟨init, last, rfl, hinit, hlast⟩ : ∃ init last, names = init ++ [last] ∧
        init.map (·.val) = texts.map encode ∧ last.val = encode t := by
      rw [List.map_append, List.map_singleton, List.map_eq_append_iff] at hnames
      obtain ⟨init, tail, rfl, hinit, htail⟩ := hnames
      obtain ⟨last, rfl, hlast⟩ := List.map_eq_singleton_iff.1 htail
      exact ⟨init, last, rfl, hinit, hlast⟩
    have hinit_ne : init ≠ [] := by
      rintro rfl
      exact hne (List.map_eq_nil_iff.1 hinit.symm)
    obtain ⟨d, hbelow, hd, hentry, hlink⟩ := (below_snoc hinit_ne).1 hbelow
    exact ⟨d, ⟨init, hinit, root, hroot, hdir, hbelow⟩, hd, ⟨last, hlast, hentry⟩, hlink⟩
  · rintro ⟨d, ⟨init, hinit, root, hroot, hdir, hbelow⟩, hd, ⟨last, hlast, hentry⟩, hlink⟩
    have hinit_ne : init ≠ [] := by
      rintro rfl
      exact hne (List.map_eq_nil_iff.1 hinit.symm)
    refine ⟨init ++ [last], ?_, root, hroot, hdir,
      (below_snoc hinit_ne).2 ⟨d, hbelow, hd, hentry, hlink⟩⟩
    rw [List.map_append, List.map_append, hinit, List.map_singleton, List.map_singleton, hlast]

theorem isName_of_at {texts : List Text} {i : ι} (h : k.At texts i) :
    ∀ t ∈ texts, isName (encode t) = true := by
  obtain ⟨names, hnames, -⟩ := h
  intro t ht
  have hmem : encode t ∈ names.map (·.val) := hnames ▸ List.mem_map_of_mem ht
  obtain ⟨name, -, hname⟩ := List.mem_map.1 hmem
  exact hname ▸ name.property

/-! ## Names as texts -/

theorem mem_encode {t : Text} {c : Char} (hc : c ∈ t) {b : UInt8}
    (hb : b ∈ String.utf8EncodeChar c) :
    b ∈ encode t := List.mem_flatMap.2 ⟨c, hc, hb⟩

theorem clean_ofText {t : Text} (h : isName (encode t) = true) :
    bad (ofText t) = false ∧ slash ∉ ofText t := by
  simp only [isName, Bool.and_eq_true, decide_eq_true_eq, Bool.not_eq_true', List.contains_eq_mem,
    decide_eq_false_iff_not] at h
  obtain ⟨⟨⟨⟨hnil, hdot⟩, hdots⟩, hslash⟩, hnul⟩ := h
  have hmem {c : Char} (hc : PyChar.char c ∈ ofText t) : c ∈ t := by
    obtain ⟨d, hd, heq⟩ := List.mem_map.1 hc
    exact PyChar.char.inj heq ▸ hd
  refine ⟨?_, fun hc => hslash (mem_encode (hmem hc) (by decide))⟩
  simp only [bad, Bool.or_eq_false_iff, decide_eq_false_iff_not, List.contains_eq_mem]
  refine ⟨⟨⟨?_, ?_⟩, ?_⟩, fun hc => hnul (mem_encode (hmem hc) (by decide))⟩
  · intro heq
    obtain rfl : t = [] := ofText_injective heq
    exact hnil rfl
  · intro heq
    obtain rfl : t = ['.'] := ofText_injective heq
    exact hdot rfl
  · intro heq
    obtain rfl : t = ['.', '.'] := ofText_injective heq
    exact hdots rfl

theorem clean_map_ofText {texts : List Text} (h : ∀ t ∈ texts, isName (encode t) = true) :
    Clean (texts.map ofText) := by
  intro p hp
  obtain ⟨t, ht, rfl⟩ := List.mem_map.1 hp
  exact clean_ofText (h t ht)

theorem encodes_map_ofText {texts : List Text} {names : List Name} :
    Encodes (texts.map ofText) names ↔ names.map (·.val) = texts.map encode := by
  induction texts generalizing names with
  | nil =>
    unfold Encodes
    rw [List.map_nil, List.map_nil, List.forall₂_nil_left_iff, List.map_eq_nil_iff]
  | cons t texts ih =>
    cases names with
    | nil => simp [Encodes]
    | cons name names =>
      unfold Encodes at ih ⊢
      rw [List.map_cons, List.forall₂_cons, ih, fsencode_ofText, List.map_cons, List.map_cons,
        List.cons.injEq, Option.some.injEq]
      exact and_congr_left fun _ => eq_comm

theorem splitOn_slash (t : Text) : (ofText t).splitOn slash = (t.splitOn '/').map ofText :=
  splitOn_ofText '/' t

/-! ## Opening -/

/-- The process may open every regular file and every directory. -/
def Tree.Readable (k : Tree ι) : Prop :=
  ∀ i, (k.node i).isDir = true ∨ (∃ content mtime, k.node i = .regular content mtime) →
    k.may i = true

theorem descend_of_below (hread : k.Readable) {flags : Flags} {n : Nat} {fd i : ι}
    {names : List Name}
    (hbelow : Below (fun _ => k) n fd names i) (hmay : k.may i = true)
    (hdir : flags.directory = true → (k.node i).isDir = true) {parts : List PyStr} :
    Clean parts → Encodes parts names → descend (fun _ => k) n fd parts flags = .ok i := by
  induction hbelow generalizing parts with
  | @last n d i name hentry hlink =>
    intro hclean hnames
    cases hnames with
    | @cons p _ parts _ hp hrest =>
      cases hrest
      obtain ⟨hbad, hslash⟩ := hclean p List.mem_cons_self
      exact (osOpen_eq_ok hbad hslash rfl).2 ⟨name, hp, hentry, hlink, hmay, hdir⟩
  | @step n d c i name names hentry hc hbelow ih =>
    intro hclean hnames
    cases hnames with
    | @cons p _ parts _ hp hrest =>
      obtain ⟨hbad, hslash⟩ := hclean p List.mem_cons_self
      have hopen : k.osOpen d p { directory := true, nofollow := true } = .ok c :=
        (osOpen_eq_ok hbad hslash rfl).2
          ⟨name, hp, hentry, isDir_ne_symlink hc, hread c (.inl hc), fun _ => hc⟩
      have hnext := ih hmay hdir hclean.tail hrest
      cases hrest with
      | nil => cases hbelow
      | cons hq hrest =>
        exact descend_cons_ok.2 ⟨c, hopen, hnext⟩

theorem openBelowRoot_of_at (hread : k.Readable) {flags : Flags} {texts : List Text} {i : ι}
    (h : k.At texts i) (hmay : k.may i = true)
    (hdir : flags.directory = true → (k.node i).isDir = true) :
    openBelowRoot (fun _ => k) (texts.map ofText) flags = .ok i := by
  have hclean := clean_map_ofText (isName_of_at h)
  obtain ⟨names, hnames, root, hroot, hrootdir, hbelow⟩ := h
  have hopen : k.openRoot = .ok root :=
    openRoot_ok.2 ⟨hroot, hread root (.inl hrootdir), hrootdir⟩
  exact openBelowRoot_ok.2 ⟨root, hopen,
    descend_of_below hread hbelow hmay hdir hclean (encodes_map_ofText.2 hnames)⟩

theorem isDir_of_descend {flags : Flags} (hflag : flags.directory = true) {i : ι}
    {parts : List PyStr} :
    ∀ {n : Nat} {fd : ι}, Clean parts → descend (fun _ => k) n fd parts flags = .ok i →
      (k.node i).isDir = true := by
  induction parts with
  | nil =>
    intro n fd _ h
    cases h
  | cons p rest ih =>
    intro n fd hclean h
    obtain ⟨hbad, hslash⟩ := hclean p List.mem_cons_self
    cases rest with
    | nil =>
      obtain ⟨name, -, -, -, -, hdir⟩ := (osOpen_eq_ok hbad hslash rfl).1 h
      exact hdir hflag
    | cons next rest =>
      obtain ⟨child, -, hnext⟩ := descend_cons_ok.1 h
      exact ih hclean.tail hnext

theorem osOpen_error {t : Text} (ht : isName (encode t) = true) {fd : ι} {flags : Flags} {e : Exc}
    (h : k.osOpen fd (ofText t) flags = .error e) : e = .osError := by
  unfold Tree.osOpen at h
  rw [fsencode_ofText] at h
  dsimp only at h
  rw [if_neg] at h
  · cases ho : k.openat fd (encode t) flags with
    | none =>
      rw [ho] at h
      exact (Except.error.inj h).symm
    | some i =>
      rw [ho] at h
      cases h
  · simp only [isName, Bool.and_eq_true, Bool.not_eq_true', List.contains_eq_mem,
      decide_eq_false_iff_not] at ht
    exact ht.2

theorem descend_error {flags : Flags} {e : Exc} {texts : List Text} (hne : texts ≠ []) :
    ∀ {n : Nat} {fd : ι}, (∀ t ∈ texts, isName (encode t) = true) →
      descend (fun _ => k) n fd (texts.map ofText) flags = .error e → e = .osError := by
  induction texts with
  | nil => exact absurd rfl hne
  | cons t rest ih =>
    intro n fd hnames h
    have ht := hnames t List.mem_cons_self
    cases rest with
    | nil => exact osOpen_error ht h
    | cons next rest =>
      rw [List.map_cons, List.map_cons, descend_cons] at h
      cases hopen : k.osOpen fd (ofText t) { directory := true, nofollow := true } with
      | error e' =>
        rw [hopen] at h
        obtain rfl := Except.error.inj h
        exact osOpen_error ht hopen
      | ok child =>
        rw [hopen] at h
        exact ih (List.cons_ne_nil _ _) (fun u hu => hnames u (List.mem_cons_of_mem t hu)) h

theorem openBelowRoot_error {flags : Flags} {e : Exc} {texts : List Text} (hne : texts ≠ [])
    (hnames : ∀ t ∈ texts, isName (encode t) = true)
    (h : openBelowRoot (fun _ => k) (texts.map ofText) flags = .error e) : e = .osError := by
  unfold openBelowRoot at h
  cases hroot : k.openRoot with
  | error e' =>
    rw [hroot] at h
    obtain rfl := Except.error.inj h
    unfold Tree.openRoot at hroot
    cases hr : k.root with
    | none =>
      rw [hr] at hroot
      exact (Except.error.inj hroot).symm
    | some i =>
      rw [hr] at hroot
      dsimp only at hroot
      split_ifs at hroot
      exact (Except.error.inj hroot).symm
  | ok fd =>
    rw [hroot] at h
    exact descend_error hne hnames h

/-! ## Listing a directory -/

theorem isDir_of_openBelowRoot {parts : List PyStr} {flags : Flags} (hflag : flags.directory = true)
    (hclean : Clean parts) {fd : ι} (h : openBelowRoot (fun _ => k) parts flags = .ok fd) :
    (k.node fd).isDir = true := by
  obtain ⟨root, -, hdescend⟩ := openBelowRoot_ok.1 h
  exact isDir_of_descend hflag hclean hdescend

/-- What `_entries` collects of a directory: the entries whose names are UTF-8. -/
theorem mem_found {dir : Dir ι} {t : Text} {node : Node ι} :
    (t, node) ∈ (dir.names.filterMap fun name =>
        match decode name.val, dir.entry name with
        | some t, some i => some (t, k.node i)
        | _, _ => none) ↔
      ∃ name i, name.val = encode t ∧ dir.entry name = some i ∧ node = k.node i := by
  rw [List.mem_filterMap]
  constructor
  · intro ⟨name, _, hname⟩
    cases hdecode : decode name.val with
    | none =>
      rw [hdecode] at hname
      cases hname
    | some u =>
      cases hentry : dir.entry name with
      | none =>
        rw [hdecode, hentry] at hname
        cases hname
      | some i =>
        rw [hdecode, hentry] at hname
        obtain ⟨rfl, rfl⟩ := Prod.mk.inj (Option.some.inj hname)
        exact ⟨name, i, (encode_of_decode hdecode).symm, hentry, rfl⟩
  · intro ⟨name, i, hname, hentry, hnode⟩
    refine ⟨name, (dir.complete name).2 (by rw [hentry]; rfl), ?_⟩
    rw [hname, decode_encode, hentry, hnode]

theorem entries_eq (hread : k.Readable) {texts : List Text} (hne : texts ≠ [])
    (hnames : ∀ t ∈ texts, isName (encode t) = true) :
    ∃ es, entries k (texts.map ofText) = .ok es ∧ ∀ t node, (t, node) ∈ es ↔
      ∃ d i, k.At texts d ∧ (k.node d).isDir = true ∧ k.Called d t i ∧ node = k.node i := by
  have hclean := clean_map_ofText hnames
  have hfound (d : ι) (hat : k.At texts d) (hd : (k.node d).isDir = true) :
      openBelowRoot (fun _ => k) (texts.map ofText) { directory := true } = .ok d :=
    openBelowRoot_of_at hread hat (hread d (.inl hd)) fun _ => hd
  unfold entries
  cases hopen : openBelowRoot (fun _ => k) (texts.map ofText) { directory := true } with
  | error e =>
    obtain rfl := openBelowRoot_error hne hnames hopen
    refine ⟨[], rfl, fun t node => iff_of_false List.not_mem_nil ?_⟩
    intro ⟨d, i, hat, hd, _⟩
    rw [hfound d hat hd] at hopen
    cases hopen
  | ok fd =>
    obtain ⟨names, hencodes, hreached⟩ := reached_of_openBelowRoot hclean hopen
    have hat : k.At texts fd := ⟨names, encodes_map_ofText.1 hencodes, hreached⟩
    have hdir : (k.node fd).isDir = true := isDir_of_openBelowRoot rfl hclean hopen
    cases hnode : k.node fd with
    | dir dir =>
      dsimp only
      rw [hnode]
      refine ⟨_, rfl, fun t node => ?_⟩
      rw [List.mem_mergeSort]
      refine mem_found.trans ?_
      constructor
      · intro ⟨name, i, hname, hentry, hsame⟩
        exact ⟨fd, i, hat, hdir, ⟨name, hname, dir, hnode, hentry⟩, hsame⟩
      · intro ⟨d, i, hatd, hd, ⟨name, hname, dir', hdir', hentry⟩, hsame⟩
        -- The directory that was opened is the only one at these names.
        rw [hfound d hatd hd] at hopen
        obtain rfl := Except.ok.inj hopen
        rw [hnode] at hdir'
        obtain rfl := Node.dir.inj hdir'
        exact ⟨name, i, hname, hentry, hsame⟩
    | _ =>
      rw [hnode] at hdir
      cases hdir

/-! ## Loops that may raise -/

theorem mapM_ok_iff {ε α β : Type} {f : α → Except ε β} {l : List α} :
    (∃ r, l.mapM f = .ok r) ↔ ∀ a ∈ l, ∃ b, f a = .ok b := by
  induction l with
  | nil => exact iff_of_true ⟨[], rfl⟩ fun a ha => absurd ha List.not_mem_nil
  | cons a l ih =>
    rw [List.forall_mem_cons, ← ih, List.mapM_cons]
    cases ha : f a with
    | error e =>
      refine iff_of_false (fun ⟨r, hr⟩ => ?_) fun ⟨⟨b, hb⟩, _⟩ => ?_
      · cases hr
      · cases hb
    | ok b =>
      cases hl : l.mapM f with
      | error e =>
        refine iff_of_false (fun ⟨r, hr⟩ => ?_) fun ⟨_, ⟨r, hr⟩⟩ => ?_
        · cases hr
        · cases hr
      | ok r => exact iff_of_true ⟨b :: r, rfl⟩ ⟨⟨b, rfl⟩, r, rfl⟩

theorem mem_mapM_ok {ε α β : Type} {f : α → Except ε β} {l : List α} {r : List β}
    (h : l.mapM f = .ok r) {b : β} : b ∈ r ↔ ∃ a ∈ l, f a = .ok b := by
  induction l generalizing r with
  | nil =>
    obtain rfl := Except.ok.inj h
    simp
  | cons a l ih =>
    rw [List.mapM_cons] at h
    cases ha : f a with
    | error e =>
      rw [ha] at h
      cases h
    | ok b' =>
      cases hl : l.mapM f with
      | error e =>
        rw [ha, hl] at h
        cases h
      | ok r' =>
        rw [ha, hl] at h
        obtain rfl := Except.ok.inj h
        rw [List.mem_cons, ih hl]
        simp [ha, eq_comm]

/-! ## The regular files of a directory -/

variable {fromtimestamp : Int → Option Int}

/-- `i` is a regular file called `t` in the directory at `texts`. -/
def Tree.Holds (k : Tree ι) (texts : List Text) (t : Text) (content : Bytes) (mtime : Int) : Prop :=
  ∃ i, k.At (texts ++ [t]) i ∧ k.node i = .regular content mtime

theorem holds_iff {texts : List Text} (hne : texts ≠ []) {t : Text} {content : Bytes}
    {mtime : Int} :
    k.Holds texts t content mtime ↔ ∃ d i, k.At texts d ∧ (k.node d).isDir = true ∧ k.Called d t i ∧
      .regular content mtime = k.node i := by
  unfold Tree.Holds
  simp only [at_snoc hne]
  constructor
  · rintro ⟨i, ⟨d, hat, hd, hcalled, -⟩, hnode⟩
    exact ⟨d, i, hat, hd, hcalled, hnode.symm⟩
  · rintro ⟨d, i, hat, hd, hcalled, hnode⟩
    refine ⟨i, ⟨d, hat, hd, hcalled, ?_⟩, hnode.symm⟩
    rw [← hnode]
    simp

theorem describe_ok_iff {texts : List Text} {t : Text} {node : Node ι} :
    (∃ info, describe fromtimestamp texts (t, node) = .ok info) ↔
      ∀ content mtime, node = .regular content mtime → (fromtimestamp mtime).isSome = true := by
  unfold describe
  cases node with
  | regular content mtime => cases hm : fromtimestamp mtime <;> simp [hm]
  | _ => simp

/-- What a directory lists is told by its path. -/
theorem path_of_describe {texts : List Text} {t : Text} {node : Node ι} {info : FileInfo}
    (h : describe fromtimestamp texts (t, node) = .ok (some info)) :
    (∃ content mtime, node = .regular content mtime) ∧ info.path = ['/'].intercalate
    (texts ++ [t]) := by
  unfold describe at h
  cases node with
  | regular content mtime =>
    dsimp only at h
    cases hm : fromtimestamp mtime with
    | none =>
      rw [hm] at h
      cases h
    | some modified =>
      rw [hm] at h
      obtain rfl := Option.some.inj (Except.ok.inj h)
      exact ⟨⟨content, mtime, rfl⟩, rfl⟩
  | _ => cases h

theorem describe_regular {texts : List Text} {t : Text} {content : Bytes} {mtime : Int}
    {info : Option FileInfo}
    (h : describe (ι := ι) fromtimestamp texts (t, .regular content mtime) = .ok info) :
    ∃ file, info = some file := by
  unfold describe at h
  dsimp only at h
  cases hm : fromtimestamp mtime with
  | none =>
    rw [hm] at h
    cases h
  | some modified =>
    rw [hm] at h
    exact ⟨_, (Except.ok.inj h).symm⟩

theorem regularFiles_ok {texts : List Text} {es : List (Text × Node ι)}
    (hes : entries k (texts.map ofText) = .ok es) {files : List FileInfo} :
    regularFiles fromtimestamp k texts = .ok files ↔
      ∃ infos, es.mapM (describe fromtimestamp texts) = .ok infos ∧ infos.filterMap id = files := by
  unfold regularFiles
  rw [hes]
  dsimp only
  cases es.mapM (describe fromtimestamp texts) with
  | error e => simp [Except.map]
  | ok infos => simp [Except.map]

theorem regularFiles_ok_iff (hread : k.Readable) {texts : List Text} (hne : texts ≠ [])
    (hnames : ∀ t ∈ texts, isName (encode t) = true) :
    (∃ files, regularFiles fromtimestamp k texts = .ok files) ↔
      ∀ t content mtime, k.Holds texts t content mtime → (fromtimestamp mtime).isSome = true := by
  obtain ⟨es, hes, hmem⟩ := entries_eq hread hne hnames
  have hmap : (∃ files, regularFiles fromtimestamp k texts = .ok files) ↔
      ∃ infos, es.mapM (describe fromtimestamp texts) = .ok infos := by
    simp only [regularFiles_ok hes]
    exact ⟨fun ⟨_, infos, hinfos, _⟩ => ⟨infos, hinfos⟩, fun ⟨infos, hinfos⟩ =>
      ⟨_, infos, hinfos, rfl⟩⟩
  rw [hmap, mapM_ok_iff]
  constructor
  · intro h t content mtime hholds
    exact describe_ok_iff.1 (h _ ((hmem t _).2 ((holds_iff hne).1 hholds))) content mtime rfl
  · intro h entry hentry
    obtain ⟨t, node⟩ := entry
    refine describe_ok_iff.2 fun content mtime hnode => h t content mtime ((holds_iff hne).2 ?_)
    subst hnode
    exact (hmem t _).1 hentry

theorem mem_regularFiles (hread : k.Readable) {texts : List Text} (hne : texts ≠ [])
    (hnames : ∀ t ∈ texts, isName (encode t) = true) {files : List FileInfo}
    (h : regularFiles fromtimestamp k texts = .ok files) {path : Text} :
    path ∈ files.map (·.path) ↔
      ∃ t content mtime, k.Holds texts t content mtime ∧
        path = ['/'].intercalate (texts ++ [t]) := by
  obtain ⟨es, hes, hmem⟩ := entries_eq hread hne hnames
  obtain ⟨infos, hinfos, rfl⟩ := (regularFiles_ok hes).1 h
  rw [List.mem_map]
  constructor
  · intro ⟨info, hinfo, hpath⟩
    obtain ⟨_, hmem', rfl⟩ := List.mem_filterMap.1 hinfo
    obtain ⟨⟨t, node⟩, hentry, hdescribe⟩ := (mem_mapM_ok hinfos).1 hmem'
    obtain ⟨⟨content, mtime, rfl⟩, hdescribed⟩ := path_of_describe hdescribe
    exact ⟨t, content, mtime, (holds_iff hne).2 ((hmem t _).1 hentry), hpath ▸ hdescribed⟩
  · intro ⟨t, content, mtime, hholds, hpath⟩
    have hentry := (hmem t _).2 ((holds_iff hne).1 hholds)
    obtain ⟨info, hinfo⟩ := mapM_ok_iff.1 ⟨infos, hinfos⟩ _ hentry
    obtain ⟨file, rfl⟩ := describe_regular hinfo
    exact ⟨file, List.mem_filterMap.2 ⟨_, (mem_mapM_ok hinfos).2 ⟨_, hentry, hinfo⟩, rfl⟩,
      (path_of_describe hinfo).2.trans hpath.symm⟩

/-! ## The whole list -/

/-- The directories of the served files: `clients/<dir>` and `reports`. -/
def Served.Dir (texts : List Text) : Prop :=
  (∃ name, texts = ["clients".toList, name]) ∨ texts = ["reports".toList]

/-- A regular file at `path`, below the root and past no symlink. -/
def FileAt (k : Tree ι) (path : Text) (content : Bytes) (mtime : Int) : Prop :=
  ∃ texts t, Served.Dir texts ∧ k.Holds texts t content mtime ∧
    path = ['/'].intercalate (texts ++ [t])

theorem isName_of_holds {texts : List Text} {t : Text} {content : Bytes} {mtime : Int}
    (h : k.Holds texts t content mtime) : ∀ u ∈ texts ++ [t], isName (encode u) = true := by
  obtain ⟨i, hat, -⟩ := h
  exact isName_of_at hat

theorem clientOf_ok_iff {name : Text} :
    (∃ client, clientOf fromtimestamp k none name = .ok client) ↔
      ∃ files, regularFiles fromtimestamp k ["clients".toList, name] = .ok files := by
  unfold clientOf
  rw [if_neg (by simp)]
  cases regularFiles fromtimestamp k ["clients".toList, name] <;> simp [Except.map]

theorem mem_clientOf {name : Text} {files : List FileInfo} {client : Option Client}
    (hfiles : regularFiles fromtimestamp k ["clients".toList, name] = .ok files)
    (h : clientOf fromtimestamp k none name = .ok client) {path : Text} :
    (∃ c, client = some c ∧ path ∈ c.files.map (·.path)) ↔ path ∈ files.map (·.path) := by
  unfold clientOf at h
  rw [if_neg (by simp), hfiles] at h
  obtain rfl := Except.ok.inj h
  cases files <;> simp [eq_comm]

theorem isName_clients : isName (encode "clients".toList) = true := by decide

theorem isName_reports : isName (encode "reports".toList) = true := by decide

theorem isName_pair {name : Text} (h : isName (encode name) = true) :
    ∀ t ∈ ["clients".toList, name], isName (encode t) = true := by
  intro t ht
  rcases List.mem_cons.1 ht with rfl | ht
  · exact isName_clients
  · exact List.mem_singleton.1 ht ▸ h

theorem isName_single : ∀ t ∈ ["reports".toList], isName (encode t) = true :=
  fun _ ht => List.mem_singleton.1 ht ▸ isName_reports

/-- The loop over the clients comes to every directory that holds something. -/
theorem clients_eq (hread : k.Readable) :
    ∃ es : List (Text × Node ι), entries k [ofText "clients".toList] = .ok es ∧
      (∀ e ∈ es, isName (encode e.1) = true) ∧
      ∀ name t content mtime, k.Holds ["clients".toList, name] t content mtime →
        ∃ node, (name, node) ∈ es := by
  have hsingle : ∀ t ∈ ["clients".toList], isName (encode t) = true := by decide
  obtain ⟨es, hes, hmem⟩ := entries_eq hread (List.cons_ne_nil _ _) hsingle
  refine ⟨es, hes, ?_, ?_⟩
  · rintro ⟨name, node⟩ he
    obtain ⟨d, i, -, -, ⟨name', hname', -⟩, -⟩ := (hmem name node).1 he
    exact hname' ▸ name'.property
  · rintro name t content mtime ⟨i, hat, -⟩
    obtain ⟨d, hclient, -⟩ := (at_snoc (List.cons_ne_nil _ _)).1 hat
    obtain ⟨d', hclients, hd', hcalled, -⟩ :=
      (at_snoc (List.cons_ne_nil "clients".toList [])).1 hclient
    exact ⟨_, (hmem name _).2 ⟨d', d, hclients, hd', hcalled, rfl⟩⟩

theorem listFiles_ok {es : List (Text × Node ι)}
    (hes : entries k [ofText "clients".toList] = .ok es)
    {listing : Listing} :
    listFiles fromtimestamp k none = .ok listing ↔ ∃ clients reports,
      (es.mapM fun e => clientOf fromtimestamp k none e.1) = .ok clients ∧
        regularFiles fromtimestamp k ["reports".toList] = .ok reports ∧
        listing = ⟨clients.filterMap id, reports⟩ := by
  unfold listFiles
  rw [hes]
  dsimp only
  cases es.mapM fun e => clientOf fromtimestamp k none e.1 with
  | error e => simp
  | ok clients =>
    cases regularFiles fromtimestamp k ["reports".toList] with
    | error e => simp [Except.map]
    | ok reports => simp [Except.map, eq_comm]

theorem listFiles_ok_iff (hread : k.Readable) :
    (∃ listing, listFiles fromtimestamp k none = .ok listing) ↔
      ∀ path content mtime, FileAt k path content mtime → (fromtimestamp mtime).isSome = true := by
  obtain ⟨es, hes, hnames, hall⟩ := clients_eq hread
  have hsplit : (∃ listing, listFiles fromtimestamp k none = .ok listing) ↔
      (∀ e ∈ es, ∃ client, clientOf fromtimestamp k none e.1 = .ok client) ∧
        ∃ reports, regularFiles fromtimestamp k ["reports".toList] = .ok reports := by
    rw [← mapM_ok_iff (f := fun e : Text × Node ι => clientOf fromtimestamp k none e.1)]
    simp only [listFiles_ok hes]
    constructor
    · intro ⟨_, clients, reports, hclients, hreports, _⟩
      exact ⟨⟨clients, hclients⟩, reports, hreports⟩
    · intro ⟨⟨clients, hclients⟩, reports, hreports⟩
      exact ⟨_, clients, reports, hclients, hreports, rfl⟩
  rw [hsplit, regularFiles_ok_iff hread (List.cons_ne_nil _ _) isName_single]
  constructor
  · rintro ⟨hclients, hreports⟩ path content mtime ⟨texts, t, ⟨name, rfl⟩ | rfl, hholds, -⟩
    · obtain ⟨node, he⟩ := hall name t content mtime hholds
      have hname := hnames _ he
      exact (regularFiles_ok_iff hread (List.cons_ne_nil _ _) (isName_pair hname)).1
        (clientOf_ok_iff.1 (hclients _ he)) t content mtime hholds
    · exact hreports t content mtime hholds
  · intro h
    constructor
    · intro e he
      refine clientOf_ok_iff.2 ((regularFiles_ok_iff hread (List.cons_ne_nil _ _)
        (isName_pair (hnames e he))).2 ?_)
      exact fun t content mtime hholds =>
        h _ content mtime ⟨_, t, .inl ⟨e.1, rfl⟩, hholds, rfl⟩
    · exact fun t content mtime hholds => h _ content mtime ⟨_, t, .inr rfl, hholds, rfl⟩

theorem mem_paths (hread : k.Readable) {listing : Listing}
    (h : listFiles fromtimestamp k none = .ok listing) {path : Text} :
    path ∈ listing.paths ↔ ∃ content mtime, FileAt k path content mtime := by
  obtain ⟨es, hes, hnames, hall⟩ := clients_eq hread
  obtain ⟨clients, reports, hclients, hreports, rfl⟩ := (listFiles_ok hes).1 h
  have hfiles {e : Text × Node ι} (he : e ∈ es) : ∃ files client,
      regularFiles fromtimestamp k ["clients".toList, e.1] = .ok files ∧
        clientOf fromtimestamp k none e.1 = .ok client ∧ client ∈ clients := by
    obtain ⟨client, hclient⟩ := mapM_ok_iff.1 ⟨clients, hclients⟩ e he
    obtain ⟨files, hfiles⟩ := clientOf_ok_iff.1 ⟨client, hclient⟩
    exact ⟨files, client, hfiles, hclient, (mem_mapM_ok hclients).2 ⟨e, he, hclient⟩⟩
  unfold Listing.paths
  rw [List.mem_append, mem_regularFiles hread (List.cons_ne_nil _ _) isName_single hreports]
  constructor
  · rintro (hmem | ⟨t, content, mtime, hholds, rfl⟩)
    · obtain ⟨c, hc, hpath⟩ := List.mem_flatMap.1 hmem
      obtain ⟨_, hclient, rfl⟩ := List.mem_filterMap.1 hc
      obtain ⟨e, he, hof⟩ := (mem_mapM_ok hclients).1 hclient
      obtain ⟨files, hregular⟩ := clientOf_ok_iff.1 ⟨_, hof⟩
      have hin := (mem_clientOf hregular hof).1 ⟨c, rfl, hpath⟩
      obtain ⟨t, content, mtime, hholds, rfl⟩ :=
        (mem_regularFiles hread (List.cons_ne_nil _ _) (isName_pair (hnames e he)) hregular).1 hin
      exact ⟨content, mtime, _, t, .inl ⟨e.1, rfl⟩, hholds, rfl⟩
    · exact ⟨content, mtime, _, t, .inr rfl, hholds, rfl⟩
  · rintro ⟨content, mtime, texts, t, ⟨name, rfl⟩ | rfl, hholds, rfl⟩
    · left
      obtain ⟨node, he⟩ := hall name t content mtime hholds
      obtain ⟨files, client, hregular, hof, hclient⟩ := hfiles he
      have hin := (mem_regularFiles hread (List.cons_ne_nil _ _) (isName_pair (hnames _ he))
        hregular).2 ⟨t, content, mtime, hholds, rfl⟩
      obtain ⟨c, rfl, hpath⟩ := (mem_clientOf hregular hof).2 hin
      exact List.mem_flatMap.2 ⟨c, List.mem_filterMap.2 ⟨_, hclient, rfl⟩, hpath⟩
    · exact .inr ⟨t, content, mtime, hholds, rfl⟩

/-! ## Reading on the same tree -/

/-- `list_files` lists the path. -/
def Lists (fromtimestamp : Int → Option Int) (k : Tree ι) (path : Text) : Prop :=
  ∃ listing, listFiles fromtimestamp k none = .ok listing ∧ path ∈ listing.paths

/-- `read_file` returns something for the path, on a tree that does not change. -/
def Reads (k : Tree ι) (path : Text) : Prop := ∃ r, readFile (fun _ => k) (ofText path) = .ok r

theorem slash_notMem_of_isName {t : Text} (h : isName (encode t) = true) : '/' ∉ t := by
  intro hc
  exact (clean_ofText h).2 (List.mem_map_of_mem hc)

theorem reads_of_fileAt (hread : k.Readable) {path : Text} {content : Bytes} {mtime : Int}
    (h : FileAt k path content mtime) : Reads k path := by
  obtain ⟨texts, t, hdir, hholds, rfl⟩ := h
  have hnames := isName_of_holds hholds
  obtain ⟨i, hat, hnode⟩ := hholds
  have hparts : (ofText (['/'].intercalate (texts ++ [t]))).splitOn slash =
      (texts ++ [t]).map ofText := by
    rw [splitOn_slash, List.splitOn_intercalate]
    · exact fun u hu => slash_notMem_of_isName (hnames u hu)
    · simp
  have hdepth : some ((texts ++ [t]).map ofText).length =
      depthOf (((texts ++ [t]).map ofText).headD []) := by
    rcases hdir with ⟨name, rfl⟩ | rfl
    · rfl
    · rfl
  have hbad : ((texts ++ [t]).map ofText).any bad ≠ true := by
    intro hany
    obtain ⟨p, hp, hbad⟩ := List.any_eq_true.1 hany
    rw [(clean_map_ofText hnames p hp).1] at hbad
    cases hbad
  have hopen : openBelowRoot (fun _ => k) ((texts ++ [t]).map ofText) {} = .ok i :=
    openBelowRoot_of_at hread hat (hread i (.inr ⟨content, mtime, hnode⟩)) (by intro h; cases h)
  refine ⟨(content, mediaType (ofText (['/'].intercalate (texts ++ [t])))), ?_⟩
  unfold readFile
  dsimp only
  rw [hparts, if_neg (not_or.2 ⟨not_not.2 hdepth, hbad⟩), hopen]
  dsimp only
  rw [readOpened_eq_ok.2 ⟨by rw [hnode]; rfl, ⟨content, mtime, hnode⟩, mtime, hnode⟩]
  rfl

theorem fileAt_of_reads {path : Text} (h : Reads k path) :
    ∃ content mtime, FileAt k path content mtime := by
  obtain ⟨⟨content, media⟩, h⟩ := h
  obtain ⟨names, i, hnames, hdepth, hreached, -, mtime, hnode⟩ := readFile_ok h
  rw [splitOn_slash] at hnames hdepth
  have hat : k.At (path.splitOn '/') i := ⟨names, encodes_map_ofText.1 hnames, hreached⟩
  have hpath : path = ['/'].intercalate (path.splitOn '/') := (List.intercalate_splitOn '/').symm
  refine ⟨content, mtime, ?_⟩
  generalize path.splitOn '/' = parts at *
  cases parts with
  | nil => cases hdepth
  | cons first rest =>
    rw [List.map_cons, List.headD_cons] at hdepth
    unfold depthOf at hdepth
    split_ifs at hdepth with hclients hreports
    · obtain rfl := ofText_injective hclients
      have hlen : rest.length = 2 := by simpa using hdepth
      obtain ⟨name, t, rfl⟩ := List.length_eq_two.1 hlen
      exact ⟨_, t, .inl ⟨name, rfl⟩, ⟨i, hat, hnode⟩, hpath⟩
    · obtain rfl := ofText_injective hreports
      have hlen : rest.length = 1 := by simpa using hdepth
      obtain ⟨t, rfl⟩ := List.length_eq_one_iff.1 hlen
      exact ⟨_, t, .inr rfl, ⟨i, hat, hnode⟩, hpath⟩

theorem reads_iff (hread : k.Readable) {path : Text} :
    Reads k path ↔ ∃ content mtime, FileAt k path content mtime :=
  ⟨fileAt_of_reads, fun ⟨_, _, h⟩ => reads_of_fileAt hread h⟩

/-- Every file that would be listed is from a time `datetime` knows. -/
def TimesKnown (fromtimestamp : Int → Option Int) (k : Tree ι) : Prop :=
  ∀ path content mtime, FileAt k path content mtime → (fromtimestamp mtime).isSome = true

/-- **Reads stay below the root on every tree, and they are what is listed exactly when every file
is from a time `datetime` knows.** -/
theorem readFile_listFiles_iff (fromtimestamp : Int → Option Int) (k : Tree ι)
    (hread : k.Readable) :
    ((∀ (w : Nat → Tree ι) path content media, readFile w path = .ok (content, media) →
        Confined w path content) ∧
      ∀ path, Reads k path ↔ Lists fromtimestamp k path) ↔ TimesKnown fromtimestamp k := by
  constructor
  · rintro ⟨-, hsame⟩ path content mtime hfile
    obtain ⟨listing, hlisting, -⟩ := (hsame path).1 (reads_of_fileAt hread hfile)
    exact (listFiles_ok_iff hread).1 ⟨listing, hlisting⟩ path content mtime hfile
  · intro hknown
    refine ⟨fun w path content media => readFile_confined, fun path => ?_⟩
    obtain ⟨listing, hlisting⟩ := (listFiles_ok_iff hread).2 hknown
    rw [reads_iff hread, ← mem_paths hread hlisting]
    constructor
    · exact fun hmem => ⟨listing, hlisting, hmem⟩
    · rintro ⟨listing', hlisting', hmem⟩
      rw [hlisting] at hlisting'
      exact Except.ok.inj hlisting' ▸ hmem

/-! ## A tree with one report -/

def Dir.single (name : Name) (i : ι) : Dir ι where
  entry n := if n = name then some i else none
  names := [name]
  complete n := by
    by_cases h : n = name
    · simp [h]
    · simp [h]

theorem Dir.single_entry (name : Name) (i : ι) : (Dir.single name i).entry name = some i :=
  if_pos rfl

/-- `reports/late.txt`, empty and last changed at `mtime`. -/
def oneReport (mtime : Int) : Tree Nat where
  node
    | 0 => .dir (.single ⟨encode "reports".toList, isName_reports⟩ 1)
    | 1 => .dir (.single ⟨encode "late.txt".toList, by decide⟩ 2)
    | 2 => .regular [] mtime
    | _ => .other
  parent _ := 0
  walk _ _ := none
  follow _ := none
  may _ := true
  root := some 0

/-- The years 1 to 9999, in microseconds. -/
def years (ns : Int) : Option Int :=
  if -62135596800000000000 ≤ ns ∧ ns < 253402300800000000000 then some (ns / 1000) else none

theorem fileAt_oneReport (mtime : Int) : FileAt (oneReport mtime) "reports/late.txt".toList
    [] mtime := by
  refine ⟨["reports".toList], "late.txt".toList, .inr rfl, ⟨2, ?_, rfl⟩, rfl⟩
  refine ⟨[⟨encode "reports".toList, isName_reports⟩, ⟨encode "late.txt".toList, by decide⟩], rfl,
    0,
    rfl, rfl, ?_⟩
  exact .step ⟨_, rfl, Dir.single_entry _ _⟩ rfl
    (.last ⟨_, rfl, Dir.single_entry _ _⟩ (by intro h; cases h))

theorem readFile_listFiles_epoch :
    ((∀ (w : Nat → Tree Nat) path content media, readFile w path = .ok (content, media) →
        Confined w path content) ∧
      ∀ path, Reads (oneReport 0) path ↔ Lists years (oneReport 0) path) ↔
    TimesKnown years (oneReport 0) :=
  readFile_listFiles_iff years (oneReport 0) fun _ _ => rfl

/-- A report from the year 10000 is readable and makes the list raise. -/
theorem not_reads_iff_lists_late :
    ¬∀ path, Reads (oneReport 253402300800000000000) path ↔
      Lists years (oneReport 253402300800000000000) path := by
  intro hsame
  have hread : (oneReport 253402300800000000000).Readable := fun _ _ => rfl
  have hfile := fileAt_oneReport 253402300800000000000
  obtain ⟨listing, hlisting, -⟩ := (hsame _).1 (reads_of_fileAt hread hfile)
  have hknown := (listFiles_ok_iff hread).1 ⟨listing, hlisting⟩ _ _ _ hfile
  exact absurd hknown (by decide)

end WlanpiCore.Profiler
