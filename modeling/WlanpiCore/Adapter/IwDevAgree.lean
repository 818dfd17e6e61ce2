import WlanpiCore.Adapter.IwDev

/-!
# When the two parsers of `iw dev` agree

**`agree_iff`**: the status and the inventory name the same netdevs, with the same phy and the same
type, and take nothing from a wdev without a netdev, exactly when every netdev is clear: its type is
one word, no line before its type line opens a table, and, if a wdev without a netdev follows it, a
line after its type line does. **`not_agree_p2p`** is the output of a radio with a P2P device.

Each parser is run once over an arbitrary output: the status is the dict with `Netdev.fields` for
each netdev, the inventory the list with `Netdev.live` for each. The theorem compares the two.
-/

namespace WlanpiCore.Adapter

open Text

/-! ## The lines -/

theorem isPrefixOf_append (w t : Text) : w.isPrefixOf (w ++ t) = true :=
  List.isPrefixOf_iff_prefix.2 (List.prefix_append w t)

theorem isPrefixOf_word {w t : Text} (hw : ∀ c ∈ w, isSpace c = false)
    (h : w.isPrefixOf t = true) : w.isPrefixOf (word t) = true := by
  obtain ⟨rest, rfl⟩ := List.isPrefixOf_iff_prefix.1 h
  rw [word_append hw]
  exact List.isPrefixOf_iff_prefix.2 (List.prefix_append w _)

theorem word_of_isPrefixOf {w t : Text} (hw : ∀ c ∈ w, isSpace c = false)
    (h : (w ++ [' ']).isPrefixOf t = true) : word t = w := by
  obtain ⟨rest, rfl⟩ := List.isPrefixOf_iff_prefix.1 h
  rw [List.append_assoc]
  exact word_append_space hw rfl rest

/-- A line that is neither a phy's header nor a netdev's first line. -/
structure Body (raw : Text) : Prop where
  nonempty : strip raw ≠ []
  indented : raw.head? = some '\t'
  interface : "Interface ".toList.isPrefixOf (strip raw) = false
  phy : "phy#".toList.isPrefixOf (strip raw) = false

/-- What a line of a wdev is not. -/
theorem Line.start (line : Line) : Body line.text ∧
    "type ".toList.isPrefixOf (strip line.text) = false ∧
    "Unnamed/non-netdev".toList.isPrefixOf (strip line.text) = false ∧
    (cut (strip line.text)).1 ≠ "type".toList ∧ (cut (strip line.text)).1 ≠ "wiphy".toList ∧
    (cut (strip line.text)).1 ≠ "Unnamed/non-netdev".toList := by
  obtain ⟨hne, hknown⟩ := line.other
  have hfirst : firstWord line.text = word (strip line.text) := rfl
  rw [hfirst] at hne hknown
  simp only [known, Bool.or_eq_false_iff, decide_eq_false_iff_not] at hknown
  obtain ⟨⟨⟨⟨hinterface, htype⟩, hwiphy⟩, hphy⟩, hunnamed⟩ := hknown
  refine ⟨⟨fun hnil => ?_, line.indented, ?_, ?_⟩, ?_, ?_, htype, hwiphy, fun heq => ?_⟩
  · rw [hnil] at hne
    exact hne rfl
  · by_contra h
    exact hinterface
      (word_of_isPrefixOf (w := "Interface".toList) (forall_of_all (by decide)) (by simpa using h))
  · by_contra h
    rw [isPrefixOf_word (forall_of_all (by decide)) (by simpa using h)] at hphy
    cases hphy
  · by_contra h
    exact htype
      (word_of_isPrefixOf (w := "type".toList) (forall_of_all (by decide)) (by simpa using h))
  · by_contra h
    rw [isPrefixOf_word (forall_of_all (by decide)) (by simpa using h)] at hunnamed
    cases hunnamed
  · have heq : word (strip line.text) = "Unnamed/non-netdev".toList := heq
    rw [heq] at hunnamed
    exact absurd hunnamed (by decide)

theorem strip_append {w t : Text} {c : Char} (hw : w.head? = some c) (hc : isSpace c = false)
    (hne : t ≠ []) (hlast : ∀ d ∈ t.getLast?, isSpace d = false) : strip (w ++ t) = w ++ t := by
  refine strip_eq_self ?_ ?_
  · cases w with
    | nil => cases hw
    | cons d w =>
      cases hw
      simpa using hc
  · rw [List.getLast?_append_of_ne_nil w hne]
    exact hlast

section

variable {t : { t : Text // isTypeName t = true }}

theorem typeName_spec (t : { t : Text // isTypeName t = true }) :
    t.val ≠ [] ∧ (∀ c ∈ t.val.head?, isSpace c = false ∧ c ≠ ':') ∧
      (∀ c ∈ t.val.getLast?, isSpace c = false) ∧
      (∀ c ∈ t.val, c ≠ ':' ∧ (isSpace c = true → c = ' ')) := by
  obtain ⟨t, ht⟩ := t
  simp only [isTypeName, Bool.and_eq_true, decide_eq_true_eq, List.all_eq_true] at ht
  obtain ⟨⟨⟨hall, hhead⟩, hlast⟩, hne⟩ := ht
  have hchar (c : Char) (hc : c ∈ t) : c ≠ ':' ∧ (isSpace c = true → c = ' ') := by
    have h := hall c hc
    rw [Bool.or_eq_true] at h
    rcases h with halpha | hsign
    · have halpha : (decide (65 ≤ c.toNat ∧ c.toNat ≤ 90) ||
          (decide (97 ≤ c.toNat) && decide (c.toNat ≤ 122)) ||
          (decide (48 ≤ c.toNat) && decide (c.toNat ≤ 57))) = true := halpha
      simp only [Bool.or_eq_true, Bool.and_eq_true, decide_eq_true_eq] at halpha
      constructor
      · rintro rfl
        revert halpha
        decide
      · intro hs
        simp only [isSpace, List.contains_eq_mem, List.mem_cons, List.not_mem_nil, or_false,
          Bool.or_eq_true, Bool.and_eq_true, decide_eq_true_eq] at hs
        omega
    · have hmem : c ∈ "/-() ".toList := by simpa using hsign
      have hcases : c = '/' ∨ c = '-' ∨ c = '(' ∨ c = ')' ∨ c = ' ' := by simpa using hmem
      rcases hcases with rfl | rfl | rfl | rfl | rfl <;> decide
  refine ⟨hne, fun c hc => ?_, fun c hc => ?_, hchar⟩
  · have hmem := List.mem_of_mem_head? hc
    refine ⟨?_, (hchar c hmem).1⟩
    by_contra hs
    have heq := (hchar c hmem).2 (by simpa using hs)
    exact hhead (heq ▸ hc)
  · by_contra hs
    have heq := (hchar c (List.mem_of_mem_getLast? hc)).2 (by simpa using hs)
    exact hlast (heq ▸ hc)

theorem strip_type : strip ("\t\ttype ".toList ++ t) = "type ".toList ++ t.val := by
  obtain ⟨hne, -, hlast, -⟩ := typeName_spec t
  have hstrip := strip_append (w := "type ".toList) (c := 't') rfl rfl hne hlast
  rw [← hstrip]
  exact (strip_cons rfl _).trans (strip_cons rfl _)

theorem opens_type : opensTable ("type ".toList ++ t.val) = false := by
  obtain ⟨hne, -, -, hall⟩ := typeName_spec t
  rw [opensTable, Bool.or_eq_false_iff]
  constructor
  · by_contra h
    have hsuffix : "TXQ:".toList <:+ "type ".toList ++ t.val := by simpa using h
    -- The last character would be a colon.
    have hlast : ("type ".toList ++ t.val).getLast? = some ':' := by
      obtain ⟨front, heq⟩ := hsuffix
      rw [← heq, List.getLast?_append_of_ne_nil _ (by decide)]
      rfl
    rw [List.getLast?_append_of_ne_nil _ hne] at hlast
    exact (hall ':' (List.mem_of_mem_getLast? hlast)).1 rfl
  · rfl

theorem cut_type : cut ("type ".toList ++ t.val) = ("type".toList, t.val) := by
  obtain ⟨hne, hhead, -, -⟩ := typeName_spec t
  have hrest : t.val.dropWhile isSpace = t.val := by
    cases ht : t.val with
    | nil => rfl
    | cons c rest => simp [(hhead c (by simp [ht])).1]
  have hcut : cut ("type ".toList ++ t.val) = ("type".toList, t.val.dropWhile isSpace) := rfl
  rw [hcut, hrest]

theorem valueOf_type : valueOf t.val = t.val := by
  obtain ⟨-, hhead, -, -⟩ := typeName_spec t
  unfold valueOf
  split
  · rename_i rest heq
    exact absurd rfl (hhead ':' (by simp [heq])).2
  · rfl

theorem secondWord_type : secondWord ("type ".toList ++ t.val) = word t.val := by
  obtain ⟨hne, hhead, -, -⟩ := typeName_spec t
  cases hc : t.val.head? with
  | none => exact absurd (List.head?_eq_none_iff.1 hc) hne
  | some c =>
    exact words_pair (w := "type".toList) (forall_of_all (by decide)) (by decide) hc (hhead c hc).1

theorem body_type : Body ("\t\ttype ".toList ++ t) := by
  refine ⟨?_, rfl, ?_, ?_⟩
  · rw [strip_type]
    simp
  · rw [strip_type]
    rfl
  · rw [strip_type]
    rfl

end

theorem body_unnamed : Body "\tUnnamed/non-netdev interface".toList := by
  refine ⟨?_, rfl, ?_, ?_⟩ <;> decide +kernel

theorem strip_interface (n : { t : Text // isWord t = true }) :
    strip ("\tInterface ".toList ++ n) = "Interface ".toList ++ n.val ∧
      (words ("Interface ".toList ++ n.val)).getD 1 [] = n.val := by
  obtain ⟨n, hn⟩ := n
  have hn : n ≠ [] ∧ ∀ c ∈ n, isSpace c = false := by simpa [isWord] using hn
  constructor
  · have hstrip := strip_append (w := "Interface ".toList) (c := 'I') rfl rfl hn.1
      fun d hd => hn.2 d (List.mem_of_mem_getLast? hd)
    rw [← hstrip]
    exact strip_cons rfl _
  · cases hc : n.head? with
    | none => exact absurd (List.head?_eq_none_iff.1 hc) hn.1
    | some c =>
      have hpair := words_pair (w := "Interface".toList) (t := n) (forall_of_all (by decide))
        (by decide) hc
        (hn.2 c (List.mem_of_mem_head? hc))
      exact hpair.trans (word_eq_self hn.2)

/-! ## The status -/

/-- What a line after a netdev's first line does to its fields, and to whether lines are skipped. -/
def note (acc : Bool × Fields) (raw : Text) : Bool × Fields :=
  if opensTable (strip raw) then (true, acc.2)
  else if acc.1 then acc
  else (acc.1, acc.2.insert (cut (strip raw)).1 (valueOf (cut (strip raw)).2))

theorem rstrip_phy {raw : Text} (h : raw.head? = some '\t') :
    "phy#".toList.isPrefixOf (rstrip raw) = false := by
  by_contra hprefix
  have hprefix : "phy#".toList <+: rstrip raw :=
    List.isPrefixOf_iff_prefix.1 (by simpa using hprefix)
  obtain ⟨rest, heq⟩ := hprefix.trans (List.rdropWhile_prefix isSpace raw)
  rw [← heq] at h
  cases h

theorem read_body_none {s : StatusState} {raw : Text} (h : Body raw) (hs : s.currentIface = none) :
    s.read raw = s := by
  unfold StatusState.read
  dsimp only
  rw [strip_rstrip, if_neg h.nonempty, rstrip_phy h.indented, if_neg Bool.false_ne_true,
    lstrip_rstrip,
    h.interface, if_neg Bool.false_ne_true, hs]

theorem read_body {raw iface : Text} (h : Body raw) (d : Interfaces) (wiphy : Option Text)
    (acc : Bool × Fields) :
    (StatusState.mk (d.insert iface acc.2) (some iface) wiphy acc.1).read raw =
      ⟨d.insert iface (note acc raw).2, some iface, wiphy, (note acc raw).1⟩ := by
  unfold StatusState.read
  dsimp only
  rw [strip_rstrip, if_neg h.nonempty, rstrip_phy h.indented, if_neg Bool.false_ne_true,
    lstrip_rstrip,
    h.interface, if_neg Bool.false_ne_true, note]
  by_cases hopens : opensTable (strip raw) = true
  · rw [if_pos hopens, if_pos hopens]
  · rw [if_neg hopens, if_neg hopens]
    by_cases hskip : acc.1 = true
    · rw [if_pos hskip, if_pos hskip]
    · rw [if_neg hskip, if_neg hskip, Interfaces.set, AList.lookup_insert, Option.getD_some,
        AList.insert_insert]

theorem run_body {raws : List Text} (h : ∀ raw ∈ raws, Body raw) (iface : Text) (d : Interfaces)
    (wiphy : Option Text) (acc : Bool × Fields) :
    raws.foldl StatusState.read ⟨d.insert iface acc.2, some iface, wiphy, acc.1⟩ =
      ⟨d.insert iface (raws.foldl note acc).2, some iface, wiphy, (raws.foldl note acc).1⟩ := by
  induction raws generalizing acc with
  | nil => rfl
  | cons raw raws ih =>
    rw [List.foldl_cons, read_body (h raw List.mem_cons_self), List.foldl_cons]
    exact ih (fun raw' hraw' => h raw' (List.mem_cons_of_mem raw hraw')) (note acc raw)

theorem run_body_none {s : StatusState} {raws : List Text} (h : ∀ raw ∈ raws, Body raw)
    (hs : s.currentIface = none) : raws.foldl StatusState.read s = s := by
  induction raws with
  | nil => rfl
  | cons raw raws ih =>
    rw [List.foldl_cons, read_body_none (h raw List.mem_cons_self) hs]
    exact ih fun raw' hraw' => h raw' (List.mem_cons_of_mem raw hraw')

theorem Wdev.body (w : Wdev) : ∀ raw ∈ w.lines, Body raw := by
  intro raw hraw
  simp only [Wdev.lines, List.mem_append, List.mem_cons, List.mem_map] at hraw
  rcases hraw with ⟨line, -, rfl⟩ | rfl | ⟨line, -, rfl⟩
  · exact line.start.1
  · exact body_type
  · exact line.start.1

theorem Wdev.unnamed_body (ws : List Wdev) : ∀ raw ∈ ws.flatMap Wdev.unnamedLines, Body raw := by
  intro raw hraw
  obtain ⟨w, -, hmem⟩ := List.mem_flatMap.1 hraw
  rcases List.mem_cons.1 hmem with rfl | hmem
  · exact body_unnamed
  · exact w.body raw hmem

/-- The status of a netdev. -/
def Netdev.fields (index : Text) (n : Netdev) : Fields :=
  ((n.toWdev.lines ++ n.unnamed.flatMap Wdev.unnamedLines).foldl note
    (false, (∅ : Fields).insert "wiphy".toList index)).2

theorem run_netdev (s : StatusState) {index : Text} (hs : s.currentWiphy = some index)
    (n : Netdev) :
    ∃ skip, n.lines.foldl StatusState.read s =
      ⟨s.interfaces.insert n.name.val (n.fields index), some n.name.val, some index, skip⟩ := by
  obtain ⟨hstrip, hword⟩ := strip_interface n.name
  have hfirst : s.read ("\tInterface ".toList ++ n.name) =
      ⟨s.interfaces.insert n.name.val ((∅ : Fields).insert "wiphy".toList index), some n.name.val,
        some index, false⟩ := by
    unfold StatusState.read
    dsimp only
    rw [strip_rstrip, rstrip_phy rfl, lstrip_rstrip, hstrip, if_neg (by simp),
      if_neg Bool.false_ne_true, if_pos (isPrefixOf_append ..),
      hword, hs]
  have hbody : ∀ raw ∈ n.toWdev.lines ++ n.unnamed.flatMap Wdev.unnamedLines, Body raw := by
    intro raw hraw
    rcases List.mem_append.1 hraw with hmem | hmem
    · exact n.toWdev.body raw hmem
    · exact Wdev.unnamed_body n.unnamed raw hmem
  have hrest := run_body hbody n.name.val s.interfaces (some index)
    (false, (∅ : Fields).insert "wiphy".toList index)
  rw [Netdev.lines, List.foldl_cons, hfirst]
  exact ⟨_, hrest⟩

/-- The netdevs of a phy with their fields. -/
def Phy.table (p : Phy) : List (Text × Fields) :=
  p.netdevs.map fun n => (n.name.val, n.fields p.index)

def insertAll (d : Interfaces) (table : List (Text × Fields)) : Interfaces :=
  table.foldl (fun d entry => d.insert entry.1 entry.2) d

theorem run_netdevs {index : Text} (ns : List Netdev) : ∀ s : StatusState,
    s.currentWiphy = some index →
    ((ns.flatMap Netdev.lines).foldl StatusState.read s).interfaces =
      insertAll s.interfaces (ns.map fun n => (n.name.val, n.fields index)) := by
  induction ns with
  | nil => exact fun s _ => rfl
  | cons n ns ih =>
    intro s hs
    obtain ⟨skip, hrun⟩ := run_netdev s hs n
    rw [List.flatMap_cons, List.foldl_append, hrun]
    exact ih _ rfl

theorem strip_phy (p : Phy) : strip ("phy#".toList ++ p.index) = "phy#".toList ++ p.index.val ∧
    rstrip ("phy#".toList ++ p.index) = "phy#".toList ++ p.index.val ∧
    int p.index.val = some (digitsValue p.index.val : Int) := by
  obtain ⟨index, hindex⟩ := p.index
  have hindex := isIndex_digits hindex
  have hlast (c : Char) (hc : c ∈ index.getLast?) : isSpace c = false :=
    isSpace_digit (hindex.2 c (List.mem_of_mem_getLast? hc))
  have hstrip : strip ("phy#".toList ++ index) = "phy#".toList ++ index :=
    strip_append (c := 'p') rfl rfl hindex.1 hlast
  refine ⟨hstrip, ?_, int_digits hindex.1 hindex.2⟩
  have hlstrip : lstrip ("phy#".toList ++ index) = "phy#".toList ++ index := rfl
  change rstrip (lstrip ("phy#".toList ++ index)) = _ at hstrip
  rwa [hlstrip] at hstrip

theorem run_phy (s : StatusState) (p : Phy) :
    (p.lines.foldl StatusState.read s).interfaces = insertAll s.interfaces p.table := by
  obtain ⟨hstrip, hrstrip, -⟩ := strip_phy p
  have hfirst : s.read ("phy#".toList ++ p.index) =
      ⟨s.interfaces, none, some p.index.val, false⟩ := by
    unfold StatusState.read
    dsimp only
    rw [strip_rstrip, hstrip, hrstrip, if_neg (by simp), if_pos (isPrefixOf_append ..)]
    rfl
  rw [Phy.lines, List.foldl_cons, hfirst, List.foldl_append,
    run_body_none (Wdev.unnamed_body p.unnamed) rfl]
  exact run_netdevs p.netdevs _ rfl

theorem run_phys (ps : List Phy) : ∀ s : StatusState,
    ((ps.flatMap Phy.lines).foldl StatusState.read s).interfaces =
      insertAll s.interfaces (ps.flatMap Phy.table) := by
  induction ps with
  | nil => exact fun s => rfl
  | cons p ps ih =>
    intro s
    rw [List.flatMap_cons, List.foldl_append, ih, run_phy, List.flatMap_cons, insertAll, insertAll,
      insertAll, List.foldl_append]

/-! ## The output's lines -/

theorem Line.unbroken_type (t : { t : Text // isTypeName t = true }) :
    ∀ c ∈ "\t\ttype ".toList ++ t.val, isLineBreak c = false := by
  intro c hc
  have hkey : ∀ d ∈ "\t\ttype ".toList, isLineBreak d = false := forall_of_all (by decide)
  rcases List.mem_append.1 hc with hmem | hmem
  · exact hkey c hmem
  · by_contra hbreak
    have hspace := isSpace_of_isLineBreak (by simpa using hbreak)
    have heq := ((typeName_spec t).2.2.2 c hmem).2 hspace
    rw [heq] at hbreak
    exact hbreak (by decide)

theorem Wdev.unbroken (w : Wdev) : ∀ raw ∈ w.lines, ∀ c ∈ raw, isLineBreak c = false := by
  intro raw hraw
  simp only [Wdev.lines, List.mem_append, List.mem_cons, List.mem_map] at hraw
  rcases hraw with ⟨line, -, rfl⟩ | rfl | ⟨line, -, rfl⟩
  · exact line.unbroken
  · exact Line.unbroken_type w.type
  · exact line.unbroken

theorem Wdev.unnamed_unbroken (ws : List Wdev) : ∀ raw ∈ ws.flatMap Wdev.unnamedLines,
    ∀ c ∈ raw, isLineBreak c = false := by
  intro raw hraw
  obtain ⟨w, -, hmem⟩ := List.mem_flatMap.1 hraw
  rcases List.mem_cons.1 hmem with rfl | hmem
  · exact forall_of_all (by decide)
  · exact w.unbroken raw hmem

theorem unbroken_append {a b : Text} (ha : ∀ c ∈ a, isLineBreak c = false)
    (hb : ∀ c ∈ b, isSpace c = false) : ∀ c ∈ a ++ b, isLineBreak c = false := by
  intro c hc
  rcases List.mem_append.1 hc with hmem | hmem
  · exact ha c hmem
  · by_contra hbreak
    have hspace := isSpace_of_isLineBreak (by simpa using hbreak)
    rw [hb c hmem] at hspace
    cases hspace

theorem IwDev.unbroken (out : IwDev) :
    ∀ raw ∈ out.phys.flatMap Phy.lines, ∀ c ∈ raw, isLineBreak c = false := by
  intro raw hraw
  obtain ⟨p, -, hp⟩ := List.mem_flatMap.1 hraw
  rcases List.mem_cons.1 hp with rfl | hp
  · obtain ⟨index, hindex⟩ := p.index
    have hindex := isIndex_digits hindex
    exact unbroken_append (forall_of_all (by decide)) fun c hc => isSpace_digit (hindex.2 c hc)
  · rcases List.mem_append.1 hp with hp | hp
    · exact Wdev.unnamed_unbroken p.unnamed raw hp
    · obtain ⟨n, -, hn⟩ := List.mem_flatMap.1 hp
      rcases List.mem_cons.1 hn with rfl | hn
      · obtain ⟨name, hname⟩ := n.name
        have hname : name ≠ [] ∧ ∀ c ∈ name, isSpace c = false := by simpa [isWord] using hname
        exact unbroken_append (forall_of_all (by decide)) hname.2
      · rcases List.mem_append.1 hn with hn | hn
        · exact n.toWdev.unbroken raw hn
        · exact Wdev.unnamed_unbroken n.unnamed raw hn

theorem splitlines_output (out : IwDev) :
    splitlines out.output = out.phys.flatMap Phy.lines :=
  splitlines_flatMap out.unbroken

/-- The status: each netdev with its fields. -/
theorem parseIwDevOutput_output (out : IwDev) :
    parseIwDevOutput out.output = insertAll ∅ (out.phys.flatMap Phy.table) := by
  rw [parseIwDevOutput, splitlines_output]
  exact run_phys out.phys {}

/-! ## The inventory -/

/-- The inventory's entry of a netdev. -/
def Netdev.live (phyIndex : Int) (netns : Option Text) (n : Netdev) : LiveInterface :=
  n.toWdev.lines.foldl (fun live raw => live.read (strip raw))
    ⟨n.name.val, phyIndex, netns, [], none, none⟩

variable (netns : Option Text)

theorem inventory_body {s : InventoryState} {raw : Text} (h : Body raw)
    (hunnamed : "Unnamed/non-netdev".toList.isPrefixOf (strip raw) = false) :
    s.read netns raw = { s with current := s.current.map fun live => live.read (strip raw) } := by
  unfold InventoryState.read
  dsimp only
  rw [h.phy, if_neg Bool.false_ne_true, h.interface]
  cases s.phyIndex <;> simp only [hunnamed, Bool.false_eq_true, if_false]

theorem unnamed_type (t : { t : Text // isTypeName t = true }) :
    "Unnamed/non-netdev".toList.isPrefixOf (strip ("\t\ttype ".toList ++ t)) = false := by
  rw [strip_type]
  rfl

theorem inventory_run {raws : List Text} (h : ∀ raw ∈ raws, Body raw ∧
    "Unnamed/non-netdev".toList.isPrefixOf (strip raw) = false) (s : InventoryState) :
    raws.foldl (InventoryState.read netns) s = { s with
      current := s.current.map fun live =>
        raws.foldl (fun live raw => live.read (strip raw)) live } := by
  induction raws generalizing s with
  | nil =>
    cases s with
    | mk entries phyIndex current => cases current <;> rfl
  | cons raw raws ih =>
    obtain ⟨hbody, hunnamed⟩ := h raw List.mem_cons_self
    rw [List.foldl_cons, inventory_body netns hbody hunnamed,
      ih fun raw' hraw' => h raw' (List.mem_cons_of_mem raw hraw')]
    simp only [Option.map_map, Function.comp_def, List.foldl_cons]

theorem Wdev.body_lines (w : Wdev) : ∀ raw ∈ w.lines, Body raw ∧
    "Unnamed/non-netdev".toList.isPrefixOf (strip raw) = false := by
  intro raw hraw
  refine ⟨w.body raw hraw, ?_⟩
  simp only [Wdev.lines, List.mem_append, List.mem_cons, List.mem_map] at hraw
  rcases hraw with ⟨line, -, rfl⟩ | rfl | ⟨line, -, rfl⟩
  · exact line.start.2.2.1
  · exact unnamed_type w.type
  · exact line.start.2.2.1

/-- A wdev without a netdev ends the current netdev and adds nothing. -/
theorem inventory_unnamed (ws : List Wdev) : ∀ s : InventoryState,
    ((ws.flatMap Wdev.unnamedLines).foldl (InventoryState.read netns) s).all = s.all ∧
      ((ws.flatMap Wdev.unnamedLines).foldl (InventoryState.read netns) s).phyIndex =
        s.phyIndex := by
  induction ws with
  | nil => exact fun s => ⟨rfl, rfl⟩
  | cons w ws ih =>
    intro s
    have hfirst : s.read netns "\tUnnamed/non-netdev interface".toList =
        { s with entries := s.all, current := none } := by
      have hstrip : strip "\tUnnamed/non-netdev interface".toList =
          "Unnamed/non-netdev interface".toList := by decide +kernel
      unfold InventoryState.read
      dsimp only
      rw [hstrip]
      cases s.phyIndex <;> rfl
    rw [List.flatMap_cons, List.foldl_append, Wdev.unnamedLines, List.foldl_cons, hfirst,
      inventory_run netns w.body_lines]
    obtain ⟨hall, hphy⟩ := ih { s with entries := s.all, current := none }
    refine ⟨hall.trans ?_, hphy⟩
    exact List.append_nil _

theorem inventory_netdev {s : InventoryState} {phyIndex : Int} (hs : s.phyIndex = some phyIndex)
    (n : Netdev) : (n.lines.foldl (InventoryState.read netns) s).all =
      s.all ++ [n.live phyIndex netns] ∧
      (n.lines.foldl (InventoryState.read netns) s).phyIndex = some phyIndex := by
  obtain ⟨hstrip, hword⟩ := strip_interface n.name
  have hfirst : s.read netns ("\tInterface ".toList ++ n.name) =
      ⟨s.all, some phyIndex, some ⟨n.name.val, phyIndex, netns, [], none, none⟩⟩ := by
    unfold InventoryState.read
    dsimp only
    rw [hstrip, hs, isPrefixOf_append, secondWord, hword]
    rfl
  rw [Netdev.lines, List.foldl_cons, hfirst, List.foldl_append,
    inventory_run netns n.toWdev.body_lines]
  obtain ⟨hall, hphy⟩ := inventory_unnamed netns n.unnamed
    ⟨s.all, some phyIndex, some (n.live phyIndex netns)⟩
  exact ⟨hall, hphy⟩

theorem inventory_netdevs {phyIndex : Int} (ns : List Netdev) : ∀ s : InventoryState,
    s.phyIndex = some phyIndex →
    ((ns.flatMap Netdev.lines).foldl (InventoryState.read netns) s).all =
      s.all ++ ns.map (·.live phyIndex netns) := by
  induction ns with
  | nil => exact fun s _ => (List.append_nil _).symm
  | cons n ns ih =>
    intro s hs
    obtain ⟨hall, hphy⟩ := inventory_netdev netns hs n
    rw [List.flatMap_cons, List.foldl_append, ih _ hphy, hall, List.append_assoc]
    rfl

def Phy.number (p : Phy) : Int := digitsValue p.index.val

theorem inventory_phys (ps : List Phy) : ∀ s : InventoryState,
    ((ps.flatMap Phy.lines).foldl (InventoryState.read netns) s).all =
      s.all ++ ps.flatMap fun p => p.netdevs.map (·.live p.number netns) := by
  induction ps with
  | nil => exact fun s => (List.append_nil _).symm
  | cons p ps ih =>
    intro s
    obtain ⟨hstrip, -, hint⟩ := strip_phy p
    have hfirst : s.read netns ("phy#".toList ++ p.index) = ⟨s.all, some p.number, none⟩ := by
      unfold InventoryState.read
      dsimp only
      rw [hstrip, if_pos (isPrefixOf_append ..)]
      exact congrArg (InventoryState.mk s.all · none) hint
    rw [List.flatMap_cons, List.foldl_append, ih, Phy.lines, List.foldl_cons, hfirst,
      List.foldl_append]
    obtain ⟨hall, hphy⟩ := inventory_unnamed netns p.unnamed ⟨s.all, some p.number, none⟩
    rw [inventory_netdevs netns p.netdevs _ hphy, hall, List.flatMap_cons, List.append_assoc]
    exact congrArg (· ++ _) (List.append_nil _)

/-- The inventory: each netdev with its entry. -/
theorem parseIwDev_output (out : IwDev) : parseIwDev out.output netns =
    out.phys.flatMap fun p => p.netdevs.map (·.live p.number netns) := by
  rw [parseIwDev, splitlines_output]
  exact inventory_phys netns out.phys {}

/-! ## What the parsers read of a netdev -/

theorem LiveInterface.read_same (live : LiveInterface) (line : Text) :
    (live.read line).name = live.name ∧ (live.read line).phyIndex = live.phyIndex := by
  unfold LiveInterface.read
  split_ifs <;> exact ⟨rfl, rfl⟩

theorem live_same (n : Netdev) (phyIndex : Int) :
    (n.live phyIndex netns).name = n.name.val ∧ (n.live phyIndex netns).phyIndex = phyIndex := by
  have hkeep (raws : List Text) (live : LiveInterface) :
      (raws.foldl (fun live raw => live.read (strip raw)) live).name = live.name ∧
        (raws.foldl (fun live raw => live.read (strip raw)) live).phyIndex = live.phyIndex := by
    induction raws generalizing live with
    | nil => exact ⟨rfl, rfl⟩
    | cons raw raws ih =>
      obtain ⟨hname, hphy⟩ := ih (live.read (strip raw))
      obtain ⟨hname', hphy'⟩ := live.read_same (strip raw)
      exact ⟨hname.trans hname', hphy.trans hphy'⟩
  exact hkeep _ _

theorem live_lines (ls : List Line) (live : LiveInterface) :
    ((ls.map (·.text)).foldl (fun live raw => live.read (strip raw)) live).type = live.type := by
  induction ls generalizing live with
  | nil => rfl
  | cons line ls ih =>
    have hline : (live.read (strip line.text)).type = live.type := by
      unfold LiveInterface.read
      rw [line.start.2.1, if_neg Bool.false_ne_true]
      split_ifs <;> rfl
    exact (ih _).trans hline

theorem live_type (n : Netdev) (phyIndex : Int) :
    (n.live phyIndex netns).type = word n.type.val := by
  rw [Netdev.live, Wdev.lines, List.foldl_append, List.foldl_cons, live_lines, strip_type,
    LiveInterface.read, if_pos (isPrefixOf_append ..), secondWord_type]

theorem note_skip {acc : Bool × Fields} (h : acc.1 = true) (raw : Text) : note acc raw = acc := by
  rw [note, if_pos h]
  split_ifs
  · exact Prod.ext h.symm rfl
  · rfl

theorem run_skip {acc : Bool × Fields} (h : acc.1 = true) (raws : List Text) :
    raws.foldl note acc = acc := by
  induction raws with
  | nil => rfl
  | cons raw raws ih => rw [List.foldl_cons, note_skip h, ih]

theorem note_lookup {raw key : Text} (h : (cut (strip raw)).1 ≠ key) (acc : Bool × Fields) :
    (note acc raw).2.lookup key = acc.2.lookup key := by
  unfold note
  split_ifs
  · rfl
  · rfl
  · exact AList.lookup_insert_ne h.symm

theorem run_lookup {key : Text} {raws : List Text} (h : ∀ raw ∈ raws, (cut (strip raw)).1 ≠ key)
    (acc : Bool × Fields) : (raws.foldl note acc).2.lookup key = acc.2.lookup key := by
  induction raws generalizing acc with
  | nil => rfl
  | cons raw raws ih =>
    rw [List.foldl_cons, ih fun raw' hraw' => h raw' (List.mem_cons_of_mem raw hraw'),
      note_lookup (h raw List.mem_cons_self)]

/-- A key is never taken out. -/
theorem run_isSome {key : Text} (raws : List Text) {acc : Bool × Fields}
    (h : (acc.2.lookup key).isSome = true) : ((raws.foldl note acc).2.lookup key).isSome =
      true := by
  induction raws generalizing acc with
  | nil => exact h
  | cons raw raws ih =>
    refine ih ?_
    by_cases hkey : (cut (strip raw)).1 = key
    · unfold note
      split_ifs
      · exact h
      · exact h
      · rw [hkey, AList.lookup_insert]
        rfl
    · rw [note_lookup hkey]
      exact h

theorem run_lines_skip (ls : List Line) (acc : Bool × Fields) :
    ((ls.map (·.text)).foldl note acc).1 = (acc.1 || ls.any Line.opens) := by
  induction ls generalizing acc with
  | nil => exact (Bool.or_false _).symm
  | cons line ls ih =>
    have hline : (note acc line.text).1 = (acc.1 || line.opens) := by
      unfold note Line.opens
      split_ifs with hopens hskip
      · rw [hopens, Bool.or_true]
      · rw [hskip, Bool.true_or]
      · simp only [Bool.not_eq_true] at hopens hskip
        rw [hopens, hskip]
        rfl
    rw [List.map_cons, List.foldl_cons, ih, hline, List.any_cons, Bool.or_assoc]

theorem run_lines_lookup (ls : List Line) (acc : Bool × Fields) {key : Text}
    (hkey : key = "type".toList ∨ key = "wiphy".toList ∨ key = "Unnamed/non-netdev".toList) :
    ((ls.map (·.text)).foldl note acc).2.lookup key = acc.2.lookup key := by
  refine run_lookup (fun raw hraw => ?_) acc
  obtain ⟨line, -, rfl⟩ := List.mem_map.1 hraw
  obtain ⟨-, -, -, htype, hwiphy, hunnamed⟩ := line.start
  rcases hkey with rfl | rfl | rfl
  · exact htype
  · exact hwiphy
  · exact hunnamed

theorem note_type (t : { t : Text // isTypeName t = true }) (acc : Bool × Fields) :
    note acc ("\t\ttype ".toList ++ t) =
      if acc.1 then acc else (acc.1, acc.2.insert "type".toList t.val) := by
  rw [note, strip_type, opens_type, if_neg Bool.false_ne_true, cut_type, valueOf_type]

/-- The lines of a wdev: whether lines are skipped after them, and its type unless it is. -/
theorem run_wdev (w : Wdev) (acc : Bool × Fields) :
    (w.lines.foldl note acc).1 = (acc.1 || w.before.any Line.opens || w.after.any Line.opens) ∧
      (w.lines.foldl note acc).2.lookup "type".toList =
        (if acc.1 || w.before.any Line.opens then acc.2.lookup "type".toList else some w.type.val) ∧
      (w.lines.foldl note acc).2.lookup "wiphy".toList = acc.2.lookup "wiphy".toList ∧
      (w.lines.foldl note acc).2.lookup "Unnamed/non-netdev".toList =
        acc.2.lookup "Unnamed/non-netdev".toList := by
  have hskip := run_lines_skip w.before acc
  rw [Wdev.lines, List.foldl_append, List.foldl_cons, note_type, hskip]
  by_cases hopens : (acc.1 || w.before.any Line.opens) = true
  · rw [if_pos hopens, if_pos hopens, run_lines_skip, hskip]
    refine ⟨rfl, ?_, ?_, ?_⟩ <;> rw [run_lines_lookup _ _ (by simp), run_lines_lookup _ _ (by simp)]
  · rw [if_neg hopens, if_neg hopens, run_lines_skip]
    refine ⟨rfl, ?_, ?_, ?_⟩
    · rw [run_lines_lookup _ _ (by simp), AList.lookup_insert]
    · rw [run_lines_lookup _ _ (by simp), AList.lookup_insert_ne (by decide),
        run_lines_lookup _ _ (by simp)]
    · rw [run_lines_lookup _ _ (by simp), AList.lookup_insert_ne (by decide),
        run_lines_lookup _ _ (by simp)]

/-- No line of a wdev without a netdev gives a phy. -/
theorem unnamed_wiphy (ws : List Wdev) (acc : Bool × Fields) :
    ((ws.flatMap Wdev.unnamedLines).foldl note acc).2.lookup "wiphy".toList =
      acc.2.lookup "wiphy".toList := by
  refine run_lookup (fun raw hraw => ?_) acc
  obtain ⟨w, -, hmem⟩ := List.mem_flatMap.1 hraw
  rcases List.mem_cons.1 hmem with rfl | hmem
  · decide +kernel
  · simp only [Wdev.lines, List.mem_append, List.mem_cons, List.mem_map] at hmem
    rcases hmem with ⟨line, -, rfl⟩ | rfl | ⟨line, -, rfl⟩
    · exact line.start.2.2.2.2.1
    · rw [strip_type, cut_type]
      exact fun heq => absurd heq (by decide : "type".toList ≠ "wiphy".toList)
    · exact line.start.2.2.2.2.1

theorem fields_wiphy (n : Netdev) (index : Text) :
    (n.fields index).lookup "wiphy".toList = some index := by
  rw [Netdev.fields, List.foldl_append, unnamed_wiphy, (run_wdev n.toWdev _).2.2.1,
    AList.lookup_insert]

/-- The netdev's own lines. -/
theorem alone_fields (n : Netdev) (index : Text) : n.alone.fields index =
    (n.toWdev.lines.foldl note (false, (∅ : Fields).insert "wiphy".toList index)).2 := by
  rw [Netdev.fields]
  change ((n.toWdev.lines ++ []).foldl note _).2 = _
  rw [List.append_nil]

/-! ## Agreement -/

/-- A netdev that both parsers read the same. -/
def Netdev.Clear (n : Netdev) : Prop :=
  (∀ c ∈ n.type.val, isSpace c = false) ∧ (∀ line ∈ n.before, line.opens = false) ∧
    (n.unnamed = [] ∨ ∃ line ∈ n.after, line.opens = true)

/-- Lines skipped after the netdev's own lines. -/
def Netdev.skips (n : Netdev) : Bool := n.before.any Line.opens || n.after.any Line.opens

theorem fields_alone_iff (n : Netdev) (index : Text) :
    n.fields index = n.alone.fields index ↔ n.unnamed = [] ∨ n.skips = true := by
  have hown := run_wdev n.toWdev (false, (∅ : Fields).insert "wiphy".toList index)
  rw [alone_fields, Netdev.fields, List.foldl_append]
  constructor
  · intro heq
    by_contra hnot
    rw [not_or] at hnot
    obtain ⟨hne, hskips⟩ := hnot
    obtain ⟨w, ws, hcons⟩ := List.exists_cons_of_ne_nil hne
    have hskips : (n.toWdev.lines.foldl note
        (false, (∅ : Fields).insert "wiphy".toList index)).1 = false := by
      rw [hown.1, Bool.false_or]
      exact (Bool.not_eq_true _).mp hskips
    -- The first line of the first of them is a key that the netdev does not have.
    have hnone : (n.toWdev.lines.foldl note
        (false, (∅ : Fields).insert "wiphy".toList index)).2.lookup "Unnamed/non-netdev".toList =
        none := by
      rw [hown.2.2.2, AList.lookup_insert_ne (by decide)]
      rfl
    have hfirst :
      ((note (n.toWdev.lines.foldl note (false, (∅ : Fields).insert "wiphy".toList index))
        "\tUnnamed/non-netdev interface".toList).2.lookup "Unnamed/non-netdev".toList).isSome =
        true := by
      have hstrip : strip "\tUnnamed/non-netdev interface".toList =
          "Unnamed/non-netdev interface".toList := by decide +kernel
      have hopens : opensTable "Unnamed/non-netdev interface".toList = false := by decide +kernel
      have hcut : (cut "Unnamed/non-netdev interface".toList).1 = "Unnamed/non-netdev".toList := by
        decide +kernel
      rw [note, hstrip, hopens, if_neg Bool.false_ne_true, hskips, if_neg Bool.false_ne_true, hcut,
        AList.lookup_insert]
      rfl
    have hsome := run_isSome (w.lines ++ ws.flatMap Wdev.unnamedLines) hfirst
    rw [hcons, List.flatMap_cons, Wdev.unnamedLines, List.cons_append, List.foldl_cons] at heq
    rw [heq, hnone] at hsome
    cases hsome
  · rintro (hnil | hskips)
    · rw [hnil]
      rfl
    · rw [run_skip]
      rw [hown.1, Bool.false_or]
      exact hskips

/-- Both parsers name the same netdevs, with the same phy and the same type, and take nothing from
a wdev without a netdev. -/
structure Agree (out : IwDev) (netns : Option Text) : Prop where
  names : ∀ name, name ∈ parseIwDevOutput out.output ↔
    ∃ live ∈ parseIwDev out.output netns, live.name = name
  phys : ∀ live ∈ parseIwDev out.output netns,
    ∀ fields ∈ (parseIwDevOutput out.output).lookup live.name,
    (fields.lookup "wiphy".toList).bind int = some live.phyIndex
  types : ∀ live ∈ parseIwDev out.output netns,
    ∀ fields ∈ (parseIwDevOutput out.output).lookup live.name,
    (fields.lookup "type".toList).getD [] = live.type
  unnamedStatus : parseIwDevOutput out.output = parseIwDevOutput out.named.output
  unnamedInventory : parseIwDev out.output netns = parseIwDev out.named.output netns

theorem mem_insertAll {name : Text} {table : List (Text × Fields)} (d : Interfaces) :
    name ∈ insertAll d table ↔ name ∈ d ∨ ∃ entry ∈ table, entry.1 = name := by
  induction table generalizing d with
  | nil => simp [insertAll]
  | cons entry table ih =>
    have hstep : insertAll d (entry :: table) = insertAll (d.insert entry.1 entry.2) table := rfl
    rw [hstep, ih, AList.mem_insert]
    simp only [List.mem_cons, exists_eq_or_imp]
    tauto

theorem lookup_insertAll_of_not {name : Text} {table : List (Text × Fields)}
    (h : name ∉ table.map (·.1)) (d : Interfaces) :
    (insertAll d table).lookup name = d.lookup name := by
  induction table generalizing d with
  | nil => rfl
  | cons entry table ih =>
    rw [List.map_cons, List.mem_cons, not_or] at h
    have hstep : insertAll d (entry :: table) = insertAll (d.insert entry.1 entry.2) table := rfl
    rw [hstep, ih h.2, AList.lookup_insert_ne h.1]

theorem lookup_insertAll {table : List (Text × Fields)} (hdistinct : (table.map (·.1)).Nodup)
    {name : Text} {fields : Fields} (h : (name, fields) ∈ table) (d : Interfaces) :
    (insertAll d table).lookup name = some fields := by
  induction table generalizing d with
  | nil => cases h
  | cons entry table ih =>
    rw [List.map_cons, List.nodup_cons] at hdistinct
    have hstep : insertAll d (entry :: table) = insertAll (d.insert entry.1 entry.2) table := rfl
    rcases List.mem_cons.1 h with rfl | h
    · rw [hstep, lookup_insertAll_of_not hdistinct.1, AList.lookup_insert]
    · exact ih hdistinct.2 h _

theorem IwDev.table_distinct (out : IwDev) :
    ((out.phys.flatMap Phy.table).map (·.1)).Nodup := by
  have hnames : (out.phys.flatMap Phy.table).map (·.1) =
      (out.phys.flatMap (·.netdevs)).map (·.name.val) := by
    simp [List.map_flatMap, Phy.table, Function.comp_def]
  rw [hnames]
  exact out.distinct

/-- The fields of a netdev in the status. -/
theorem IwDev.lookup (out : IwDev) {p : Phy} (hp : p ∈ out.phys) {n : Netdev} (hn : n ∈ p.netdevs) :
    (parseIwDevOutput out.output).lookup n.name.val = some (n.fields p.index.val) := by
  rw [parseIwDevOutput_output]
  refine lookup_insertAll out.table_distinct ?_ ∅
  exact List.mem_flatMap.2 ⟨p, hp, List.mem_map.2 ⟨n, hn, rfl⟩⟩

theorem IwDev.mem_inventory {out : IwDev} {live : LiveInterface} :
    live ∈ parseIwDev out.output netns ↔
      ∃ p ∈ out.phys, ∃ n ∈ p.netdevs, n.live p.number netns = live := by
  rw [parseIwDev_output]
  simp only [List.mem_flatMap, List.mem_map]

/-- The status takes nothing from the wdevs without a netdev exactly when no netdev does. -/
theorem unnamedStatus_iff (out : IwDev) :
    parseIwDevOutput out.output = parseIwDevOutput out.named.output ↔
      ∀ p ∈ out.phys, ∀ n ∈ p.netdevs, n.unnamed = [] ∨ n.skips = true := by
  constructor
  · intro heq p hp n hn
    rw [← fields_alone_iff n p.index.val]
    have hown := out.lookup hp hn
    have hp' : p.named ∈ out.named.phys := List.mem_map_of_mem hp
    have hn' : n.alone ∈ p.named.netdevs := List.mem_map_of_mem hn
    have hnamed := out.named.lookup hp' hn'
    rw [heq] at hown
    exact Option.some.inj (hown.symm.trans hnamed)
  · intro h
    rw [parseIwDevOutput_output, parseIwDevOutput_output]
    refine congrArg (insertAll ∅) ?_
    change _ = (out.phys.map Phy.named).flatMap Phy.table
    rw [List.flatMap_map]
    refine List.flatMap_congr fun p hp => ?_
    change _ = (p.netdevs.map Netdev.alone).map fun n => (n.name.val, n.fields p.index)
    rw [List.map_map]
    refine List.map_congr_left fun n hn => ?_
    exact Prod.ext rfl ((fields_alone_iff n p.index.val).2 (h p hp n hn))

theorem alone_type (n : Netdev) (index : Text) :
    (n.alone.fields index).lookup "type".toList =
      if n.before.any Line.opens then none else some n.type.val := by
  rw [alone_fields, (run_wdev n.toWdev _).2.1, Bool.false_or, AList.lookup_insert_ne (by decide)]
  rfl

theorem word_type_ne (t : { t : Text // isTypeName t = true }) : word t.val ≠ [] := by
  obtain ⟨hne, hhead, -, -⟩ := typeName_spec t
  intro hnil
  cases ht : t.val with
  | nil => exact hne ht
  | cons c rest =>
    have hc := (hhead c (by simp [ht])).1
    rw [ht, word, List.takeWhile_cons, hc] at hnil
    cases hnil

/-- A netdev is clear exactly when its own type is read by both parsers, and nothing after it. -/
theorem clear_iff (n : Netdev) (index : Text) : n.Clear ↔
    (n.unnamed = [] ∨ n.skips = true) ∧
      ((n.alone.fields index).lookup "type".toList).getD [] = word n.type.val := by
  rw [alone_type, Netdev.skips]
  constructor
  · rintro ⟨hspace, hbefore, hafter⟩
    have hany : n.before.any Line.opens = false := by simpa using hbefore
    rw [hany, Bool.false_or, word_eq_self hspace]
    exact ⟨hafter.imp_right List.any_eq_true.2, rfl⟩
  · rintro ⟨hskips, htype⟩
    by_cases hany : n.before.any Line.opens = true
    · rw [if_pos hany] at htype
      exact absurd htype.symm (word_type_ne n.type)
    · rw [if_neg hany] at htype
      have hany : n.before.any Line.opens = false := by simpa using hany
      rw [hany, Bool.false_or] at hskips
      refine ⟨fun c hc => ?_, by simpa using hany, hskips.imp_right List.any_eq_true.1⟩
      have htype : n.type.val = word n.type.val := htype
      exact isSpace_word (htype ▸ hc)

/-- The parsers agree on an output exactly when each of its netdevs is clear. -/
theorem agree_iff (out : IwDev) (netns : Option Text) :
    Agree out netns ↔ ∀ p ∈ out.phys, ∀ n ∈ p.netdevs, n.Clear := by
  have hlive (p : Phy) (hp : p ∈ out.phys) (n : Netdev) (hn : n ∈ p.netdevs) :
      (parseIwDevOutput out.output).lookup (n.live p.number netns).name =
        some (n.fields p.index.val) := by
    rw [(live_same netns n p.number).1]
    exact out.lookup hp hn
  constructor
  · intro h p hp n hn
    have hskips := (unnamedStatus_iff out).1 h.unnamedStatus p hp n hn
    have htype := h.types _ ((IwDev.mem_inventory netns).2 ⟨p, hp, n, hn, rfl⟩) _ (hlive p hp n hn)
    rw [live_type, (fields_alone_iff n p.index.val).2 hskips] at htype
    exact (clear_iff n p.index.val).2 ⟨hskips, htype⟩
  · intro h
    refine ⟨fun name => ?_, fun live hmem fields hfields => ?_, fun live hmem fields hfields => ?_,
      (unnamedStatus_iff out).2 fun p hp n hn => ?_, ?_⟩
    · rw [parseIwDevOutput_output, mem_insertAll]
      simp only [IwDev.mem_inventory, List.mem_flatMap, Phy.table, List.mem_map]
      constructor
      · rintro (hmem | ⟨entry, ⟨p, hp, n, hn, rfl⟩, rfl⟩)
        · exact absurd hmem (AList.notMem_empty name)
        · exact ⟨_, ⟨p, hp, n, hn, rfl⟩, (live_same netns n p.number).1⟩
      · rintro ⟨live, ⟨p, hp, n, hn, rfl⟩, rfl⟩
        exact Or.inr ⟨_, ⟨p, hp, n, hn, rfl⟩, (live_same netns n p.number).1.symm⟩
    · obtain ⟨p, hp, n, hn, rfl⟩ := (IwDev.mem_inventory netns).1 hmem
      rw [hlive p hp n hn] at hfields
      cases hfields
      rw [fields_wiphy, (live_same netns n p.number).2]
      exact (strip_phy p).2.2
    · obtain ⟨p, hp, n, hn, rfl⟩ := (IwDev.mem_inventory netns).1 hmem
      rw [hlive p hp n hn] at hfields
      cases hfields
      obtain ⟨hskips, htype⟩ := (clear_iff n p.index.val).1 (h p hp n hn)
      rw [(fields_alone_iff n p.index.val).2 hskips, live_type]
      exact htype
    · exact ((clear_iff n p.index.val).1 (h p hp n hn)).1
    · rw [parseIwDev_output, parseIwDev_output]
      change _ = (out.phys.map Phy.named).flatMap fun p => p.netdevs.map (·.live p.number netns)
      rw [List.flatMap_map]
      refine List.flatMap_congr fun p _ => ?_
      change _ = (p.netdevs.map Netdev.alone).map (·.live p.number netns)
      rw [List.map_map]
      rfl

/-- A netdev on a radio that also has a P2P device. -/
def p2pOutput : IwDev :=
  ⟨[⟨⟨"1".toList, one_isIndex⟩, [],
    [⟨⟨[], ⟨"managed".toList, managed_isTypeName⟩, []⟩, ⟨"wlan1".toList, by decide⟩,
      [⟨[], ⟨"P2P-device".toList, by decide⟩, []⟩]⟩]⟩], by decide⟩

/-- The status gives the netdev the type of the P2P device. -/
theorem not_agree_p2p : ¬∀ (out : IwDev) (netns : Option Text), Agree out netns := by
  intro h
  have htype : ((parseIwDevOutput p2pOutput.output).lookup "wlan1".toList).any
      (fun fields => fields.lookup "type".toList = some "P2P-device".toList) = true := by
    decide +kernel
  have hlive : ⟨"wlan1".toList, 1, none, "managed".toList, none, none⟩ ∈
      parseIwDev p2pOutput.output none := by
    decide +kernel
  obtain ⟨fields, hfields, hany⟩ := (Option.any_eq_true _ _).1 htype
  have hagree := (h p2pOutput none).types _ hlive fields hfields
  rw [of_decide_eq_true hany] at hagree
  exact absurd hagree (by decide)

end WlanpiCore.Adapter
