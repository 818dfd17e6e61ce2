import WlanpiCore.Monitors.Lookup

/-!
# When the lookups are right

**`lookup_iff`**: `getInterfacesByType` gives the netdevs the types that the inventory gives them,
and `getWiphyIndex` gives the number on the `wiphy` line, exactly when no line above takes their
place: above a netdev's type line, the first line with `type` in it, if there is one, has the type
as its second word; above the `wiphy` line, the first line with `wiphy` in it, if there is one, has
the same digits. **`not_lookup_ssid`** is a network whose name has `type` in it.

The run over `iw dev` goes netdev by netdev: each is recorded with the second word of its first line
with `type` in it, its type line being one, and no lines but its own are read while it is current.
-/

namespace WlanpiCore.Monitors

open Text Adapter

/-! ## One netdev -/

/-- The line that decides the type of a netdev. -/
def typeLine (n : Netdev) : Text :=
  ((n.before.map (·.text)).find? (holds "type".toList)).getD ("\t\ttype ".toList ++ n.type)

/-- The type a netdev is recorded with. -/
def chosen (n : Netdev) : Option Text := (words (strip (typeLine n)))[1]?

/-- No line above the type line is taken for it, unless it says the same type. -/
def TypeForemost (n : Netdev) : Prop :=
  ∀ text, (n.before.map (·.text)).find? (holds "type".toList) = some text →
    (words (strip text))[1]? = some (word n.type.val)

theorem getElem?_of_getD {ts : List Text} {t : Text} (h : ts.getD 1 [] = t) (hne : t ≠ []) :
    ts[1]? = some t := by
  rw [List.getD_eq_getElem?_getD] at h
  cases hget : ts[1]? with
  | none =>
    rw [hget] at h
    exact absurd h.symm hne
  | some u =>
    rw [hget] at h
    exact congrArg some h

theorem words_type (t : { t : Text // isTypeName t = true }) :
    (words (strip ("\t\ttype ".toList ++ t)))[1]? = some (word t.val) := by
  rw [strip_type]
  exact getElem?_of_getD secondWord_type (word_type_ne t)

theorem chosen_iff (n : Netdev) : chosen n = some (word n.type.val) ↔ TypeForemost n := by
  unfold chosen typeLine TypeForemost
  cases hfind : (n.before.map (·.text)).find? (holds "type".toList) with
  | none => exact iff_of_true (words_type n.type) fun text h => by cases h
  | some text =>
    constructor
    · rintro h text' ⟨⟩
      exact h
    · exact fun h => h text rfl

/-! ## Lines -/

/-- A line that is not a netdev's first. -/
def Idle (raw : Text) : Prop := "Interface".toList.isPrefixOf (strip raw) = false

theorem holds_type (t : { t : Text // isTypeName t = true }) :
    holds "type".toList ("\t\ttype ".toList ++ t.val) = true :=
  decide_eq_true ⟨['\t', '\t'], ' ' :: t.val, rfl⟩

theorem idle_type (t : { t : Text // isTypeName t = true }) : Idle ("\t\ttype ".toList ++ t) := by
  rw [Idle, strip_type]
  rfl

theorem idle_unnamed : Idle "\tUnnamed/non-netdev interface".toList := by
  rw [Idle]
  decide +kernel

theorem IwPrinted.idle (out : IwPrinted) {p : Phy} (hp : p ∈ out.phys) {w : Wdev}
    (hw : w ∈ phyWdevs p) : ∀ raw ∈ w.lines, Idle raw := by
  have hheading := out.heading p hp w hw
  intro raw hraw
  simp only [Wdev.lines, List.mem_append, List.mem_cons, List.mem_map] at hraw
  rcases hraw with ⟨line, hline, rfl⟩ | rfl | ⟨line, hline, rfl⟩
  · exact hheading line (List.mem_append_left w.after hline)
  · exact idle_type w.type
  · exact hheading line (List.mem_append_right w.before hline)

theorem IwPrinted.idle_unnamed (out : IwPrinted) {p : Phy} (hp : p ∈ out.phys) {ws : List Wdev}
    (hws : ∀ w ∈ ws, w ∈ phyWdevs p) : ∀ raw ∈ ws.flatMap Wdev.unnamedLines, Idle raw := by
  intro raw hraw
  obtain ⟨w, hw, hmem⟩ := List.mem_flatMap.1 hraw
  rcases List.mem_cons.1 hmem with rfl | hmem
  · exact Monitors.idle_unnamed
  · exact out.idle hp (hws w hw) raw hmem

theorem mem_phyWdevs {p : Phy} {n : Netdev} (hn : n ∈ p.netdevs) :
    ∀ w ∈ n.toWdev :: n.unnamed, w ∈ phyWdevs p := fun _ hw =>
  List.mem_append_right p.unnamed (List.mem_flatMap.2 ⟨n, hn, hw⟩)

section

variable {exclusions : List Text}

theorem read_idle {raw : Text} (h : Idle raw) (d : Types) :
    (TypeState.mk d none).read exclusions raw = some ⟨d, none⟩ := by
  unfold TypeState.read
  rw [h, if_neg Bool.false_ne_true]

theorem run_idle {raws : List Text} (h : ∀ raw ∈ raws, Idle raw) (d : Types) :
    raws.foldlM (TypeState.read exclusions) ⟨d, none⟩ = some ⟨d, none⟩ := by
  induction raws with
  | nil => rfl
  | cons raw raws ih =>
    rw [List.foldlM_cons, read_idle (h raw List.mem_cons_self)]
    exact ih fun raw' hraw' => h raw' (List.mem_cons_of_mem raw hraw')

/-- While a netdev is current, the first line with `type` in it decides, and ends it. -/
theorem run_current {raws : List Text} {iface text : Text} (h : ∀ raw ∈ raws, Idle raw) (d : Types)
    (hfind : raws.find? (holds "type".toList) = some text) :
    raws.foldlM (TypeState.read []) ⟨d, some iface⟩ =
      (words (strip text))[1]?.map fun t => ⟨d.insert iface t, none⟩ := by
  induction raws with
  | nil => cases hfind
  | cons raw raws ih =>
    have hrest : ∀ raw' ∈ raws, Idle raw' := fun raw' hraw' =>
      h raw' (List.mem_cons_of_mem raw hraw')
    have hidle : "Interface".toList.isPrefixOf (strip raw) = false := h raw List.mem_cons_self
    rw [List.foldlM_cons, TypeState.read, hidle, if_neg Bool.false_ne_true]
    dsimp only
    by_cases hholds : holds "type".toList raw = true
    · rw [List.find?_cons_of_pos hholds] at hfind
      obtain rfl := Option.some.inj hfind
      rw [if_pos hholds]
      cases (words (strip raw))[1]? with
      | none => rfl
      | some t => exact run_idle hrest (d.insert iface t)
    · rw [List.find?_cons_of_neg hholds] at hfind
      rw [if_neg hholds]
      exact ih hrest hfind

end

/-! ## The run -/

/-- What the lines of a netdev add. -/
def record (d : Types) (n : Netdev) : Option Types := (chosen n).map (d.insert n.name.val)

theorem read_interface (d : Types) (n : { t : Text // isWord t = true }) :
    (TypeState.mk d none).read [] ("\tInterface ".toList ++ n) = some ⟨d, some n.val⟩ := by
  obtain ⟨hstrip, hword⟩ := strip_interface n
  have hne : n.val ≠ [] := by
    have hn := n.2
    simp only [isWord, Bool.and_eq_true, decide_eq_true_eq] at hn
    exact hn.1
  have hprefix : "Interface".toList.isPrefixOf ("Interface ".toList ++ n.val) = true :=
    List.isPrefixOf_iff_prefix.2 ⟨' ' :: n.val, rfl⟩
  unfold TypeState.read
  rw [hstrip, if_pos hprefix, getElem?_of_getD hword hne]
  rfl

theorem find_typeLine (n : Netdev) (rest : List Text) :
    (n.toWdev.lines ++ rest).find? (holds "type".toList) = some (typeLine n) := by
  rw [Wdev.lines, List.append_assoc, List.find?_append, List.cons_append,
    List.find?_cons_of_pos (holds_type n.type), typeLine]
  cases (n.before.map (·.text)).find? (holds "type".toList) <;> rfl

theorem run_netdev (out : IwPrinted) {p : Phy} (hp : p ∈ out.phys) {n : Netdev}
    (hn : n ∈ p.netdevs) (d : Types) :
    n.lines.foldlM (TypeState.read []) ⟨d, none⟩ = (record d n).map (⟨·, none⟩) := by
  have hwdevs := mem_phyWdevs hn
  have hidle : ∀ raw ∈ n.toWdev.lines ++ n.unnamed.flatMap Wdev.unnamedLines, Idle raw := by
    intro raw hraw
    rcases List.mem_append.1 hraw with hmem | hmem
    · exact out.idle hp (hwdevs _ List.mem_cons_self) raw hmem
    · exact out.idle_unnamed hp (fun w hw => hwdevs w (List.mem_cons_of_mem _ hw)) raw hmem
  rw [Netdev.lines, List.foldlM_cons, read_interface, record, Option.map_map]
  exact run_current hidle d (find_typeLine n _)

theorem run_netdevs (out : IwPrinted) {p : Phy} (hp : p ∈ out.phys) {ns : List Netdev}
    (hns : ∀ n ∈ ns, n ∈ p.netdevs) (d : Types) :
    (ns.flatMap Netdev.lines).foldlM (TypeState.read []) ⟨d, none⟩ =
      (ns.foldlM record d).map (⟨·, none⟩) := by
  induction ns generalizing d with
  | nil => rfl
  | cons n ns ih =>
    rw [List.flatMap_cons, List.foldlM_append, run_netdev out hp (hns n List.mem_cons_self),
      List.foldlM_cons]
    cases record d n with
    | none => rfl
    | some d' => exact ih (fun n' hn' => hns n' (List.mem_cons_of_mem n hn')) d'

theorem idle_phy (p : Phy) : Idle ("phy#".toList ++ p.index) := by
  rw [Idle, (strip_phy p).1]
  rfl

theorem run_phys (out : IwPrinted) {ps : List Phy} (hps : ∀ p ∈ ps, p ∈ out.phys) (d : Types) :
    (ps.flatMap Phy.lines).foldlM (TypeState.read []) ⟨d, none⟩ =
      ((ps.flatMap (·.netdevs)).foldlM record d).map (⟨·, none⟩) := by
  induction ps generalizing d with
  | nil => rfl
  | cons p ps ih =>
    have hp := hps p List.mem_cons_self
    have hunnamed : ∀ w ∈ p.unnamed, w ∈ phyWdevs p := fun w hw => List.mem_append_left _ hw
    have hhead : p.lines.foldlM (TypeState.read []) ⟨d, none⟩ =
        (p.netdevs.foldlM record d).map (⟨·, none⟩) := by
      rw [Phy.lines, List.foldlM_cons, read_idle (idle_phy p)]
      change List.foldlM (TypeState.read []) ⟨d, none⟩ _ = _
      rw [List.foldlM_append, run_idle (out.idle_unnamed hp hunnamed)]
      exact run_netdevs out hp (fun n hn => hn) d
    rw [List.flatMap_cons, List.foldlM_append, hhead, List.flatMap_cons, List.foldlM_append]
    cases p.netdevs.foldlM record d with
    | none => rfl
    | some d' => exact ih (fun p' hp' => hps p' (List.mem_cons_of_mem p hp')) d'

/-! ## What is recorded -/

theorem lookup_record {ns : List Netdev} (hdistinct : (ns.map (·.name.val)).Nodup) {d d' : Types}
    (h : ns.foldlM record d = some d') :
    (∀ n ∈ ns, (chosen n).isSome = true ∧ d'.lookup n.name.val = chosen n) ∧
      ∀ name ∉ ns.map (·.name.val), d'.lookup name = d.lookup name := by
  induction ns generalizing d with
  | nil =>
    cases h
    exact ⟨fun n hn => absurd hn List.not_mem_nil, fun name _ => rfl⟩
  | cons n ns ih =>
    rw [List.map_cons, List.nodup_cons] at hdistinct
    rw [List.foldlM_cons, record] at h
    cases hchosen : chosen n with
    | none =>
      rw [hchosen] at h
      cases h
    | some t =>
      rw [hchosen] at h
      obtain ⟨hin, hout⟩ := ih hdistinct.2 h
      refine ⟨fun n' hn' => ?_, fun name hname => ?_⟩
      · rcases List.mem_cons.1 hn' with rfl | hn'
        · rw [hout n'.name.val hdistinct.1, AList.lookup_insert, hchosen]
          exact ⟨rfl, rfl⟩
        · exact hin n' hn'
      · rw [List.map_cons, List.mem_cons, not_or] at hname
        rw [hout name hname.2, AList.lookup_insert_ne hname.1]

theorem record_isSome {ns : List Netdev} (h : ∀ n ∈ ns, (chosen n).isSome = true) (d : Types) :
    ∃ d', ns.foldlM record d = some d' := by
  induction ns generalizing d with
  | nil => exact ⟨d, rfl⟩
  | cons n ns ih =>
    obtain ⟨t, ht⟩ := Option.isSome_iff_exists.1 (h n List.mem_cons_self)
    rw [List.foldlM_cons, record, ht]
    exact ih (fun n' hn' => h n' (List.mem_cons_of_mem n hn')) (d.insert n.name.val t)

theorem IwDev.blank (out : IwDev) : ∀ raw ∈ out.phys.flatMap Phy.lines, strip raw ≠ [] := by
  intro raw hraw
  obtain ⟨p, -, hp⟩ := List.mem_flatMap.1 hraw
  rcases List.mem_cons.1 hp with rfl | hp
  · rw [(strip_phy p).1]
    simp
  · rcases List.mem_append.1 hp with hp | hp
    · exact (Wdev.unnamed_body p.unnamed raw hp).nonempty
    · obtain ⟨n, -, hn⟩ := List.mem_flatMap.1 hp
      rcases List.mem_cons.1 hn with rfl | hn
      · rw [(strip_interface n.name).1]
        simp
      · rcases List.mem_append.1 hn with hn | hn
        · exact (n.toWdev.body raw hn).nonempty
        · exact (Wdev.unnamed_body n.unnamed raw hn).nonempty

/-- The types recorded of an output, netdev by netdev. -/
theorem getInterfacesByType_output (out : IwPrinted) :
    getInterfacesByType [] (captured out.output) =
      (out.phys.flatMap (·.netdevs)).foldlM record ∅ := by
  have hhead : ∀ line ∈ (out.phys.flatMap Phy.lines).head?, ∀ c ∈ line.head?, isSpace c =
    false := by
    cases out.phys with
    | nil => exact fun line h => by cases h
    | cons p ps =>
      rintro line ⟨⟩ c ⟨⟩
      rfl
  have hlines := splitlines_captured out.unbroken (IwDev.blank out.toIwDev) hhead
  have hread : (fun s raw => TypeState.read [] s (strip raw)) = TypeState.read [] := by
    funext s raw
    exact read_strip [] s raw
  have hrun : (splitlines (captured out.output)).foldlM (TypeState.read []) {} =
      (out.phys.flatMap Phy.lines).foldlM (TypeState.read []) {} := by
    have hmap (raws : List Text) : (raws.map strip).foldlM (TypeState.read []) {} =
        raws.foldlM (TypeState.read []) {} := by
      rw [List.foldlM_map, hread]
    rw [← hmap, ← hmap (out.phys.flatMap Phy.lines)]
    exact congrArg (List.foldlM (TypeState.read []) {}) hlines
  rw [getInterfacesByType, hrun, run_phys out (fun p hp => hp), Option.map_map]
  exact Option.map_id'

/-! ## The `wiphy` line -/

/-- No line above the `wiphy` line is taken for it, unless it has the same digits. -/
def WiphyForemost (info : IwInfo) : Prop :=
  ∀ text, info.ahead.find? (holds "wiphy".toList) = some text → text.filter isDigit = info.wiphy

theorem digits_wiphy (t : { t : Text // isIndex t = true }) :
    ("\twiphy ".toList ++ t).filter isDigit = t.val := by
  have hdigits := (isIndex_digits t.2).2
  rw [List.filter_append, show "\twiphy ".toList.filter isDigit = [] by decide +kernel,
    List.nil_append, List.filter_eq_self]
  exact fun c hc => isDigit_ascii (hdigits c hc)

theorem IwInfo.line (info : IwInfo) :
    ∀ raw ∈ info.lines, (∀ c ∈ raw, isLineBreak c = false) ∧ strip raw ≠ [] := by
  obtain ⟨⟨name, hname⟩, before, type, between, ⟨wiphy, hwiphy⟩, after⟩ := info
  have hword : name ≠ [] ∧ ∀ c ∈ name, isSpace c = false := by simpa [isWord] using hname
  have hdigits := isIndex_digits hwiphy
  intro raw hraw
  simp only [IwInfo.lines, IwInfo.ahead, List.cons_append, List.append_assoc, List.mem_cons,
    List.mem_append, List.mem_map] at hraw
  rcases hraw with rfl | ⟨line, -, rfl⟩ | rfl | ⟨line, -, rfl⟩ | rfl | ⟨line, -, rfl⟩
  · refine ⟨unbroken_append (forall_of_all (by decide)) hword.2, ?_⟩
    rw [← strip_cons (c := '\t') rfl,
      show '\t' :: ("Interface ".toList ++ name) = "\tInterface ".toList ++ name from rfl,
      (strip_interface ⟨name, hname⟩).1]
    simp
  · exact ⟨line.unbroken, line.start.1.nonempty⟩
  · refine ⟨fun c hc => Line.unbroken_type type c (List.mem_cons_of_mem '\t' hc), ?_⟩
    rw [← strip_cons (c := '\t') rfl,
      show '\t' :: ("\ttype ".toList ++ type.val) = "\t\ttype ".toList ++ type.val from rfl,
      strip_type]
    simp
  · exact ⟨line.unbroken, line.start.1.nonempty⟩
  · refine ⟨unbroken_append (forall_of_all (by decide)) fun c hc =>
      isSpace_digit (hdigits.2 c hc), ?_⟩
    have hstrip := strip_append (w := "wiphy ".toList) (c := 'w') rfl rfl hdigits.1
      fun c hc => isSpace_digit (hdigits.2 c (List.mem_of_mem_getLast? hc))
    rw [show "\twiphy ".toList ++ wiphy = '\t' :: ("wiphy ".toList ++ wiphy) from rfl,
      strip_cons rfl, hstrip]
    simp
  · exact ⟨line.unbroken, line.start.1.nonempty⟩

theorem find_strip (lines : List Text) :
    ((lines.map strip).find? (holds "wiphy".toList)).map (·.filter isDigit) =
      (lines.find? (holds "wiphy".toList)).map (·.filter isDigit) := by
  have hholds : holds "wiphy".toList ∘ strip = holds "wiphy".toList := by
    funext line
    exact holds_strip (by decide) (forall_of_all (by decide)) line
  rw [List.find?_map, hholds, Option.map_map]
  refine congrArg (Option.map · _) ?_
  funext line
  exact digits_strip line

/-- The number read of an output. -/
theorem getWiphyIndex_output (info : IwInfo) : getWiphyIndex (captured info.output) =
    (info.lines.find? (holds "wiphy".toList)).map (·.filter isDigit) := by
  have hlines : (splitlines (captured info.output)).map strip = info.lines.map strip := by
    refine splitlines_captured (fun raw hraw => (info.line raw hraw).1)
      (fun raw hraw => (info.line raw hraw).2) ?_
    rintro line ⟨⟩ c ⟨⟩
    rfl
  rw [getWiphyIndex, ← find_strip, hlines, find_strip]

theorem getWiphyIndex_iff (info : IwInfo) :
    getWiphyIndex (captured info.output) = some info.wiphy.val ↔ WiphyForemost info := by
  have hholds : holds "wiphy".toList ("\twiphy ".toList ++ info.wiphy.val) = true :=
    decide_eq_true ⟨['\t'], ' ' :: info.wiphy.val, rfl⟩
  rw [getWiphyIndex_output, IwInfo.lines, List.find?_append, List.find?_cons_of_pos hholds,
    WiphyForemost]
  cases info.ahead.find? (holds "wiphy".toList) with
  | none => exact iff_of_true (congrArg some (digits_wiphy info.wiphy)) fun text h => by cases h
  | some text =>
    constructor
    · rintro h text' ⟨⟩
      exact Option.some.inj h
    · exact fun h => congrArg some (h text rfl)

/-! ## Agreement -/

/-- The types are those of the inventory. -/
def TypesAgree (out : IwPrinted) (netns : Option Text) : Prop :=
  ∃ types, getInterfacesByType [] (captured out.output) = some types ∧
    ∀ name ifaceType, types.lookup name = some ifaceType ↔
      ∃ live ∈ parseIwDev out.output netns,
        live.name = name ∧ live.type = ifaceType ∧ ifaceType ≠ []

theorem typesAgree_iff (out : IwPrinted) (netns : Option Text) :
    TypesAgree out netns ↔ ∀ p ∈ out.phys, ∀ n ∈ p.netdevs, TypeForemost n := by
  have hlive (p : Phy) (n : Netdev) : (n.live p.number netns).name = n.name.val ∧
      (n.live p.number netns).type = word n.type.val :=
    ⟨(live_same netns n p.number).1, live_type netns n p.number⟩
  constructor
  · rintro ⟨types, hrun, htypes⟩ p hp n hn
    rw [getInterfacesByType_output] at hrun
    have hmem : n ∈ out.phys.flatMap (·.netdevs) := List.mem_flatMap.2 ⟨p, hp, hn⟩
    have hlookup := ((lookup_record out.distinct hrun).1 n hmem).2
    rw [(htypes n.name.val (word n.type.val)).2
      ⟨_, (IwDev.mem_inventory netns).2 ⟨p, hp, n, hn, rfl⟩, (hlive p n).1, (hlive p n).2,
        word_type_ne n.type⟩] at hlookup
    exact (chosen_iff n).1 hlookup.symm
  · intro h
    have hchosen : ∀ n ∈ out.phys.flatMap (·.netdevs), chosen n = some (word n.type.val) := by
      intro n hmem
      obtain ⟨p, hp, hn⟩ := List.mem_flatMap.1 hmem
      exact (chosen_iff n).2 (h p hp n hn)
    obtain ⟨types, hrun⟩ := record_isSome (fun n hn => by rw [hchosen n hn]; rfl) ∅
    obtain ⟨hin, hout⟩ := lookup_record out.distinct hrun
    refine ⟨types, (getInterfacesByType_output out).trans hrun, fun name ifaceType => ?_⟩
    constructor
    · intro hlookup
      by_cases hname : name ∈ (out.phys.flatMap (·.netdevs)).map (·.name.val)
      · obtain ⟨n, hmem, rfl⟩ := List.mem_map.1 hname
        rw [(hin n hmem).2, hchosen n hmem] at hlookup
        obtain ⟨p, hp, hn⟩ := List.mem_flatMap.1 hmem
        refine ⟨_, (IwDev.mem_inventory netns).2 ⟨p, hp, n, hn, rfl⟩, (hlive p n).1, ?_, ?_⟩
        · rw [(hlive p n).2, Option.some.inj hlookup]
        · rw [← Option.some.inj hlookup]
          exact word_type_ne n.type
      · rw [hout name hname] at hlookup
        cases hlookup
    · rintro ⟨live, hmem, rfl, rfl, -⟩
      obtain ⟨p, hp, n, hn, rfl⟩ := (IwDev.mem_inventory netns).1 hmem
      have hmem' : n ∈ out.phys.flatMap (·.netdevs) := List.mem_flatMap.2 ⟨p, hp, hn⟩
      rw [(hlive p n).1, (hlive p n).2, (hin n hmem').2, hchosen n hmem']

/-- The lookups are right exactly when no line above the one they look for is taken for it. -/
theorem lookup_iff (out : IwPrinted) (netns : Option Text) (info : IwInfo) :
    TypesAgree out netns ∧ getWiphyIndex (captured info.output) = some info.wiphy.val ↔
      (∀ p ∈ out.phys, ∀ n ∈ p.netdevs, TypeForemost n) ∧ WiphyForemost info :=
  and_congr (typesAgree_iff out netns) (getWiphyIndex_iff info)

/-- The line of a network that is called `blood type b`. -/
def ssidLine : Line :=
  ⟨"\t\tssid blood type b".toList, forall_of_all (by decide), rfl, by decide +kernel⟩

/-- A station on this network. -/
def ssidOutput : IwPrinted :=
  { phys := [⟨⟨"0".toList, zero_isIndex⟩, [],
      [⟨⟨[ssidLine], ⟨"managed".toList, managed_isTypeName⟩, []⟩, ⟨"wlan0".toList, by decide⟩,
        []⟩]⟩]
    distinct := by decide
    heading := by
      intro p hp w hw line hline
      obtain rfl := List.mem_singleton.1 hp
      obtain rfl := List.mem_singleton.1 hw
      obtain rfl := List.mem_singleton.1 hline
      decide +kernel }

def ssidInfo : IwInfo :=
  ⟨⟨"wlan0".toList, by decide⟩, [], ⟨"managed".toList, managed_isTypeName⟩, [],
    ⟨"0".toList, zero_isIndex⟩, []⟩

/-- The station is given the type `blood`. -/
theorem not_lookup_ssid : ¬∀ (out : IwPrinted) (netns : Option Text) (info : IwInfo),
    TypesAgree out netns ∧ getWiphyIndex (captured info.output) = some info.wiphy.val := by
  intro h
  obtain ⟨types, hrun, htypes⟩ := (h ssidOutput none ssidInfo).1
  have hblood : (getInterfacesByType [] (captured ssidOutput.output)).any
      (fun types => types.lookup "wlan0".toList = some "blood".toList) = true := by
    decide +kernel
  have hlive : ⟨"wlan0".toList, 0, none, "managed".toList, none, none⟩ ∈
      parseIwDev ssidOutput.output none := by
    decide +kernel
  rw [hrun] at hblood
  have hmanaged := (htypes "wlan0".toList "managed".toList).2
    ⟨_, hlive, rfl, rfl, by decide⟩
  rw [Option.any_some, hmanaged] at hblood
  exact absurd hblood (by decide)

end WlanpiCore.Monitors
