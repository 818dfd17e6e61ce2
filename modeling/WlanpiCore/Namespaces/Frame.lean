import WlanpiCore.Namespaces.Reading

/-!
# What is not Core's to touch

`Kept w₀ w` says that what Core may not touch in `w₀` is in `w` as it was. In a well-formed world
each command keeps it where its target is one Core may touch (`Frame`): a netdev of Core's, or a
radio in a namespace that is Core's. At the end stand the parts of `_restore_live`
(`restoreLive_eq`), which are commands of this kind.
-/

namespace WlanpiCore.Namespaces

variable {K : Kernel}

/-! ## Well-formed worlds -/

/-- A name is taken once in a namespace, and a netdev is where its radio is. -/
structure World.Wf (w : World) : Prop where
  unique : ∀ d ∈ w.netdevs, ∀ d' ∈ w.netdevs, d.name = d'.name → d.netns = d'.netns → d = d'
  located : ∀ d ∈ w.netdevs, d.netns = w.phyNetns d.phyIndex

section Arrive

variable {phyIndex : Nat} {target : Option Text} {up : List Text}

/-- A netdev after a move is one that stays, or arrives under a name that was free. -/
theorem mem_arrive {taken : List Text} {ds : List Netdev} {d : Netdev}
    (h : d ∈ arrive K phyIndex target up taken ds) :
    d ∈ ds ∧ d.phyIndex ≠ phyIndex ∨ d.phyIndex = phyIndex ∧ d.netns = target ∧ d.name ∉ taken := by
  induction ds generalizing taken with
  | nil => cases h
  | cons d' ds ih =>
    unfold arrive at h
    split_ifs at h with hphy hname <;> rcases List.mem_cons.1 h with rfl | h
    · exact Or.inr ⟨hphy, rfl, (K.fresh taken).2⟩
    · rcases ih h with ⟨hmem, hne⟩ | ⟨heq, htarget, hfree⟩
      · exact Or.inl ⟨List.mem_cons_of_mem _ hmem, hne⟩
      · exact Or.inr ⟨heq, htarget, fun hmem => hfree (List.mem_cons_of_mem _ hmem)⟩
    · exact Or.inr ⟨hphy, rfl, hname⟩
    · rcases ih h with ⟨hmem, hne⟩ | ⟨heq, htarget, hfree⟩
      · exact Or.inl ⟨List.mem_cons_of_mem _ hmem, hne⟩
      · exact Or.inr ⟨heq, htarget, fun hmem => hfree (List.mem_cons_of_mem _ hmem)⟩
    · exact Or.inl ⟨List.mem_cons_self, hphy⟩
    · rcases ih h with ⟨hmem, hne⟩ | harrived
      · exact Or.inl ⟨List.mem_cons_of_mem _ hmem, hne⟩
      · exact Or.inr harrived

/-- The netdevs of the other radios stay. -/
theorem arrive_stays {taken : List Text} {ds : List Netdev} {d : Netdev} (h : d ∈ ds)
    (hphy : d.phyIndex ≠ phyIndex) : d ∈ arrive K phyIndex target up taken ds := by
  induction ds generalizing taken with
  | nil => cases h
  | cons d' ds ih =>
    unfold arrive
    rcases List.mem_cons.1 h with rfl | h
    · rw [if_neg hphy]
      exact List.mem_cons_self
    · split_ifs
      all_goals exact List.mem_cons_of_mem _ (ih h)

/-- Names stay unique when the new first netdev is alone with its name. -/
theorem unique_cons {first : Netdev} {rest : List Netdev}
    (halone : ∀ d ∈ rest, first.name = d.name → first.netns = d.netns → first = d)
    (hrest : ∀ d ∈ rest, ∀ d' ∈ rest, d.name = d'.name → d.netns = d'.netns → d = d') :
    ∀ d ∈ first :: rest, ∀ d' ∈ first :: rest, d.name = d'.name → d.netns = d'.netns → d = d' := by
  intro d hd d' hd' hname hnetns
  rcases List.mem_cons.1 hd with rfl | hlater <;> rcases List.mem_cons.1 hd' with rfl | hlater'
  · rfl
  · exact halone d' hlater' hname hnetns
  · exact (halone d hlater hname.symm hnetns.symm).symm
  · exact hrest d hlater d' hlater' hname hnetns

/-- No name is taken twice after a move. -/
theorem arrive_unique {taken : List Text} {ds : List Netdev}
    (hunique : ∀ d ∈ ds, ∀ d' ∈ ds, d.name = d'.name → d.netns = d'.netns → d = d')
    (htaken : ∀ d ∈ ds, d.phyIndex ≠ phyIndex → d.netns = target → d.name ∈ taken) :
    ∀ d ∈ arrive K phyIndex target up taken ds, ∀ d' ∈ arrive K phyIndex target up taken ds,
      d.name = d'.name → d.netns = d'.netns → d = d' := by
  induction ds generalizing taken with
  | nil => intro d hd; cases hd
  | cons d₀ ds ih =>
    have hrest (names : List Text) (hnames : ∀ t ∈ taken, t ∈ names) :
        ∀ d ∈ arrive K phyIndex target up names ds, ∀ d' ∈ arrive K phyIndex target up names ds,
          d.name = d'.name → d.netns = d'.netns → d = d' :=
      ih (fun d hd d' hd' => hunique d (List.mem_cons_of_mem _ hd) d' (List.mem_cons_of_mem _ hd'))
        fun d hd hne heq => hnames _ (htaken d (List.mem_cons_of_mem _ hd) hne heq)
    by_cases hphy : d₀.phyIndex = phyIndex
    · -- The head arrives under a name that none of the others has.
      obtain ⟨first, hfirst, hfree, heq⟩ : ∃ first : Netdev, first.netns = target ∧
          first.name ∉ taken ∧ arrive K phyIndex target up taken (d₀ :: ds) =
            first :: arrive K phyIndex target up (first.name :: taken) ds := by
        refine ⟨_, rfl, ?_, if_pos hphy⟩
        dsimp only
        split_ifs with hname
        · exact (K.fresh taken).2
        · exact hname
      have halone {d : Netdev} (hd : d ∈ arrive K phyIndex target up (first.name :: taken) ds)
          (hname : first.name = d.name) (hnetns : first.netns = d.netns) : first = d := by
        exfalso
        rcases mem_arrive hd with ⟨hmem, hne⟩ | ⟨-, -, hnot⟩
        · refine hfree ?_
          rw [hname]
          exact htaken d (List.mem_cons_of_mem _ hmem) hne (hnetns ▸ hfirst)
        · exact hnot (hname ▸ List.mem_cons_self)
      rw [heq]
      exact unique_cons (fun d => halone) (hrest _ fun t ht => List.mem_cons_of_mem _ ht)
    · have heq : arrive K phyIndex target up taken (d₀ :: ds) =
          d₀ :: arrive K phyIndex target up taken ds := by
        conv => lhs; unfold arrive
        rw [if_neg hphy]
      have halone {d : Netdev} (hd : d ∈ arrive K phyIndex target up taken ds)
          (hname : d₀.name = d.name) (hnetns : d₀.netns = d.netns) : d₀ = d := by
        rcases mem_arrive hd with ⟨hmem, -⟩ | ⟨-, harrived, hnot⟩
        · exact hunique d₀ List.mem_cons_self d (List.mem_cons_of_mem _ hmem) hname hnetns
        · exact absurd (htaken d₀ List.mem_cons_self hphy (hnetns.trans harrived)) (hname ▸ hnot)
      rw [heq]
      exact unique_cons (fun d => halone) (hrest _ fun _ => id)

end Arrive

namespace World.Wf

variable {w : World} (h : w.Wf)
include h

theorem delete (name : Text) (netns : Option Text) : (w.delete name netns).Wf where
  unique d hd d' hd' := h.unique d (List.mem_filter.1 hd).1 d' (List.mem_filter.1 hd').1
  located d hd := h.located d (List.mem_filter.1 hd).1

theorem create {phyIndex : Nat} {name type : Text} {netns : Option Text} {w' : World}
    (hcreate : w.create K phyIndex name type netns = some w') : w'.Wf := by
  unfold World.create at hcreate
  split_ifs at hcreate with hphy htaken
  · cases hcreate
    exact h
  · cases hcreate
    have hfree {d : Netdev} (hd : d ∈ w.netdevs) (hname : d.name = name) : d.netns ≠ netns := by
      intro hnetns
      refine htaken (List.any_eq_true.2 ⟨d, hd, ?_⟩)
      exact at_iff.2 ⟨hname, hnetns⟩
    constructor
    · intro d hd d' hd' hname hnetns
      rcases List.mem_append.1 hd with hd | hd <;> rcases List.mem_append.1 hd' with hd' | hd'
      · exact h.unique d hd d' hd' hname hnetns
      · cases List.mem_singleton.1 hd'
        exact absurd hnetns (hfree hd hname)
      · cases List.mem_singleton.1 hd
        exact absurd hnetns.symm (hfree hd' hname.symm)
      · rw [List.mem_singleton.1 hd, List.mem_singleton.1 hd']
    · intro d hd
      rcases List.mem_append.1 hd with hd | hd
      · exact h.located d hd
      · cases List.mem_singleton.1 hd
        exact (not_not.1 hphy).symm

theorem setUp (up : Bool) (name : Text) (netns : Option Text) : (setUp up name netns w).Wf := by
  have hback {d : Netdev} (hd : d ∈ (Namespaces.setUp up name netns w).netdevs) :
      ∃ d₀ ∈ w.netdevs, d = (if d₀.at name netns then { d₀ with up } else d₀) ∧
        d.name = d₀.name ∧ d.netns = d₀.netns ∧ d.phyIndex = d₀.phyIndex := by
    obtain ⟨d₀, hd₀, rfl⟩ := List.mem_map.1 hd
    refine ⟨d₀, hd₀, rfl, ?_⟩
    split_ifs
    · exact ⟨rfl, rfl, rfl⟩
    · exact ⟨rfl, rfl, rfl⟩
  constructor
  · intro d hd d' hd' hname hnetns
    obtain ⟨d₀, hd₀, heq, hn, hs, -⟩ := hback hd
    obtain ⟨d₁, hd₁, heq', hn', hs', -⟩ := hback hd'
    have hsame := h.unique d₀ hd₀ d₁ hd₁ (hn ▸ hn' ▸ hname) (hs ▸ hs' ▸ hnetns)
    rw [heq, heq', hsame]
  · intro d hd
    obtain ⟨d₀, hd₀, -, -, hs, hp⟩ := hback hd
    rw [hs, hp]
    exact h.located d₀ hd₀

theorem move (phyIndex : Nat) (target : Option Text) : (w.move K phyIndex target).Wf := by
  constructor
  · refine arrive_unique h.unique fun d hd hne htarget => ?_
    refine List.mem_map.2 ⟨d, List.mem_filter.2 ⟨hd, ?_⟩, rfl⟩
    rw [Bool.and_eq_true]
    exact ⟨decide_eq_true htarget, decide_eq_true hne⟩
  · intro d hd
    change d.netns = if d.phyIndex = phyIndex then target else w.phyNetns d.phyIndex
    rcases mem_arrive hd with ⟨hmem, hne⟩ | ⟨heq, htarget, -⟩
    · rw [if_neg hne]
      exact h.located d hmem
    · rw [if_pos heq]
      exact htarget

theorem deleteNamespace (netns : Text) : (w.deleteNamespace K netns).Wf := by
  have hmoved (phys : List Nat) :
      (phys.foldl (fun w index => w.move K index none) w).Wf := by
    induction phys generalizing w with
    | nil => exact h
    | cons index rest ih => exact ih (h.move index none)
  exact ⟨(hmoved _).unique, (hmoved _).located⟩

end World.Wf

/-! ## Keeping what is not Core's -/

/-- What Core may not touch in `w₀` is in `w` as it was. -/
structure Kept (w₀ w : World) : Prop where
  netdevs : ∀ d ∈ w₀.netdevs, ¬May w₀ d → d ∈ w.netdevs
  phys : ∀ index, (∀ netns ∈ w₀.core, w₀.phyNetns index ≠ some netns) →
    w.phyNetns index = w₀.phyNetns index
  namespaces : ∀ n ∈ w₀.namespaces, n.1 ∉ w₀.core → n ∈ w.namespaces

/-- `Kept`, in a well-formed world. -/
structure Frame (w₀ w : World) : Prop extends Kept w₀ w where
  wf : w.Wf

/-- A radio in a namespace of Core's. -/
def World.CorePhy (w : World) (phyIndex : Nat) : Prop :=
  ∃ netns ∈ w.core, w.phyNetns phyIndex = some netns

variable {w₀ w : World}

/-- A netdev of a radio in a namespace of Core's is one Core may touch. -/
theorem May.of_corePhy (hwf : w₀.Wf) {d : Netdev} (hd : d ∈ w₀.netdevs)
    (hphy : w₀.CorePhy d.phyIndex) : May w₀ d := by
  obtain ⟨netns, hcore, hnetns⟩ := hphy
  exact Or.inl ⟨netns, hcore, (hwf.located d hd).trans hnetns⟩

theorem Reads.frame (hwf : w₀.Wf) (h : Reads w₀ w) : Frame w₀ w where
  netdevs d hd _ := h.netdevs ▸ hd
  phys index _ := congrFun h.phyNetns index
  namespaces n hn _ := h.namespaces ▸ hn
  wf := ⟨h.netdevs ▸ hwf.unique, by rw [h.netdevs, h.phyNetns]; exact hwf.located⟩

namespace Frame

variable (h : Frame w₀ w)
include h

/-- Markers and records are not what is kept. -/
theorem relabel {w' : World} (hnetdevs : w'.netdevs = w.netdevs)
    (hphyNetns : w'.phyNetns = w.phyNetns) (hnamespaces : w'.namespaces = w.namespaces) :
    Frame w₀ w' where
  netdevs d hd hnot := hnetdevs ▸ h.netdevs d hd hnot
  phys index hindex := (congrFun hphyNetns index).trans (h.phys index hindex)
  namespaces n hn hcore := hnamespaces ▸ h.namespaces n hn hcore
  wf := ⟨hnetdevs ▸ h.wf.unique, by rw [hnetdevs, hphyNetns]; exact h.wf.located⟩

/-- A radio that is in a namespace of Core's now was in one. -/
theorem corePhy {phyIndex : Nat} {netns : Text} (hcore : netns ∈ w₀.core)
    (hphy : w.phyNetns phyIndex = some netns) : w₀.CorePhy phyIndex := by
  by_contra hnot
  have hsame := h.phys phyIndex fun netns hnetns heq => hnot ⟨netns, hnetns, heq⟩
  exact hnot ⟨netns, hcore, hsame ▸ hphy⟩

theorem delete {name : Text} {netns : Option Text}
    (hmine : ∀ d ∈ w₀.netdevs, d.at name netns → May w₀ d) : Frame w₀ (w.delete name netns) where
  netdevs d hd hnot := by
    refine List.mem_filter.2 ⟨h.netdevs d hd hnot, ?_⟩
    rw [Bool.not_eq_true', Bool.eq_false_iff]
    exact fun hat => hnot (hmine d hd hat)
  phys := h.phys
  namespaces := h.namespaces
  wf := h.wf.delete name netns

theorem create {phyIndex : Nat} {name type : Text} {netns : Option Text} {w' : World}
    (hcreate : w.create K phyIndex name type netns = some w') : Frame w₀ w' := by
  have hwf := h.wf.create hcreate
  unfold World.create at hcreate
  split_ifs at hcreate
  · cases hcreate
    exact h
  · cases hcreate
    exact ⟨⟨fun d hd hnot => List.mem_append_left _ (h.netdevs d hd hnot), h.phys, h.namespaces⟩,
      hwf⟩

theorem setUp {up : Bool} {name : Text} {netns : Option Text}
    (hmine : ∀ d ∈ w₀.netdevs, d.at name netns → May w₀ d) :
    Frame w₀ (Namespaces.setUp up name netns w) where
  netdevs d hd hnot := by
    refine List.mem_map.2 ⟨d, h.netdevs d hd hnot, ?_⟩
    rw [if_neg fun hat => hnot (hmine d hd hat)]
  phys := h.phys
  namespaces := h.namespaces
  wf := h.wf.setUp up name netns

theorem move (hwf : w₀.Wf) {phyIndex : Nat} (hphy : w₀.CorePhy phyIndex) (target : Option Text) :
    Frame w₀ (w.move K phyIndex target) where
  netdevs d hd hnot := by
    refine arrive_stays (h.netdevs d hd hnot) fun heq => hnot ?_
    exact May.of_corePhy hwf hd (heq ▸ hphy)
  phys index hindex := by
    have hne : index ≠ phyIndex := by
      rintro rfl
      obtain ⟨netns, hcore, hnetns⟩ := hphy
      exact hindex netns hcore hnetns
    exact (if_neg hne).trans (h.phys index hindex)
  namespaces := h.namespaces
  wf := h.wf.move phyIndex target

theorem deleteNamespace (hwf : w₀.Wf) {netns : Text} (hcore : netns ∈ w₀.core) :
    Frame w₀ (w.deleteNamespace K netns) := by
  have hmoved (phys : List Nat) (hphys : ∀ index ∈ phys, w₀.CorePhy index) :
      Frame w₀ (phys.foldl (fun w index => w.move K index none) w) := by
    induction phys generalizing w with
    | nil => exact h
    | cons index rest ih =>
      exact ih (h.move hwf (hphys index List.mem_cons_self) none)
        fun index hindex => hphys index (List.mem_cons_of_mem _ hindex)
  have hall := hmoved (w.phys.filter fun index => w.phyNetns index = some netns)
    fun index hindex => h.corePhy hcore (of_decide_eq_true (List.mem_filter.1 hindex).2)
  refine ⟨⟨hall.netdevs, hall.phys, fun n hn hnot => ?_⟩, h.wf.deleteNamespace netns⟩
  refine List.mem_filter.2 ⟨hall.namespaces n hn hnot, ?_⟩
  exact decide_eq_true fun heq => hnot (heq ▸ hcore)

end Frame

/-! ## The operations aim at nothing else -/

theorem World.mem_inventory {d : Netdev} (h : d ∈ w.inventory) : d ∈ w.netdevs := by
  rcases List.mem_append.1 h with h | h
  · exact (List.mem_filter.1 h).1
  · obtain ⟨netns, -, h⟩ := List.mem_flatMap.1 h
    exact (List.mem_filter.1 h).1

section Commands

variable {loud : Prop} (hwf : w₀.Wf)

theorem deleteInterface_maintains {name : Text} {netns : Option Text}
    (hmine : ∀ d ∈ w₀.netdevs, d.at name netns → May w₀ d) :
    Maintains loud (Frame w₀) (deleteInterface name netns) := by
  refine Maintains.command fun w w' hw heq => ?_
  cases heq
  exact hw.delete hmine

theorem createInterface_maintains (phyIndex : Nat) (name type : Text) (netns : Option Text) :
    Maintains loud (Frame w₀) (createInterface K phyIndex name type netns) :=
  Maintains.command fun _ _ hw hcreate => hw.create hcreate

theorem bringInterface_maintains {up : Bool} {name : Text} {netns : Option Text}
    (hmine : ∀ d ∈ w₀.netdevs, d.at name netns → May w₀ d) :
    Maintains loud (Frame w₀) (bringInterface up name netns) := by
  refine Maintains.command fun w w' hw heq => ?_
  split_ifs at heq
  cases heq
  exact hw.setUp hmine

include hwf

theorem movePhyToRoot_maintains (phyIndex : Nat) {netns : Text} (hcore : netns ∈ w₀.core) :
    Maintains loud (Frame w₀) (movePhyToRoot K phyIndex netns) := by
  refine Maintains.command fun w w' hw heq => ?_
  split_ifs at heq with hphy
  cases heq
  exact hw.move hwf (hw.corePhy hcore hphy) none

theorem movePhyToNamespace_maintains {phyIndex : Nat} (hphy : w₀.CorePhy phyIndex) (netns : Text) :
    Maintains loud (Frame w₀) (movePhyToNamespace K phyIndex netns) := by
  refine Maintains.command fun w w' hw heq => ?_
  split_ifs at heq
  cases heq
  exact hw.move hwf hphy (some netns)

theorem deleteNamespace_maintains {netns : Text} (hcore : netns ∈ w₀.core) :
    Maintains loud (Frame w₀) (deleteNamespace K netns) := by
  refine ((Maintains.quietly _).map _).bind fun present => ?_
  rintro s ⟨names, ⟨hs, -⟩, -⟩
  cases present with
  | false => exact hs
  | true =>
    refine Leads.attempt (Maintains.command fun w w' hw heq => ?_) (fun _ => Leads.pure fun _ => id)
      s hs
    cases heq
    exact hw.deleteNamespace hwf hcore

end Commands

/-! ## What is restored -/

/-- The netdev that is taken for the new one goes. -/
def clearNew (live : Netdev) (newName : Text) (movedTo : Option Text) : Service Unit := do
  let inventory ← listInterfaces
  if inventory.any fun other => other.at newName movedTo && other.phyIndex = live.phyIndex then
    deleteInterface newName movedTo

/-- The radio returns. -/
def returnPhy (K : Kernel) (live : Netdev) (movedTo : Option Text) : Service Unit :=
  if movedTo ≠ live.netns then do
    match movedTo with
    | some netns => movePhyToRoot K live.phyIndex netns
    | none => pure ()
    match live.netns with
    | some netns => movePhyToNamespace K live.phyIndex netns
    | none => pure ()
  else pure ()

/-- What `_restore_live` tries. -/
def restoration (K : Kernel) (live : Netdev) (newName : Text) (movedTo : Option Text) :
    Service Unit := do
  clearNew live newName movedTo
  returnPhy K live movedTo
  createInterface K live.phyIndex live.name
    (if live.type = [] then "managed".toList else live.type) live.netns

theorem restoreLive_eq (live : Netdev) (newName : Text) (movedTo created : Option Text) :
    restoreLive K live newName movedTo created = (do
      onRunCommand (restoration K live newName movedTo) (pure ())
      match created with
      | some netns => deleteNamespaceIfEmpty K netns
      | none => pure ()) := by
  unfold restoreLive restoration clearNew returnPhy
  congr 2
  rw [bind_assoc]
  congr 1
  funext inventory
  cases movedTo <;> cases live.netns <;> split_ifs <;> simp only [pure_bind, bind_assoc]

end WlanpiCore.Namespaces
