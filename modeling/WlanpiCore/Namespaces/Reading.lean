import WlanpiCore.Namespaces.Resolution

/-!
# What Core reads before it undoes

While no listing fails quietly, what the service reads is what there is: `_find_live` answers with
the netdev of the whole inventory that the entry resolves to, and what `may_undo` allows is a netdev
that Core may touch (`mayUndo_leads`). Reading changes no netdev, radio or namespace; it drops
markers and records, and re-keys records (`Reads`).
-/

namespace WlanpiCore.Namespaces

variable {K : Kernel}

/-! ## Programs with a condition before and after -/

/-- From a state with `pre`, a result leaves a state with `post` and a failure one with `fail`. -/
def Leads {α : Type} (pre : State → Prop) (x : Service α) (post : α → State → Prop)
    (fail : State → Prop) : Prop :=
  ∀ s, pre s → Prog.Ends x s fun r s' =>
    match r with
    | .ok a => post a s'
    | .error _ => fail s'

section

variable {α β : Type} {pre fail : State → Prop} {x : Service α} {post : α → State → Prop}

theorem Leads.bind {f : α → Service β} {post' : β → State → Prop} (hx : Leads pre x post fail)
    (hf : ∀ a, Leads (post a) (f a) post' fail) : Leads pre (x >>= f) post' fail := by
  intro s hs
  rw [Prog.ends_bind]
  refine (hx s hs).mono fun r s' h => ?_
  cases r with
  | ok a => exact hf a s' h
  | error failure => exact h

theorem Leads.pure {a : α} (h : ∀ s, pre s → post a s) : Leads pre (pure a : Service α) post fail :=
  fun s hs => h s hs

theorem Leads.mono {pre' fail' : State → Prop} {post' : α → State → Prop}
    (h : Leads pre x post fail) (hpre : ∀ s, pre' s → pre s)
    (hpost : ∀ a s, post a s → post' a s) (hfail : ∀ s, fail s → fail' s) :
    Leads pre' x post' fail' := by
  intro s hs
  refine (h s (hpre s hs)).mono fun r s' h => ?_
  cases r with
  | ok a => exact hpost a s' h
  | error failure => exact hfail s' h

theorem Leads.map (hx : Leads pre x post fail) (f : α → β) :
    Leads pre (f <$> x) (fun b s => ∃ a, post a s ∧ f a = b) fail := by
  rw [map_eq_pure_bind]
  exact hx.bind fun a => Leads.pure fun s hs => ⟨a, hs, rfl⟩

theorem Leads.attempt {handler : Failure → Service α} (hx : Leads pre x post fail)
    (hhandler : ∀ failure, Leads fail (handler failure) post fail) :
    Leads pre (Prog.attempt x handler) post fail := by
  intro s hs
  rw [Prog.ends_attempt]
  refine (hx s hs).mono fun r s' h => ?_
  cases r with
  | ok a => exact h
  | error failure => exact hhandler failure s' h

theorem Leads.onRunCommand {handler : Service α} (hx : Leads pre x post fail)
    (hhandler : Leads fail handler post fail) :
    Leads pre (Namespaces.onRunCommand x handler) post fail := by
  refine hx.attempt fun failure => ?_
  cases failure with
  | runCommand => exact hhandler
  | networkNamespace => exact fun s hs => hs
  | os => exact fun s hs => hs

theorem Leads.get : Leads pre Prog.get (fun read s => pre s ∧ read = s) fail :=
  fun _ hs => ⟨hs, rfl⟩

theorem Leads.raise {failure : Failure} (h : ∀ s, pre s → fail s) :
    Leads pre (Prog.raise failure : Service α) post fail := fun s hs => h s hs

end

/-- A condition on the world. When `loud`, no listing fails quietly. -/
def Heard (loud : Prop) (I : World → Prop) (s : State) : Prop :=
  I s.world ∧ (loud → s.silences = [])

/-- The program keeps `I`, whether it ends well or not. -/
abbrev Maintains {α : Type} (loud : Prop) (I : World → Prop) (x : Service α) : Prop :=
  Leads (Heard loud I) x (fun _ => Heard loud I) (Heard loud I)

section

variable {loud : Prop} {I : World → Prop}

theorem Heard.not_loud {s : State} {silences : List Bool} (hs : Heard loud I s)
    (h : s.silences = true :: silences) : ¬loud := fun hloud =>
  List.cons_ne_nil _ _ (h.symm.trans (hs.2 hloud))

theorem Heard.tail {s : State} (hs : Heard loud I s) (hloud : loud) : s.silences.tail = [] := by
  rw [hs.2 hloud, List.tail_nil]

theorem Maintains.command {failure : Failure} {effect : World → Option World}
    (h : ∀ w w', I w → effect w = some w' → I w') :
    Maintains loud I (command failure effect) := by
  intro s hs
  unfold Prog.Ends Namespaces.command
  split
  · exact hs
  · cases hworld : effect s.world with
    | none => exact hs
    | some w => exact ⟨h _ _ hs.1 hworld, hs.2⟩

theorem Maintains.modify {f : World → World} (h : ∀ w, I w → I (f w)) :
    Maintains loud I (modify f) :=
  fun s hs => ⟨h s.world hs.1, hs.2⟩

theorem Maintains.query {α : Type} (failure : Failure) (read : World → α) :
    Leads (Heard loud I) (query failure read) (fun a s => Heard loud I s ∧ a = read s.world)
      (Heard loud I) := by
  intro s hs
  unfold Prog.Ends Namespaces.query
  split
  · exact hs
  · exact ⟨hs, rfl⟩

/-- A listing that fails quietly answers with less. -/
theorem Maintains.quietly {α : Type} (read : World → List α) :
    Leads (Heard loud I) (quietly read) (fun a s => Heard loud I s ∧
      (loud → a = read s.world) ∧ ∀ x ∈ a, x ∈ read s.world) (Heard loud I) := by
  intro s hs
  unfold Prog.Ends Namespaces.quietly
  split
  · rename_i silences hsilent
    have hnot := hs.not_loud hsilent
    exact ⟨⟨hs.1, fun hloud => absurd hloud hnot⟩, fun hloud => absurd hloud hnot,
      fun x hx => absurd hx List.not_mem_nil⟩
  · exact ⟨⟨hs.1, hs.tail⟩, fun _ => rfl, fun _ => id⟩

theorem Maintains.aside : Maintains loud I aside := by
  refine Maintains.command fun w w' hw heq => ?_
  cases heq
  exact hw

end

/-! ## Reading -/

/-- The whole inventory, when every namespace is heard of. -/
def World.inventory (w : World) : List Netdev :=
  (w.netdevs.filter fun d => d.netns = none) ++
    w.listed.flatMap fun netns => w.netdevs.filter fun d => d.netns = some netns

/-- The netdev an entry resolves to. -/
def World.backing (w : World) (e : Entry) : Option Netdev := resolve w.core w.inventory e

/-- Core has a record of a netdev. -/
def World.recorded (w : World) (d : Netdev) : Prop :=
  ∃ r ∈ w.owned, r.name = d.name ∧ r.wdev = d.wdev

/-- A monitor of the same radio that `in_use_reason` looks at. -/
def sibling (live other : Netdev) : Bool :=
  other.phyIndex = live.phyIndex && other.netns = live.netns && other.name ≠ live.name &&
    other.type = "monitor".toList && !isWlanpiName other.name

/-- `in_use_reason` has no reason for a netdev in root. -/
structure World.Free (w : World) (live : Netdev) : Prop where
  type : live.type = [] ∨ live.type = "managed".toList ∨ live.type = "monitor".toList
  foreign : w.foreign none live.name = false
  capturing : ∀ other ∈ w.netdevs, sibling live other = true → w.recorded other ∨
    w.capturing other.wdev = false

/-- What Core may touch: a netdev in a namespace of Core's, or a root netdev of Core's that is free.
-/
def May (w : World) (d : Netdev) : Prop :=
  (∃ netns ∈ w.core, d.netns = some netns) ∨ d.netns = none ∧ w.recorded d ∧ w.Free d

/-- What reading leaves behind: markers and records may have gone, or been re-keyed. -/
structure Reads (w₀ w : World) : Prop where
  netdevs : w.netdevs = w₀.netdevs
  phyNetns : w.phyNetns = w₀.phyNetns
  namespaces : w.namespaces = w₀.namespaces
  foreign : w.foreign = w₀.foreign
  capturing : w.capturing = w₀.capturing
  core : w.core = w₀.core
  recorded : ∀ d, w.recorded d → w₀.recorded d

theorem Reads.refl (w : World) : Reads w w := ⟨rfl, rfl, rfl, rfl, rfl, rfl, fun _ => id⟩

theorem Reads.inventory {w₀ w : World} (h : Reads w₀ w) : w.inventory = w₀.inventory := by
  unfold World.inventory World.listed
  rw [h.netdevs, h.namespaces]

variable {loud : Prop} {I : World → Prop} {w₀ : World}

theorem listIn_leads (w : World) (names : List Text) :
    Leads (Heard loud (· = w)) (listIn names) (fun found s => Heard loud (· = w) s ∧
      (loud → found = names.flatMap fun netns => w.netdevs.filter fun d => d.netns = some netns) ∧
      ∀ d ∈ found, d ∈ w.netdevs) (Heard loud (· = w)) := by
  induction names with
  | nil => exact Leads.pure fun s hs => ⟨hs, fun _ => rfl, fun d hd => absurd hd List.not_mem_nil⟩
  | cons netns rest ih =>
    refine (Maintains.quietly _).bind fun here => ?_
    rintro s ⟨hs, hhere, hmem⟩
    refine (ih.bind fun there => ?_) s hs
    rintro s' ⟨hs', hthere, hrest⟩
    rw [hs.1] at hhere hmem
    refine ⟨hs', fun hloud => ?_, fun d hd => ?_⟩
    · rw [hhere hloud, hthere hloud, List.flatMap_cons]
    · rcases List.mem_append.1 hd with hd | hd
      · exact (List.mem_filter.1 (hmem d hd)).1
      · exact hrest d hd

/-- The inventory is the whole one when every namespace is heard of. -/
theorem listInterfaces_leads : Leads (Heard loud I) listInterfaces
    (fun inventory s => Heard loud I s ∧ (loud → inventory = s.world.inventory) ∧
      ∀ d ∈ inventory, d ∈ s.world.netdevs) (Heard loud I) := by
  intro s hs
  have hroot := @Maintains.query loud (fun w => w = s.world) _ .runCommand
    (fun w => w.netdevs.filter fun d => d.netns = none)
  have hnames := @Maintains.query loud (fun w => w = s.world) _ .networkNamespace
    (fun w => w.namespaces.map (·.1))
  have hall : Leads (Heard loud fun w => w = s.world) listInterfaces
      (fun inventory s' => Heard loud (fun w => w = s.world) s' ∧
        (loud → inventory = s.world.inventory) ∧ ∀ d ∈ inventory, d ∈ s.world.netdevs)
      (Heard loud fun w => w = s.world) := by
    refine hroot.bind fun root => ?_
    intro s₁ ⟨hs₁, hroot⟩
    refine (hnames.bind fun names => ?_) s₁ hs₁
    intro s₂ ⟨hs₂, hnames⟩
    refine ((listIn_leads s.world _).bind fun rest => ?_) s₂ hs₂
    intro s₃ ⟨hs₃, hrest, hmem⟩
    rw [hs₁.1] at hroot
    rw [hs₂.1] at hnames
    refine ⟨hs₃, fun hloud => ?_, fun d hd => ?_⟩
    · rw [hroot, hrest hloud, hnames]
      rfl
    · rcases List.mem_append.1 hd with hd | hd
      · exact (List.mem_filter.1 (hroot ▸ hd)).1
      · exact hmem d hd
  refine (hall s ⟨rfl, hs.2⟩).mono fun r s' h => ?_
  have hworld (s' : State) (h : Heard loud (fun w => w = s.world) s') : Heard loud I s' :=
    ⟨h.1 ▸ hs.1, h.2⟩
  cases r with
  | ok inventory => exact ⟨hworld s' h.1, h.1.1 ▸ h.2⟩
  | error failure => exact hworld s' h

theorem core_filter (w : World) :
    World.core { w with markers := w.markers.filter w.current } = w.core := by
  unfold World.core
  have hsame : World.current { w with markers := w.markers.filter w.current } = w.current := rfl
  rw [hsame, List.filter_filter]
  simp only [Bool.and_self]

/-- Reading Core's namespaces drops markers, and none of these. -/
theorem coreNamespaces_leads
    (h : ∀ w, I w → I { w with markers := w.markers.filter w.current }) :
    Leads (Heard loud I) coreNamespaces (fun core s => Heard loud I s ∧
      (loud → core = s.world.core) ∧ ∀ netns ∈ core, netns ∈ s.world.core) (Heard loud I) := by
  intro s hs
  unfold Prog.Ends coreNamespaces
  split
  · rename_i silences hsilent
    have hnot := hs.not_loud hsilent
    exact ⟨⟨hs.1, fun hloud => absurd hloud hnot⟩, fun hloud => absurd hloud hnot,
      fun netns hnetns => absurd hnetns List.not_mem_nil⟩
  · have hcore := core_filter s.world
    exact ⟨⟨h _ hs.1, hs.tail⟩, fun _ => hcore.symm, fun netns hnetns => hcore ▸ hnetns⟩

theorem Reads.dropMarkers {w : World} (h : Reads w₀ w) :
    Reads w₀ { w with markers := w.markers.filter w.current } :=
  ⟨h.netdevs, h.phyNetns, h.namespaces, h.foreign, h.capturing, (core_filter w).trans h.core,
    h.recorded⟩

theorem findLive_leads (e : Entry) : Leads (Heard True (Reads w₀)) (findLive e)
    (fun live s => Heard True (Reads w₀) s ∧ live = w₀.backing e) (Heard True (Reads w₀)) := by
  refine (coreNamespaces_leads fun w hw => hw.dropMarkers).bind fun core => ?_
  rintro s ⟨hs, hcore, -⟩
  refine (listInterfaces_leads.bind fun inventory => ?_) s hs
  rintro s' ⟨hs', hinventory, -⟩
  refine ⟨hs', ?_⟩
  rw [hcore trivial, hinventory trivial, hs.1.core, hs'.1.inventory]
  rfl

theorem recordOf_some {w : World} {live : Netdev} {r : Record} (h : w.recordOf live = some r) :
    r ∈ w.owned ∧ r.name = live.name ∧ r.wdev = live.wdev := by
  unfold World.recordOf at h
  rcases Option.or_eq_some_iff.1 h with h | ⟨-, h⟩
  · have hfound := List.find?_some h
    have hmem := List.mem_of_find?_eq_some h
    simp only [Record.at, Bool.and_eq_true, decide_eq_true_eq] at hfound
    exact ⟨hmem, hfound.1.1, hfound.2⟩
  · have hfound := List.find?_some h
    have hmem := List.mem_of_find?_eq_some h
    simp only [Bool.and_eq_true, decide_eq_true_eq] at hfound
    exact ⟨hmem, hfound.1, hfound.2⟩

/-- A record that is found is there, wherever it is keyed. -/
theorem isOwned_leads (live : Netdev) : Leads (Heard True (Reads w₀)) (isOwned live)
    (fun mine s => Heard True (Reads w₀) s ∧ (mine = true → w₀.recorded live))
    (Heard True (Reads w₀)) := by
  intro s hs
  unfold isOwned Prog.Ends
  have hget : (Prog.get : Service State) s = (.ok s, s) := rfl
  rw [Prog.bind_ok hget]
  cases hfound : s.world.recordOf live with
  | none => exact ⟨hs, fun hmine => by cases hmine⟩
  | some r =>
    obtain ⟨hmem, hname, hwdev⟩ := recordOf_some hfound
    have hrecorded : w₀.recorded live := hs.1.recorded live ⟨r, hmem, hname, hwdev⟩
    dsimp only
    split_ifs with hplace
    · exact ⟨hs, fun _ => hrecorded⟩
    · refine ⟨⟨⟨hs.1.netdevs, hs.1.phyNetns, hs.1.namespaces, hs.1.foreign, hs.1.capturing,
        hs.1.core, ?_⟩, hs.2⟩, fun _ => hrecorded⟩
      rintro d ⟨r', hr', hname', hwdev'⟩
      refine hs.1.recorded d ?_
      rcases List.mem_cons.1 hr' with rfl | hr'
      · exact ⟨r, hmem, hname', hwdev'⟩
      · exact ⟨r', (List.mem_filter.1 hr').1, hname', hwdev'⟩

theorem Reads.release {w : World} (h : Reads w₀ w) (name : Text) (netns : Option Text) :
    Reads w₀ { w with owned := w.owned.filter fun r => !r.at name netns } := by
  refine ⟨h.netdevs, h.phyNetns, h.namespaces, h.foreign, h.capturing, h.core, ?_⟩
  rintro d ⟨r, hr, hname, hwdev⟩
  exact h.recorded d ⟨r, (List.mem_filter.1 hr).1, hname, hwdev⟩

theorem anyCapturing_leads (capturing : Nat → Bool) (ds : List Netdev) :
    Leads (Heard True (Reads w₀)) (anyCapturing capturing ds) (fun used s =>
      Heard True (Reads w₀) s ∧
      (used = false → ∀ d ∈ ds, w₀.recorded d ∨ capturing d.wdev = false))
        (Heard True (Reads w₀)) := by
  induction ds with
  | nil => exact Leads.pure fun s hs => ⟨hs, fun _ d hd => absurd hd List.not_mem_nil⟩
  | cons d ds ih =>
    refine (isOwned_leads d).bind fun mine => ?_
    intro s ⟨hs, hmine⟩
    refine (ih.bind fun later => ?_) s hs
    intro s' ⟨hs', hlater⟩
    refine ⟨hs', fun hused d' hd' => ?_⟩
    rw [Bool.or_eq_false_iff] at hused
    rcases List.mem_cons.1 hd' with rfl | hd'
    · cases mine with
      | true => exact Or.inl (hmine rfl)
      | false => exact Or.inr (by simpa using hused.1)
    · exact hlater hused.2 d' hd'

/-- A netdev in root that is reported free is free. -/
theorem inUse_leads (live : Netdev) : Leads (Heard True (Reads w₀)) (inUse live)
    (fun used s => Heard True (Reads w₀) s ∧ (live.netns = none → used = false → w₀.Free live))
    (Heard True (Reads w₀)) := by
  refine Leads.get.bind fun s => ?_
  rintro _ ⟨hs, rfl⟩
  dsimp only
  split_ifs with htype hforeign
  · exact ⟨hs, fun _ hused => by cases hused⟩
  · exact ⟨hs, fun _ hused => by cases hused⟩
  · refine (listInterfaces_leads.bind fun inventory => ?_) s hs
    rintro s₁ ⟨hs₁, hinventory, -⟩
    refine (anyCapturing_leads s.world.capturing _).mono (fun _ => id) (fun used s₂ h => ?_)
      (fun _ => id) s₁ hs₁
    refine ⟨h.1, fun hroot hused => ⟨?_, ?_, fun other hother hsibling => ?_⟩⟩
    · by_contra hnot
      rw [not_or, not_or] at hnot
      exact htype hnot
    · rw [← hs.1.foreign, ← hroot]
      simpa using hforeign
    · rw [← hs.1.capturing]
      refine h.2 hused other (List.mem_filter.2 ⟨?_, hsibling⟩)
      rw [hinventory trivial, hs₁.1.inventory]
      refine List.mem_append_left _ (List.mem_filter.2 ⟨hother, ?_⟩)
      unfold sibling at hsibling
      simp only [Bool.and_eq_true, decide_eq_true_eq] at hsibling
      exact decide_eq_true (hsibling.1.1.1.2.trans hroot)

theorem isCoreManaged_leads (e : Entry) : Maintains True (Reads w₀) (isCoreManaged e) := by
  refine (findLive_leads e).bind fun live => ?_
  rintro s ⟨hs, -⟩
  cases live with
  | none => exact hs
  | some live =>
    dsimp only
    cases live.netns with
    | some netns =>
      refine ((coreNamespaces_leads fun w hw => hw.dropMarkers).bind fun core => ?_) s hs
      exact Leads.pure fun s' hs' => hs'.1
    | none => exact (isOwned_leads live).mono (fun _ => id) (fun _ _ h => h.1) (fun _ => id) s hs

/-- What `may_undo` allows is what Core may touch. -/
theorem mayUndo_leads (e : Entry) : Leads (Heard True (Reads w₀)) (mayUndo e)
    (fun allowed s => Heard True (Reads w₀) s ∧
      (allowed = true → ∀ live, w₀.backing e = some live → May w₀ live))
        (Heard True (Reads w₀)) := by
  refine (findLive_leads e).bind fun live => ?_
  intro s ⟨hs, hlive⟩
  cases live with
  | none =>
    refine ⟨hs, fun _ live hsome => ?_⟩
    rw [← hlive] at hsome
    cases hsome
  | some live =>
    have honly {live' : Netdev} (hsome : w₀.backing e = some live') : live' = live := by
      rw [← hlive] at hsome
      exact (Option.some.inj hsome).symm
    dsimp only
    cases hnetns : live.netns with
    | some netns =>
      refine ((coreNamespaces_leads fun w hw => hw.dropMarkers).bind fun core => ?_) s hs
      rintro s₁ ⟨hs₁, hcore, -⟩
      refine ⟨hs₁, fun hallowed live' hsome => ?_⟩
      rw [honly hsome]
      refine Or.inl ⟨netns, ?_, hnetns⟩
      rw [← hs₁.1.core, ← hcore trivial]
      exact of_decide_eq_true hallowed
    | none =>
      refine ((isOwned_leads live).bind fun mine => ?_) s hs
      intro s₁ ⟨hs₁, hmine⟩
      cases mine with
      | false => exact ⟨hs₁, fun hallowed => by cases hallowed⟩
      | true =>
        refine ((inUse_leads live).bind fun used => ?_) s₁ hs₁
        intro s₂ ⟨hs₂, hfree⟩
        cases used with
        | true =>
          refine ((Maintains.modify fun w hw => hw.release live.name none).bind fun _ => ?_) s₂ hs₂
          exact Leads.pure fun s₃ hs₃ => ⟨hs₃, fun hallowed => by cases hallowed⟩
        | false =>
          refine ⟨hs₂, fun _ live' hsome => ?_⟩
          rw [honly hsome]
          exact Or.inr ⟨hnetns, hmine rfl, hfree hnetns rfl⟩

end WlanpiCore.Namespaces
