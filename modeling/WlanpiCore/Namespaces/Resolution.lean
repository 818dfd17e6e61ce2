import WlanpiCore.Namespaces.Service
import Mathlib.Algebra.GroupWithZero.Nat

/-!
# The netdev an entry resolves to

**`findLive_prepare_iff`**: after a preparation that succeeds, `_find_live` answers with the netdev
that was created exactly when nothing else has a claim to the entry's names. Where the radio arrives
no netdev may have the name to create; and where this is not the entry's interface, no netdev that
Core looks at may be named so. **`not_resolved_elsewhere`** is a radio that is renamed while another
one in root has its interface's name.
-/

namespace WlanpiCore.Namespaces

variable {K : Kernel}

/-! ## Runs that succeed -/

theorem bind_ok_inv {α β : Type} {x : Service α} {f : α → Service β} {s s' : State} {b : β}
    (h : (x >>= f) s = (.ok b, s')) : ∃ a s₁, x s = (.ok a, s₁) ∧ f a s₁ = (.ok b, s') := by
  cases hx : x s with
  | mk result s₁ =>
    cases result with
    | ok a =>
      rw [Prog.bind_ok hx] at h
      exact ⟨a, s₁, rfl, h⟩
    | error failure =>
      rw [Prog.bind_error hx] at h
      cases h

theorem command_ok {failure : Failure} {effect : World → Option World} {s s' : State}
    (h : command failure effect s = (.ok (), s')) : effect s.world = some s'.world := by
  unfold command at h
  split at h
  · cases h
  · split at h
    · rename_i hworld
      cases h
      exact hworld
    · cases h

theorem query_world {α : Type} (failure : Failure) (read : World → α) (s : State) :
    (query failure read s).2.world = s.world := by
  unfold query
  split <;> rfl

theorem quietly_world {α : Type} (read : World → List α) (s : State) :
    (quietly read s).2.world = s.world := by
  unfold quietly
  split <;> rfl

theorem bind_world {α β : Type} {x : Service α} {f : α → Service β} {s : State}
    (hx : (x s).2.world = s.world) (hf : ∀ a s, (f a s).2.world = s.world) :
    ((x >>= f) s).2.world = s.world := by
  cases hr : x s with
  | mk result s₁ =>
    rw [hr] at hx
    cases result with
    | ok a =>
      rw [Prog.bind_ok hr]
      exact (hf a s₁).trans hx
    | error failure =>
      rw [Prog.bind_error hr]
      exact hx

theorem listNamespaces_world (s : State) : (listNamespaces s).2.world = s.world := query_world ..

theorem listIn_world (names : List Text) (s : State) : (listIn names s).2.world = s.world := by
  induction names generalizing s with
  | nil => rfl
  | cons netns rest ih =>
    refine bind_world (quietly_world ..) fun here s₁ => ?_
    exact bind_world (ih s₁) fun _ _ => rfl

/-- Listing changes nothing. -/
theorem listInterfaces_world (s : State) : (listInterfaces s).2.world = s.world := by
  refine bind_world (query_world ..) fun root s₁ => ?_
  refine bind_world (listNamespaces_world s₁) fun names s₂ => ?_
  exact bind_world (listIn_world _ s₂) fun _ _ => rfl

theorem namespaceExists_world (netns : Text) (s : State) :
    (namespaceExists netns s).2.world = s.world := by
  exact bind_world (quietly_world ..) fun _ _ => rfl

/-- `_claim` changes the records only. -/
theorem claim_world (name : Text) (netns : Option Text) (s : State) :
    ∃ owned, (claim name netns s).2.world = { s.world with owned } := by
  have hlist := listInterfaces_world s
  unfold claim
  cases hr : listInterfaces s with
  | mk result s₁ =>
    rw [hr] at hlist
    cases result with
    | error failure =>
      rw [Prog.bind_error hr]
      exact ⟨s.world.owned, hlist⟩
    | ok inventory =>
      rw [Prog.bind_ok hr]
      cases inventory.find? fun d => d.at name netns with
      | none => exact ⟨s.world.owned, hlist⟩
      | some d =>
        refine ⟨⟨netns, name, d.wdev⟩ :: s₁.world.owned.filter fun r => !r.at name netns, ?_⟩
        have hlist : s₁.world = s.world := hlist
        rw [← hlist]
        rfl

theorem onRunCommand_ok {α : Type} {x handler : Service α} {s s' : State} {a : α}
    (h : onRunCommand x handler s = (.ok a, s')) :
    x s = (.ok a, s') ∨ ∃ s₁, handler s₁ = (.ok a, s') := by
  unfold onRunCommand at h
  cases hr : x s with
  | mk result s₁ =>
    cases result with
    | ok b =>
      rw [Prog.attempt_ok hr] at h
      exact Or.inl h
    | error failure =>
      rw [Prog.attempt_error hr] at h
      cases failure with
      | runCommand => exact Or.inr ⟨s₁, h⟩
      | networkNamespace => cases h
      | os => cases h

theorem orRestore_ok {step : Service Unit} {live : Netdev} {newName : Text}
    {movedTo created : Option Text} {after : Service Bool} {s s' : State}
    (h : orRestore K step live newName movedTo created after s = (.ok true, s')) :
    ∃ s₁, step s = (.ok (), s₁) ∧ after s₁ = (.ok true, s') := by
  obtain ⟨moved, s₁, hmoved, hafter⟩ := bind_ok_inv h
  cases moved with
  | false => cases hafter
  | true =>
    rcases onRunCommand_ok hmoved with hstep | ⟨s₂, hhandler⟩
    · obtain ⟨_, s₂, hstep, hpure⟩ := bind_ok_inv hstep
      cases hpure
      exact ⟨s₁, hstep, hafter⟩
    · obtain ⟨_, s₃, -, hpure⟩ := bind_ok_inv hhandler
      cases hpure

theorem command_silences (failure : Failure) (effect : World → Option World) (s : State) :
    (command failure effect s).2.silences = s.silences := by
  unfold command
  split
  · rfl
  · split <;> rfl

theorem command_heard {failure : Failure} {effect : World → Option World} {s s' : State}
    {r : Except Failure Unit} (h : command failure effect s = (r, s')) :
    s.silences = [] → s'.silences = [] := by
  intro hs
  rw [← hs, ← command_silences failure effect s, h]

/-- The end of a preparation, in the world `w` where the radio has arrived: the netdev is created
and brought up, and then recorded. -/
def Adds (K : Kernel) (w : World) (e : Entry) (live : Netdev) (target : Option Text)
    (s s' : State) : Prop :=
  ∃ w' s₁, w.create K live.phyIndex (displayName e) e.base.mode.value.toList target = some w' ∧
    s₁.world = setUp true (displayName e) target w' ∧ (s.silences = [] → s₁.silences = []) ∧
    claim (displayName e) target s₁ = (.ok (), s')

theorem Adds.mono {w : World} {e : Entry} {live : Netdev} {target : Option Text} {s s₀ s' : State}
    (h : Adds K w e live target s s') (hs : s₀.silences = [] → s.silences = []) :
    Adds K w e live target s₀ s' := by
  obtain ⟨w', s₁, hcreate, hworld, hheard, hclaim⟩ := h
  exact ⟨w', s₁, hcreate, hworld, fun h => hheard (hs h), hclaim⟩

theorem addInterface_ok {e : Entry} {live : Netdev} {target movedTo created : Option Text}
    {s s' : State} (h : addInterface K e live target movedTo created s = (.ok true, s')) :
    Adds K s.world e live target s s' := by
  obtain ⟨_, s₁, hadd, hclaim⟩ := bind_ok_inv h
  rcases onRunCommand_ok hadd with hadd | ⟨s₂, hhandler⟩
  · obtain ⟨_, s₂, hcreate, hup₀⟩ := bind_ok_inv hadd
    have hup := command_ok hup₀
    rw [Option.ite_none_right_eq_some] at hup
    obtain ⟨_, s₃, hrecord, hpure⟩ := bind_ok_inv hclaim
    cases hpure
    exact ⟨s₂.world, s₁, command_ok hcreate, (Option.some.inj hup.2).symm,
      fun h => command_heard hup₀ (command_heard hcreate h), hrecord⟩
  · obtain ⟨_, s₃, -, hraise⟩ := bind_ok_inv hhandler
    cases hraise

/-! ## The radio where it arrives -/

/-- The old netdev deleted, and the radio where the entry has it. -/
def World.arrival (K : Kernel) (w : World) (e : Entry) (live : Netdev) : World :=
  let w := w.delete live.name live.netns
  match live.netns, e.netns with
  | none, none => w
  | some _, none => w.move K live.phyIndex none
  | none, some netns => w.move K live.phyIndex (some netns)
  | some source, some netns =>
    if source = netns then w
    else (w.move K live.phyIndex none).move K live.phyIndex (some netns)

/-- The world with other namespaces and markers. -/
def World.withNetns (w : World) (namespaces : List (Text × Nat)) (nextInode : Nat)
    (markers : List (Text × Option Nat)) : World :=
  { w with namespaces, nextInode, markers }

theorem arrival_withNetns (w : World) (e : Entry) (live : Netdev) (namespaces : List (Text × Nat))
    (nextInode : Nat) (markers : List (Text × Option Nat)) :
    (w.withNetns namespaces nextInode markers).arrival K e live =
      (w.arrival K e live).withNetns namespaces nextInode markers := by
  unfold World.arrival
  cases live.netns with
  | none => cases e.netns <;> rfl
  | some source =>
    cases e.netns with
    | none => rfl
    | some netns =>
      dsimp only
      split_ifs <;> rfl

theorem addInterface_from {e : Entry} {live : Netdev} {target movedTo created : Option Text}
    {s s' : State} {w : World} (hw : s.world = w)
    (h : addInterface K e live target movedTo created s = (.ok true, s')) :
    Adds K w e live target s s' := hw ▸ addInterface_ok h

/-- What a preparation that succeeds has done: namespaces and markers, the move, the netdev. -/
theorem prepareRoot_ok {e : Entry} {live : Netdev} {s s' : State} (he : e.netns = none)
    (h : prepareRoot K e live s = (.ok true, s')) :
    Adds K (s.world.arrival K e live) e live none s s' := by
  obtain ⟨_, s₁, hdelete, hrest⟩ := bind_ok_inv h
  have hheard := command_heard hdelete
  have hdelete := command_ok hdelete
  have hdelete := Option.some.inj hdelete
  unfold World.arrival
  rw [he]
  cases hlive : live.netns with
  | none =>
    rw [hlive] at hrest hdelete
    exact (addInterface_from hdelete.symm hrest).mono hheard
  | some source =>
    rw [hlive] at hrest hdelete
    obtain ⟨s₂, hmove, hadd⟩ := orRestore_ok hrest
    have hmoved := command_heard hmove
    have hmove := command_ok hmove
    rw [Option.ite_none_right_eq_some, ← hdelete] at hmove
    exact (addInterface_from (Option.some.inj hmove.2).symm hadd).mono fun h => hmoved (hheard h)

theorem moveInto_ok {e : Entry} {live : Netdev} {netns : Text} {created : Option Text}
    {s s' : State}
    (he : e.netns = some netns) (hne : live.netns ≠ some netns) {w : World}
    (hs : s.world = w.delete live.name live.netns)
    (h : moveInto K e live netns created s = (.ok true, s')) :
    Adds K (w.arrival K e live) e live (some netns) s s' := by
  unfold World.arrival
  unfold moveInto at h
  rw [he]
  cases hlive : live.netns with
  | none =>
    rw [hlive] at h hs
    obtain ⟨s₁, hmove, hadd⟩ := orRestore_ok h
    have hmoved := command_heard hmove
    have hmove := command_ok hmove
    rw [Option.ite_none_right_eq_some, hs] at hmove
    exact (addInterface_from (Option.some.inj hmove.2).symm hadd).mono hmoved
  | some source =>
    rw [hlive] at h hs hne
    have hsource : source ≠ netns := fun heq => hne (congrArg some heq)
    obtain ⟨s₁, hroot, hrest⟩ := orRestore_ok h
    have hrooted := command_heard hroot
    have hroot := command_ok hroot
    rw [Option.ite_none_right_eq_some, hs] at hroot
    obtain ⟨s₂, hmove, hadd⟩ := orRestore_ok hrest
    have hmoved := command_heard hmove
    have hmove := command_ok hmove
    rw [Option.ite_none_right_eq_some, ← Option.some.inj hroot.2] at hmove
    dsimp only
    rw [if_neg hsource]
    exact (addInterface_from (Option.some.inj hmove.2).symm hadd).mono fun h => hmoved (hrooted h)

theorem namespaceExists_true {netns : Text} {s s' : State}
    (h : namespaceExists netns s = (.ok true, s')) : netns ∈ s.world.namespaces.map (·.1) := by
  obtain ⟨names, s₁, hlist, hpure⟩ := bind_ok_inv h
  have hfound : decide (netns ∈ names) = true := congrArg (fun r => r.1.toOption.getD false) hpure
  have hmem := of_decide_eq_true hfound
  unfold quietly at hlist
  split at hlist
  · cases hlist
    cases hmem
  · cases hlist
    exact hmem

/-- The namespaces and the markers after the entry's own namespace is provided. -/
structure Provided (w w' : World) (netns : Text) : Prop where
  same : ∃ namespaces nextInode markers, w' = w.withNetns namespaces nextInode markers
  exists_netns : netns ∈ w'.namespaces.map (·.1)
  core : ∀ name, name ≠ netns → (name ∈ w'.core ↔ name ∈ w.core)

theorem mem_core {w : World} {name : Text} : name ∈ w.core ↔ ∃ inode,
    (name, some inode) ∈ w.markers ∧ w.namespaces.lookup name = some inode := by
  simp only [World.core, List.mem_map, List.mem_filter, World.current]
  constructor
  · rintro ⟨⟨name', recorded⟩, ⟨hmem, hcurrent⟩, rfl⟩
    cases recorded with
    | none => cases hcurrent
    | some inode => exact ⟨inode, hmem, of_decide_eq_true hcurrent⟩
  · rintro ⟨inode, hmem, hlookup⟩
    exact ⟨(name, some inode), ⟨hmem, decide_eq_true hlookup⟩, rfl⟩

theorem quietly_heard {α : Type} (read : World → List α) {s : State} (h : s.silences = []) :
    (quietly read s).2.silences = [] := by
  unfold quietly
  rw [h]
  rfl

theorem namespaceExists_heard (netns : Text) :
    Prog.Preserves (fun s : State => s.silences = []) (namespaceExists netns) :=
  .map _ fun _ h => quietly_heard _ h

theorem command_preserves (failure : Failure) (effect : World → Option World) :
    Prog.Preserves (fun s : State => s.silences = []) (command failure effect) := fun s h =>
  (command_silences failure effect s).trans h

theorem provideNamespace_heard (netns : Text) :
    Prog.Preserves (fun s : State => s.silences = []) (provideNamespace K netns) := by
  refine .bind (namespaceExists_heard netns) fun found => ?_
  cases found with
  | true => exact .pure _
  | false =>
    refine .bind (command_preserves _ _) fun _ => .bind (.attempt (command_preserves _ _) ?_)
      fun _ => .pure _
    intro failure
    cases failure with
    | runCommand => exact .raise _
    | networkNamespace => exact .raise _
    | os =>
      refine .bind (.bind (namespaceExists_heard netns) fun found => ?_) fun _ =>
        .bind (.update fun _ h => h) fun _ => .raise _
      cases found with
      | true => exact .attempt (command_preserves _ _) fun _ => .pure _
      | false => exact .pure _

/-- A namespace that is not there is made and marked. -/
theorem provideNamespace_cases {netns : Text} {s s' : State} {created : Option Text}
    (h : provideNamespace K netns s = (.ok created, s')) :
    netns ∈ s.world.namespaces.map (·.1) ∧ s'.world = s.world ∨
      s'.world = s.world.withNetns (s.world.namespaces ++ [(netns, s.world.nextInode)])
        (s.world.nextInode + 1)
        ((netns, (s.world.namespaces ++ [(netns, s.world.nextInode)]).lookup netns) ::
          s.world.markers.filter fun marker => marker.1 ≠ netns) := by
  obtain ⟨found, s₁, hexists, hrest⟩ := bind_ok_inv h
  have hworld := namespaceExists_world netns s
  rw [hexists] at hworld
  have hworld : s₁.world = s.world := hworld
  cases found with
  | true =>
    cases hrest
    exact Or.inl ⟨namespaceExists_true hexists, hworld⟩
  | false =>
    obtain ⟨_, s₂, hcreate, hrest⟩ := bind_ok_inv hrest
    have hcreate := command_ok hcreate
    split_ifs at hcreate with hmem
    have hcreate := Option.some.inj hcreate
    obtain ⟨_, s₃, hmark, hpure⟩ := bind_ok_inv hrest
    cases hpure
    have hmark : command .os (fun w => some { w with
        markers := (netns, w.namespaces.lookup netns) ::
          w.markers.filter fun marker => marker.1 ≠ netns }) s₂ = (.ok (), s') := by
      unfold Prog.attempt at hmark
      split at hmark
      · rename_i hcommand
        cases hmark
        exact hcommand
      · rename_i failure s₄ hcommand
        cases failure with
        | os =>
          obtain ⟨_, s₅, _, hraise⟩ := bind_ok_inv hmark
          obtain ⟨_, s₆, _, hraise⟩ := bind_ok_inv hraise
          cases hraise
        | runCommand => cases hmark
        | networkNamespace => cases hmark
    have hmark := command_ok hmark
    have hmark := Option.some.inj hmark
    rw [← hmark, ← hcreate, hworld]
    exact Or.inr rfl

theorem provideNamespace_ok {netns : Text} {s s' : State} {created : Option Text}
    (h : provideNamespace K netns s = (.ok created, s')) : Provided s.world s'.world netns := by
  rcases provideNamespace_cases h with ⟨hmem, hs'⟩ | hs' <;> rw [hs']
  · exact ⟨⟨_, _, _, rfl⟩, hmem, fun name _ => Iff.rfl⟩
  · refine ⟨⟨_, _, _, rfl⟩, ?_, fun name hne => ?_⟩
    · simp [World.withNetns]
    · rw [mem_core, mem_core]
      refine exists_congr fun inode => and_congr ?_ ?_
      · simp [World.withNetns, hne]
      · show (s.world.namespaces ++ _).lookup name = _ ↔ _
        rw [List.lookup_append]
        have hnone : List.lookup name [(netns, s.world.nextInode)] = none := by
          have hbeq : (name == netns) = false := by simpa using hne
          rw [List.lookup_cons, hbeq]
          rfl
        rw [hnone, Option.or_none]

theorem provideNamespace_keeps {netns name : Text} {s s' : State} {created : Option Text}
    (h : provideNamespace K netns s = (.ok created, s'))
    (hname : name ∈ s.world.namespaces.map (·.1)) :
    name ∈ s'.world.namespaces.map (·.1) := by
  rcases provideNamespace_cases h with ⟨-, hs'⟩ | hs' <;> rw [hs']
  · exact hname
  · show name ∈ (s.world.namespaces ++ _).map (·.1)
    rw [List.map_append]
    exact List.mem_append_left _ hname

/-- The world in which the radio sets out: the namespaces and the markers may be new, which changes
nothing of the radio's way. -/
structure Ready (K : Kernel) (w₀ w : World) (e : Entry) (live : Netdev) : Prop where
  arrival : (w.arrival K e live).netdevs = (w₀.arrival K e live).netdevs
  netdevs : w.netdevs = w₀.netdevs
  phyNetns : w.phyNetns = w₀.phyNetns
  owned : w.owned = w₀.owned
  nextWdev : w.nextWdev = w₀.nextWdev
  core : ∀ name, e.netns ≠ some name → (name ∈ w.core ↔ name ∈ w₀.core)
  exists_netns : ∀ netns, e.netns = some netns → netns ∈ w.namespaces.map (·.1)

theorem Provided.ready {w₀ w : World} {e : Entry} {live : Netdev} {netns : Text}
    (he : e.netns = some netns) (h : Provided w₀ w netns) : Ready K w₀ w e live := by
  have hcore (name : Text) (hname : e.netns ≠ some name) : name ∈ w.core ↔ name ∈ w₀.core :=
    h.core name fun heq => hname (heq ▸ he)
  have hexists (name : Text) (hname : e.netns = some name) : name ∈ w.namespaces.map (·.1) :=
    Option.some.inj (he.symm.trans hname) ▸ h.exists_netns
  obtain ⟨namespaces, nextInode, markers, rfl⟩ := h.same
  exact ⟨by rw [arrival_withNetns]; rfl, rfl, rfl, rfl, rfl, hcore, hexists⟩

/-- What a preparation that succeeds has done: the namespaces and the markers, the move, and the
netdev. -/
theorem prepare_ok {e : Entry} {live : Netdev} {s s' : State}
    (h : prepare K e live s = (.ok true, s')) :
    ∃ w, Ready K s.world w e live ∧ Adds K (w.arrival K e live) e live e.netns s s' := by
  unfold prepare at h
  cases he : e.netns with
  | none =>
    rw [he] at h
    refine ⟨s.world, ⟨rfl, rfl, rfl, rfl, rfl, fun _ _ => Iff.rfl, fun _ hsome => ?_⟩,
      prepareRoot_ok he h⟩
    rw [he] at hsome
    cases hsome
  | some netns =>
    rw [he] at h
    obtain ⟨created, s₁, hprovide, hrest⟩ := bind_ok_inv h
    obtain ⟨_, s₂, hdelete, hrest⟩ := bind_ok_inv hrest
    have hheard (hs : s.silences = []) : s₂.silences = [] := by
      have hprovided := provideNamespace_heard (K := K) netns s hs
      rw [hprovide] at hprovided
      exact command_heard hdelete hprovided
    have hdelete := command_ok hdelete
    have hdelete := Option.some.inj hdelete
    refine ⟨s₁.world, (provideNamespace_ok hprovide).ready he, ?_⟩
    by_cases hlive : live.netns = some netns
    · rw [if_pos hlive] at hrest
      have harrival : s₁.world.arrival K e live = s₂.world := by
        unfold World.arrival
        rw [← hdelete, he, hlive]
        dsimp only
        rw [if_pos rfl]
      exact (addInterface_from harrival.symm hrest).mono hheard
    · rw [if_neg hlive] at hrest
      exact (moveInto_ok he hlive hdelete.symm hrest).mono hheard

/-! ## Listing -/

theorem query_nil {α : Type} (failure : Failure) (read : World → α) (w : World) :
    query failure read { world := w } = (.ok (read w), { world := w }) := rfl

/-- The namespaces whose names Core does not refuse. -/
def World.listed (w : World) : List Text :=
  (w.namespaces.map (·.1)).filter fun name => validateNamespaceName name = none

theorem listIn_nil (names : List Text) (w : World) : listIn names { world := w } =
    (.ok (names.flatMap fun netns => w.netdevs.filter fun d => d.netns = some netns),
      { world := w }) := by
  induction names with
  | nil => rfl
  | cons netns rest ih =>
    have hhere : quietly (fun w : World => w.netdevs.filter fun d => d.netns = some netns)
        { world := w } = (.ok (w.netdevs.filter fun d => d.netns = some netns), { world := w }) :=
          rfl
    unfold listIn
    rw [Prog.bind_ok hhere, Prog.bind_ok ih]
    rfl

theorem listInterfaces_nil (w : World) : ∃ inventory, listInterfaces { world := w } =
    (.ok inventory, { world := w }) ∧ ∀ d, d ∈ inventory ↔ d ∈ w.netdevs ∧
      (d.netns = none ∨ ∃ netns ∈ w.listed, d.netns = some netns) := by
  have hrun : listInterfaces { world := w } = (.ok ((w.netdevs.filter fun d => d.netns = none) ++
      w.listed.flatMap fun netns => w.netdevs.filter fun d => d.netns = some netns),
        { world := w }) := by
    unfold listInterfaces
    rw [Prog.bind_ok (query_nil ..)]
    have hnames : listNamespaces { world := w } = (.ok (w.namespaces.map (·.1)), { world := w }) :=
      rfl
    rw [Prog.bind_ok hnames, Prog.bind_ok (listIn_nil ..)]
    rfl
  refine ⟨_, hrun, fun d => ?_⟩
  simp only [List.mem_append, List.mem_filter, List.mem_flatMap, decide_eq_true_eq]
  constructor
  · rintro (⟨hmem, hnone⟩ | ⟨netns, hlisted, hmem, hsome⟩)
    · exact ⟨hmem, Or.inl hnone⟩
    · exact ⟨hmem, Or.inr ⟨netns, hlisted, hsome⟩⟩
  · rintro ⟨hmem, hnone | ⟨netns, hlisted, hsome⟩⟩
    · exact Or.inl ⟨hmem, hnone⟩
    · exact Or.inr ⟨netns, hlisted, hmem, hsome⟩

theorem coreNamespaces_nil (w : World) : coreNamespaces { world := w } =
    (.ok w.core, { world := { w with markers := w.markers.filter w.current } }) := by
  rfl

/-- What `_find_live` looks at: root, Core's namespaces, and the entry's. -/
def World.visible (w : World) (e : Entry) (d : Netdev) : Prop :=
  d.netns = none ∨ (∃ netns ∈ w.core, validateNamespaceName netns = none ∧ d.netns = some netns) ∨
    d.netns = e.netns

theorem lookup_mem {namespaces : List (Text × Nat)} {netns : Text} {inode : Nat}
    (h : namespaces.lookup netns = some inode) : netns ∈ namespaces.map (·.1) := by
  induction namespaces with
  | nil => cases h
  | cons entry rest ih =>
    rw [List.lookup_cons] at h
    by_cases hentry : netns = entry.1
    · rw [hentry]
      exact List.mem_cons_self
    · have hbeq : (netns == entry.1) = false := by simpa using hentry
      rw [hbeq] at h
      exact List.mem_cons_of_mem _ (ih h)

/-- `_find_live` when no command fails: what it resolves is what there is to see. -/
theorem findLive_nil {w : World} {e : Entry}
    (hexists : ∀ netns, e.netns = some netns → netns ∈ w.namespaces.map (·.1)) :
    ∃ inventory s', findLive e { world := w } = (.ok (resolve w.core inventory e), s') ∧
      ∀ d, (d ∈ inventory ∧ (d.netns = none ∨ w.core.any (some · = d.netns) = true ∨
        d.netns = e.netns)) ↔ d ∈ w.netdevs ∧ w.visible e d := by
  set w' : World := { w with markers := w.markers.filter w.current }
  obtain ⟨inventory, hlist, hmem⟩ := listInterfaces_nil w'
  have hrun : findLive e { world := w } = (.ok (resolve w.core inventory e), { world := w' }) := by
    unfold findLive
    rw [Prog.bind_ok (coreNamespaces_nil w), Prog.bind_ok hlist]
    rfl
  refine ⟨inventory, _, hrun, fun d => ?_⟩
  rw [hmem, World.visible]
  have hany : w.core.any (some · = d.netns) = true ↔ ∃ netns ∈ w.core, d.netns = some netns := by
    rw [List.any_eq_true]
    refine exists_congr fun netns => and_congr_right fun _ => ?_
    rw [decide_eq_true_eq]
    exact eq_comm
  rw [hany]
  constructor
  · rintro ⟨⟨hd, hlisted⟩, hnone | ⟨netns, hcore, hsome⟩ | hown⟩
    · exact ⟨hd, Or.inl hnone⟩
    · refine ⟨hd, Or.inr (Or.inl ⟨netns, hcore, ?_, hsome⟩)⟩
      rcases hlisted with hnone | ⟨netns', hlisted, hsome'⟩
      · rw [hsome] at hnone
        cases hnone
      · rw [hsome] at hsome'
        cases hsome'
        exact of_decide_eq_true (List.mem_filter.1 hlisted).2
    · exact ⟨hd, Or.inr (Or.inr hown)⟩
  · rintro ⟨hd, hnone | ⟨netns, hcore, hvalid, hsome⟩ | hown⟩
    · exact ⟨⟨hd, Or.inl hnone⟩, Or.inl hnone⟩
    · obtain ⟨inode, -, hlookup⟩ := mem_core.1 hcore
      have hlisted : netns ∈ w'.listed :=
        List.mem_filter.2 ⟨lookup_mem hlookup, decide_eq_true hvalid⟩
      exact ⟨⟨hd, Or.inr ⟨netns, hlisted, hsome⟩⟩, Or.inr (Or.inl ⟨netns, hcore, hsome⟩)⟩
    · refine ⟨⟨hd, ?_⟩, Or.inr (Or.inr hown)⟩
      cases he : e.netns with
      | none => exact Or.inl (hown.trans he)
      | some netns =>
        refine Or.inr ⟨netns, List.mem_filter.2 ⟨hexists netns he, ?_⟩, hown.trans he⟩
        cases e with
        | root entry => cases he
        | ns entry =>
          cases he
          exact decide_eq_true entry.netns.property

/-! ## Resolution -/

theorem at_iff {d : Netdev} {name : Text} {netns : Option Text} :
    d.at name netns = true ↔ d.name = name ∧ d.netns = netns := by
  simp [Netdev.at]

theorem mem_sortMatches {netns : Option Text} {found : List Netdev} {d : Netdev} :
    d ∈ sortMatches netns found ↔ d ∈ found := by
  simp only [sortMatches, List.mem_append, List.mem_filter, Bool.and_eq_true, decide_eq_true_eq]
  tauto

/-- The best match is in the entry's namespace, if one is. -/
theorem sortMatches_cons {netns : Option Text} {found : List Netdev} {d : Netdev}
    (hd : d ∈ found) (hnetns : d.netns = netns) : ∃ first rest,
      sortMatches netns found = first :: rest ∧ first ∈ found ∧ first.netns = netns := by
  have hmem : d ∈ found.filter fun d => d.netns = netns :=
    List.mem_filter.2 ⟨hd, by simpa using hnetns⟩
  cases hfilter : found.filter fun d => d.netns = netns with
  | nil =>
    rw [hfilter] at hmem
    cases hmem
  | cons first rest =>
    have hfirst : first ∈ found.filter fun d => d.netns = netns := hfilter ▸ List.mem_cons_self
    rw [sortMatches, hfilter]
    exact ⟨first, _, rfl, (List.mem_filter.1 hfirst).1, by simpa using (List.mem_filter.1 hfirst).2⟩

section

variable {core : List Text} {inventory : List Netdev} {e : Entry} {V : Netdev → Prop}

/-- What `_find_live` looks through is what there is to see. -/
theorem mem_looked (hmem : ∀ d, (d ∈ inventory ∧ (d.netns = none ∨
    core.any (some · = d.netns) = true ∨ d.netns = e.netns)) ↔ V d) (d : Netdev) :
    d ∈ (inventory.filter fun d => d.netns = none || core.any (some · = d.netns) ||
      d.netns = e.netns) ↔ V d := by
  rw [← hmem, List.mem_filter, Bool.or_eq_true, Bool.or_eq_true, decide_eq_true_eq,
    decide_eq_true_eq, or_assoc]

/-- What is resolved, `V` being what there is to see. -/
theorem resolve_spec (hmem : ∀ d, (d ∈ inventory ∧ (d.netns = none ∨
    core.any (some · = d.netns) = true ∨ d.netns = e.netns)) ↔ V d) {d : Netdev}
    (h : resolve core inventory e = some d) : V d ∧ (d.name = e.base.interface.val ∨
      d.at (displayName e) e.netns = true ∧ ∀ d', V d' → d'.name ≠ e.base.interface.val) := by
  have hvisible := mem_looked hmem
  unfold resolve at h
  dsimp only at h
  split at h
  · rename_i first rest hsorted
    cases h
    have hfirst : d ∈ sortMatches e.netns _ := hsorted ▸ List.mem_cons_self
    rw [mem_sortMatches, List.mem_filter, hvisible] at hfirst
    exact ⟨hfirst.1, Or.inl (of_decide_eq_true hfirst.2)⟩
  · rename_i hsorted
    split_ifs at h
    have hfound := List.find?_some h
    refine ⟨(hvisible d).1 (List.mem_of_find?_eq_some h), Or.inr ⟨hfound, fun d' hd' hname => ?_⟩⟩
    have hmatch : d' ∈ sortMatches e.netns (List.filter (fun d => d.name = e.base.interface.val)
        (inventory.filter fun d => d.netns = none || core.any (some · = d.netns) ||
          d.netns = e.netns)) := by
      rw [mem_sortMatches, List.mem_filter, hvisible]
      exact ⟨hd', decide_eq_true hname⟩
    rw [hsorted] at hmatch
    cases hmatch

/-- A netdev with the interface's name in the entry's namespace comes first. -/
theorem resolve_interface (hmem : ∀ d, (d ∈ inventory ∧ (d.netns = none ∨
    core.any (some · = d.netns) = true ∨ d.netns = e.netns)) ↔ V d) {d : Netdev} (hd : V d)
    (hat : d.at e.base.interface.val e.netns = true) : ∃ d', resolve core inventory e = some d' ∧
      d'.at e.base.interface.val e.netns = true := by
  obtain ⟨hname, hnetns⟩ := at_iff.1 hat
  have hmatch : d ∈ (inventory.filter fun d => d.netns = none || core.any (some · = d.netns) ||
      d.netns = e.netns).filter fun d => d.name = e.base.interface.val := by
    rw [List.mem_filter, mem_looked hmem]
    exact ⟨hd, decide_eq_true hname⟩
  obtain ⟨first, rest, hsorted, hfirst, hplace⟩ := sortMatches_cons hmatch hnetns
  refine ⟨first, ?_, at_iff.2 ⟨of_decide_eq_true (List.mem_filter.1 hfirst).2, hplace⟩⟩
  unfold resolve
  dsimp only
  rw [hsorted]

/-- The name Core gave is tried where no netdev has the interface's name. -/
theorem resolve_display (hmem : ∀ d, (d ∈ inventory ∧ (d.netns = none ∨
    core.any (some · = d.netns) = true ∨ d.netns = e.netns)) ↔ V d)
    (hnone : ∀ d, V d → d.name ≠ e.base.interface.val)
    (hdisplay : displayName e ≠ e.base.interface.val) {d : Netdev} (hd : V d)
    (hat : d.at (displayName e) e.netns = true) : ∃ d', resolve core inventory e = some d' ∧
      d'.at (displayName e) e.netns = true := by
  have hvisible := mem_looked hmem
  have hempty : (inventory.filter fun d => d.netns = none || core.any (some · = d.netns) ||
      d.netns = e.netns).filter (fun d => d.name = e.base.interface.val) = [] := by
    rw [List.filter_eq_nil_iff]
    intro d' hd'
    simpa using hnone d' ((hvisible d').1 hd')
  have hfind : ((inventory.filter fun d => d.netns = none || core.any (some · = d.netns) ||
      d.netns = e.netns).find? fun d => d.at (displayName e) e.netns).isSome = true :=
    List.find?_isSome.2 ⟨d, (hvisible d).2 hd, hat⟩
  obtain ⟨d', hd'⟩ := Option.isSome_iff_exists.1 hfind
  have hat' := List.find?_some hd'
  refine ⟨d', ?_, hat'⟩
  unfold resolve
  dsimp only
  rw [hempty]
  have hsorted : sortMatches e.netns [] = [] := rfl
  rw [hsorted]
  dsimp only
  rw [if_pos hdisplay]
  exact hd'

end

/-! ## The created netdev -/

/-- Nothing else has a claim to the entry's names: where the radio arrives no netdev has the name to
create, and where that is not the entry's interface, no netdev that Core looks at is named so. -/
def OwnNames (K : Kernel) (w : World) (e : Entry) (live : Netdev) : Prop :=
  (∀ d ∈ (w.arrival K e live).netdevs, d.at (displayName e) e.netns = false) ∧
    (displayName e = e.base.interface.val ∨
      ∀ d ∈ (w.arrival K e live).netdevs, w.visible e d → d.name ≠ e.base.interface.val)

theorem arrive_wdev {phyIndex bound : Nat} {target : Option Text} {up taken : List Text}
    {ds : List Netdev} (h : ∀ d ∈ ds, d.wdev < bound) :
    ∀ d ∈ arrive K phyIndex target up taken ds, d.wdev < bound := by
  induction ds generalizing taken with
  | nil => exact fun d hd => absurd hd List.not_mem_nil
  | cons d ds ih =>
    have hd := h d List.mem_cons_self
    have hds := fun d' hd' => h d' (List.mem_cons_of_mem d hd')
    intro d' hd'
    unfold arrive at hd'
    by_cases hphy : d.phyIndex = phyIndex
    · rw [if_pos hphy] at hd'
      rcases List.mem_cons.1 hd' with rfl | hd'
      · exact hd
      · exact ih hds d' hd'
    · rw [if_neg hphy] at hd'
      rcases List.mem_cons.1 hd' with rfl | hd'
      · exact hd
      · exact ih hds d' hd'

theorem arrival_wdev {w : World} (e : Entry) (live : Netdev)
    (h : ∀ d ∈ w.netdevs, d.wdev < w.nextWdev) :
    (w.arrival K e live).nextWdev = w.nextWdev ∧
      ∀ d ∈ (w.arrival K e live).netdevs, d.wdev < w.nextWdev := by
  have hdelete (netns : Option Text) :
      ∀ d ∈ (w.delete live.name netns).netdevs, d.wdev < w.nextWdev :=
    fun d hd => h d (List.mem_filter.1 hd).1
  unfold World.arrival
  cases live.netns with
  | none =>
    cases e.netns with
    | none => exact ⟨rfl, hdelete none⟩
    | some netns => exact ⟨rfl, arrive_wdev (hdelete none)⟩
  | some source =>
    cases e.netns with
    | none => exact ⟨rfl, arrive_wdev (hdelete (some source))⟩
    | some netns =>
      dsimp only
      split_ifs
      · exact ⟨rfl, hdelete (some source)⟩
      · exact ⟨rfl, arrive_wdev (arrive_wdev (hdelete (some source)))⟩

theorem arrival_netns (w : World) (e : Entry) (live : Netdev) :
    (w.arrival K e live).namespaces = w.namespaces ∧ (w.arrival K e live).markers = w.markers := by
  unfold World.arrival
  cases live.netns with
  | none => cases e.netns <;> exact ⟨rfl, rfl⟩
  | some source =>
    cases e.netns with
    | none => exact ⟨rfl, rfl⟩
    | some netns =>
      dsimp only
      split_ifs <;> exact ⟨rfl, rfl⟩

theorem mem_setUp {up : Bool} {name : Text} {netns : Option Text} {w : World} {d : Netdev} :
    d ∈ (setUp up name netns w).netdevs ↔
      ∃ d' ∈ w.netdevs, (if d'.at name netns then { d' with up } else d') = d := List.mem_map

/-- Names and places are not changed by bringing a netdev up. -/
theorem setUp_same (up : Bool) (name : Text) (netns : Option Text) (d : Netdev) :
    (if d.at name netns then { d with up } else d).name = d.name ∧
      (if d.at name netns then { d with up } else d).netns = d.netns ∧
      (if d.at name netns then { d with up } else d).wdev = d.wdev := by
  split_ifs <;> exact ⟨rfl, rfl, rfl⟩

theorem exists_of_mem_setUp {up : Bool} {name : Text} {netns : Option Text} {w : World} {d : Netdev}
    (h : d ∈ (setUp up name netns w).netdevs) :
    ∃ d₀ ∈ w.netdevs, d.name = d₀.name ∧ d.netns = d₀.netns ∧ d.wdev = d₀.wdev := by
  obtain ⟨d₀, hd₀, rfl⟩ := mem_setUp.1 h
  exact ⟨d₀, hd₀, setUp_same up name netns d₀⟩

theorem exists_mem_setUp (up : Bool) (name : Text) (netns : Option Text) {w : World} {d : Netdev}
    (h : d ∈ w.netdevs) : ∃ d₁ ∈ (setUp up name netns w).netdevs,
      d₁.name = d.name ∧ d₁.netns = d.netns ∧ d₁.wdev = d.wdev :=
  ⟨_, mem_setUp.2 ⟨d, h, rfl⟩, setUp_same up name netns d⟩

/-- A creation that is not refused: the netdev was there, or it is there now. -/
theorem create_ok {K : Kernel} {w w' : World} {phyIndex : Nat} {name type : Text}
    {netns : Option Text} (h : w.create K phyIndex name type netns = some w') :
    w'.namespaces = w.namespaces ∧ w'.markers = w.markers ∧
      (w'.netdevs = w.netdevs ∧ ¬(∀ d ∈ w.netdevs, d.at name netns = false) ∨
      ∃ n : Netdev, w'.netdevs = w.netdevs ++ [n] ∧ n.at name netns = true ∧ n.wdev = w.nextWdev ∧
        ∀ d ∈ w.netdevs, d.at name netns = false) := by
  unfold World.create at h
  split_ifs at h with hplace htaken hfile
  · cases h
    refine ⟨rfl, rfl, Or.inl ⟨rfl, fun hfree => ?_⟩⟩
    obtain ⟨d, hd, hat⟩ := List.any_eq_true.1 htaken
    rw [hfree d hd] at hat
    cases hat
  · cases h
    refine ⟨rfl, rfl, Or.inr ⟨_, rfl, at_iff.2 ⟨rfl, rfl⟩, rfl, fun d hd => ?_⟩⟩
    by_contra hat
    exact htaken (List.any_eq_true.2 ⟨d, hd, by simpa using hat⟩)

/-- What there is to see does not depend on whether the entry's own namespace is Core's. -/
theorem visible_iff {w w' : World} {e : Entry}
    (hcore : ∀ name, e.netns ≠ some name → (name ∈ w'.core ↔ name ∈ w.core)) (d : Netdev) :
    w'.visible e d ↔ w.visible e d := by
  have hhalf {w w' : World} (hcore : ∀ name, e.netns ≠ some name → (name ∈ w'.core ↔ name ∈ w.core))
      (h : w'.visible e d) : w.visible e d := by
    rcases h with hnone | ⟨netns, hmem, hvalid, hsome⟩ | hown
    · exact Or.inl hnone
    · by_cases he : e.netns = some netns
      · exact Or.inr (Or.inr (hsome.trans he.symm))
      · exact Or.inr (Or.inl ⟨netns, (hcore netns he).1 hmem, hvalid, hsome⟩)
    · exact Or.inr (Or.inr hown)
  exact ⟨hhalf hcore, hhalf fun name hname => (hcore name hname).symm⟩

/-- After a preparation that succeeds, `_find_live` answers with the netdev that was created exactly
when nothing else has a claim to the entry's names. -/
theorem findLive_prepare_iff (K : Kernel) {e : Entry} {live : Netdev} {s s' : State}
    (hfresh : ∀ d ∈ s.world.netdevs, d.wdev < s.world.nextWdev)
    (h : prepare K e live s = (.ok true, s')) :
    (∃ d s'', findLive e { world := s'.world } = (.ok (some d), s'') ∧ s.world.nextWdev ≤ d.wdev) ↔
      OwnNames K s.world e live := by
  obtain ⟨w, hready, w', s₁, hcreate, hs₁, -, hclaim⟩ := prepare_ok h
  obtain ⟨owned, hs'⟩ : ∃ owned, s'.world =
    { setUp true (displayName e) e.netns w' with owned } := by
    have howned := claim_world (displayName e) e.netns s₁
    rwa [hclaim, hs₁] at howned
  obtain ⟨hnetdevs, hall, -, -, hnext, hcore, hexists⟩ := hready
  obtain ⟨hnextWdev, hbound⟩ := arrival_wdev (K := K) e live
    (hall ▸ hnext ▸ hfresh : ∀ d ∈ w.netdevs, d.wdev < w.nextWdev)
  obtain ⟨hnamespaces, hmarkers⟩ := arrival_netns (K := K) w e live
  rw [hnext] at hbound hnextWdev
  rw [hnetdevs] at hbound
  -- What is there at the end is what arrived, and the created netdev if the name was free.
  obtain ⟨hnamespaces', hmarkers', hcases⟩ := create_ok hcreate
  rw [hnamespaces] at hnamespaces'
  rw [hmarkers] at hmarkers'
  rw [hnetdevs, hnextWdev] at hcases
  have hworldCore : s'.world.core = w.core := by
    rw [hs']
    unfold World.core World.current setUp
    simp only [hnamespaces', hmarkers']
  have hworldNames : s'.world.namespaces = w.namespaces := by
    rw [hs']
    exact hnamespaces'
  have hvisible (d : Netdev) : s'.world.visible e d ↔ s.world.visible e d := by
    refine visible_iff (fun name hname => ?_) d
    rw [hworldCore]
    exact hcore name hname
  obtain ⟨inventory, s'', hrun, hmem⟩ := findLive_nil (w := s'.world) (e := e) fun netns he => by
    rw [hworldNames]
    exact hexists netns he
  have hmem' (d : Netdev) := (hmem d).trans (and_congr_right fun _ => hvisible d)
  have hdevs : s'.world.netdevs = (setUp true (displayName e) e.netns w').netdevs := by rw [hs']
  rw [hdevs] at hmem'
  have hgoal : (∃ d s'', findLive e { world := s'.world } = (.ok (some d), s'') ∧
      s.world.nextWdev ≤ d.wdev) ↔
      ∃ d, resolve s'.world.core inventory e = some d ∧ s.world.nextWdev ≤ d.wdev := by
    rw [hrun]
    constructor
    · rintro ⟨d, s'', heq, hwdev⟩
      exact ⟨d, Except.ok.inj (Prod.mk.inj heq).1, hwdev⟩
    · rintro ⟨d, heq, hwdev⟩
      exact ⟨d, s'', by rw [heq], hwdev⟩
  rw [hgoal]
  constructor
  · rintro ⟨d, hresolve, hwdev⟩
    obtain ⟨⟨hd, -⟩, hname⟩ := resolve_spec hmem' hresolve
    obtain ⟨d₀, hd₀, hname₀, -, hwdev₀⟩ := exists_of_mem_setUp hd
    rcases hcases with ⟨hw', -⟩ | ⟨n, hw', hat, -, hfree⟩
    · have hlt := hbound d₀ (hw' ▸ hd₀)
      omega
    · rw [hw', List.mem_append, List.mem_singleton] at hd₀
      rcases hd₀ with hd₀ | rfl
      · have hlt := hbound d₀ hd₀
        omega
      · refine ⟨hfree, ?_⟩
        by_cases hdisplay : displayName e = e.base.interface.val
        · exact Or.inl hdisplay
        · refine Or.inr fun d' hd' hseen hname' => ?_
          rcases hname with hname | ⟨-, hnone⟩
          · rw [hname₀, (at_iff.1 hat).1] at hname
            exact hdisplay hname
          · have hmem₁ : d' ∈ w'.netdevs := by
              rw [hw']
              exact List.mem_append_left _ hd'
            obtain ⟨d₁, hd₁, hname₁, hnetns₁, -⟩ :=
              exists_mem_setUp true (displayName e) e.netns hmem₁
            refine hnone d₁ ⟨hd₁, ?_⟩ (hname₁.trans hname')
            rw [World.visible, hnetns₁]
            exact hseen
  · rintro ⟨hfree, hnames⟩
    rcases hcases with ⟨-, hnot⟩ | ⟨n, hw', hat, hnwdev, -⟩
    · exact absurd hfree hnot
    · have hn : n ∈ w'.netdevs := by
        rw [hw']
        exact List.mem_append_right _ (List.mem_singleton_self n)
      obtain ⟨n₁, hn₁, hnname, hnnetns, -⟩ := exists_mem_setUp true (displayName e) e.netns hn
      have hat₁ : n₁.at (displayName e) e.netns = true := by
        rw [at_iff, hnname, hnnetns]
        exact at_iff.1 hat
      have hseen : s.world.visible e n₁ := Or.inr (Or.inr (at_iff.1 hat₁).2)
      -- A netdev of the created one's name and place is the created one.
      have hcreated {d : Netdev} (hresolve : resolve s'.world.core inventory e = some d)
          (hd : d.at (displayName e) e.netns = true) : s.world.nextWdev ≤ d.wdev := by
        obtain ⟨⟨hmem₀, -⟩, -⟩ := resolve_spec hmem' hresolve
        obtain ⟨d₀, hd₀, hname₀, hnetns₀, hwdev₀⟩ := exists_of_mem_setUp hmem₀
        rw [hw', List.mem_append, List.mem_singleton] at hd₀
        rcases hd₀ with hd₀ | rfl
        · have hat₀ : d₀.at (displayName e) e.netns = true := by
            rw [at_iff, ← hname₀, ← hnetns₀]
            exact at_iff.1 hd
          rw [hfree d₀ hd₀] at hat₀
          cases hat₀
        · rw [hwdev₀, hnwdev]
      by_cases hdisplay : displayName e = e.base.interface.val
      · obtain ⟨d, hresolve, hd⟩ := resolve_interface hmem' ⟨hn₁, hseen⟩ (hdisplay ▸ hat₁)
        exact ⟨d, hresolve, hcreated hresolve (hdisplay.symm ▸ hd)⟩
      · have hnone (d : Netdev) (hd : d ∈ (setUp true (displayName e) e.netns w').netdevs ∧
            s.world.visible e d) : d.name ≠ e.base.interface.val := by
          obtain ⟨d₀, hd₀, hname₀, hnetns₀, -⟩ := exists_of_mem_setUp hd.1
          rw [hw', List.mem_append, List.mem_singleton] at hd₀
          rcases hd₀ with hd₀ | rfl
          · rw [hname₀]
            refine (hnames.resolve_left hdisplay) d₀ hd₀ ?_
            rw [World.visible, ← hnetns₀]
            exact hd.2
          · rw [hname₀, (at_iff.1 hat).1]
            exact hdisplay
        obtain ⟨d, hresolve, hd⟩ := resolve_display hmem' hnone hdisplay ⟨hn₁, hseen⟩ hat₁
        exact ⟨d, hresolve, hcreated hresolve hd⟩

/-! ## Two radios -/

theorem length_le_sum {t : Text} {taken : List Text} (h : t ∈ taken) :
    t.length ≤ (taken.map List.length).sum := by
  induction taken with
  | nil => cases h
  | cons name taken ih =>
    rw [List.map_cons, List.sum_cons]
    rcases List.mem_cons.1 h with rfl | h
    · exact Nat.le_add_right ..
    · exact (ih h).trans (Nat.le_add_left ..)

/-- A kernel that names a netdev `wlan0` where it can. -/
def plainKernel : Kernel where
  fresh taken :=
    if h : "wlan0".toList ∉ taken then ⟨"wlan0".toList, h⟩
    else ⟨List.replicate ((taken.map List.length).sum + 1) 'w', fun hmem => by
      have hle := length_le_sum hmem
      rw [List.length_replicate] at hle
      omega⟩
  fileExists := false

/-- An entry for `wlan0` in the namespace `lab`, under the name `display`. -/
def labEntry (display : InterfaceName) : Entry :=
  .ns
    { ifaceDisplayName := display
      phy := ⟨"phy0".toList, phy0_valid⟩
      interface := ⟨"wlan0".toList, wlan0_valid⟩
      netns := ⟨"lab".toList, labName_valid⟩ }

def labRadio : Netdev := ⟨"wlan0".toList, 0, some "lab".toList, "managed".toList, 1, false⟩

/-- Two radios, each with a `wlan0`, one in `lab` and one in root. -/
def twoRadios : World where
  netdevs := [labRadio, ⟨"wlan0".toList, 1, none, "managed".toList, 2, false⟩]
  phys := [0, 1]
  phyNetns := fun index => if index = 0 then some "lab".toList else none
  namespaces := [("lab".toList, 7)]
  nextWdev := 3
  nextInode := 8

theorem ok_of_toOption {α : Type} {x : Service α} {s : State} {a : α}
    (h : (x s).1.toOption = some a) : x s = (.ok a, (x s).2) := by
  refine Prod.ext ?_ rfl
  cases hx : (x s).1 with
  | error failure =>
    rw [hx] at h
    cases h
  | ok b =>
    rw [hx] at h
    cases h
    rfl

/-- The entry keeps its interface's name: it resolves to its own radio although root has a `wlan0`.
-/
theorem findLive_prepare_iff_lab : ∃ s' d s'',
    prepare plainKernel (labEntry ⟨"wlan0".toList, by decide⟩) labRadio { world := twoRadios } =
      (.ok true, s') ∧
    findLive (labEntry ⟨"wlan0".toList, by decide⟩) { world := s'.world } = (.ok (some d), s'') ∧
    3 ≤ d.wdev := by
  have hprepare := ok_of_toOption (x := prepare plainKernel (labEntry ⟨"wlan0".toList, by decide⟩)
    labRadio) (s := { world := twoRadios }) (a := true) (by decide +kernel)
  have hown : OwnNames plainKernel twoRadios (labEntry ⟨"wlan0".toList, by decide⟩) labRadio :=
    ⟨by decide +kernel, Or.inl (by decide)⟩
  obtain ⟨d, s'', hfind, hwdev⟩ :=
    (findLive_prepare_iff plainKernel (by decide : ∀ d ∈ twoRadios.netdevs, d.wdev < 3) hprepare).2
      hown
  exact ⟨_, d, s'', hprepare, hfind, hwdev⟩

/-- Renamed to `lab0`, the entry resolves to the radio in root. -/
theorem not_resolved_elsewhere : ¬∀ (K : Kernel) (e : Entry) (live : Netdev) (s s₀ s' : State),
    (∀ d ∈ s.world.netdevs, d.wdev < s.world.nextWdev) →
    findLive e s = (.ok (some live), s₀) → prepare K e live s = (.ok true, s') →
    ∃ d s'', findLive e { world := s'.world } = (.ok (some d), s'') ∧
      s.world.nextWdev ≤ d.wdev := by
  intro h
  have hprepare := ok_of_toOption (x := prepare plainKernel (labEntry ⟨"lab0".toList, by decide⟩)
    labRadio) (s := { world := twoRadios }) (a := true) (by decide +kernel)
  have hlive := ok_of_toOption (x := findLive (labEntry ⟨"lab0".toList, by decide⟩))
    (s := { world := twoRadios }) (a := some labRadio) (by decide +kernel)
  obtain ⟨d, s'', hfind, hwdev⟩ := h plainKernel _ labRadio { world := twoRadios } _ _
    (by decide : ∀ d ∈ twoRadios.netdevs, d.wdev < 3) hlive hprepare
  have hroot : ((findLive (labEntry ⟨"lab0".toList, by decide⟩)
      { world := (prepare plainKernel (labEntry ⟨"lab0".toList, by decide⟩) labRadio
        { world := twoRadios }).2.world }).1.toOption.any fun d => d.any fun d => d.wdev < 3) =
          true := by
    decide +kernel
  rw [hfind] at hroot
  have hlt : d.wdev < 3 := of_decide_eq_true hroot
  have hle : 3 ≤ d.wdev := hwdev
  omega

end WlanpiCore.Namespaces
