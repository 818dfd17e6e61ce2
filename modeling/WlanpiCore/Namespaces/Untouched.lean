import WlanpiCore.Namespaces.Frame
import WlanpiCore.Lib.Transition

/-!
# Core touches only its own

Core's operations that undo run interleaved with everything else that makes, removes, moves or
renames netdevs and namespaces. No operation changes what Core may not touch (`Undo.core_kept`):
each aims its commands at nothing else, also those that restore a netdev when a revert fails.

Two paths aim elsewhere. When the setup after a preparation fails, `activate_config` reverts what
the entry resolves to without asking `may_undo`; and when a listing fails quietly between `may_undo`
and `revert_to_root`, the second resolves the entry anew and to another netdev. `Undo.Heeds`
excludes the two.
-/

namespace WlanpiCore.Namespaces

variable {K : Kernel} {loud : Prop} {w₀ : World}

/-! ## Commands in a row -/

theorem relabel_maintains {f : World → World} (hnetdevs : ∀ w, (f w).netdevs = w.netdevs)
    (hphyNetns : ∀ w, (f w).phyNetns = w.phyNetns)
    (hnamespaces : ∀ w, (f w).namespaces = w.namespaces) : Maintains loud (Frame w₀) (modify f) :=
  Maintains.modify fun w hw => hw.relabel (hnetdevs w) (hphyNetns w) (hnamespaces w)

theorem release_maintains (name : Text) (netns : Option Text) :
    Maintains loud (Frame w₀) (release name netns) :=
  relabel_maintains (fun _ => rfl) (fun _ => rfl) fun _ => rfl

theorem unlinkMarker_maintains (netns : Text) : Maintains loud (Frame w₀) (unlinkMarker netns) :=
  relabel_maintains (fun _ => rfl) (fun _ => rfl) fun _ => rfl

theorem deleteNamespaceIfEmpty_maintains (hwf : w₀.Wf) {netns : Text} (hcore : netns ∈ w₀.core) :
    Maintains loud (Frame w₀) (deleteNamespaceIfEmpty K netns) := by
  have hlisting : Maintains loud (Frame w₀) (onRunCommand
      (do
        let phys ← listPhys netns
        let links ← interfacesIn netns
        return decide (phys ≠ [] ∨ links ≠ []))
      (pure true)) := by
    refine Leads.onRunCommand ?_ (Leads.pure fun _ => id)
    refine (Maintains.query _ _).bind fun phys => ?_
    rintro s ⟨hs, -⟩
    refine ((Maintains.query _ _).bind fun links => ?_) s hs
    exact Leads.pure fun _ h => h.1
  refine hlisting.bind fun remaining => ?_
  split_ifs
  · exact Leads.pure fun _ => id
  · refine (deleteNamespace_maintains hwf hcore).bind fun _ => ?_
    refine ((Maintains.quietly _).map _).bind fun present => ?_
    rintro s ⟨names, ⟨hs, -⟩, -⟩
    split_ifs
    · exact hs
    · exact unlinkMarker_maintains netns s hs

/-- What the restoring of `live` needs of the namespace its radio has been moved to. -/
structure Restorable (w₀ : World) (live : Netdev) (newName : Text) (movedTo : Option Text) :
    Prop where
  other : ∀ w, Frame w₀ w →
    (∃ d ∈ w.netdevs, d.at newName movedTo ∧ d.phyIndex = live.phyIndex) →
    ∀ d ∈ w₀.netdevs, d.at newName movedTo → May w₀ d
  place : movedTo = live.netns ∨ movedTo = none ∧ w₀.CorePhy live.phyIndex

theorem clearNew_maintains {live : Netdev} {newName : Text} {movedTo : Option Text}
    (h : Restorable w₀ live newName movedTo) :
    Maintains loud (Frame w₀) (clearNew live newName movedTo) := by
  refine listInterfaces_leads.bind fun inventory => ?_
  rintro s ⟨hs, -, hinventory⟩
  by_cases hany : (inventory.any fun other =>
      other.at newName movedTo && other.phyIndex = live.phyIndex) = true
  · rw [if_pos hany]
    refine deleteInterface_maintains ?_ s hs
    obtain ⟨other, hmem, hother⟩ := List.any_eq_true.1 hany
    rw [Bool.and_eq_true] at hother
    exact h.other s.world hs.1 ⟨other, hinventory other hmem, hother.1,
      of_decide_eq_true hother.2⟩
  · rw [if_neg hany]
    exact Leads.pure (fun _ => id) s hs

theorem returnPhy_maintains (hwf : w₀.Wf) {live : Netdev} {newName : Text}
    {movedTo : Option Text} (h : Restorable w₀ live newName movedTo) :
    Maintains loud (Frame w₀) (returnPhy K live movedTo) := by
  unfold returnPhy
  by_cases hsame : movedTo = live.netns
  · rw [if_neg (not_not.2 hsame)]
    exact Leads.pure fun _ => id
  · rw [if_pos hsame]
    rcases h.place with heq | ⟨rfl, hphy⟩
    · exact absurd heq hsame
    · cases live.netns with
      | none => exact Leads.pure fun _ => id
      | some netns => exact movePhyToNamespace_maintains hwf hphy netns

theorem restoreLive_maintains (hwf : w₀.Wf) {live : Netdev} {newName : Text}
    {movedTo : Option Text} (h : Restorable w₀ live newName movedTo) :
    Maintains loud (Frame w₀) (restoreLive K live newName movedTo none) := by
  rw [restoreLive_eq]
  refine (Leads.onRunCommand ?_ (Leads.pure fun _ => id)).bind fun _ => Leads.pure fun _ => id
  refine (clearNew_maintains h).bind fun _ => ?_
  exact (returnPhy_maintains hwf h).bind fun _ => createInterface_maintains _ _ _ _

theorem orRaise_maintains (hwf : w₀.Wf) {step : Service Unit} {live : Netdev} {name : Text}
    {movedTo : Option Text} (hstep : Maintains loud (Frame w₀) step)
    (h : Restorable w₀ live name movedTo) :
    Maintains loud (Frame w₀) (orRaise K step live name movedTo) :=
  hstep.onRunCommand ((restoreLive_maintains hwf h).bind fun _ => Leads.raise fun _ => id)

/-- What the recreating of `live` needs: it is Core's to delete, and so is what bears its new name.
-/
structure Recreatable (w₀ : World) (live : Netdev) (name : Text) : Prop where
  mine : ∀ d ∈ w₀.netdevs, d.at live.name live.netns → May w₀ d
  core : ∀ netns, live.netns = some netns → netns ∈ w₀.core
  there : Restorable w₀ live name live.netns
  root : Restorable w₀ live name none

theorem recreateInRoot_maintains (hwf : w₀.Wf) {live : Netdev} {name : Text}
    (h : Recreatable w₀ live name) : Maintains loud (Frame w₀) (recreateInRoot K live name) := by
  refine (release_maintains _ _).bind fun _ => ?_
  refine (deleteInterface_maintains h.mine).bind fun _ => ?_
  have hcreate : Maintains loud (Frame w₀)
      (orRaise K (createInterface K live.phyIndex name "managed".toList none) live name none) :=
    orRaise_maintains hwf (createInterface_maintains _ _ _ _) h.root
  dsimp only
  cases hnetns : live.netns with
  | none => exact hcreate
  | some netns =>
    refine (orRaise_maintains hwf (movePhyToRoot_maintains hwf _ (h.core netns hnetns)) ?_).bind
      fun _ => hcreate
    exact hnetns ▸ h.there

/-! ## What an entry resolves to -/

theorem backing_mem {e : Entry} {live : Netdev} (h : w₀.backing e = some live) :
    live ∈ w₀.netdevs := by
  unfold World.backing resolve at h
  dsimp only at h
  split at h
  · rename_i first rest heq
    cases h
    have hfound := mem_sortMatches.1 (heq ▸ List.mem_cons_self (l := rest))
    exact World.mem_inventory (List.mem_filter.1 (List.mem_filter.1 hfound).1).1
  · split_ifs at h
    exact World.mem_inventory (List.mem_filter.1 (List.mem_of_find?_eq_some h)).1

/-- In root, nothing but the netdev an entry resolves to has the interface's name. -/
theorem backing_root (hwf : w₀.Wf) {e : Entry} {live d : Netdev} (h : w₀.backing e = some live)
    (hlive : live.netns = none) (hd : d ∈ w₀.netdevs) (hroot : d.netns = none)
    (hname : d.name = e.base.interface.val) : d = live := by
  have hfound :
    d ∈ (w₀.inventory.filter fun d => d.netns = none || w₀.core.any (some · = d.netns) ||
      d.netns = e.netns).filter fun d => d.name = e.base.interface.val := by
    refine List.mem_filter.2 ⟨List.mem_filter.2 ⟨?_, ?_⟩, decide_eq_true hname⟩
    · exact List.mem_append_left _ (List.mem_filter.2 ⟨hd, decide_eq_true hroot⟩)
    · rw [decide_eq_true hroot]
      rfl
  have hmem := backing_mem h
  unfold World.backing resolve at h
  dsimp only at h
  split at h
  · rename_i first rest heq
    cases h
    have hfirst := mem_sortMatches.1 (heq ▸ List.mem_cons_self (l := rest))
    have hnamed := of_decide_eq_true (List.mem_filter.1 hfirst).2
    exact hwf.unique d hd _ hmem (hname.trans hnamed.symm) (hroot.trans hlive.symm)
  · rename_i heq
    have hnone : d ∈ sortMatches e.netns _ := mem_sortMatches.2 hfound
    rw [heq] at hnone
    cases hnone

/-- What Core may touch of what an entry resolves to, it can recreate. -/
theorem recreatable (hwf : w₀.Wf) {e : Entry} {live : Netdev} (h : w₀.backing e = some live)
    (hmay : May w₀ live) : Recreatable w₀ live e.base.interface.val := by
  have hmem := backing_mem h
  rcases hmay with ⟨netns, hcore, hnetns⟩ | ⟨hroot, hrecorded, hfree⟩
  · have hin {name : Text} : ∀ d ∈ w₀.netdevs, d.at name live.netns → May w₀ d :=
      fun d _ hat => Or.inl ⟨netns, hcore, (at_iff.1 hat).2.trans hnetns⟩
    have hphy : w₀.CorePhy live.phyIndex := ⟨netns, hcore, (hwf.located live hmem) ▸ hnetns⟩
    refine ⟨hin, fun netns' heq => ?_, ⟨fun _ _ _ => hin, Or.inl rfl⟩, ⟨?_, Or.inr ⟨rfl, hphy⟩⟩⟩
    · cases hnetns.symm.trans heq
      exact hcore
    · -- What has the new name in root is of the radio, which came from Core's namespace.
      rintro w hw ⟨other, hother, hat, hsame⟩ d hd hdat
      by_contra hnot
      obtain ⟨hname, hdroot⟩ := at_iff.1 hdat
      obtain ⟨hname', hotherroot⟩ := at_iff.1 hat
      have heq := hw.wf.unique d (hw.netdevs d hd hnot) other hother (hname.trans hname'.symm)
        (hdroot.trans hotherroot.symm)
      refine hnot (May.of_corePhy hwf hd ?_)
      rw [heq, hsame]
      exact hphy
  · have honly {d : Netdev} (hd : d ∈ w₀.netdevs) (hat : d.at e.base.interface.val none) :
        May w₀ d := by
      rw [backing_root hwf h hroot hd (at_iff.1 hat).2 (at_iff.1 hat).1]
      exact Or.inr ⟨hroot, hrecorded, hfree⟩
    refine ⟨fun d hd hat => ?_, fun netns heq => ?_, ⟨fun _ _ _ d hd hat => ?_, Or.inl rfl⟩,
      ⟨fun _ _ _ d hd hat => honly hd hat, Or.inl hroot.symm⟩⟩
    · obtain ⟨hname, hnetns⟩ := at_iff.1 hat
      rw [hwf.unique d hd live hmem hname hnetns]
      exact Or.inr ⟨hroot, hrecorded, hfree⟩
    · cases hroot.symm.trans heq
    · exact honly hd (hroot ▸ hat)

theorem coreNamespaces_maintains : Maintains loud (Frame w₀) coreNamespaces :=
  (coreNamespaces_leads fun _ hw => hw.relabel rfl rfl rfl).mono (fun _ => id) (fun _ _ h => h.1)
    fun _ => id

theorem revertLive_maintains (hwf : w₀.Wf) {e : Entry} {live : Netdev}
    (h : w₀.backing e = some live) (hmay : May w₀ live) :
    Maintains loud (Frame w₀) (revertLive K e live) := by
  have hrecreatable := recreatable hwf h hmay
  have hrecreate : Maintains loud (Frame w₀) (recreateInRoot K live e.base.interface.val) :=
    recreateInRoot_maintains hwf hrecreatable
  refine Maintains.aside.bind fun _ => ?_
  cases hnetns : live.netns with
  | none =>
    dsimp only
    split_ifs
    · exact hrecreate
    · refine (Leads.onRunCommand (bringInterface_maintains ?_) (Leads.pure fun _ => id)).bind
        fun _ => release_maintains _ _
      exact hnetns ▸ hrecreatable.mine
  | some netns =>
    refine hrecreate.bind fun _ => coreNamespaces_maintains.bind fun core => ?_
    split_ifs
    · exact deleteNamespaceIfEmpty_maintains hwf (hrecreatable.core netns hnetns)
    · exact Leads.pure fun _ => id

/-- `revert_to_root` of an entry whose netdev Core may touch. -/
theorem revertToRoot_leads (hwf : w₀.Wf) {e : Entry}
    (hmay : ∀ live, w₀.backing e = some live → May w₀ live) :
    Leads (Heard True (Reads w₀)) (revertToRoot K e) (fun _ => Heard True (Frame w₀))
      (Heard True (Frame w₀)) := by
  have hframe {s : State} (hs : Heard True (Reads w₀) s) : Heard True (Frame w₀) s :=
    ⟨hs.1.frame hwf, hs.2⟩
  refine ((findLive_leads e).mono (fun _ => id) (fun _ _ => id) fun _ => hframe).bind fun live => ?_
  rintro s ⟨hs, hlive⟩
  cases live with
  | none => exact hframe hs
  | some live => exact revertLive_maintains hwf hlive.symm (hmay live hlive.symm) s (hframe hs)

theorem deactivateConfig_leads (hwf : w₀.Wf) (e : Entry) :
    Leads (Heard True (Reads w₀)) (deactivateConfig K e) (fun _ => Heard True (Frame w₀))
      (Heard True (Frame w₀)) := by
  have hframe {s : State} (hs : Heard True (Reads w₀) s) : Heard True (Frame w₀) s :=
    ⟨hs.1.frame hwf, hs.2⟩
  have hdone : Leads (Heard True (Reads w₀)) (pure () : Service Unit) (fun _ =>
    Heard True (Frame w₀))
      (Heard True (Frame w₀)) := Leads.pure fun _ => hframe
  have hundo : Leads (Heard True (Reads w₀)) (do if ← mayUndo e then revertToRoot K e)
      (fun _ => Heard True (Frame w₀)) (Heard True (Frame w₀)) := by
    refine ((mayUndo_leads e).mono (fun _ => id) (fun _ _ => id) fun _ => hframe).bind
      fun allowed => ?_
    rintro s ⟨hs, hallowed⟩
    cases allowed with
    | true => exact revertToRoot_leads hwf (hallowed rfl) s hs
    | false => exact hframe hs
  have hrest (live : Option Netdev) : Leads (Heard True (Reads w₀)) (do
      if e.base.security.isSome then onRunCommand aside (pure ())
      if live.isSome then
        if ← mayUndo e then revertToRoot K e)
      (fun _ => Heard True (Frame w₀)) (Heard True (Frame w₀)) := by
    have hthen : Leads (Heard True (Reads w₀)) (if live.isSome then do
        if ← mayUndo e then revertToRoot K e
      else pure ()) (fun _ => Heard True (Frame w₀)) (Heard True (Frame w₀)) := by
      cases live with
      | none => exact hdone
      | some live => exact hundo
    dsimp only
    by_cases hsecurity : e.base.security.isSome = true
    · rw [if_pos hsecurity]
      exact ((Leads.onRunCommand Maintains.aside (Leads.pure fun _ => id)).mono (fun _ => id)
        (fun _ _ => id) fun _ => hframe).bind fun _ => hthen
    · rw [if_neg hsecurity]
      exact hthen
  refine ((findLive_leads e).mono (fun _ => id) (fun _ _ => id) fun _ => hframe).bind fun live => ?_
  rintro s ⟨hs, -⟩
  have hmanaged (managed : Bool) : Leads (Heard True (Reads w₀)) (do
      if managed then
        if e.base.security.isSome then onRunCommand aside (pure ())
        if live.isSome then
          if ← mayUndo e then revertToRoot K e)
      (fun _ => Heard True (Frame w₀)) (Heard True (Frame w₀)) := by
    cases managed with
    | true => exact hrest live
    | false => exact hdone
  cases live with
  | none => exact hmanaged true s hs
  | some live =>
    exact (((isCoreManaged_leads e).mono (fun _ => id) (fun _ _ => id) fun _ => hframe).bind
      hmanaged) s hs

/-! ## Returning everything -/

theorem isOwned_maintains (live : Netdev) : Maintains loud (Frame w₀) (isOwned live) := by
  refine Leads.get.bind fun read => ?_
  rintro _ ⟨hs, rfl⟩
  cases read.world.recordOf live with
  | none => exact hs
  | some r =>
    dsimp only
    split_ifs
    · exact hs
    · have hkey : Maintains loud (Frame w₀) (modify fun w => { w with
          owned := { r with netns := live.netns } ::
            w.owned.filter fun r' => r' ≠ r && !r'.at live.name live.netns }) :=
        relabel_maintains (fun _ => rfl) (fun _ => rfl) fun _ => rfl
      exact (hkey.bind fun _ => Leads.pure fun _ => id) read hs

theorem ownedOf_maintains (ds : List Netdev) : Maintains loud (Frame w₀) (ownedOf ds) := by
  induction ds with
  | nil => exact Leads.pure fun _ => id
  | cons d ds ih =>
    exact (isOwned_maintains d).bind fun _ => ih.bind fun _ => Leads.pure fun _ => id

theorem releaseAll_maintains (netns : Text) (ds : List Netdev) :
    Maintains loud (Frame w₀) (releaseAll netns ds) := by
  induction ds with
  | nil => exact Leads.pure fun _ => id
  | cons d ds ih => exact (release_maintains _ _).bind fun _ => ih

theorem returnPhys_maintains (hwf : w₀.Wf) {netns : Text} (hcore : netns ∈ w₀.core)
    (inventory : List Netdev) (phys : List Nat) :
    Maintains loud (Frame w₀) (returnPhys K netns inventory phys) := by
  induction phys with
  | nil => exact Leads.pure fun _ => id
  | cons phyIndex rest ih =>
    refine (ownedOf_maintains _).bind fun travelling => ?_
    refine (Leads.onRunCommand ?_ (Leads.pure fun _ => id)).bind fun _ => ih
    exact (movePhyToRoot_maintains hwf phyIndex hcore).bind fun _ => releaseAll_maintains _ _

theorem returnNamespacePhys_maintains (hwf : w₀.Wf) {netns : Text} (hcore : netns ∈ w₀.core) :
    Maintains loud (Frame w₀) (returnNamespacePhys K netns) := by
  have hlist : Maintains loud (Frame w₀) (onRunCommand (some <$> listPhys netns) (pure none)) :=
    Leads.onRunCommand
      (((Maintains.query _ _).map _).mono (fun _ => id) (fun _ _ h => h.choose_spec.1.1)
      fun _ => id) (Leads.pure fun _ => id)
  refine Maintains.aside.bind fun _ => hlist.bind fun found => ?_
  cases found with
  | none => exact Leads.pure fun _ => id
  | some phys =>
    refine listInterfaces_leads.bind fun inventory => ?_
    rintro s ⟨hs, -⟩
    exact returnPhys_maintains hwf hcore inventory phys s hs

theorem revertNamespaces_maintains (hwf : w₀.Wf) {names : List Text}
    (hcore : ∀ netns ∈ names, netns ∈ w₀.core) :
    Maintains loud (Frame w₀) (revertNamespaces K names) := by
  induction names with
  | nil => exact Leads.pure fun _ => id
  | cons netns rest ih =>
    have hnetns := hcore netns List.mem_cons_self
    refine (returnNamespacePhys_maintains hwf hnetns).bind fun _ => ?_
    refine (deleteNamespaceIfEmpty_maintains hwf hnetns).bind fun _ => ?_
    exact ih fun netns hmem => hcore netns (List.mem_cons_of_mem _ hmem)

theorem revertAll_leads (hwf : w₀.Wf) :
    Leads (Heard loud (Reads w₀)) (revertAll K) (fun _ => Heard loud (Frame w₀))
      (Heard loud (Frame w₀)) := by
  have hframe {s : State} (hs : Heard loud (Reads w₀) s) : Heard loud (Frame w₀) s :=
    ⟨hs.1.frame hwf, hs.2⟩
  refine ((coreNamespaces_leads fun _ hw => hw.dropMarkers).mono (fun _ => id) (fun _ _ => id)
    fun _ => hframe).bind fun core => ?_
  rintro s ⟨hs, -, hcore⟩
  refine revertNamespaces_maintains hwf (fun netns hmem => ?_) s (hframe hs)
  rw [← hs.1.core]
  exact hcore netns hmem

/-! ## Runs -/

namespace Undo

/-- Core's operations that undo. -/
inductive Operation where
  | deactivate (e : Entry)
  /-- The handler of `activate_config` for what fails after the preparation. -/
  | rollback (e : Entry)
  /-- `revert_to_root(None)` -/
  | revertAll

def Operation.run (K : Kernel) : Operation → Service Unit
  | .deactivate e => deactivateConfig K e
  | .rollback e => revertToRoot K e
  | .revertAll => Namespaces.revertAll K

/-- What happens between the operations. A preparation is made of these too. -/
inductive Event where
  | create (phyIndex : Nat) (name type : Text) (netns : Option Text)
  | delete (name : Text) (netns : Option Text)
  | setUp (up : Bool) (name : Text) (netns : Option Text)
  | move (phyIndex : Nat) (target : Option Text)
  | addNamespace (netns : Text)
  | deleteNamespace (netns : Text)
  /-- Core writes its markers and records. -/
  | record (markers : List (Text × Option Nat)) (owned : List Record)
  /-- Other programs start and stop. -/
  | tools (foreign : Option Text → Text → Bool) (capturing : Nat → Bool)

/-- The world after an event. What is created has an identity of its own. -/
def Event.happen (K : Kernel) (w : World) : Event → Option World
  | .create phyIndex name type netns => w.create K phyIndex name type netns
  | .delete name netns => some (w.delete name netns)
  | .setUp up name netns => some (Namespaces.setUp up name netns w)
  | .move phyIndex target => some (w.move K phyIndex target)
  | .addNamespace netns =>
    if netns ∈ w.namespaces.map (·.1) then none
    else some { w with
      namespaces := w.namespaces ++ [(netns, w.nextInode)]
      nextInode := w.nextInode + 1 }
  | .deleteNamespace netns => some (w.deleteNamespace K netns)
  | .record markers owned => some { w with markers, owned }
  | .tools foreign capturing => some { w with foreign, capturing }

inductive Act where
  | core (op : Operation) (faults silences : List Bool)
  | outside (event : Event)

def step (K : Kernel) (w : World) : Act → Option World
  | .core op faults silences => some (op.run K { world := w, faults, silences }).2.world
  | .outside event => event.happen K w

/-- Where an entry is looked up, no listing fails quietly, and what a rollback resolves its entry to
is Core's to touch. -/
def Heeds (w : World) : Act → Prop
  | .core (.deactivate _) _ silences => silences = []
  | .core (.rollback e) _ silences =>
    silences = [] ∧ ∀ live, w.backing e = some live → May w live
  | .core .revertAll _ _ => True
  | .outside _ => True

/-- An operation leaves a frame. -/
theorem step_frame {w w' : World} (hwf : w.Wf) {op : Operation} {faults silences : List Bool}
    (hheeds : Heeds w (.core op faults silences))
    (hstep : step K w (.core op faults silences) = some w') : Frame w w' := by
  have hframe {loud : Prop} {x : Service Unit} (hx : Leads (Heard loud (Reads w)) x
      (fun _ => Heard loud (Frame w)) (Heard loud (Frame w))) (hsilences : loud → silences = []) :
      Frame w (x { world := w, faults, silences }).2.world := by
    have hends := hx { world := w, faults, silences } ⟨Reads.refl w, hsilences⟩
    refine Prog.Ends.mono (Q := fun _ s' => Frame w s'.world) hends fun r s' h => ?_
    cases r with
    | ok _ => exact h.1
    | error _ => exact h.1
  cases Option.some.inj hstep
  cases op with
  | deactivate e => exact hframe (deactivateConfig_leads hwf e) fun _ => hheeds
  | rollback e => exact hframe (revertToRoot_leads hwf hheeds.2) fun _ => hheeds.1
  | revertAll => exact hframe (@revertAll_leads K False w hwf) False.elim

theorem happen_wf {w w' : World} (hwf : w.Wf) {event : Event}
    (h : event.happen K w = some w') : w'.Wf := by
  cases event with
  | create phyIndex name type netns => exact hwf.create h
  | delete name netns =>
    cases h
    exact hwf.delete name netns
  | setUp up name netns =>
    cases h
    exact hwf.setUp up name netns
  | move phyIndex target =>
    cases h
    exact hwf.move phyIndex target
  | addNamespace netns =>
    dsimp only [Event.happen] at h
    split_ifs at h
    cases h
    exact ⟨hwf.unique, hwf.located⟩
  | deleteNamespace netns =>
    cases h
    exact hwf.deleteNamespace netns
  | record markers owned =>
    cases h
    exact ⟨hwf.unique, hwf.located⟩
  | tools foreign capturing =>
    cases h
    exact ⟨hwf.unique, hwf.located⟩

theorem run_wf {s w : World} (hs : s.Wf) (h : Run (step K) Heeds s w) : w.Wf := by
  refine h.invariant hs fun w a w' hwf hheeds hstep => ?_
  cases a with
  | core op faults silences => exact (step_frame hwf hheeds hstep).wf
  | outside event => exact happen_wf hwf hstep

/-- In a run of steps that heed, no operation changes what is not Core's to touch. -/
theorem core_kept {s w w' : World} (hs : s.Wf) (hrun : Run (step K) Heeds s w) {op : Operation}
    {faults silences : List Bool} (hheeds : Heeds w (.core op faults silences))
    (hstep : step K w (.core op faults silences) = some w') : Kept w w' :=
  (step_frame (run_wf hs hrun) hheeds hstep).toKept

/-- Two radios in root, as at boot. -/
def atBoot : World where
  netdevs := [⟨"wlan0".toList, 0, none, "managed".toList, 1, false⟩,
    ⟨"wlan1".toList, 1, none, "managed".toList, 2, false⟩]
  phys := [0, 1]
  phyNetns := fun _ => none
  namespaces := []
  nextWdev := 3
  nextInode := 7

/-- Core moves the first radio into `lab`. Someone makes the other one's netdev anew, as `wlan0`. -/
def labEvents : List Event :=
  [.addNamespace "lab".toList,
   .record [("lab".toList, some 7)] [],
   .delete "wlan0".toList none,
   .move 0 (some "lab".toList),
   .create 0 "wlan0".toList "managed".toList (some "lab".toList),
   .record [("lab".toList, some 7)] [⟨some "lab".toList, "wlan0".toList, 3⟩],
   .delete "wlan1".toList none,
   .create 1 "wlan0".toList "managed".toList none,
   .setUp true "wlan0".toList none]

/-- Core prepares the netdev in `lab` again, now as `lab0`. -/
def renameEvents : List Event :=
  [.delete "wlan0".toList (some "lab".toList),
   .create 0 "lab0".toList "managed".toList (some "lab".toList),
   .record [("lab".toList, some 7)] [⟨some "lab".toList, "lab0".toList, 5⟩]]

theorem atBoot_wf : atBoot.Wf := by
  constructor
  · decide +kernel
  · decide +kernel

/-- Events need not heed anything. -/
theorem run_outside {s w : World} {events : List Event}
    (h : exec (step K) s (events.map .outside) = some w) : Run (step K) Heeds s w := by
  refine Run.of_exec (fun a ha _ => ?_) h
  obtain ⟨event, -, rfl⟩ := List.mem_map.1 ha
  trivial

/-- The deactivation of the entry in `lab`. -/
theorem core_kept_lab : ∃ w w', Run (step plainKernel) Heeds atBoot w ∧
    step plainKernel w (.core (.deactivate (labEntry ⟨"wlan0".toList, by decide⟩)) [] []) =
      some w' ∧
    Kept w w' := by
  have hsome : (exec (step plainKernel) atBoot (labEvents.map .outside)).isSome = true := by
    decide +kernel
  obtain ⟨w, hexec⟩ := Option.isSome_iff_exists.1 hsome
  have hrun := run_outside hexec
  have hheeds : Heeds w (.core (.deactivate (labEntry ⟨"wlan0".toList, by decide⟩)) [] []) := rfl
  exact ⟨w, _, hrun, rfl, core_kept atBoot_wf hrun hheeds rfl⟩

/-- The netdev in root that is in use, and not Core's. -/
def strange : Netdev := ⟨"wlan0".toList, 1, none, "managed".toList, 4, true⟩

/-- In a run from boot the operation changes what is not Core's to touch. -/
def Touches (op : Operation) (silences : List Bool) : Prop :=
  ∃ w w', Reaches (step plainKernel) atBoot w ∧
    step plainKernel w (.core op [] silences) = some w' ∧ ¬Kept w w'

theorem touches_of_exec (events : List Event) {op : Operation} {silences : List Bool}
    (h : (exec (step plainKernel) atBoot (events.map .outside)).any (fun w =>
      strange ∈ w.netdevs && w.owned.all (·.wdev ≠ strange.wdev) &&
        (step plainKernel w (.core op [] silences)).any fun w' => strange ∉ w'.netdevs) = true) :
    Touches op silences := by
  obtain ⟨w, hexec, hw⟩ := (Option.any_eq_true _ _).1 h
  rw [Bool.and_eq_true, Bool.and_eq_true] at hw
  obtain ⟨⟨hmem, howned⟩, hstep⟩ := hw
  obtain ⟨w', hstep, hgone⟩ := (Option.any_eq_true _ _).1 hstep
  refine ⟨w, w', Reaches.of_exec hexec, hstep, fun hkept => ?_⟩
  refine of_decide_eq_true hgone (hkept.netdevs strange (of_decide_eq_true hmem) ?_)
  rintro (⟨netns, -, hnetns⟩ | ⟨-, ⟨r, hr, -, hwdev⟩, -⟩)
  · cases hnetns
  · exact of_decide_eq_true (List.all_eq_true.1 howned r hr) hwdev

/-- The deactivation takes it down when a listing of `lab` fails; the rollback does without. -/
theorem not_core_kept :
    Touches (.deactivate (labEntry ⟨"wlan0".toList, by decide⟩))
      (List.replicate 9 false ++ [true]) ∧
    Touches (.rollback (labEntry ⟨"lab0".toList, by decide⟩)) [] :=
  ⟨touches_of_exec labEvents (by decide +kernel),
    touches_of_exec (labEvents ++ renameEvents) (by decide +kernel)⟩

end Undo

end WlanpiCore.Namespaces
