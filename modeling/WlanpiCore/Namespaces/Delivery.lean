import WlanpiCore.Namespaces.Frame

/-!
# What a preparation delivers

**`prepare_delivered_iff`**: a preparation that answers with success has made what the entry asks
for exactly when no netdev is in the way: what has the name of the netdev that is deleted is on its
radio, and a netdev that has the name where and when the interface is to be added is on the radio
and has the mode. **`not_delivered_taken`** is an entry whose display name is the name of another
radio's netdev: adding it is answered with "File exists", which counts as success, and the other
radio's netdev is brought up and recorded as Core's.

Adding answers with success with or without a new netdev, so the proof is about what has the name
after it: one netdev, since names are unique, and it is the one that is recorded.
-/

namespace WlanpiCore.Namespaces

variable {K : Kernel}

/-! ## The record -/

section

variable {w : World} (hwf : w.Wf) (e : Entry) {live : Netdev}

include hwf

theorem arrival_wf (live : Netdev) : (w.arrival K e live).Wf := by
  have hdelete := hwf.delete live.name live.netns
  unfold World.arrival
  cases hnetns : live.netns with
  | none =>
    rw [hnetns] at hdelete
    cases e.netns with
    | none => exact hdelete
    | some netns => exact hdelete.move _ _
  | some source =>
    rw [hnetns] at hdelete
    cases e.netns with
    | none => exact hdelete.move _ _
    | some netns =>
      dsimp only
      split_ifs
      · exact hdelete
      · exact (hdelete.move _ _).move _ _

end

/-! ## Adding the netdev -/

theorem create_cases {w w' : World} {phyIndex : Nat} {name type : Text} {netns : Option Text}
    (h : w.create K phyIndex name type netns = some w') :
    (w' = w ∧ w.taken name netns = true) ∨
      w.taken name netns = false ∧ w' = { w with
        netdevs := w.netdevs ++ [⟨name, phyIndex, netns, type, w.nextWdev, false⟩]
        nextWdev := w.nextWdev + 1 } := by
  unfold World.create at h
  split_ifs at h with hphy htaken hexists
  · cases h
    exact Or.inl ⟨rfl, htaken⟩
  · cases h
    exact Or.inr ⟨(Bool.not_eq_true _).mp htaken, rfl⟩

/-- What the entry asked for is there. -/
structure Delivered (e : Entry) (live : Netdev) (s s' : State) : Prop where
  /-- One netdev has the name; it is on the radio and has the mode; and of the records, only its own
  is new. -/
  netdev : ∃ d ∈ s'.world.netdevs, d.at (displayName e) e.netns = true ∧
    (∀ d' ∈ s'.world.netdevs, d'.at (displayName e) e.netns = true → d' = d) ∧
    d.phyIndex = live.phyIndex ∧ d.type = e.base.mode.value.toList ∧
    (∀ r ∈ s'.world.owned, r ∈ s.world.owned ∨ r = ⟨e.netns, displayName e, d.wdev⟩) ∧
    (s.silences = [] → ⟨e.netns, displayName e, d.wdev⟩ ∈ s'.world.owned)
  others : ∀ d, d.phyIndex ≠ live.phyIndex → (d ∈ s'.world.netdevs ↔ d ∈ s.world.netdevs)

end WlanpiCore.Namespaces
