import WlanpiCore.Config.Edit
import WlanpiCore.Namespaces.Resolution

/-!
# No two entries resolve to one netdev

**What an entry answers to** (`AnswersTo`). `_find_live` takes a netdev that has the entry's
interface as its name, in any namespace, or else one that has its display name in its own namespace
(`resolve_answersTo`).

**What the profile's check keeps apart** (`UniqueNames`). `validate_unique_interfaces` looks at
three combinations of names: interface and interface, display name and interface, display name and
display name in one namespace. They are the ways in which two entries could answer to one netdev.

**Theorem (`findLive_injective`).** Of a profile that passes the check no two entries resolve to one
netdev, in any state of the radios, and not in two states either: not even when other entries were
prepared or reverted between the two.
-/

namespace WlanpiCore.Namespaces

/-- The netdev has a name that `_find_live` looks for. -/
def AnswersTo (e : Entry) (d : Netdev) : Prop :=
  d.name = e.base.interface.val ∨
    displayName e ≠ e.base.interface.val ∧ d.name = displayName e ∧ d.netns = e.netns

/-- One name in one namespace: one netdev. -/
def SameNetdev (d d' : Netdev) : Prop := d.name = d'.name ∧ d.netns = d'.netns

/-- What `validate_unique_interfaces` checks, of two entries. -/
structure UniqueNames (e e' : Entry) : Prop where
  interfaces : e.base.interface.val ≠ e'.base.interface.val
  display : displayName e ≠ e.base.interface.val → displayName e ≠ e'.base.interface.val
  display' : displayName e' ≠ e'.base.interface.val → displayName e' ≠ e.base.interface.val
  labels : (e.netns, displayName e) ≠ (e'.netns, displayName e')

/-! ## Resolution -/

theorem resolve_answersTo {core : List Text} {inventory : List Netdev} {e : Entry} {d : Netdev}
    (h : resolve core inventory e = some d) : AnswersTo e d := by
  unfold resolve at h
  dsimp only at h
  split at h
  · rename_i first rest heq
    obtain rfl := Option.some.inj h
    have hmem := mem_sortMatches.1 (heq ▸ List.mem_cons_self : first ∈ sortMatches e.netns _)
    exact Or.inl (by simpa using (List.mem_filter.1 hmem).2)
  · by_cases hdisplay : displayName e ≠ e.base.interface.val
    · rw [if_pos hdisplay] at h
      have hat := List.find?_some h
      exact Or.inr ⟨hdisplay, at_iff.1 hat⟩
    · rw [if_neg hdisplay] at h
      cases h

theorem findLive_answersTo {e : Entry} {d : Netdev} {s s' : State}
    (h : findLive e s = (.ok (some d), s')) : AnswersTo e d := by
  unfold findLive at h
  obtain ⟨core, s₁, -, h⟩ := bind_ok_inv h
  obtain ⟨inventory, s₂, -, h⟩ := bind_ok_inv h
  exact resolve_answersTo (Except.ok.inj (Prod.mk.inj h).1)

/-- Entries whose names are kept apart answer to different netdevs, one case for each pair of
branches of `_find_live`. -/
theorem UniqueNames.apart {e e' : Entry} (h : UniqueNames e e') {d d' : Netdev}
    (hd : AnswersTo e d) (hd' : AnswersTo e' d') : ¬SameNetdev d d' := by
  intro ⟨hname, hnetns⟩
  rcases hd with hd | ⟨hdisplay, hd, hns⟩
  · rcases hd' with hd' | ⟨hdisplay', hd', -⟩
    · exact h.interfaces (hd.symm.trans (hname.trans hd'))
    · exact h.display' hdisplay' (hd'.symm.trans (hname.symm.trans hd))
  · rcases hd' with hd' | ⟨hdisplay', hd', hns'⟩
    · exact h.display hdisplay (hd.symm.trans (hname.trans hd'))
    · have hlabel : displayName e = displayName e' := hd.symm.trans (hname.trans hd')
      exact h.labels (Prod.ext (hns.symm.trans (hnetns.trans hns')) hlabel)

/-! ## The check of a profile -/

/-- The display name that the check looks at is the entry's, where the entry has one. -/
theorem displayName_ne_interface {e : Entry} :
    displayName e ≠ e.base.interface.val ↔
      e.base.ifaceDisplayName.val ≠ [] ∧ e.base.ifaceDisplayName.val ≠ e.base.interface.val := by
  unfold displayName
  by_cases hempty : e.base.ifaceDisplayName.val = []
  · simp [hempty]
  · simp [hempty]

theorem uniqueNames_of_validate {cfg : NetConfig} (h : validateUniqueInterfaces cfg = none) :
    cfg.entries.Pairwise UniqueNames := by
  obtain ⟨hinterfaces, hdisplays, hlabels⟩ := validateUniqueInterfaces_none h
  -- No display name is the interface of an entry.
  have hdisplay {e e' : Entry} (he : e ∈ cfg.entries) (he' : e' ∈ cfg.entries)
      (hne : displayName e ≠ e.base.interface.val) : displayName e ≠ e'.base.interface.val := by
    obtain ⟨hempty, hother⟩ := displayName_ne_interface.1 hne
    intro heq
    rw [show displayName e = e.base.ifaceDisplayName.val from if_neg hempty] at heq
    exact hdisplays e he hempty hother (List.mem_map.2 ⟨e', he', heq.symm⟩)
  refine ((List.pairwise_map.1 hinterfaces).and (List.pairwise_map.1 hlabels)).imp_of_mem ?_
  intro e e' he he' ⟨hinterface, hlabel⟩
  exact ⟨hinterface, hdisplay he he', hdisplay he' he, hlabel⟩

/-- **Two entries of a profile never resolve to one netdev.** The states are any two, so the radios
may have been renamed, moved or recreated between the two resolutions. -/
theorem findLive_injective (cfg : NetConfig) (h : validateUniqueInterfaces cfg = none) :
    cfg.entries.Pairwise fun e e' => ∀ s s₁ t t₁ d d',
      findLive e s = (.ok (some d), s₁) → findLive e' t = (.ok (some d'), t₁) →
        ¬SameNetdev d d' := by
  refine (uniqueNames_of_validate h).imp fun {e e'} hunique => ?_
  intro s s₁ t t₁ d d' hfind hfind'
  exact hunique.apart (findLive_answersTo hfind) (findLive_answersTo hfind')

def monitorEntry (netns : NamespaceName) (interface : InterfaceName) : NamespaceConfig where
  ifaceDisplayName := ⟨"mon".toList, by decide⟩
  phy := ⟨"phy0".toList, phy0_valid⟩
  interface := interface
  netns := netns

/-- Two entries with one display name, in two namespaces. -/
def monitors : NetConfig where
  id := labId
  namespaces := some
    [monitorEntry ⟨"lab".toList, labName_valid⟩ ⟨"wlan0".toList, wlan0_valid⟩,
      monitorEntry ⟨"field".toList, by decide⟩ ⟨"wlan1".toList, wlan1_valid⟩]

/-- The radios of `monitors`, both renamed. -/
def twoMonitors : World where
  netdevs := [⟨"mon".toList, 0, some "lab".toList, "monitor".toList, 1, true⟩,
    ⟨"mon".toList, 1, some "field".toList, "monitor".toList, 2, true⟩]
  phys := [0, 1]
  phyNetns := fun index => if index = 0 then some "lab".toList else some "field".toList
  namespaces := [("lab".toList, 7), ("field".toList, 8)]
  nextWdev := 3
  nextInode := 9

/-- Both entries resolve, by their display name, and to two netdevs. -/
theorem findLive_injective_monitors : ∃ e e' s₁ s₂ d d', monitors.entries = [e, e'] ∧
    findLive e { world := twoMonitors } = (.ok (some d), s₁) ∧
    findLive e' { world := twoMonitors } = (.ok (some d'), s₂) ∧ ¬SameNetdev d d' := by
  have hfind := ok_of_toOption
    (x := findLive (.ns (monitorEntry ⟨"lab".toList, by decide⟩ ⟨"wlan0".toList, by decide⟩)))
    (s := { world := twoMonitors })
    (a := some ⟨"mon".toList, 0, some "lab".toList, "monitor".toList, 1, true⟩) (by decide +kernel)
  have hfind' := ok_of_toOption
    (x := findLive (.ns (monitorEntry ⟨"field".toList, by decide⟩ ⟨"wlan1".toList, by decide⟩)))
    (s := { world := twoMonitors })
    (a := some ⟨"mon".toList, 1, some "field".toList, "monitor".toList, 2, true⟩)
      (by decide +kernel)
  have hpair := findLive_injective monitors (by decide +kernel)
  refine ⟨_, _, _, _, _, _, rfl, hfind, hfind', ?_⟩
  exact (List.pairwise_cons.1 hpair).1 _ List.mem_cons_self _ _ _ _ _ _ hfind hfind'

end WlanpiCore.Namespaces
