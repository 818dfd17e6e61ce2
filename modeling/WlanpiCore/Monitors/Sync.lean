import WlanpiCore.Monitors.Lookup
import Mathlib.Data.List.Nodup

/-!
# Monitors for the managed interfaces

`sync_monitor_interfaces` on the wireless netdevs of the root namespace. It deletes Core's monitors
on phys without a managed netdev, and adds one to each phy that has a managed netdev, lists monitor
mode and has no Core monitor. Which netdevs there are, their types and their phys are looked up in
the text of `iw`; here the lookups are right, and `Layout` is what they find.

**`sync_iff`**: the sync converges, and a second one does nothing, exactly when every name it is
about to give is free: a phy that needs a monitor is not kept from it by a netdev that has the
monitor's name and stays. **`not_sync_lagging`** is a radio whose monitor got its name when it had
another index.

The run of the loop over the managed netdevs is one list of phys, those that get a monitor
(`Added`); everything is read off it.
-/

namespace WlanpiCore.Monitors

open Text

/-! ## The system -/

/-- The index of a phy. -/
abbrev PhyIndex := { t : Text // Adapter.isIndex t = true }

structure Link where
  name : Text
  phy : PhyIndex
  type : Text
  deriving DecidableEq

/-- The wireless netdevs of the root namespace, in the order of `iw dev`. -/
structure Layout where
  links : List Link
  distinct : (links.map (·.name)).Nodup

def Layout.names (l : Layout) : List Text := l.links.map (·.name)

/-- `iw dev <name> del` -/
def Layout.del (l : Layout) (name : Text) : Layout where
  links := l.links.filter (·.name ≠ name)
  distinct := l.distinct.sublist (List.filter_sublist.map _)

/-- `iw <iface> interface add <mon> type monitor`: it fails if the name is taken. -/
def Layout.add (l : Layout) (iface mon : Text) : Layout :=
  match l.links.find? (·.name = iface) with
  | none => l
  | some link =>
    if h : mon ∈ l.names then l
    else
      { links := l.links ++ [⟨mon, link.phy, "monitor".toList⟩]
        distinct := by
          rw [List.map_append, List.nodup_append]
          refine ⟨l.distinct, List.nodup_singleton _, fun a ha b hb heq => ?_⟩
          obtain rfl := List.mem_singleton.1 hb
          exact h (heq ▸ ha) }

inductive Command where
  | add (iface mon : Text)
  | del (name : Text)
  | up (name : Text)
  | down (name : Text)
  /-- A thread that scans on the interface, and sets it down. -/
  | scan (iface : Text)
  deriving DecidableEq

/-- The netdevs that a command is about. -/
def Command.names : Command → List Text
  | .add iface mon => [iface, mon]
  | .del name | .up name | .down name | .scan name => [name]

structure State where
  layout : Layout
  issued : List Command := []

def State.issue (s : State) (c : Command) : State := { s with issued := s.issued ++ [c] }

/-- What other commands print, if they print anything. -/
structure Env where
  /-- `iw phy phy<index> info` -/
  phyInfo : PhyIndex → Option Text
  /-- `ethtool -i <iface>` -/
  driverInfo : Text → Option Text

structure SystemManager where
  ifaceName : Text
  exclusions : List Text

/-! ## The parsers -/

structure ModeState where
  foundModes : Bool := false
  inModes : Bool := false
  monitor : Bool := false

def ModeState.read (s : ModeState) (line : Text) : ModeState :=
  let text := strip line
  let lower := text.map Char.toLower
  -- Nothing is read after the answer.
  if s.monitor then s
  else if "supported interface modes".toList.isPrefixOf lower ||
      "software interface modes".toList.isPrefixOf lower then
    { s with foundModes := true, inModes := true }
  else if s.inModes && ['*'].isPrefixOf text then
    if text.dropWhile ("* ".toList.contains ·) = "monitor".toList then { s with monitor := true }
      else s
  else { s with inModes := false }

/-- `_supports_monitor` -/
def supportsMonitor (output : Option Text) : Bool :=
  match output with
  | none | some [] => true
  | some output =>
    let s := (splitlines output).foldl ModeState.read {}
    s.monitor || !s.foundModes

/-- `_get_driver` -/
def getDriver (output : Option Text) : Option Text :=
  output.bind fun output =>
    ((splitlines output).find? fun line => "driver:".toList.isPrefixOf (line.map Char.toLower)).map
      fun line => strip ((line.splitOn ':').getD 1 [])

/-! ## The sync -/

namespace SystemManager

variable (M : SystemManager) (env : Env)

/-- The name of Core's monitor on a phy. -/
def monName (index : PhyIndex) : Text := M.ifaceName ++ index

/-- `_is_core_monitor` -/
def isCoreMonitor (name : Text) : Bool :=
  M.ifaceName.isPrefixOf name && name.drop M.ifaceName.length ≠ [] &&
    (name.drop M.ifaceName.length).all isDigit

/-- `_create_monitor` -/
def createMonitor (s : State) (name : Text) (index : PhyIndex) : State :=
  { s.issue (.add name (M.monName index)) with
    layout := s.layout.add name (M.monName index) }.issue (.up (M.monName index))

/-- One managed netdev, `phys` being the phys that have or got a monitor. -/
def syncIface (monitor : List Link) (acc : State × List PhyIndex) (iface : Link) :
    State × List PhyIndex :=
  let (s, phys) := acc
  let index := iface.phy
  if index ∈ phys then (s, phys)
  else if !supportsMonitor (env.phyInfo index) then (s, phys)
  else
    let s := M.createMonitor (s.issue (.up iface.name)) iface.name index
    let driver := getDriver (env.driverInfo iface.name)
    let s :=
      if driver = some "iwlwifi".toList ∧ index ∈ monitor.map (·.phy)
        then s.issue (.down iface.name)
      else if driver = some "iwlwifi".toList then
        (s.issue (.up (M.monName index))).issue (.scan iface.name)
      else s.issue (.down iface.name)
    (s, index :: phys)

/-- Core's monitor on a phy without a managed netdev. -/
def unused (managed : List Link) (mon : Link) : Bool :=
  M.isCoreMonitor mon.name && mon.phy ∉ managed.map (·.phy)

def deleteUnused (managed : List Link) (s : State) (mon : Link) : State :=
  if M.unused managed mon then
    { s.issue (.del mon.name) with layout := s.layout.del mon.name }
  else s

/-- The netdevs of a type. -/
def ofType (s : State) (type : Text) : List Link :=
  s.layout.links.filter fun link => link.name ∉ M.exclusions ∧ link.type = type

/-- `sync_monitor_interfaces` -/
def sync (s : State) : State :=
  let managed := M.ofType s "managed".toList
  let monitor := M.ofType s "monitor".toList
  let s := monitor.foldl (M.deleteUnused managed) s
  let coreMonitorPhys := (monitor.filter (M.isCoreMonitor ·.name)).map (·.phy)
  (managed.foldl (M.syncIface env monitor) (s, coreMonitorPhys)).1

end SystemManager

/-! ## Names -/

variable {M : SystemManager} {env : Env}

theorem monName_injective : Function.Injective M.monName := fun _ _ h =>
  Subtype.ext (List.append_cancel_left h)

/-- Core knows its own monitors. -/
theorem isCoreMonitor_monName (index : PhyIndex) : M.isCoreMonitor (M.monName index) = true := by
  obtain ⟨index, hindex⟩ := index
  have hdigits := Adapter.isIndex_digits hindex
  have hall : index.all isDigit = true :=
    List.all_eq_true.2 fun c hc => isDigit_ascii (hdigits.2 c hc)
  have hprefix : M.ifaceName.isPrefixOf (M.ifaceName ++ index) = true :=
    List.isPrefixOf_iff_prefix.2 (List.prefix_append M.ifaceName index)
  simp [SystemManager.isCoreMonitor, SystemManager.monName, hprefix, hall, hdigits.1]

/-- Core's monitor on a phy, as it is added. -/
def monLink (M : SystemManager) (index : PhyIndex) : Link :=
  ⟨M.monName index, index, "monitor".toList⟩

theorem Layout.eq_of_name {l : Layout} {a b : Link} (ha : a ∈ l.links) (hb : b ∈ l.links)
    (h : a.name = b.name) : a = b := List.inj_on_of_nodup_map l.distinct ha hb h

theorem Layout.find_name {l : Layout} {a : Link} (ha : a ∈ l.links) :
    l.links.find? (·.name = a.name) = some a := by
  cases hfind : l.links.find? (·.name = a.name) with
  | none => exact absurd (List.find?_eq_none.1 hfind a ha) (by simp)
  | some b =>
    have hname : b.name = a.name := by simpa using List.find?_some hfind
    rw [l.eq_of_name (List.mem_of_find?_eq_some hfind) ha hname]

theorem Layout.add_links {l : Layout} {iface : Link} (h : iface ∈ l.links) :
    (l.add iface.name (M.monName iface.phy)).links =
      if M.monName iface.phy ∈ l.names then l.links else l.links ++ [monLink M iface.phy] := by
  unfold Layout.add
  rw [Layout.find_name h]
  dsimp only
  split
  · rfl
  · rfl

/-! ## The deletions -/

theorem deleteUnused_links (managed mons : List Link) (s : State) :
    (mons.foldl (M.deleteUnused managed) s).layout.links = s.layout.links.filter fun link =>
      ∀ mon ∈ mons, M.unused managed mon = true → mon.name ≠ link.name := by
  induction mons generalizing s with
  | nil => simp
  | cons mon mons ih =>
    rw [List.foldl_cons, ih]
    by_cases hunused : M.unused managed mon = true
    · rw [SystemManager.deleteUnused, if_pos hunused]
      dsimp only [Layout.del]
      rw [List.filter_filter]
      refine List.filter_congr fun link _ => ?_
      simp only [List.forall_mem_cons, hunused, true_implies, ne_eq, eq_comm (a := link.name),
        Bool.decide_and, Bool.and_comm]
    · rw [SystemManager.deleteUnused, if_neg hunused]
      refine List.filter_congr fun link _ => ?_
      simp only [List.forall_mem_cons, hunused, Bool.false_eq_true, false_implies, true_and]

theorem deleteUnused_none {managed mons : List Link}
    (h : ∀ mon ∈ mons, M.unused managed mon = false)
    (s : State) : mons.foldl (M.deleteUnused managed) s = s := by
  induction mons with
  | nil => rfl
  | cons mon mons ih =>
    rw [List.foldl_cons, SystemManager.deleteUnused, h mon List.mem_cons_self,
      if_neg Bool.false_ne_true]
    exact ih fun mon' hmon' => h mon' (List.mem_cons_of_mem mon hmon')

/-! ## The additions -/

/-- The phys that get a monitor when the loop goes over `managed` from the netdevs `links`, `phys`
having one. -/
structure Added (M : SystemManager) (env : Env) (links managed : List Link) (phys : List PhyIndex)
    (added : List PhyIndex) : Prop where
  nodup : added.Nodup
  mem_iff : ∀ index, index ∈ added ↔ index ∉ phys ∧ (∃ iface ∈ managed, iface.phy = index) ∧
    supportsMonitor (env.phyInfo index) = true ∧ M.monName index ∉ links.map (·.name)

theorem syncIface_same {monitor : List Link} {s : State} {phys : List PhyIndex} {iface : Link}
    (h : iface.phy ∈ phys ∨ supportsMonitor (env.phyInfo iface.phy) = false) :
    M.syncIface env monitor (s, phys) iface = (s, phys) := by
  unfold SystemManager.syncIface
  dsimp only
  by_cases hphys : iface.phy ∈ phys
  · rw [if_pos hphys]
  · rw [if_neg hphys, if_pos (by rw [h.resolve_left hphys]; rfl)]

theorem syncIface_links (monitor : List Link) {s : State} {phys : List PhyIndex} {iface : Link}
    (hphys : iface.phy ∉ phys) (hsupports : supportsMonitor (env.phyInfo iface.phy) = true)
    (hmem : iface ∈ s.layout.links) :
    (M.syncIface env monitor (s, phys) iface).1.layout.links =
        (if M.monName iface.phy ∈ s.layout.names then s.layout.links
          else s.layout.links ++ [monLink M iface.phy]) ∧
      (M.syncIface env monitor (s, phys) iface).2 = iface.phy :: phys := by
  unfold SystemManager.syncIface
  dsimp only
  rw [if_neg hphys, hsupports, Bool.not_true, if_neg Bool.false_ne_true]
  refine ⟨?_, rfl⟩
  rw [← Layout.add_links hmem]
  dsimp only
  split
  · rfl
  · split <;> rfl

variable (M env) in
theorem sync_added (monitor : List Link) (phys : List PhyIndex) {managed : List Link} {s : State}
    (hmem : ∀ iface ∈ managed, iface ∈ s.layout.links) :
    ∃ added, Added M env s.layout.links managed phys added ∧
      (managed.foldl (M.syncIface env monitor) (s, phys)).1.layout.links =
        s.layout.links ++ added.map (monLink M) := by
  induction managed generalizing s phys with
  | nil => exact ⟨[], ⟨List.nodup_nil, fun index => by simp⟩, by simp⟩
  | cons iface managed ih =>
    have hrest : ∀ iface' ∈ managed, iface' ∈ s.layout.links := fun iface' h =>
      hmem iface' (List.mem_cons_of_mem iface h)
    rw [List.foldl_cons]
    by_cases hskip : iface.phy ∈ phys ∨ supportsMonitor (env.phyInfo iface.phy) = false
    · rw [syncIface_same hskip]
      obtain ⟨added, hadded, hlinks⟩ := ih phys hrest
      refine ⟨added, ⟨hadded.nodup, fun index => ?_⟩, hlinks⟩
      rw [hadded.mem_iff, List.exists_mem_cons_iff]
      constructor
      · rintro ⟨hphys, hmanaged, hrest⟩
        exact ⟨hphys, Or.inr hmanaged, hrest⟩
      · rintro ⟨hphys, rfl | hmanaged, hsupports, hname⟩
        · rcases hskip with hskip | hskip
          · exact absurd hskip hphys
          · rw [hskip] at hsupports
            cases hsupports
        · exact ⟨hphys, hmanaged, hsupports, hname⟩
    · rw [not_or, Bool.not_eq_false] at hskip
      obtain ⟨hphys, hsupports⟩ := hskip
      obtain ⟨hlinks, hphys'⟩ := syncIface_links monitor hphys hsupports
        (hmem iface List.mem_cons_self)
      generalize hnext : M.syncIface env monitor (s, phys) iface = next at hlinks hphys'
      obtain ⟨s', phys'⟩ := next
      dsimp only at hlinks hphys'
      subst hphys'
      have hmem' : ∀ iface' ∈ managed, iface' ∈ s'.layout.links := by
        intro iface' h
        rw [hlinks]
        split
        · exact hrest iface' h
        · exact List.mem_append_left _ (hrest iface' h)
      obtain ⟨added, hadded, hfinal⟩ := ih (iface.phy :: phys) hmem'
      have hother (index : PhyIndex) (hne : index ≠ iface.phy) :
          M.monName index ∈ s'.layout.links.map (·.name) ↔
            M.monName index ∈ s.layout.links.map (·.name) := by
        rw [hlinks]
        split
        · exact Iff.rfl
        · rw [List.map_append, List.mem_append]
          refine or_iff_left fun h => hne (monName_injective (M := M) ?_)
          exact List.mem_singleton.1 h
      by_cases htaken : M.monName iface.phy ∈ s.layout.names
      · rw [if_pos htaken] at hlinks
        refine ⟨added, ⟨hadded.nodup, fun index => ?_⟩, by rw [hfinal, hlinks]⟩
        rw [hadded.mem_iff, List.mem_cons, not_or, List.exists_mem_cons_iff]
        constructor
        · rintro ⟨⟨hne, hnot⟩, hmanaged, hs, hname⟩
          exact ⟨hnot, Or.inr hmanaged, hs, (hother index hne).not.1 hname⟩
        · rintro ⟨hnot, hmanaged, hs, hname⟩
          have hne : index ≠ iface.phy := by
            rintro rfl
            exact hname htaken
          exact ⟨⟨hne, hnot⟩, hmanaged.resolve_left (Ne.symm hne), hs,
            (hother index hne).not.2 hname⟩
      · rw [if_neg htaken] at hlinks
        have hnew : iface.phy ∉ added := fun h =>
          ((hadded.mem_iff iface.phy).1 h).1 List.mem_cons_self
        refine ⟨iface.phy :: added, ⟨List.nodup_cons.2 ⟨hnew, hadded.nodup⟩, fun index => ?_⟩, ?_⟩
        · rw [List.mem_cons, hadded.mem_iff, List.mem_cons, not_or, List.exists_mem_cons_iff]
          constructor
          · rintro (rfl | ⟨⟨hne, hnot⟩, hmanaged, hs, hname⟩)
            · exact ⟨hphys, Or.inl rfl, hsupports, htaken⟩
            · exact ⟨hnot, Or.inr hmanaged, hs, (hother index hne).not.1 hname⟩
          · rintro ⟨hnot, hmanaged, hs, hname⟩
            by_cases hne : index = iface.phy
            · exact Or.inl hne
            · exact Or.inr ⟨⟨hne, hnot⟩, hmanaged.resolve_left (Ne.symm hne), hs,
                (hother index hne).not.2 hname⟩
        · rw [hfinal, hlinks, List.append_assoc]
          rfl

theorem syncIface_none {monitor managed : List Link} {phys : List PhyIndex}
    (h : ∀ iface ∈ managed, iface.phy ∈ phys ∨ supportsMonitor (env.phyInfo iface.phy) = false)
    (s : State) : managed.foldl (M.syncIface env monitor) (s, phys) = (s, phys) := by
  induction managed with
  | nil => rfl
  | cons iface managed ih =>
    rw [List.foldl_cons, syncIface_same (h iface List.mem_cons_self)]
    exact ih fun iface' h' => h iface' (List.mem_cons_of_mem iface h')

/-! ## The commands -/

/-- Commands with `p` have been issued. -/
def Grows (p : Command → Prop) (s s' : State) : Prop :=
  ∃ cs, (∀ c ∈ cs, p c) ∧ s'.issued = s.issued ++ cs

section

variable {p : Command → Prop}

theorem Grows.refl (s : State) : Grows p s s :=
  ⟨[], fun _ h => absurd h List.not_mem_nil, (List.append_nil _).symm⟩

theorem Grows.issue {s s' : State} {c : Command} (h : Grows p s s') (hc : p c) :
    Grows p s (s'.issue c) := by
  obtain ⟨cs, hcs, hs'⟩ := h
  refine ⟨cs ++ [c], fun c' hc' => ?_, ?_⟩
  · rcases List.mem_append.1 hc' with hmem | hmem
    · exact hcs c' hmem
    · rwa [List.mem_singleton.1 hmem]
  · rw [← List.append_assoc, ← hs']
    rfl

theorem Grows.layout {s s' : State} (h : Grows p s s') (l : Layout) :
    Grows p s { s' with layout := l } := h

/-- What each round of a loop keeps. -/
theorem grows_foldl {α β : Type} {f : β → α → β} (state : β → State) {s : State} {as : List α}
    (hstep : ∀ a ∈ as, ∀ b, Grows p s (state b) → Grows p s (state (f b a))) {b : β}
    (h : Grows p s (state b)) : Grows p s (state (as.foldl f b)) := by
  induction as generalizing b with
  | nil => exact h
  | cons a as ih =>
    exact ih (fun a' ha' => hstep a' (List.mem_cons_of_mem a ha')) (hstep a List.mem_cons_self b h)

end

/-- The command is about managed netdevs and Core's monitors only. -/
def Mine (M : SystemManager) (s : State) (c : Command) : Prop :=
  ∀ name ∈ c.names, M.isCoreMonitor name = true ∨
    ∃ iface ∈ s.layout.links, iface.type = "managed".toList ∧ iface.name = name

theorem mem_ofType {s : State} {type : Text} {link : Link} :
    link ∈ M.ofType s type → link ∈ s.layout.links ∧ link.type = type := by
  simp only [SystemManager.ofType, List.mem_filter, decide_eq_true_eq]
  exact fun h => ⟨h.1, h.2.2⟩

variable (M env) in
theorem sync_mine (s : State) : Grows (Mine M s) s (M.sync env s) := by
  refine grows_foldl Prod.fst (fun iface hiface acc hacc => ?_)
    (grows_foldl id (fun mon _ s' hs' => ?_) (.refl s))
  · obtain ⟨hmem, htype⟩ := mem_ofType hiface
    have hown : Mine M s (.up iface.name) := fun name h => by
      rw [List.mem_singleton.1 h]
      exact Or.inr ⟨iface, hmem, htype, rfl⟩
    have hmon : Mine M s (.up (M.monName iface.phy)) := fun name h => by
      rw [List.mem_singleton.1 h]
      exact Or.inl (isCoreMonitor_monName iface.phy)
    unfold SystemManager.syncIface
    dsimp only
    split
    · exact hacc
    · split
      · exact hacc
      · have hadd : Mine M s (.add iface.name (M.monName iface.phy)) := fun name h =>
          (List.mem_cons.1 h).elim (fun h => hown name (List.mem_singleton.2 h)) (hmon name)
        have hcreated := (((hacc.issue hown).issue hadd).layout
          (((acc.1.issue (.up iface.name)).layout).add iface.name (M.monName iface.phy))).issue hmon
        dsimp only
        split
        · exact hcreated.issue hown
        · split
          · exact (hcreated.issue hmon).issue hown
          · exact hcreated.issue hown
  · unfold SystemManager.deleteUnused
    split
    · rename_i hunused
      have hcore : M.isCoreMonitor mon.name = true := by
        rw [SystemManager.unused, Bool.and_eq_true] at hunused
        exact hunused.1
      refine (Grows.issue (c := .del mon.name) hs' fun name h => ?_).layout _
      rw [List.mem_singleton.1 h]
      exact Or.inl hcore
    · exact hs'

/-! ## Convergence -/

/-- The phy has a Core monitor. -/
def HasMonitor (M : SystemManager) (l : Layout) (index : PhyIndex) : Prop :=
  ∃ mon ∈ l.links, mon.type = "monitor".toList ∧ M.isCoreMonitor mon.name = true ∧ mon.phy = index

/-- The phy has a managed netdev. -/
def HasManaged (l : Layout) (index : PhyIndex) : Prop :=
  ∃ iface ∈ l.links, iface.type = "managed".toList ∧ iface.phy = index

/-- What the sync is for. -/
structure Synced (M : SystemManager) (env : Env) (s : State) : Prop where
  /-- Each phy with a managed netdev and monitor mode has a Core monitor. -/
  covered : ∀ index, HasManaged s.layout index → supportsMonitor (env.phyInfo index) = true →
    HasMonitor M (M.sync env s).layout index
  /-- None is added to a phy that has one, nor a second one to a phy. -/
  single : ∀ mon ∈ (M.sync env s).layout.links, mon ∉ s.layout.links →
    ¬ HasMonitor M s.layout mon.phy ∧
      ∀ other ∈ (M.sync env s).layout.links, other ∉ s.layout.links → other.phy = mon.phy →
        other = mon
  /-- No Core monitor remains on a phy without a managed netdev. -/
  used : ∀ index, HasMonitor M (M.sync env s).layout index →
    HasManaged (M.sync env s).layout index
  /-- The monitors of other tools stay, and no command is about them. -/
  untouched : ∀ mon ∈ s.layout.links, mon.type = "monitor".toList →
    M.isCoreMonitor mon.name = false → mon ∈ (M.sync env s).layout.links ∧
      Grows (fun c => mon.name ∉ c.names) s (M.sync env s)
  /-- A second sync issues no command. -/
  again : M.sync env (M.sync env s) = M.sync env s

/-- A phy that needs a monitor finds the name free: a netdev that has it is one that is deleted. -/
def NamesFree (M : SystemManager) (env : Env) (l : Layout) : Prop :=
  ∀ index, HasManaged l index → supportsMonitor (env.phyInfo index) = true →
    ¬ HasMonitor M l index → ∀ link ∈ l.links, link.name = M.monName index →
      link.type = "monitor".toList ∧ ¬ HasManaged l link.phy

section

variable (hM : M.exclusions = [])

include hM

theorem mem_ofType_iff {s : State} {type : Text} {link : Link} :
    link ∈ M.ofType s type ↔ link ∈ s.layout.links ∧ link.type = type := by
  simp [SystemManager.ofType, hM]

theorem unused_iff {s : State} {mon : Link} :
    M.unused (M.ofType s "managed".toList) mon = true ↔
      M.isCoreMonitor mon.name = true ∧ ¬ HasManaged s.layout mon.phy := by
  rw [SystemManager.unused, Bool.and_eq_true, decide_eq_true_eq]
  refine and_congr_right fun _ => not_congr ?_
  simp only [List.mem_map, mem_ofType_iff hM, HasManaged, and_assoc]

/-- The phys of the core monitors. -/
theorem mem_coreMonitorPhys {s : State} {index : PhyIndex} :
    index ∈ ((M.ofType s "monitor".toList).filter (M.isCoreMonitor ·.name)).map (·.phy) ↔
      HasMonitor M s.layout index := by
  simp only [List.mem_map, List.mem_filter, mem_ofType_iff hM, HasMonitor, and_assoc]

variable (env) in
/-- The netdevs after a sync: those that were not deleted, and the monitors of the phys that got
one. -/
theorem mem_sync (s : State) : ∃ added : List PhyIndex,
    (∀ index, index ∈ added ↔ ¬ HasMonitor M s.layout index ∧ HasManaged s.layout index ∧
      supportsMonitor (env.phyInfo index) = true ∧ ∀ link ∈ s.layout.links,
        link.name = M.monName index → link.type = "monitor".toList ∧
          ¬ HasManaged s.layout link.phy) ∧
    ∀ link, link ∈ (M.sync env s).layout.links ↔
      (link ∈ s.layout.links ∧ ¬ (link.type = "monitor".toList ∧
        M.isCoreMonitor link.name = true ∧ ¬ HasManaged s.layout link.phy)) ∨
      ∃ index ∈ added, monLink M index = link := by
  let managed := M.ofType s "managed".toList
  let monitor := M.ofType s "monitor".toList
  have hkept (link : Link) :
      link ∈ (monitor.foldl (M.deleteUnused managed) s).layout.links ↔ link ∈ s.layout.links ∧
        ¬ (link.type = "monitor".toList ∧ M.isCoreMonitor link.name = true ∧
          ¬ HasManaged s.layout link.phy) := by
    rw [deleteUnused_links, List.mem_filter, decide_eq_true_eq]
    refine and_congr_right fun hlink => ⟨fun h hunused => ?_, fun h mon hmon hunused hname => ?_⟩
    · exact h link ((mem_ofType_iff hM).2 ⟨hlink, hunused.1⟩) ((unused_iff hM).2 hunused.2) rfl
    · obtain ⟨hmem, htype⟩ := (mem_ofType_iff hM).1 hmon
      obtain rfl := s.layout.eq_of_name hmem hlink hname
      exact h ⟨htype, (unused_iff hM).1 hunused⟩
  have hmanaged : ∀ iface ∈ managed,
      iface ∈ (monitor.foldl (M.deleteUnused managed) s).layout.links := by
    intro iface hiface
    obtain ⟨hmem, htype⟩ := (mem_ofType_iff hM).1 hiface
    refine (hkept iface).2 ⟨hmem, fun h => ?_⟩
    rw [htype] at h
    exact absurd h.1 (by decide)
  obtain ⟨added, hadded, hlinks⟩ := sync_added M env monitor
    ((monitor.filter (M.isCoreMonitor ·.name)).map (·.phy)) hmanaged
  refine ⟨added, fun index => ?_, fun link => ?_⟩
  · rw [hadded.mem_iff, mem_coreMonitorPhys hM]
    refine and_congr_right fun _ => and_congr ?_ (and_congr_right fun _ => ?_)
    · simp only [managed, mem_ofType_iff hM, HasManaged, and_assoc]
    · constructor
      · intro h link hlink hname
        by_contra hstays
        refine h (List.mem_map.2 ⟨link, (hkept link).2 ⟨hlink, fun hdeleted => ?_⟩, hname⟩)
        exact hstays ⟨hdeleted.1, hdeleted.2.2⟩
      · intro h hmem
        obtain ⟨link, hlink, hname⟩ := List.mem_map.1 hmem
        obtain ⟨hlink, hstays⟩ := (hkept link).1 hlink
        obtain ⟨htype, hnone⟩ := h link hlink hname
        exact hstays ⟨htype, hname ▸ isCoreMonitor_monName index, hnone⟩
  · have hsync : (M.sync env s).layout.links =
        (monitor.foldl (M.deleteUnused managed) s).layout.links ++ added.map (monLink M) := hlinks
    rw [hsync, List.mem_append, hkept, List.mem_map]

theorem hasManaged_sync (s : State) (index : PhyIndex) :
    HasManaged (M.sync env s).layout index ↔ HasManaged s.layout index := by
  obtain ⟨added, -, hmem⟩ := mem_sync env hM s
  refine exists_congr fun iface => ?_
  rw [hmem]
  constructor
  · rintro ⟨⟨hlink, -⟩ | ⟨index, -, rfl⟩, htype, hphy⟩
    · exact ⟨hlink, htype, hphy⟩
    · have hne : "monitor".toList ≠ "managed".toList := by decide
      exact absurd htype hne
  · rintro ⟨hlink, htype, hphy⟩
    refine ⟨Or.inl ⟨hlink, fun h => ?_⟩, htype, hphy⟩
    rw [htype] at h
    exact absurd h.1 (by decide)

/-- The phys with a Core monitor after a sync: those that had one and a managed netdev, and those
that got one. -/
theorem hasMonitor_sync (s : State) (index : PhyIndex) :
    HasMonitor M (M.sync env s).layout index ↔
      HasMonitor M s.layout index ∧ HasManaged s.layout index ∨
      ¬ HasMonitor M s.layout index ∧ HasManaged s.layout index ∧
        supportsMonitor (env.phyInfo index) = true ∧ ∀ link ∈ s.layout.links,
          link.name = M.monName index → link.type = "monitor".toList ∧
            ¬ HasManaged s.layout link.phy := by
  obtain ⟨added, hadded, hmem⟩ := mem_sync env hM s
  rw [← hadded index]
  constructor
  · rintro ⟨mon, hmon, htype, hcore, rfl⟩
    rcases (hmem mon).1 hmon with ⟨hlink, hstays⟩ | ⟨index, hindex, rfl⟩
    · refine Or.inl ⟨⟨mon, hlink, htype, hcore, rfl⟩, ?_⟩
      by_contra hnone
      exact hstays ⟨htype, hcore, hnone⟩
    · exact Or.inr hindex
  · rintro (⟨⟨mon, hlink, htype, hcore, rfl⟩, hmanaged⟩ | hindex)
    · exact ⟨mon, (hmem mon).2 (Or.inl ⟨hlink, fun h => h.2.2 hmanaged⟩), htype, hcore, rfl⟩
    · exact ⟨monLink M index, (hmem _).2 (Or.inr ⟨index, hindex, rfl⟩), rfl,
        isCoreMonitor_monName index, rfl⟩

theorem untouched_sync (s : State) {mon : Link} (hmon : mon ∈ s.layout.links)
    (htype : mon.type = "monitor".toList) (hcore : M.isCoreMonitor mon.name = false) :
    mon ∈ (M.sync env s).layout.links ∧ Grows (fun c => mon.name ∉ c.names) s (M.sync env s) := by
  obtain ⟨added, -, hmem⟩ := mem_sync env hM s
  constructor
  · refine (hmem mon).2 (Or.inl ⟨hmon, fun h => ?_⟩)
    rw [hcore] at h
    exact Bool.false_ne_true h.2.1
  · obtain ⟨cs, hcs, hissued⟩ := sync_mine M env s
    refine ⟨cs, fun c hc hname => ?_, hissued⟩
    rcases hcs c hc mon.name hname with h | ⟨iface, hiface, htype', hsame⟩
    · rw [hcore] at h
      cases h
    · obtain rfl := s.layout.eq_of_name hiface hmon hsame
      rw [htype] at htype'
      exact absurd htype' (by decide)

/-- A sync that has nothing to delete and nothing to add issues no command. -/
theorem sync_idle {s : State}
    (hused : ∀ index, HasMonitor M s.layout index → HasManaged s.layout index)
    (hcovered : ∀ index, HasManaged s.layout index → supportsMonitor (env.phyInfo index) = true →
      HasMonitor M s.layout index) : M.sync env s = s := by
  have hdelete : (M.ofType s "monitor".toList).foldl
      (M.deleteUnused (M.ofType s "managed".toList)) s = s := by
    refine deleteUnused_none (fun mon hmon => ?_) s
    obtain ⟨hmem, htype⟩ := (mem_ofType_iff hM).1 hmon
    by_contra hunused
    rw [Bool.not_eq_false, unused_iff hM] at hunused
    exact hunused.2 (hused mon.phy ⟨mon, hmem, htype, hunused.1, rfl⟩)
  unfold SystemManager.sync
  dsimp only
  rw [hdelete, syncIface_none fun iface hiface => ?_]
  obtain ⟨hmem, htype⟩ := (mem_ofType_iff hM).1 hiface
  rw [mem_coreMonitorPhys hM]
  by_cases hsupports : supportsMonitor (env.phyInfo iface.phy) = true
  · exact Or.inl (hcovered iface.phy ⟨iface, hmem, htype, rfl⟩ hsupports)
  · exact Or.inr ((Bool.not_eq_true _).mp hsupports)

end

/-- Without exclusions, the sync converges exactly when no netdev that stays has a name it is about
to give. -/
theorem sync_iff (ifaceName : Text) (env : Env) (s : State) :
    Synced ⟨ifaceName, []⟩ env s ↔ NamesFree ⟨ifaceName, []⟩ env s.layout := by
  have hM : (SystemManager.mk ifaceName []).exclusions = [] := rfl
  constructor
  · intro h index hmanaged hsupports hnone
    rcases (hasMonitor_sync hM s index).1 (h.covered index hmanaged hsupports) with hhas | hadded
    · exact absurd hhas.1 hnone
    · exact hadded.2.2.2
  · intro h
    have hcovered (index : PhyIndex) (hmanaged : HasManaged s.layout index)
        (hsupports : supportsMonitor (env.phyInfo index) = true) :
        HasMonitor ⟨ifaceName, []⟩ (SystemManager.sync ⟨ifaceName, []⟩ env s).layout index := by
      rw [hasMonitor_sync hM]
      by_cases hhas : HasMonitor ⟨ifaceName, []⟩ s.layout index
      · exact Or.inl ⟨hhas, hmanaged⟩
      · exact Or.inr ⟨hhas, hmanaged, hsupports, h index hmanaged hsupports hhas⟩
    have hused (index : PhyIndex)
        (hhas :
          HasMonitor ⟨ifaceName, []⟩ (SystemManager.sync ⟨ifaceName, []⟩ env s).layout index) :
        HasManaged (SystemManager.sync ⟨ifaceName, []⟩ env s).layout index := by
      rw [hasManaged_sync hM]
      rcases (hasMonitor_sync hM s index).1 hhas with hhas | hadded
      · exact hhas.2
      · exact hadded.2.1
    obtain ⟨added, hadded, hmem⟩ := mem_sync env hM s
    have hnew (mon : Link) (hmon : mon ∈ (SystemManager.sync ⟨ifaceName, []⟩ env s).layout.links)
        (hnot : mon ∉ s.layout.links) : ∃ index ∈ added, monLink ⟨ifaceName, []⟩ index = mon :=
      ((hmem mon).1 hmon).resolve_left fun hold => hnot hold.1
    refine ⟨hcovered, fun mon hmon hnot => ?_, hused,
      fun mon hmon htype hcore => untouched_sync hM s hmon htype hcore,
      sync_idle hM hused fun index hmanaged =>
        hcovered index ((hasManaged_sync hM s index).1 hmanaged)⟩
    obtain ⟨index, hindex, rfl⟩ := hnew mon hmon hnot
    refine ⟨((hadded index).1 hindex).1, fun other hother hnot' hphy => ?_⟩
    obtain ⟨index', -, rfl⟩ := hnew other hother hnot'
    exact congrArg (monLink _) hphy

/-- A radio that was phy 1 when its monitor was named and is phy 0 now, and another that is phy 1.
-/
def laggingState : State where
  layout :=
    { links := [⟨"wlan0".toList, ⟨"0".toList, Adapter.zero_isIndex⟩, "managed".toList⟩,
        ⟨"wlanpi1".toList, ⟨"0".toList, Adapter.zero_isIndex⟩, "monitor".toList⟩,
        ⟨"wlan1".toList, ⟨"1".toList, Adapter.one_isIndex⟩, "managed".toList⟩]
      distinct := by decide }

/-- The second radio gets no monitor: its name is the first one's. -/
theorem not_sync_lagging : ¬∀ (ifaceName : Text) (env : Env) (s : State),
    Synced ⟨ifaceName, []⟩ env s := by
  intro h
  let env : Env := ⟨fun _ => none, fun _ => none⟩
  obtain ⟨mon, hmon, htype, -, hphy⟩ := (h "wlanpi".toList env laggingState).covered
    ⟨"1".toList, by
      decide⟩ ⟨_, List.mem_cons_of_mem _ (List.mem_cons_of_mem _ List.mem_cons_self), rfl,
      rfl⟩ rfl
  have hnone : ∀ mon ∈ (SystemManager.sync ⟨"wlanpi".toList, []⟩ env laggingState).layout.links,
      mon.type = "monitor".toList → mon.phy.val ≠ "1".toList := by
    decide +kernel
  exact hnone mon hmon htype (congrArg Subtype.val hphy)

end WlanpiCore.Monitors
