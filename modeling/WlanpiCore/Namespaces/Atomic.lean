import Mathlib.Data.List.Nodup
import Mathlib.Data.List.Perm.Subperm
import WlanpiCore.Namespaces.Delivery

/-!
# Undoing a preparation that failed

**`prepare_atomic_iff`**: a command of a preparation fails, and the commands that restore the
original succeed. Where the command is the first delete, the inventory is the one before. Where it
is the listing of `_claim`, nothing is undone, and the inventory is the one before exactly when the
new netdev is like the old one. Where it is another one, this is so exactly when no other netdev of
the radio has the name of the new one where the radio is then, and those that travelled with the
radio have their names back. **`not_atomic_sibling`** is a radio with two netdevs, one of them
called as the entry wants the other to be called: adding it is refused, and what is deleted as
half-created is the netdev that was there before.

`prepare_breaks` follows the code to the command that fails, and says where the radio is then and
what is there. From there on it is counting: the radio gets one netdev back, so that one which was
deleted beside it is missing in the end.
-/

namespace WlanpiCore.Namespaces

variable {K : Kernel}

/-! ## Inventories -/

/-- What the inventory tells of a netdev. -/
structure Face where
  name : Text
  phyIndex : Nat
  netns : Option Text
  type : Text
  deriving DecidableEq

def Netdev.face (d : Netdev) : Face := ⟨d.name, d.phyIndex, d.netns, d.type⟩

def World.faces (w : World) : List Face := w.netdevs.map Netdev.face

/-- The same netdevs, by name, radio, namespace and type. -/
def SameInventory (w w' : World) : Prop := ∀ f, f ∈ w.faces ↔ f ∈ w'.faces

theorem World.mem_faces {w : World} {d : Netdev} (h : d ∈ w.netdevs) : d.face ∈ w.faces :=
  List.mem_map_of_mem h

theorem length_arrive (phyIndex : Nat) (target : Option Text) (up taken : List Text)
    (ds : List Netdev) : (arrive K phyIndex target up taken ds).length = ds.length := by
  induction ds generalizing taken with
  | nil => rfl
  | cons d ds ih =>
    unfold arrive
    split_ifs
    all_goals exact congrArg Nat.succ (ih _)

theorem length_move (w : World) (phyIndex : Nat) (target : Option Text) :
    (w.move K phyIndex target).netdevs.length = w.netdevs.length := length_arrive ..

section

variable {w₀ : World} (hwf : w₀.Wf) {live : Netdev} (hlive : live ∈ w₀.netdevs)

include hlive in
theorem length_delete : (w₀.delete live.name live.netns).netdevs.length < w₀.netdevs.length := by
  refine List.length_filter_lt_length_iff_exists.2 ⟨live, hlive, ?_⟩
  have hat : live.at live.name live.netns = true := at_iff.2 ⟨rfl, rfl⟩
  rw [hat]
  exact Bool.false_ne_true

include hwf in
/-- An inventory with fewer netdevs is another one. -/
theorem not_same_of_length (hnodup : w₀.netdevs.Nodup) {w : World}
    (h : w.netdevs.length < w₀.netdevs.length) : ¬ SameInventory w₀ w := by
  intro hsame
  have hfaces : w₀.faces.Nodup := by
    refine List.Nodup.map_on (fun d hd d' hd' heq => ?_) hnodup
    have hname : d.name = d'.name := congrArg Face.name heq
    have hnetns : d.netns = d'.netns := congrArg Face.netns heq
    exact hwf.unique d hd d' hd' hname hnetns
  have hle := (List.subperm_of_subset hfaces fun f hf => (hsame f).1 hf).length_le
  simp only [World.faces, List.length_map] at hle
  omega

include hwf hlive in
theorem faces_delete (f : Face) :
    f ∈ w₀.faces ↔ f ∈ (w₀.delete live.name live.netns).faces ∨ f = live.face := by
  constructor
  · intro hf
    obtain ⟨d, hd, rfl⟩ := List.mem_map.1 hf
    by_cases hat : d.at live.name live.netns = true
    · obtain ⟨hname, hnetns⟩ := at_iff.1 hat
      rw [hwf.unique d hd live hlive hname hnetns]
      exact Or.inr rfl
    · refine Or.inl (World.mem_faces (List.mem_filter.2 ⟨hd, ?_⟩))
      rw [Bool.not_eq_true', Bool.eq_false_iff]
      exact hat
  · rintro (hf | rfl)
    · obtain ⟨d, hd, rfl⟩ := List.mem_map.1 hf
      exact World.mem_faces (List.mem_filter.1 hd).1
    · exact World.mem_faces hlive

/-- Nothing in the inventory is called as the deleted netdev. -/
theorem not_at_delete {name : Text} {netns : Option Text} {f : Face}
    (hf : f ∈ (w₀.delete name netns).faces) : ¬ (f.name = name ∧ f.netns = netns) := by
  obtain ⟨d, hd, rfl⟩ := List.mem_map.1 hf
  intro h
  have hnot := (List.mem_filter.1 hd).2
  rw [at_iff.2 h] at hnot
  cases hnot

theorem taken_iff {w : World} {name : Text} {netns : Option Text} :
    w.taken name netns = true ↔ ∃ f ∈ w.faces, f.name = name ∧ f.netns = netns := by
  rw [World.taken, List.any_eq_true]
  constructor
  · rintro ⟨d, hd, hat⟩
    exact ⟨d.face, World.mem_faces hd, at_iff.1 hat⟩
  · rintro ⟨f, hf, h⟩
    obtain ⟨d, hd, rfl⟩ := List.mem_map.1 hf
    exact ⟨d, hd, at_iff.2 h⟩

variable {w w' : World} {phyIndex : Nat} {name type : Text} {netns : Option Text}

include hwf in
/-- With a netdev less than before, adding one can bring back the inventory only if it does add it.
-/
theorem same_create_iff (hnodup : w₀.netdevs.Nodup) (hlength : w.netdevs.length < w₀.netdevs.length)
    (hcreate : w.create K phyIndex name type netns = some w') :
    SameInventory w₀ w' ↔ w.taken name netns = false ∧
      ∀ f, f ∈ w₀.faces ↔ f ∈ w.faces ∨ f = ⟨name, phyIndex, netns, type⟩ := by
  rcases create_cases hcreate with ⟨rfl, htaken⟩ | ⟨htaken, rfl⟩
  · refine iff_of_false (not_same_of_length hwf hnodup hlength) fun h => ?_
    rw [htaken] at h
    cases h.1
  · rw [and_iff_right htaken]
    refine forall_congr' fun f => iff_congr Iff.rfl ?_
    simp only [World.faces, List.map_append, List.mem_append, List.map_cons, List.map_nil,
      List.mem_singleton]
    exact Iff.rfl

include hwf hlive in
/-- The original comes back as it was when it is of its type and the others are there. -/
theorem same_restored_iff (hnodup : w₀.netdevs.Nodup)
    (hlength : w.netdevs.length < w₀.netdevs.length)
    (hcreate : w.create K live.phyIndex live.name type live.netns = some w') :
    SameInventory w₀ w' ↔
      type = live.type ∧ SameInventory (w₀.delete live.name live.netns) w := by
  rw [same_create_iff hwf hnodup hlength hcreate]
  constructor
  · rintro ⟨htaken, hfaces⟩
    have hfree {f : Face} (hf : f ∈ w.faces) : ¬ (f.name = live.name ∧ f.netns = live.netns) :=
      fun h => by
        rw [taken_iff.2 ⟨f, hf, h⟩] at htaken
        cases htaken
    have htype : type = live.type := by
      rcases (hfaces live.face).1 (World.mem_faces hlive) with hf | heq
      · exact absurd ⟨rfl, rfl⟩ (hfree hf)
      · exact (congrArg Face.type heq).symm
    refine ⟨htype, fun f => ⟨fun hf => ?_, fun hf => ?_⟩⟩
    · rcases (hfaces f).1 ((faces_delete hwf hlive f).2 (Or.inl hf)) with hmem | rfl
      · exact hmem
      · exact absurd ⟨rfl, rfl⟩ (not_at_delete hf)
    · rcases (faces_delete hwf hlive f).1 ((hfaces f).2 (Or.inl hf)) with hmem | rfl
      · exact hmem
      · exact absurd ⟨rfl, rfl⟩ (hfree hf)
  · rintro ⟨rfl, hsame⟩
    refine ⟨?_, fun f => ?_⟩
    · rw [Bool.eq_false_iff]
      intro htaken
      obtain ⟨f, hf, h⟩ := taken_iff.1 htaken
      exact not_at_delete ((hsame f).2 hf) h
    · rw [faces_delete hwf hlive, hsame f]
      exact Iff.rfl

end

/-! ## What is restored -/

/-- Without the netdev of the radio that is taken for the new one. -/
def World.cleared (w : World) (live : Netdev) (newName : Text) (place : Option Text) : World :=
  if w.inventory.any fun other => other.at newName place && other.phyIndex = live.phyIndex then
    w.delete newName place
  else w

/-- The radio back where it was. -/
def World.back (K : Kernel) (w : World) (live : Netdev) (place : Option Text) : World :=
  if place = live.netns then w
  else
    match place, live.netns with
    | some _, some netns => (w.move K live.phyIndex none).move K live.phyIndex (some netns)
    | some _, none => w.move K live.phyIndex none
    | none, some netns => w.move K live.phyIndex (some netns)
    | none, none => w

theorem clearNew_ok {live : Netdev} {newName : Text} {place : Option Text} {s s' : State}
    (hheard : s.silences = []) (h : clearNew live newName place s = (.ok (), s')) :
    s'.world = s.world.cleared live newName place := by
  obtain ⟨inventory, s₁, hlist, hrest⟩ := bind_ok_inv h
  have hread := @listInterfaces_leads True (fun w => w = s.world) s ⟨rfl, fun _ => hheard⟩
  rw [Prog.Ends, hlist] at hread
  have hs₁ : s₁.world = s.world := hread.1.1
  have hinventory : inventory = s.world.inventory := by
    rw [← hs₁]
    exact hread.2.1 trivial
  unfold World.cleared
  rw [← hinventory, ← hs₁]
  split_ifs at hrest ⊢
  · have hdelete := command_ok hrest
    exact (Option.some.inj hdelete).symm
  · cases hrest
    rfl

theorem returnPhy_ok {live : Netdev} {place : Option Text} {s s' : State}
    (h : returnPhy K live place s = (.ok (), s')) : s'.world = s.world.back K live place := by
  unfold returnPhy at h
  unfold World.back
  by_cases hplace : place = live.netns
  · rw [if_neg (not_not.2 hplace)] at h
    rw [if_pos hplace]
    cases h
    rfl
  rw [if_pos hplace] at h
  rw [if_neg hplace]
  cases place with
  | none =>
    cases hnetns : live.netns with
    | none => exact absurd hnetns.symm hplace
    | some netns =>
      rw [hnetns] at h
      have hmove := command_ok h
      rw [Option.ite_none_right_eq_some] at hmove
      exact (Option.some.inj hmove.2).symm
  | some source =>
    obtain ⟨_, s₁, hroot, hinto⟩ := bind_ok_inv h
    have hmove := command_ok hroot
    rw [Option.ite_none_right_eq_some] at hmove
    cases hnetns : live.netns with
    | none =>
      rw [hnetns] at hinto
      cases hinto
      exact (Option.some.inj hmove.2).symm
    | some netns =>
      rw [hnetns] at hinto
      have hmove' := command_ok hinto
      rw [Option.ite_none_right_eq_some, ← Option.some.inj hmove.2] at hmove'
      exact (Option.some.inj hmove'.2).symm

theorem restoration_ok {live : Netdev} {newName : Text} {place : Option Text} {s s' : State}
    (hheard : s.silences = []) (h : restoration K live newName place s = (.ok (), s')) :
    ((s.world.cleared live newName place).back K live place).create K live.phyIndex live.name
      (if live.type = [] then "managed".toList else live.type) live.netns = some s'.world := by
  obtain ⟨_, s₁, hclear, hrest⟩ := bind_ok_inv h
  obtain ⟨_, s₂, hreturn, hcreate⟩ := bind_ok_inv hrest
  rw [← clearNew_ok hheard hclear, ← returnPhy_ok hreturn]
  exact command_ok hcreate

/-! ## The new namespace -/

/-- No radio is in the namespace. -/
def World.Empty (w : World) (netns : Text) : Prop :=
  (w.phys.filter fun index => w.phyNetns index = some netns) = []

section

variable {ds : List Netdev} {netns : Text}

theorem deleteNamespace_preserves :
    Prog.Preserves (fun s : State => s.world.netdevs = ds ∧ s.world.Empty netns)
      (deleteNamespace K netns) := by
  refine .bind (fun s hs => ?_) fun found => ?_
  · rw [namespaceExists_world]
    exact hs
  · cases found with
    | false => exact .pure _
    | true =>
      refine .attempt (fun s hs => ?_) fun _ => .pure _
      unfold command
      split
      · exact hs
      · show (s.world.deleteNamespace K netns).netdevs = ds ∧ _
        have hempty : s.world.deleteNamespace K netns =
            { s.world with namespaces := s.world.namespaces.filter fun n => n.1 ≠ netns } := by
          unfold World.deleteNamespace
          rw [hs.2]
          rfl
        exact ⟨by rw [hempty]; exact hs.1, by dsimp only; rw [hempty]; exact hs.2⟩

/-- A namespace is removed only when it is empty, which moves nothing. -/
theorem deleteNamespaceIfEmpty_netdevs (netns : Text) (s : State) :
    (deleteNamespaceIfEmpty K netns s).2.world.netdevs = s.world.netdevs := by
  let listing : Service Bool := onRunCommand
    (do
      let phys ← listPhys netns
      let links ← interfacesIn netns
      return decide (phys ≠ [] ∨ links ≠ []))
    (pure true)
  have hkept : (listing s).2.world = s.world := by
    have hquery {α : Type} (read : World → α) :
        Prog.Preserves (fun s' : State => s'.world = s.world) (query .runCommand read) :=
      fun s' h => (query_world ..).trans h
    refine Prog.Preserves.attempt (.bind (hquery _) fun _ => .bind (hquery _) fun _ =>
      .pure _) ?_ s rfl
    intro failure
    cases failure with
    | runCommand => exact .pure _
    | networkNamespace => exact .raise _
    | os => exact .raise _
  show ((listing >>= _) s).2.world.netdevs = _
  rcases hlisting : listing s with ⟨failure | remaining, s₁⟩ <;> rw [hlisting] at hkept
  · rw [Prog.bind_error hlisting]
    exact congrArg World.netdevs hkept
  rw [Prog.bind_ok hlisting, ← hkept]
  cases remaining with
  | true => rfl
  | false =>
    have hempty : s₁.world.Empty netns := by
      rcases onRunCommand_ok hlisting with h | ⟨s₂, h⟩
      · obtain ⟨phys, s₂, hphys, hrest⟩ := bind_ok_inv h
        obtain ⟨links, s₃, -, hpure⟩ := bind_ok_inv hrest
        have hdecide : decide (phys ≠ [] ∨ links ≠ []) = false :=
          congrArg (fun r => r.1.toOption.getD true) hpure
        have hnone : phys = [] := by
          by_contra hne
          exact of_decide_eq_false hdecide (Or.inl hne)
        rw [World.Empty, hkept]
        unfold listPhys query at hphys
        split at hphys
        · cases hphys
        · cases hphys
          exact hnone
      · cases h
    refine ((deleteNamespace_preserves (K := K)).bind (fun _ => ?_) s₁ ⟨rfl, hempty⟩).1
    refine .bind (fun s hs => ?_) fun present => ?_
    · rw [namespaceExists_world]
      exact hs
    · cases present with
      | true => exact .pure _
      | false => exact .update fun _ hs => hs

end

/-! ## Where a preparation breaks off -/

/-- A command of a preparation. -/
inductive Step where
  | delete
  | toRoot (source : Text)
  | toNamespace (netns : Text)
  | create
  | up
  /-- The listing of `_claim`. -/
  | record

def Step.run (K : Kernel) (e : Entry) (live : Netdev) : Step → Service Unit
  | .delete => deleteInterface live.name live.netns
  | .toRoot source => movePhyToRoot K live.phyIndex source
  | .toNamespace netns => movePhyToNamespace K live.phyIndex netns
  | .create => createInterface K live.phyIndex (displayName e) e.base.mode.value.toList e.netns
  | .up => bringInterface true (displayName e) e.netns
  | .record => claim (displayName e) e.netns

/-- How the radio gets where the entry has it. -/
def moves (e : Entry) (live : Netdev) : List Step :=
  match live.netns, e.netns with
  | none, none => []
  | none, some netns => [.toNamespace netns]
  | some source, none => [.toRoot source]
  | some source, some netns =>
    if source = netns then [] else [.toRoot source, .toNamespace netns]

/-- The commands of a preparation, once the namespace is there. -/
def steps (e : Entry) (live : Netdev) : List Step :=
  .delete :: (moves e live ++ [.create, .up, .record])

/-- The namespace of the entry is provided, where it has one. -/
def provide (K : Kernel) (e : Entry) : Service (Option Text) :=
  match e.netns with
  | none => pure none
  | some netns => provideNamespace K netns

/-- Of some commands in a row, the ones before `step` succeed, and `step` fails. -/
inductive Breaks (K : Kernel) (e : Entry) (live : Netdev) :
    List Step → State → Step → State → Prop where
  | here {step : Step} {rest : List Step} {s s' : State}
      (h : step.run K e live s = (.error .runCommand, s')) :
        Breaks K e live (step :: rest) s step s'
  | later {first step : Step} {rest : List Step} {s s₁ s' : State}
      (h : first.run K e live s = (.ok (), s₁)) (hrest : Breaks K e live rest s₁ step s') :
      Breaks K e live (first :: rest) s step s'

/-- Where the radio is when a command is to run. -/
def Step.place (e : Entry) (live : Netdev) : Step → Option Text
  | .delete => live.netns
  | .toRoot _ => live.netns
  | .toNamespace _ => none
  | _ => e.netns

/-- The netdevs when the radio is there, and the new one is not. -/
def World.before (K : Kernel) (w : World) (e : Entry) (live : Netdev) : Step → World
  | .delete => w
  | .toRoot _ => w.delete live.name live.netns
  | .toNamespace _ =>
    match live.netns with
    | none => w.delete live.name live.netns
    | some _ => (w.delete live.name live.netns).move K live.phyIndex none
  | _ => w.arrival K e live

/-- A step that is undone when it fails. -/
def Step.Undone : Step → Prop
  | .delete | .record => False
  | _ => True

/-- What has happened when a command has failed. -/
def Broken (K : Kernel) (w : World) (e : Entry) (live : Netdev) (w' : World) : Step → Prop
  | .up => (w.arrival K e live).create K live.phyIndex (displayName e) e.base.mode.value.toList
      e.netns = some w'
  | .record => ∃ w₁, (w.arrival K e live).create K live.phyIndex (displayName e)
      e.base.mode.value.toList e.netns = some w₁ ∧
      w' = setUp true (displayName e) e.netns w₁
  | step => w' = w.before K e live step

theorem command_error {failure failure' : Failure} {effect : World → Option World} {s s' : State}
    (h : command failure effect s = (.error failure', s')) : s'.world = s.world := by
  unfold command at h
  split at h
  · cases h
    rfl
  · split at h
    · cases h
    · cases h
      rfl

theorem orRestore_eq {step : Service Unit} {live : Netdev} {newName : Text}
    {movedTo created : Option Text} {after : Service Bool} {s s' : State}
    (h : step s = (.ok (), s')) :
    orRestore K step live newName movedTo created after s = after s' := by
  have hmoved : onRunCommand ((fun _ => true) <$> step) (do
      restoreLive K live newName movedTo created
      return false) s = (.ok true, s') := Prog.attempt_ok (Prog.bind_ok h)
  exact Prog.bind_ok hmoved

theorem orRestore_undone {step : Service Unit} {live : Netdev} {newName : Text}
    {movedTo created : Option Text} {after : Service Bool} {s s' : State}
    (h : step s = (.error .runCommand, s')) :
    (orRestore K step live newName movedTo created after s).2 =
      (restoreLive K live newName movedTo created s').2 := by
  have hfailed : onRunCommand ((fun _ => true) <$> step) (do
      restoreLive K live newName movedTo created
      return false) s =
        (do restoreLive K live newName movedTo created; return false : Service Bool) s' :=
    Prog.attempt_error (Prog.bind_error h)
  unfold orRestore
  rcases hr : restoreLive K live newName movedTo created s' with ⟨failure | _, s₁⟩
  · rw [Prog.bind_error (hfailed.trans (Prog.bind_error hr))]
  · rw [Prog.bind_ok (hfailed.trans (Prog.bind_ok hr))]
    rfl

theorem claim_error {name : Text} {netns : Option Text} {failure : Failure} {s s' : State}
    (h : claim name netns s = (.error failure, s')) : s'.world = s.world := by
  have hworld := listInterfaces_world s
  unfold claim at h
  rcases hlist : listInterfaces s with ⟨failure' | inventory, s₁⟩ <;> rw [hlist] at hworld
  · rw [Prog.bind_error hlist] at h
    cases h
    exact hworld
  · rw [Prog.bind_ok hlist] at h
    cases hfind : inventory.find? fun d => d.at name netns with
    | none =>
      rw [hfind] at h
      cases h
    | some d =>
      rw [hfind] at h
      cases h

/-- A command that fails changes nothing. -/
theorem Step.run_error {e : Entry} {live : Netdev} {step : Step} {s s' : State}
    (h : step.run K e live s = (.error .runCommand, s')) : s'.world = s.world := by
  cases step with
  | record => exact claim_error h
  | delete => exact command_error (show deleteInterface _ _ s = _ from h)
  | toRoot source => exact command_error (show movePhyToRoot K _ _ s = _ from h)
  | toNamespace netns => exact command_error (show movePhyToNamespace K _ _ s = _ from h)
  | create => exact command_error (show createInterface K _ _ _ _ s = _ from h)
  | up => exact command_error (show bringInterface _ _ _ s = _ from h)

/-- The undoing of a preparation whose command has failed. -/
def Step.undo (K : Kernel) (e : Entry) (live : Netdev) (created : Option Text) :
    Step → State → State
  | .delete, s | .record, s => s
  | step, s => (restoreLive K live (displayName e) (step.place e live) created s).2

section

variable {e : Entry} {live : Netdev} {created : Option Text} {step : Step} {w : World}
  {s s' : State}

/-- The netdev is created and brought up. -/
def creation (K : Kernel) (e : Entry) (live : Netdev) (target : Option Text) : Service Unit := do
  createInterface K live.phyIndex (displayName e) e.base.mode.value.toList target
  bringInterface true (displayName e) target

theorem addInterface_undone {target movedTo : Option Text}
    (h : creation K e live target s = (.error .runCommand, s')) :
    (addInterface K e live target movedTo created s).2 =
      (restoreLive K live (displayName e) movedTo created s').2 := by
  have hfailed : onRunCommand (creation K e live target) (do
      restoreLive K live (displayName e) movedTo created
      Prog.raise .runCommand) s =
      (do restoreLive K live (displayName e) movedTo created; Prog.raise .runCommand : Service Unit)
        s' := Prog.attempt_error h
  show ((onRunCommand (creation K e live target) _ >>= _) s).2 = _
  rcases hr : restoreLive K live (displayName e) movedTo created s' with ⟨failure | _, s₁⟩
  · rw [Prog.bind_error (hfailed.trans (Prog.bind_error hr))]
  · rw [Prog.bind_error (hfailed.trans (Prog.bind_ok hr))]

theorem addInterface_unrecorded {target movedTo : Option Text} {s₁ : State} {failure : Failure}
    (h : creation K e live target s = (.ok (), s₁))
    (hrecord : claim (displayName e) target s₁ = (.error failure, s')) :
    (addInterface K e live target movedTo created s).2 = s' := by
  have hadded : onRunCommand (creation K e live target) (do
      restoreLive K live (displayName e) movedTo created
      Prog.raise .runCommand) s = (.ok (), s₁) := Prog.attempt_ok h
  show ((onRunCommand (creation K e live target) _ >>= _) s).2 = _
  rw [Prog.bind_ok hadded, Prog.bind_error hrecord]

theorem addInterface_breaks (hw : s.world = w.arrival K e live)
    (h : Breaks K e live [.create, .up, .record] s step s') :
    (addInterface K e live e.netns e.netns created s).2 = step.undo K e live created s' ∧
      Broken K w e live s'.world step := by
  cases h with
  | here hcreate =>
    have hfailed : creation K e live e.netns s = (.error .runCommand, s') := Prog.bind_error hcreate
    exact ⟨addInterface_undone hfailed, (Step.run_error hcreate).trans hw⟩
  | later hcreate h =>
    have hcreated := command_ok (show createInterface _ _ _ _ _ _ = _ from hcreate)
    rw [hw] at hcreated
    cases h with
    | here hup =>
      have hfailed : creation K e live e.netns s = (.error .runCommand, s') :=
        (Prog.bind_ok hcreate).trans hup
      refine ⟨addInterface_undone hfailed, ?_⟩
      show _ = some s'.world
      rw [Step.run_error hup]
      exact hcreated
    | later hup h =>
      cases h with
      | later hrecord h => cases h
      | here hrecord =>
        rename_i s₁ s₂
        have hadded : creation K e live e.netns s = (.ok (), s₂) := (Prog.bind_ok hcreate).trans hup
        refine ⟨addInterface_unrecorded hadded hrecord, _, hcreated, ?_⟩
        have hset := command_ok (show bringInterface _ _ _ _ = _ from hup)
        rw [Option.ite_none_right_eq_some] at hset
        rw [Step.run_error hrecord, ← Option.some.inj hset.2]

theorem delete_ok (h : Step.delete.run K e live s = (.ok (), s')) :
    s'.world = s.world.delete live.name live.netns := by
  have hdelete := command_ok (show deleteInterface _ _ s = _ from h)
  exact (Option.some.inj hdelete).symm

theorem toRoot_ok {source : Text} (h : (Step.toRoot source).run K e live s = (.ok (), s')) :
    s'.world = s.world.move K live.phyIndex none := by
  have hmove := command_ok (show movePhyToRoot K _ _ s = _ from h)
  rw [Option.ite_none_right_eq_some] at hmove
  exact (Option.some.inj hmove.2).symm

theorem toNamespace_ok {netns : Text}
    (h : (Step.toNamespace netns).run K e live s = (.ok (), s')) :
    s'.world = s.world.move K live.phyIndex (some netns) := by
  have hmove := command_ok (show movePhyToNamespace K _ _ s = _ from h)
  rw [Option.ite_none_right_eq_some] at hmove
  exact (Option.some.inj hmove.2).symm

/-- A move that fails is undone; after one that succeeds the rest follows. -/
theorem orRestore_breaks (first : Step) {rest : List Step} {after : Service Bool}
    (hundo : ∀ s, first.undo K e live created s =
      (restoreLive K live (displayName e) (first.place e live) created s).2)
    (hbroken : ∀ s' : State, s'.world = s.world → Broken K w e live s'.world first)
    (hafter : ∀ s₁, first.run K e live s = (.ok (), s₁) → Breaks K e live rest s₁ step s' →
      (after s₁).2 = step.undo K e live created s' ∧ Broken K w e live s'.world step)
    (h : Breaks K e live (first :: rest) s step s') :
    (orRestore K (first.run K e live) live (displayName e) (first.place e live) created after s).2 =
      step.undo K e live created s' ∧ Broken K w e live s'.world step := by
  cases h with
  | here hmove =>
    rw [hundo]
    exact ⟨orRestore_undone hmove, hbroken s' (Step.run_error hmove)⟩
  | later hmove h =>
    rw [orRestore_eq hmove]
    exact hafter _ hmove h

/-- What is undone when a command of a preparation fails, and what has happened then. -/
theorem prepare_breaks {s₀ : State} (hprovide : provide K e s = (.ok created, s₀))
    (h : Breaks K e live (steps e live) s₀ step s') :
    (prepare K e live s).2 = step.undo K e live created s' ∧
      Broken K s₀.world e live s'.world step := by
  obtain ⟨name, phyIndex, netns, type, wdev, up⟩ := live
  cases e with
  | root e =>
    cases hprovide
    cases h with
    | here hdelete => exact ⟨congrArg Prod.snd (Prog.bind_error hdelete), Step.run_error hdelete⟩
    | later hdelete h =>
      have hdeleted := delete_ok hdelete
      have hrun : deleteInterface name netns s = _ := hdelete
      show ((deleteInterface name netns >>= _) s).2 = _ ∧ _
      rw [Prog.bind_ok hrun]
      cases netns with
      | none => exact addInterface_breaks hdeleted h
      | some source =>
        refine orRestore_breaks (.toRoot source) (fun _ => rfl) (fun _ hs => hs.trans hdeleted)
          (fun s₂ hmove h => ?_) h
        exact addInterface_breaks ((toRoot_ok hmove).trans (by rw [hdeleted]; rfl)) h
  | ns e =>
    have hprovide : provideNamespace K e.netns.val s = (.ok created, s₀) := hprovide
    show ((provideNamespace K e.netns.val >>= _) s).2 = _ ∧ _
    rw [Prog.bind_ok hprovide]
    cases h with
    | here hdelete => exact ⟨congrArg Prod.snd (Prog.bind_error hdelete), Step.run_error hdelete⟩
    | later hdelete h =>
      have hdeleted := delete_ok hdelete
      have hrun : deleteInterface name netns s₀ = _ := hdelete
      show ((deleteInterface name netns >>= _) s₀).2 = _ ∧ _
      rw [Prog.bind_ok hrun]
      cases netns with
      | none =>
        refine orRestore_breaks (.toNamespace e.netns.val) (fun _ => rfl)
          (fun _ hs => hs.trans hdeleted) (fun s₂ hmove h => ?_) h
        exact addInterface_breaks ((toNamespace_ok hmove).trans (by rw [hdeleted]; rfl)) h
      | some source =>
        let live : Netdev := ⟨name, phyIndex, some source, type, wdev, up⟩
        have hmoves : moves (.ns e) live = if source = e.netns.val then []
          else [.toRoot source, .toNamespace e.netns.val] := rfl
        have harrival : s₀.world.arrival K (.ns e) live =
            if source = e.netns.val then s₀.world.delete name (some source)
            else ((s₀.world.delete name (some source)).move K phyIndex none).move K phyIndex
              (some e.netns.val) := rfl
        rw [hmoves] at h
        by_cases hsource : source = e.netns.val
        · have hsame : (some source : Option Text) = some e.netns.val := congrArg some hsource
          rw [if_pos hsource] at h harrival
          rw [if_pos hsame]
          exact addInterface_breaks (hdeleted.trans harrival.symm) h
        · have hother : (some source : Option Text) ≠ some e.netns.val := fun heq =>
            hsource (Option.some.inj heq)
          rw [if_neg hsource] at h harrival
          rw [if_neg hother]
          refine orRestore_breaks (.toRoot source) (fun _ => rfl)
            (fun _ hs => hs.trans hdeleted) (fun s₂ hroot h => ?_) h
          have hrooted := (toRoot_ok hroot).trans (congrArg (World.move K · phyIndex none) hdeleted)
          refine orRestore_breaks (.toNamespace e.netns.val) (fun _ => rfl)
            (fun _ hs => hs.trans hrooted) (fun s₃ hmove h => ?_) h
          refine addInterface_breaks ?_ h
          rw [toNamespace_ok hmove, hrooted, harrival]

end

/-! ## When the inventory comes back -/

/-- No netdev of the radio has the name of the new one, where the radio is. -/
def Unmistakable (w : World) (live : Netdev) (newName : Text) (place : Option Text) : Prop :=
  ∀ d ∈ w.netdevs, d.at newName place = true → d.phyIndex ≠ live.phyIndex

/-- When a preparation that fails at a step leaves the inventory as it was. -/
def Atomic (K : Kernel) (w : World) (e : Entry) (live : Netdev) : Step → Prop
  | .delete => True
  | .record =>
    live.netns = e.netns ∧ displayName e = live.name ∧ e.base.mode.value.toList = live.type
  | step => live.type ≠ [] ∧
    Unmistakable (w.before K e live step) live (displayName e) (step.place e live) ∧
    -- The others have their names when the radio has been there and is back.
    SameInventory (w.delete live.name live.netns)
      ((w.before K e live step).back K live (step.place e live))

/-- The commands that restore the original succeed. -/
def Restored (K : Kernel) (e : Entry) (live : Netdev) : Step → State → Prop
  | .delete, _ | .record, _ => True
  | step, s => ∃ s', restoration K live (displayName e) (step.place e live) s = (.ok (), s')

theorem back_netdevs {w w' : World} (h : w.netdevs = w'.netdevs) (live : Netdev)
    (place : Option Text) : (w.back K live place).netdevs = (w'.back K live place).netdevs := by
  have hmove {w w' : World} (h : w.netdevs = w'.netdevs) (target : Option Text) :
      (w.move K live.phyIndex target).netdevs = (w'.move K live.phyIndex target).netdevs := by
    unfold World.move World.upMonitors
    rw [h]
  unfold World.back
  split_ifs
  · exact h
  · split
    · exact hmove (hmove h none) _
    · exact hmove h _
    · exact hmove h _
    · exact h

theorem length_back (w : World) (live : Netdev) (place : Option Text) :
    (w.back K live place).netdevs.length = w.netdevs.length := by
  unfold World.back
  split_ifs
  · rfl
  · split <;> simp only [length_move]

section

variable {w w₁ w₂ : World} {e : Entry} {live : Netdev} {step : Step}

theorem length_arrival (w : World) (e : Entry) (live : Netdev) :
    (w.arrival K e live).netdevs.length =
      (w.delete live.name live.netns).netdevs.length := by
  unfold World.arrival
  dsimp only
  split
  · rfl
  · exact length_move ..
  · exact length_move ..
  · split_ifs
    · rfl
    · rw [length_move, length_move]

theorem length_before (hlive : live ∈ w.netdevs) (hundone : step.Undone) :
    (w.before K e live step).netdevs.length < w.netdevs.length := by
  have hdelete := length_delete hlive
  cases step with
  | delete => exact hundone.elim
  | record => exact hundone.elim
  | toRoot source => exact hdelete
  | toNamespace netns =>
    unfold World.before
    dsimp only
    split
    · exact hdelete
    · rw [length_move]
      exact hdelete
  | create => exact (length_arrival w e live).trans_lt hdelete
  | up => exact (length_arrival w e live).trans_lt hdelete

/-- The new netdev is there only when bringing it up has failed. -/
theorem Broken.cases (hundone : step.Undone) (h : Broken K w e live w₁ step) :
    w₁ = w.before K e live step ∨ (w.before K e live step).create K live.phyIndex (displayName e)
      e.base.mode.value.toList (step.place e live) = some w₁ := by
  cases step with
  | delete => exact hundone.elim
  | record => exact hundone.elim
  | toRoot source => exact Or.inl h
  | toNamespace netns => exact Or.inl h
  | create => exact Or.inl h
  | up => exact Or.inr h

theorem before_namespaces (w : World) (e : Entry) (live : Netdev) (step : Step) :
    (w.before K e live step).namespaces = w.namespaces := by
  cases step with
  | delete => rfl
  | toRoot source => rfl
  | toNamespace netns =>
    unfold World.before
    dsimp only
    split <;> rfl
  | create => exact (arrival_netns w e live).1
  | up => exact (arrival_netns w e live).1
  | record => exact (arrival_netns w e live).1

section

variable {newName type : Text} {place : Option Text}

/-- A netdev in a namespace that is listed is in the inventory. -/
theorem mem_inventory_of_listed (hlisted : ∀ netns, place = some netns → netns ∈ w.listed)
    {d : Netdev} (hd : d ∈ w.netdevs) (hat : d.at newName place = true) : d ∈ w.inventory := by
  have hnetns := (at_iff.1 hat).2
  cases place with
  | none => exact List.mem_append_left _ (List.mem_filter.2 ⟨hd, decide_eq_true hnetns⟩)
  | some netns =>
    refine List.mem_append_right _ (List.mem_flatMap.2 ⟨netns, hlisted netns rfl, ?_⟩)
    exact List.mem_filter.2 ⟨hd, decide_eq_true hnetns⟩

theorem cleared_self (h : Unmistakable w live newName place) :
    w.cleared live newName place = w := by
  refine if_neg fun hany => ?_
  obtain ⟨d, hd, hours⟩ := List.any_eq_true.1 hany
  rw [Bool.and_eq_true, decide_eq_true_eq] at hours
  exact h d (World.mem_inventory hd) hours.1 hours.2

theorem cleared_of_mem (hlisted : ∀ netns, place = some netns → netns ∈ w.listed) {d : Netdev}
    (hd : d ∈ w.netdevs) (hat : d.at newName place = true) (hphy : d.phyIndex = live.phyIndex) :
    w.cleared live newName place = w.delete newName place := by
  refine if_pos (List.any_eq_true.2 ⟨d, mem_inventory_of_listed hlisted hd hat, ?_⟩)
  rw [Bool.and_eq_true, decide_eq_true_eq]
  exact ⟨hat, hphy⟩

/-- The half-created netdev goes, and nothing else. -/
theorem cleared_created (hlisted : ∀ netns, place = some netns → netns ∈ w.listed)
    (h : Unmistakable w live newName place)
    (hbroken : w₁ = w ∨ w.create K live.phyIndex newName type place = some w₁) :
    (w₁.cleared live newName place).netdevs = w.netdevs := by
  rcases hbroken with rfl | hcreate
  · rw [cleared_self h]
  rcases create_cases hcreate with ⟨rfl, -⟩ | ⟨htaken, hw₁⟩
  · rw [cleared_self h]
  · let new : Netdev := ⟨newName, live.phyIndex, place, type, w.nextWdev, false⟩
    have hnew : new.at newName place = true := at_iff.2 ⟨rfl, rfl⟩
    have hnetdevs : w₁.netdevs = w.netdevs ++ [new] := by rw [hw₁]
    have hmem : new ∈ w₁.netdevs := hnetdevs ▸ List.mem_append_right _ List.mem_cons_self
    have hlisted₁ : ∀ netns, place = some netns → netns ∈ w₁.listed := hw₁ ▸ hlisted
    have hphy : new.phyIndex = live.phyIndex := rfl
    rw [cleared_of_mem hlisted₁ hmem hnew hphy]
    show w₁.netdevs.filter _ = _
    rw [hnetdevs]
    rw [List.filter_append, List.filter_cons_of_neg (by rw [hnew]; exact Bool.false_ne_true),
      List.filter_nil, List.append_nil, List.filter_eq_self]
    intro d hd
    rw [World.taken, List.any_eq_false] at htaken
    rw [Bool.not_eq_true', Bool.eq_false_iff]
    exact htaken d hd

/-- A netdev that was there before is deleted for the new one. -/
theorem cleared_lost (hlisted : ∀ netns, place = some netns → netns ∈ w.listed)
    (h : ¬ Unmistakable w live newName place)
    (hbroken : w₁ = w ∨ w.create K live.phyIndex newName type place = some w₁) :
    (w₁.cleared live newName place).netdevs.length < w.netdevs.length := by
  simp only [Unmistakable, not_forall, not_not] at h
  obtain ⟨d, hd, hat, hphy⟩ := h
  have hsame : w₁ = w := by
    rcases hbroken with rfl | hcreate
    · rfl
    rcases create_cases hcreate with ⟨rfl, -⟩ | ⟨htaken, -⟩
    · rfl
    · rw [World.taken, List.any_eq_false] at htaken
      exact absurd hat (htaken d hd)
  rw [hsame, cleared_of_mem hlisted hd hat hphy]
  refine List.length_filter_lt_length_iff_exists.2 ⟨d, hd, ?_⟩
  rw [hat]
  exact Bool.false_ne_true

end

theorem sameInventory_congr {v w w' : World} (h : w.netdevs = w'.netdevs) :
    SameInventory v w ↔ SameInventory v w' := by
  unfold SameInventory World.faces
  rw [h]

theorem length_create {w w' : World} {phyIndex : Nat} {name type : Text} {netns : Option Text}
    (h : w.create K phyIndex name type netns = some w') :
    w'.netdevs.length ≤ w.netdevs.length + 1 := by
  rcases create_cases h with ⟨rfl, -⟩ | ⟨-, rfl⟩
  · exact Nat.le_succ _
  · exact (List.length_append ..).le

/-- The type a netdev is restored with is its own when it has one. -/
theorem restored_type {type : Text} :
    (if type = [] then "managed".toList else type) = type ↔ type ≠ [] := by
  split_ifs with h
  · rw [h]
    decide
  · exact iff_of_true rfl h

/-- The world after a restoring that succeeded. -/
theorem restored_iff (hwf : w.Wf) (hnodup : w.netdevs.Nodup) (hlive : live ∈ w.netdevs)
    (hundone : step.Undone)
    (hlisted : ∀ netns, step.place e live = some netns → netns ∈ w.listed)
    (hbroken : Broken K w e live w₁ step)
    (hcreate : ((w₁.cleared live (displayName e) (step.place e live)).back K live
      (step.place e live)).create K live.phyIndex live.name
        (if live.type = [] then "managed".toList else live.type) live.netns = some w₂) :
    SameInventory w w₂ ↔ Atomic K w e live step := by
  have hlength := length_before (K := K) (e := e) hlive hundone
  have hlisted' : ∀ netns, step.place e live = some netns →
      netns ∈ (w.before K e live step).listed := by
    unfold World.listed
    rw [before_namespaces]
    exact hlisted
  have hatomic : Atomic K w e live step ↔ live.type ≠ [] ∧
      Unmistakable (w.before K e live step) live (displayName e) (step.place e live) ∧
      SameInventory (w.delete live.name live.netns)
        ((w.before K e live step).back K live (step.place e live)) := by
    cases step with
    | delete => exact hundone.elim
    | record => exact hundone.elim
    | toRoot source => exact Iff.rfl
    | toNamespace netns => exact Iff.rfl
    | create => exact Iff.rfl
    | up => exact Iff.rfl
  rw [hatomic]
  by_cases hclear : Unmistakable (w.before K e live step) live (displayName e) (step.place e live)
  · have hcleared := cleared_created hlisted' hclear (hbroken.cases hundone)
    have hback := back_netdevs (K := K) hcleared live (step.place e live)
    rw [same_restored_iff hwf hlive hnodup ?_ hcreate, restored_type, sameInventory_congr hback]
    · exact and_congr_right fun _ => (and_iff_right hclear).symm
    · rw [length_back, hcleared]
      exact hlength
  · refine iff_of_false (not_same_of_length hwf hnodup ?_) fun h => hclear h.2.1
    have hlost := cleared_lost hlisted' hclear (hbroken.cases hundone)
    have hle := length_create hcreate
    rw [length_back] at hle
    omega

theorem faces_setUp (up : Bool) (name : Text) (netns : Option Text) (w : World) :
    (setUp up name netns w).faces = w.faces := by
  unfold World.faces setUp
  rw [List.map_map]
  refine List.map_congr_left fun d _ => ?_
  show Netdev.face (if d.at name netns then { d with up } else d) = d.face
  split_ifs <;> rfl

theorem arrival_same (w : World) (h : live.netns = e.netns) :
    w.arrival K e live = w.delete live.name live.netns := by
  unfold World.arrival
  rw [← h]
  cases live.netns with
  | none => rfl
  | some source => exact if_pos rfl

theorem create_place {w w' : World} {phyIndex : Nat} {name type : Text} {netns : Option Text}
    (h : w.create K phyIndex name type netns = some w') : w.phyNetns phyIndex = netns := by
  unfold World.create at h
  split_ifs at h with hplace
  all_goals exact not_not.1 hplace

/-- Without a record the new netdev stays: the inventory is the same when it is like the old one. -/
theorem unrecorded_iff (hwf : w.Wf) (hnodup : w.netdevs.Nodup) (hlive : live ∈ w.netdevs)
    (hbroken : Broken K w e live w₁ .record) :
    SameInventory w w₁ ↔ Atomic K w e live .record := by
  obtain ⟨w', hcreate, rfl⟩ := hbroken
  have hlength : (w.arrival K e live).netdevs.length < w.netdevs.length :=
    (length_arrival w e live).trans_lt (length_delete hlive)
  unfold SameInventory
  rw [faces_setUp]
  show SameInventory w w' ↔ _
  rw [same_create_iff hwf hnodup hlength hcreate]
  constructor
  · rintro ⟨-, hfaces⟩
    rcases (hfaces live.face).1 (World.mem_faces hlive) with hold | hnew
    · exfalso
      obtain ⟨d, hd, hface⟩ := List.mem_map.1 hold
      have hphy : d.phyIndex = live.phyIndex := congrArg Face.phyIndex hface
      have hnetns : d.netns = live.netns := congrArg Face.netns hface
      have hlocated := (arrival_wf (K := K) hwf e live).located d hd
      rw [hphy, create_place hcreate, hnetns] at hlocated
      rw [arrival_same w hlocated] at hold
      exact not_at_delete hold ⟨rfl, rfl⟩
    · exact ⟨congrArg Face.netns hnew, (congrArg Face.name hnew).symm,
        (congrArg Face.type hnew).symm⟩
  · rintro ⟨hnetns, hname, htype⟩
    rw [arrival_same w hnetns, ← hnetns, hname, htype]
    refine ⟨?_, faces_delete hwf hlive⟩
    rw [Bool.eq_false_iff]
    intro htaken
    obtain ⟨f, hf, h⟩ := taken_iff.1 htaken
    exact not_at_delete hf h

end

/-! ## The namespace is provided first -/

theorem before_withNetns (w : World) (e : Entry) (live : Netdev) (namespaces : List (Text × Nat))
    (nextInode : Nat) (markers : List (Text × Option Nat)) (step : Step) :
    ((w.withNetns namespaces nextInode markers).before K e live step).netdevs =
      (w.before K e live step).netdevs := by
  have harrival := congrArg World.netdevs
    (arrival_withNetns (K := K) w e live namespaces nextInode markers)
  cases step with
  | delete => rfl
  | toRoot source => rfl
  | toNamespace netns =>
    unfold World.before
    dsimp only
    split <;> rfl
  | create => exact harrival
  | up => exact harrival
  | record => exact harrival

theorem atomic_withNetns (w : World) (e : Entry) (live : Netdev) (namespaces : List (Text × Nat))
    (nextInode : Nat) (markers : List (Text × Option Nat)) (step : Step) :
    Atomic K (w.withNetns namespaces nextInode markers) e live step ↔ Atomic K w e live step := by
  have hbefore := before_withNetns (K := K) w e live namespaces nextInode markers step
  have hback := back_netdevs (K := K) hbefore live (step.place e live)
  have hclear : Unmistakable ((w.withNetns namespaces nextInode markers).before K e live step) live
      (displayName e) (step.place e live) ↔
      Unmistakable (w.before K e live step) live (displayName e) (step.place e live) := by
    unfold Unmistakable
    rw [hbefore]
  have hsame := sameInventory_congr (v := w.delete live.name live.netns) hback
  have hundone := and_congr_right fun _ : live.type ≠ [] => and_congr hclear hsame
  cases step with
  | delete => exact Iff.rfl
  | record => exact Iff.rfl
  | toRoot source => exact hundone
  | toNamespace netns => exact hundone
  | create => exact hundone
  | up => exact hundone

section

variable {e : Entry} {live : Netdev} {created : Option Text} {step : Step} {s s₀ s₁ : State}

theorem provide_same (h : provide K e s = (.ok created, s₀)) :
    ∃ namespaces nextInode markers, s₀.world = s.world.withNetns namespaces nextInode markers := by
  cases e with
  | root e =>
    cases h
    exact ⟨_, _, _, rfl⟩
  | ns e => exact (provideNamespace_ok h).same

theorem provide_heard (h : provide K e s = (.ok created, s₀)) (hheard : s.silences = []) :
    s₀.silences = [] := by
  cases e with
  | root e =>
    cases h
    exact hheard
  | ns e =>
    have hprovided := provideNamespace_heard (K := K) e.netns.val s hheard
    rwa [show provideNamespace K e.netns.val s = _ from h] at hprovided

theorem mem_listed_of_inventory {w : World} {netns : Text} (h : live ∈ w.inventory)
    (hnetns : live.netns = some netns) : netns ∈ w.listed := by
  rcases List.mem_append.1 h with h | h
  · have hnone : live.netns = none := of_decide_eq_true (List.mem_filter.1 h).2
    rw [hnetns] at hnone
    cases hnone
  · obtain ⟨netns', hlisted, h⟩ := List.mem_flatMap.1 h
    have hsome : live.netns = some netns' := of_decide_eq_true (List.mem_filter.1 h).2
    rw [hnetns] at hsome
    cases hsome
    exact hlisted

/-- The radio is never in a namespace that is not listed. -/
theorem place_listed (hlive : live ∈ s.world.inventory) (h : provide K e s = (.ok created, s₀))
    (netns : Text) (hplace : step.place e live = some netns) : netns ∈ s₀.world.listed := by
  have hsource (hnetns : live.netns = some netns) : netns ∈ s₀.world.listed := by
    have hlisted := mem_listed_of_inventory hlive hnetns
    cases e with
    | root e =>
      cases h
      exact hlisted
    | ns e =>
      obtain ⟨hmem, hvalid⟩ := List.mem_filter.1 hlisted
      exact List.mem_filter.2 ⟨provideNamespace_keeps h hmem, hvalid⟩
  have htarget (hnetns : e.netns = some netns) : netns ∈ s₀.world.listed := by
    cases e with
    | root e => cases hnetns
    | ns e =>
      cases hnetns
      exact List.mem_filter.2 ⟨(provideNamespace_ok h).exists_netns, decide_eq_true e.netns.2⟩
  cases step with
  | delete => exact hsource hplace
  | toRoot source => exact hsource hplace
  | toNamespace netns => cases hplace
  | create => exact htarget hplace
  | up => exact htarget hplace
  | record => exact htarget hplace

variable (K e live) in
theorem Step.run_preserves (step : Step) :
    Prog.Preserves (fun s : State => s.silences = []) (step.run K e live) := by
  cases step with
  | delete => exact command_preserves _ _
  | toRoot source => exact command_preserves _ _
  | toNamespace netns => exact command_preserves _ _
  | create => exact command_preserves _ _
  | up => exact command_preserves _ _
  | record =>
    refine .bind (fun s hs => ?_) fun inventory => ?_
    · have hlist := @listInterfaces_leads True (fun _ => True) s ⟨trivial, fun _ => hs⟩
      rcases hr : listInterfaces s with ⟨failure | inventory, s'⟩ <;>
        rw [Prog.Ends, hr] at hlist
      · exact hlist.2 trivial
      · exact hlist.1.2 trivial
    · cases inventory.find? fun d => d.at (displayName e) e.netns with
      | none => exact .pure _
      | some d => exact .update fun _ hs => hs

theorem Breaks.heard {commands : List Step} (h : Breaks K e live commands s step s₁)
    (hheard : s.silences = []) : s₁.silences = [] := by
  induction h with
  | @here step _ s _ hrun =>
    have hpreserved := Step.run_preserves K e live step s hheard
    rwa [hrun] at hpreserved
  | @later first _ _ s _ _ hrun _ ih =>
    have hpreserved := Step.run_preserves K e live first s hheard
    rw [hrun] at hpreserved
    exact ih hpreserved

theorem restoreLive_netdevs {newName : Text} {place : Option Text}
    (h : restoration K live newName place s = (.ok (), s₁)) (created : Option Text) :
    (restoreLive K live newName place created s).2.world.netdevs = s₁.world.netdevs := by
  have hrestored : onRunCommand (restoration K live newName place) (pure ()) s = (.ok (), s₁) :=
    Prog.attempt_ok h
  rw [restoreLive_eq, Prog.bind_ok hrestored]
  cases created with
  | none => rfl
  | some netns => exact deleteNamespaceIfEmpty_netdevs netns s₁

/-- The preparation gets past the commands before `step`, which fails. -/
def FailsAt (K : Kernel) (e : Entry) (live : Netdev) (s : State) (step : Step)
    (s₁ : State) : Prop :=
  ∃ created s₀, provide K e s = (.ok created, s₀) ∧ Breaks K e live (steps e live) s₀ step s₁

/-- A preparation that fails at a step, and restores what it can, leaves the inventory as it was
exactly when it is `Atomic` there. -/
theorem prepare_atomic_iff (hwf : s.world.Wf) (hnodup : s.world.netdevs.Nodup)
    (hlive : live ∈ s.world.inventory) (hheard : s.silences = [])
    (hfails : FailsAt K e live s step s₁) (hrestored : Restored K e live step s₁) :
    SameInventory s.world (prepare K e live s).2.world ↔ Atomic K s.world e live step := by
  obtain ⟨created, s₀, hprovide, hbreaks⟩ := hfails
  obtain ⟨hprepare, hbroken⟩ := prepare_breaks hprovide hbreaks
  obtain ⟨namespaces, nextInode, markers, hs₀⟩ := provide_same hprovide
  have hwf₀ : s₀.world.Wf := hs₀ ▸ ⟨hwf.unique, hwf.located⟩
  have hnodup₀ : s₀.world.netdevs.Nodup := hs₀ ▸ hnodup
  have hlive₀ : live ∈ s₀.world.netdevs := by
    have hmem : live ∈ s.world.netdevs := World.mem_inventory hlive
    rw [hs₀]
    exact hmem
  have hatomic : Atomic K s₀.world e live step ↔ Atomic K s.world e live step :=
    hs₀ ▸ atomic_withNetns ..
  have hsame (w : World) : SameInventory s₀.world w ↔ SameInventory s.world w := hs₀ ▸ Iff.rfl
  have hundone (hundone : step.Undone)
      (hundo : (step.undo K e live created s₁) =
        (restoreLive K live (displayName e) (step.place e live) created s₁).2)
      (hrestored : ∃ s', restoration K live (displayName e) (step.place e live) s₁ = (.ok (), s')) :
      SameInventory s.world (step.undo K e live created s₁).world ↔
        Atomic K s.world e live step := by
    obtain ⟨s₂, hrestore⟩ := hrestored
    have hcreate := restoration_ok (hbreaks.heard (provide_heard hprovide hheard)) hrestore
    rw [hundo, sameInventory_congr (restoreLive_netdevs hrestore created), ← hsame, ← hatomic]
    exact restored_iff hwf₀ hnodup₀ hlive₀ hundone (place_listed hlive hprovide) hbroken hcreate
  rw [hprepare]
  cases step with
  | delete =>
    rw [← hsame]
    have hunchanged : s₁.world = s₀.world := hbroken
    exact iff_of_true (fun f => by rw [show (Step.delete.undo K e live created s₁) = s₁ from rfl,
      hunchanged]) trivial
  | record =>
    rw [← hsame, ← hatomic]
    exact unrecorded_iff hwf₀ hnodup₀ hlive₀ hbroken
  | toRoot source => exact hundone trivial rfl hrestored
  | toNamespace netns => exact hundone trivial rfl hrestored
  | create => exact hundone trivial rfl hrestored
  | up => exact hundone trivial rfl hrestored

end

/-! ## A radio with two netdevs -/

def rootRadio : Netdev := ⟨"wlan0".toList, 0, none, "managed".toList, 1, false⟩

/-- A radio in root with a `wlan0` and a monitor; `lab` exists. -/
def pairedRadio (monitor : Text) : World :=
  { twoRadios with
    netdevs := [rootRadio, ⟨monitor, 0, none, "monitor".toList, 2, false⟩]
    phyNetns := fun _ => none }

/-- Whether a run has ended with a `RunCommandError`. -/
def failed {α : Type} : Except Failure α → Bool
  | .error .runCommand => true
  | _ => false

theorem error_of_failed {α : Type} {x : Service α} {s : State} (h : failed (x s).1 = true) :
    x s = (.error .runCommand, (x s).2) := by
  refine Prod.ext ?_ rfl
  cases hx : (x s).1 with
  | ok a =>
    rw [hx] at h
    cases h
  | error failure =>
    rw [hx] at h
    cases failure with
    | runCommand => rfl
    | networkNamespace => cases h
    | os => cases h

/-- The entry moves `wlan0` to `lab` and calls it `lab0`. -/
def renamed : Entry := labEntry ⟨"lab0".toList, by decide⟩

/-- The preparation until the netdev is to be added. -/
def approach : Service Unit := do
  let _ ← provide plainKernel renamed
  Step.delete.run plainKernel renamed rootRadio
  (Step.toNamespace "lab".toList).run plainKernel renamed rootRadio

def adding : Service Unit := Step.create.run plainKernel renamed rootRadio

theorem failsAt_create {s : State} (happroach : (approach s).1.toOption = some ())
    (hadding : failed (adding (approach s).2).1 = true) :
    FailsAt plainKernel renamed rootRadio s .create (adding (approach s).2).2 := by
  obtain ⟨created, s₀, hprovide, hrest⟩ := bind_ok_inv (ok_of_toOption happroach)
  obtain ⟨_, s₁, hdelete, hmove⟩ := bind_ok_inv hrest
  exact ⟨created, s₀, hprovide, .later hdelete (.later hmove (.here (error_of_failed hadding)))⟩

theorem restored_create {s : State} (h : (restoration plainKernel rootRadio "lab0".toList
    (some "lab".toList) s).1.toOption = some ()) :
    Restored plainKernel renamed rootRadio .create s := ⟨_, ok_of_toOption h⟩

/-- Adding `lab0` fails, and the radio is back in root with its `wlan0` and its monitor. -/
theorem prepare_atomic_iff_monitor : SameInventory (pairedRadio "mon0".toList)
    (prepare plainKernel renamed rootRadio
      { world := pairedRadio "mon0".toList, faults := [false, false, true] }).2.world := by
  have hwf : (pairedRadio "mon0".toList).Wf := ⟨by decide +kernel, by decide +kernel⟩
  have hlive : rootRadio ∈ (pairedRadio "mon0".toList).inventory := by decide +kernel
  have hfails := failsAt_create
    (s := { world := pairedRadio "mon0".toList, faults := [false, false, true] })
    (by decide +kernel) (by decide +kernel)
  have hrestored := restored_create (s := (adding (approach
    { world := pairedRadio "mon0".toList, faults := [false, false, true] }).2).2)
      (by decide +kernel)
  refine (prepare_atomic_iff hwf (by decide +kernel) hlive rfl hfails hrestored).2
    ⟨by decide, ?_, ?_⟩
  · unfold Unmistakable
    decide +kernel
  · have hfaces : ((pairedRadio "mon0".toList).delete rootRadio.name rootRadio.netns).faces =
        (((pairedRadio "mon0".toList).before plainKernel renamed rootRadio .create).back plainKernel
          rootRadio (Step.create.place renamed rootRadio)).faces := by
      decide +kernel
    exact fun f => by rw [hfaces]

/-- Where the monitor is called `lab0`, adding another one is refused, and the monitor is deleted.
-/
theorem not_atomic_sibling : ¬∀ (K : Kernel) (e : Entry) (live : Netdev) (s s' s₁ : State)
    (step : Step), s.world.Wf → s.world.netdevs.Nodup → s.silences = [] →
    findLive e s = (.ok (some live), s') → FailsAt K e live s step s₁ → Restored K e live step s₁ →
    SameInventory s.world (prepare K e live s).2.world := by
  intro h
  have hwf : (pairedRadio "lab0".toList).Wf := ⟨by decide +kernel, by decide +kernel⟩
  have hlive := ok_of_toOption (x := findLive renamed) (s := { world := pairedRadio "lab0".toList })
    (a := some rootRadio) (by decide +kernel)
  have hfails := failsAt_create (s := { world := pairedRadio "lab0".toList })
    (by decide +kernel) (by decide +kernel)
  have hrestored := restored_create (s := (adding (approach
    { world := pairedRadio "lab0".toList }).2).2) (by decide +kernel)
  have hsame := h plainKernel renamed rootRadio { world := pairedRadio "lab0".toList } _ _ _ hwf
    (by decide +kernel) rfl hlive hfails hrestored
  have hlost : (⟨"lab0".toList, 0, none, "monitor".toList⟩ : Face) ∉ (prepare plainKernel renamed
      rootRadio { world := pairedRadio "lab0".toList }).2.world.faces := by
    decide +kernel
  exact hlost ((hsame _).1 (by decide +kernel))

end WlanpiCore.Namespaces
