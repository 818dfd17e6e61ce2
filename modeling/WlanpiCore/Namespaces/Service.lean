import WlanpiCore.Config.Schema
import WlanpiCore.Lib.Prog

/-!
# Radios in network namespaces

`NetworkNamespaceService` as far as it moves radios: the netdevs and phys as the kernel has them,
the commands that change them, and the service's functions over these. A command may fail, told by
`State.faults`, and then changes nothing; a listing whose failure is only logged may fail, told by
`State.silences`. What the service keeps is the marker of each namespace it
made, with the namespace's inode, and the record of each netdev it made, with the wdev id.

Left out is what does not move a radio: supplicants, DHCP, apps and their files. Where stopping them
can fail, `aside` stands for it.
-/

namespace WlanpiCore.Namespaces

/-- A netdev as the kernel has it. The wdev id is its identity. -/
structure Netdev where
  name : Text
  phyIndex : Nat
  netns : Option Text
  type : Text
  wdev : Nat
  up : Bool := false
  deriving DecidableEq

/-- `owned/<netns>/<name>`, holding a wdev id. -/
structure Record where
  netns : Option Text
  name : Text
  wdev : Nat
  deriving DecidableEq

structure World where
  netdevs : List Netdev
  phys : List Nat
  phyNetns : Nat → Option Text
  /-- Names and inodes. -/
  namespaces : List (Text × Nat)
  /-- Links in a namespace that are not wireless, loopback left out. -/
  links : List (Text × Text) := []
  nextWdev : Nat
  nextInode : Nat
  /-- The markers, with what they record. -/
  markers : List (Text × Option Nat) := []
  owned : List Record := []
  /-- `foreign_users` finds a supplicant or hostapd of another tool on this name. -/
  foreign : Option Text → Text → Bool := fun _ _ => false
  /-- `capturing_links` has the netdev with this wdev id; it has none where it cannot read. -/
  capturing : Nat → Bool := fun _ => false

structure State where
  world : World
  /-- Whether the next commands fail; the ones after them do not. -/
  faults : List Bool := []
  /-- Whether the next listings fail of those that count as empty then. -/
  silences : List Bool := []

inductive Failure where
  | runCommand
  | networkNamespace
  | os

abbrev Service := Prog State Failure

/-- What the kernel decides: the name of a netdev whose name is taken where it moves to, and whether
adding a netdev of a taken name is refused as "File exists". -/
structure Kernel where
  fresh : (taken : List Text) → { name : Text // name ∉ taken }
  fileExists : Bool

/-! ## Commands -/

/-- A command: it fails, or has its effect where the kernel allows it. -/
def command (failure : Failure) (effect : World → Option World) : Service Unit := fun s =>
  match s.faults with
  | true :: faults => (.error failure, { s with faults })
  | faults =>
    match effect s.world with
    | some world => (.ok (), { s with world, faults := faults.tail })
    | none => (.error failure, { s with faults := faults.tail })

/-- A command that reads. -/
def query {α : Type} (failure : Failure) (read : World → α) : Service α := fun s =>
  match s.faults with
  | true :: faults => (.error failure, { s with faults })
  | faults => (.ok (read s.world), { s with faults := faults.tail })

/-- A listing whose failure is logged and counts as an empty list. -/
def quietly {α : Type} (read : World → List α) : Service (List α) := fun s =>
  match s.silences with
  | true :: silences => (.ok [], { s with silences })
  | silences => (.ok (read s.world), { s with silences := silences.tail })

/-- Something that can fail and does not move a radio. -/
def aside : Service Unit := command .runCommand some

/-- `except RunCommandError` -/
def onRunCommand {α : Type} (x : Service α) (handler : Service α) : Service α :=
  Prog.attempt x fun failure =>
    match failure with
    | .runCommand => handler
    | failure => Prog.raise failure

def modify (f : World → World) : Service Unit := Prog.update fun s => { s with world := f s.world }

def Netdev.at (d : Netdev) (name : Text) (netns : Option Text) : Bool :=
  d.name = name && d.netns = netns

def World.delete (w : World) (name : Text) (netns : Option Text) : World :=
  { w with netdevs := w.netdevs.filter fun d => !d.at name netns }

/-- `delete_interface`; that there is no such netdev is no failure. -/
def deleteInterface (name : Text) (netns : Option Text) : Service Unit :=
  command .runCommand fun w => some (w.delete name netns)

variable (K : Kernel)

def World.taken (w : World) (name : Text) (netns : Option Text) : Bool :=
  w.netdevs.any fun d => d.at name netns

def World.create (w : World) (phyIndex : Nat) (name type : Text) (netns : Option Text) :
    Option World :=
  if w.phyNetns phyIndex ≠ netns then none
  else if w.taken name netns then if K.fileExists then some w else none
  else some { w with
    netdevs := w.netdevs ++ [⟨name, phyIndex, netns, type, w.nextWdev, false⟩]
    nextWdev := w.nextWdev + 1 }

/-- `create_interface` -/
def createInterface (phyIndex : Nat) (name type : Text) (netns : Option Text) : Service Unit :=
  command .runCommand fun w => w.create K phyIndex name type netns

def setUp (up : Bool) (name : Text) (netns : Option Text) (w : World) : World :=
  { w with netdevs := w.netdevs.map fun d => if d.at name netns then { d with up } else d }

/-- `bring_interface_up` and `bring_interface_down` -/
def bringInterface (up : Bool) (name : Text) (netns : Option Text) : Service Unit :=
  command .runCommand fun w => if w.taken name netns then some (setUp up name netns w) else none

/-- `_up_monitors`: the monitors of a phy that are up. -/
def World.upMonitors (w : World) (phyIndex : Nat) : List Text :=
  (w.netdevs.filter fun d => d.phyIndex = phyIndex && d.type = "monitor".toList && d.up).map
    (·.name)

/-- The netdevs when a phy has moved. A netdev whose name is taken is renamed, all go down, and
`_bring_up` brings a monitor up that arrived under one of the names in `up`. -/
def arrive (phyIndex : Nat) (target : Option Text) (up : List Text) :
    List Text → List Netdev → List Netdev
  | _, [] => []
  | taken, d :: ds =>
    if d.phyIndex = phyIndex then
      let name : Text := if d.name ∈ taken then K.fresh taken else d.name
      { d with name, netns := target, up := d.type = "monitor".toList && decide (name ∈ up) } ::
        arrive phyIndex target up (name :: taken) ds
    else d :: arrive phyIndex target up taken ds

def World.move (w : World) (phyIndex : Nat) (target : Option Text) : World :=
  let there := w.netdevs.filter fun d => d.netns = target && d.phyIndex ≠ phyIndex
  { w with
    netdevs := arrive K phyIndex target (w.upMonitors phyIndex) (there.map (·.name)) w.netdevs
    phyNetns := fun index => if index = phyIndex then target else w.phyNetns index }

/-- `move_phy_to_root`, run in `netns`. -/
def movePhyToRoot (phyIndex : Nat) (netns : Text) : Service Unit :=
  command .runCommand fun w =>
    if w.phyNetns phyIndex = some netns then some (w.move K phyIndex none) else none

/-- `move_phy_to_namespace`, run in root. -/
def movePhyToNamespace (phyIndex : Nat) (netns : Text) : Service Unit :=
  command .runCommand fun w =>
    if w.phyNetns phyIndex = none ∧ netns ∈ w.namespaces.map (·.1) then
      some (w.move K phyIndex (some netns))
    else none

def listPhys (netns : Text) : Service (List Nat) :=
  query .runCommand fun w => w.phys.filter fun index => w.phyNetns index = some netns

/-- `get_interfaces_in_namespace`: every name that begins with `lo` is taken for loopback. -/
def interfacesIn (netns : Text) : Service (List Text) :=
  query .runCommand fun w =>
    ((w.netdevs.filter fun d => d.netns = some netns).map (·.name) ++
      (w.links.filter fun link => link.1 = netns).map (·.2)).filter fun name =>
        !"lo".toList.isPrefixOf name

def listNamespaces : Service (List Text) :=
  query .networkNamespace fun w => w.namespaces.map (·.1)

/-- `namespace_exists` -/
def namespaceExists (netns : Text) : Service Bool :=
  (fun names => decide (netns ∈ names)) <$> quietly fun w => w.namespaces.map (·.1)

def createNamespace (netns : Text) : Service Unit :=
  command .networkNamespace fun w =>
    if netns ∈ w.namespaces.map (·.1) then none
    else some { w with
      namespaces := w.namespaces ++ [(netns, w.nextInode)]
      nextInode := w.nextInode + 1 }

/-- A namespace goes, and the phys in it return to root. -/
def World.deleteNamespace (w : World) (netns : Text) : World :=
  let inside := w.phys.filter fun index => w.phyNetns index = some netns
  let w := inside.foldl (fun w index => w.move K index none) w
  { w with namespaces := w.namespaces.filter fun n => n.1 ≠ netns }

/-- `delete_namespace` with `raise_on_fail=False` -/
def deleteNamespace (netns : Text) : Service Unit := do
  if ← namespaceExists netns then
    Prog.attempt (command .networkNamespace fun w => some (w.deleteNamespace K netns)) fun _ =>
      pure ()

/-! ## What is Core's -/

/-- The marker records the inode of the namespace that has the name now. -/
def World.current (w : World) (marker : Text × Option Nat) : Bool :=
  match marker.2 with
  | some inode => w.namespaces.lookup marker.1 = some inode
  | none => false

/-- The namespaces that Core created. -/
def World.core (w : World) : List Text := (w.markers.filter w.current).map (·.1)

/-- `core_namespaces`, which drops the other markers; it answers with none where it cannot list. -/
def coreNamespaces : Service (List Text) := fun s =>
  match s.silences with
  | true :: silences => (.ok [], { s with silences })
  | silences =>
    (.ok s.world.core, { s with
      world := { s.world with markers := s.world.markers.filter s.world.current }
      silences := silences.tail })

def unlinkMarker (netns : Text) : Service Unit :=
  modify fun w => { w with markers := w.markers.filter fun marker => marker.1 ≠ netns }

def Record.at (r : Record) (name : Text) (netns : Option Text) : Bool :=
  r.name = name && r.netns = netns

/-- `_release` -/
def release (name : Text) (netns : Option Text) : Service Unit :=
  modify fun w => { w with owned := w.owned.filter fun r => !r.at name netns }

def listIn : List Text → Service (List Netdev)
  | [] => pure []
  | netns :: rest => do
    let here ← quietly fun w => w.netdevs.filter fun d => d.netns = some netns
    let there ← listIn rest
    return here ++ there

/-- `list_interfaces_all_namespaces`; a namespace whose name Core refuses is skipped. -/
def listInterfaces : Service (List Netdev) := do
  let root ← query .runCommand fun w => w.netdevs.filter fun d => d.netns = none
  let names ← listNamespaces
  let rest ← listIn (names.filter fun name => validateNamespaceName name = none)
  return root ++ rest

/-- `_claim` -/
def claim (name : Text) (netns : Option Text) : Service Unit := do
  let inventory ← listInterfaces
  match inventory.find? fun d => d.at name netns with
  | none => pure ()
  | some d =>
    modify fun w => { w with
      owned := ⟨netns, name, d.wdev⟩ :: w.owned.filter fun r => !r.at name netns }

/-- The record that `_is_owned` finds: the netdev's own, or the first of its name elsewhere. -/
def World.recordOf (w : World) (live : Netdev) : Option Record :=
  (w.owned.find? fun r => r.at live.name live.netns && r.wdev = live.wdev).or
    (w.owned.find? fun r => r.name = live.name && r.wdev = live.wdev)

/-- `_is_owned`, which re-keys the record it finds. -/
def isOwned (live : Netdev) : Service Bool := do
  let s ← Prog.get
  match s.world.recordOf live with
  | none => return false
  | some found =>
    if found.netns = live.netns then return true
    modify fun w => { w with
      owned := { found with netns := live.netns } ::
        w.owned.filter fun r => r ≠ found && !r.at live.name live.netns }
    return true

/-- `wlanpi<digits>` -/
def isWlanpiName (name : Text) : Bool :=
  "wlanpi".toList.isPrefixOf name && name.drop 6 ≠ [] && (name.drop 6).all Char.isDigit

/-- The first of some monitors, none of them Core's, that a program is capturing on. -/
def anyCapturing (capturing : Nat → Bool) : List Netdev → Service Bool
  | [] => pure false
  | other :: rest => do
    let mine ← isOwned other
    let later ← anyCapturing capturing rest
    return (!mine && capturing other.wdev) || later

/-- `in_use_reason`: whether there is one. -/
def inUse (live : Netdev) : Service Bool := do
  let s ← Prog.get
  if live.type ≠ [] ∧ live.type ≠ "managed".toList ∧ live.type ≠ "monitor".toList then return true
  if s.world.foreign live.netns live.name then return true
  let inventory ← listInterfaces
  anyCapturing s.world.capturing (inventory.filter fun other =>
    other.phyIndex = live.phyIndex && other.netns = live.netns && other.name ≠ live.name &&
      other.type = "monitor".toList && !isWlanpiName other.name)

/-! ## Resolution -/

def displayName (e : Entry) : Text :=
  if e.base.ifaceDisplayName.val = [] then e.base.interface.val else e.base.ifaceDisplayName.val

/-- The matches of `_find_live`, best first: in the entry's namespace, in root, elsewhere. -/
def sortMatches (netns : Option Text) (found : List Netdev) : List Netdev :=
  (found.filter fun d => d.netns = netns) ++
    (found.filter fun d => d.netns ≠ netns && d.netns = none) ++
    found.filter fun d => d.netns ≠ netns && d.netns ≠ none

/-- `_find_live` on an inventory, given Core's namespaces. -/
def resolve (core : List Text) (inventory : List Netdev) (e : Entry) : Option Netdev :=
  let visible := inventory.filter fun d =>
    d.netns = none || core.any (some · = d.netns) || d.netns = e.netns
  match sortMatches e.netns (visible.filter fun d => d.name = e.base.interface.val) with
  | first :: _ => some first
  | [] =>
    if displayName e ≠ e.base.interface.val then
      visible.find? fun d => d.at (displayName e) e.netns
    else none

/-- `_find_live` -/
def findLive (e : Entry) : Service (Option Netdev) := do
  let core ← coreNamespaces
  let inventory ← listInterfaces
  return resolve core inventory e

/-! ## Preparing and undoing -/

/-- `_delete_namespace_if_empty` -/
def deleteNamespaceIfEmpty (netns : Text) : Service Unit := do
  let remaining ← onRunCommand
    (do
      let phys ← listPhys netns
      let links ← interfacesIn netns
      return decide (phys ≠ [] ∨ links ≠ []))
    (pure true)
  if remaining then return ()
  deleteNamespace K netns
  if ← namespaceExists netns then return ()
  unlinkMarker netns

/-- `_restore_live` -/
def restoreLive (live : Netdev) (newName : Text) (movedTo : Option Text)
    (createdNamespace : Option Text) : Service Unit := do
  onRunCommand
    (do
      let inventory ← listInterfaces
      if inventory.any fun other => other.at newName movedTo && other.phyIndex = live.phyIndex then
        deleteInterface newName movedTo
      if movedTo ≠ live.netns then
        match movedTo with
        | some netns => movePhyToRoot K live.phyIndex netns
        | none => pure ()
        match live.netns with
        | some netns => movePhyToNamespace K live.phyIndex netns
        | none => pure ()
      createInterface K live.phyIndex live.name
        (if live.type = [] then "managed".toList else live.type) live.netns)
    (pure ())
  match createdNamespace with
  | some netns => deleteNamespaceIfEmpty K netns
  | none => pure ()

/-- A step of a preparation; when it fails, the original is restored. -/
def orRestore (step : Service Unit) (live : Netdev) (newName : Text) (movedTo : Option Text)
    (createdNamespace : Option Text) (after : Service Bool) : Service Bool := do
  let moved ← onRunCommand ((fun _ => true) <$> step) do
    restoreLive K live newName movedTo createdNamespace
    return false
  if moved then after else return false

/-- The end of both preparations: the netdev is created, brought up and recorded. -/
def addInterface (e : Entry) (live : Netdev) (target : Option Text) (movedTo : Option Text)
    (createdNamespace : Option Text) : Service Bool := do
  onRunCommand
    (do
      createInterface K live.phyIndex (displayName e) e.base.mode.value.toList target
      bringInterface true (displayName e) target)
    (do
      restoreLive K live (displayName e) movedTo createdNamespace
      Prog.raise .runCommand)
  claim (displayName e) target
  return true

/-- `_prepare_root` -/
def prepareRoot (e : Entry) (live : Netdev) : Service Bool := do
  deleteInterface live.name live.netns
  match live.netns with
  | none => addInterface K e live none none none
  | some netns =>
    orRestore K (movePhyToRoot K live.phyIndex netns) live (displayName e) live.netns none
      (addInterface K e live none none none)

/-- The move in `_prepare_namespace`; `movedTo` is where the phy is when the second command fails.
-/
def moveInto (e : Entry) (live : Netdev) (netns : Text) (createdNamespace : Option Text) :
    Service Bool :=
  match live.netns with
  | none =>
    orRestore K (movePhyToNamespace K live.phyIndex netns) live (displayName e) none
      createdNamespace
      (addInterface K e live (some netns) (some netns) createdNamespace)
  | some source =>
    orRestore K (movePhyToRoot K live.phyIndex source) live (displayName e) (some source)
      createdNamespace
      (orRestore K (movePhyToNamespace K live.phyIndex netns) live (displayName e) none
        createdNamespace (addInterface K e live (some netns) (some netns) createdNamespace))

/-- The namespace of an entry, made and marked if it does not exist; the answer is whether it was.
-/
def provideNamespace (netns : Text) : Service (Option Text) := do
  if ← namespaceExists netns then return none
  createNamespace netns
  Prog.attempt
    (command .os fun w => some { w with
      markers := (netns, w.namespaces.lookup netns) ::
        w.markers.filter fun marker => marker.1 ≠ netns })
    fun failure =>
      match failure with
      | .os => do
        deleteNamespace K netns
        unlinkMarker netns
        Prog.raise .os
      | failure => Prog.raise failure
  return some netns

/-- `_prepare_namespace` -/
def prepareNamespace (e : Entry) (netns : Text) (live : Netdev) : Service Bool := do
  let createdNamespace ← provideNamespace K netns
  deleteInterface live.name live.netns
  if live.netns = some netns then
    addInterface K e live (some netns) (some netns) createdNamespace
  else moveInto K e live netns createdNamespace

/-- The preparation of an entry. -/
def prepare (e : Entry) (live : Netdev) : Service Bool :=
  match e.netns with
  | none => prepareRoot K e live
  | some netns => prepareNamespace K e netns live

/-! ## Reverting -/

/-- `_take_down` -/
def takeDown (name : Text) : Service Unit := onRunCommand (bringInterface false name none) (pure ())

/-- A step of `_recreate_in_root`: when it fails, the original is restored and the failure goes on.
-/
def orRaise (step : Service Unit) (live : Netdev) (name : Text) (movedTo : Option Text) :
    Service Unit :=
  onRunCommand step do
    restoreLive K live name movedTo none
    Prog.raise .runCommand

/-- `_recreate_in_root` -/
def recreateInRoot (live : Netdev) (name : Text) : Service Unit := do
  release live.name live.netns
  deleteInterface live.name live.netns
  match live.netns with
  | some netns => orRaise K (movePhyToRoot K live.phyIndex netns) live name live.netns
  | none => pure ()
  orRaise K (createInterface K live.phyIndex name "managed".toList none) live name none

/-- `revert_to_root` for the netdev that `_find_live` answered with. -/
def revertLive (e : Entry) (live : Netdev) : Service Unit := do
  aside
  match live.netns with
  | none =>
    if live.name ≠ e.base.interface.val ∨ live.type ≠ "managed".toList then
      recreateInRoot K live e.base.interface.val
    else do
      takeDown live.name
      release live.name none
  | some netns =>
    recreateInRoot K live e.base.interface.val
    let core ← coreNamespaces
    if netns ∈ core then deleteNamespaceIfEmpty K netns

/-- `revert_to_root` of an entry. -/
def revertToRoot (e : Entry) : Service Unit := do
  match ← findLive e with
  | none => pure ()
  | some live => revertLive K e live

/-- The netdevs Core created among some. -/
def ownedOf : List Netdev → Service (List Netdev)
  | [] => pure []
  | d :: ds => do
    let mine ← isOwned d
    let rest ← ownedOf ds
    return if mine then d :: rest else rest

def releaseAll (netns : Text) : List Netdev → Service Unit
  | [] => pure ()
  | d :: ds => do
    release d.name (some netns)
    releaseAll netns ds

def returnPhys (netns : Text) (inventory : List Netdev) : List Nat → Service Unit
  | [] => pure ()
  | phyIndex :: rest => do
    let travelling ← ownedOf
      (inventory.filter fun d => d.netns = some netns && d.phyIndex = phyIndex)
    onRunCommand
      (do
        movePhyToRoot K phyIndex netns
        releaseAll netns travelling)
      (pure ())
    returnPhys netns inventory rest

/-- `_return_namespace_phys` -/
def returnNamespacePhys (netns : Text) : Service Unit := do
  aside
  match ← onRunCommand (some <$> listPhys netns) (pure none) with
  | none => pure ()
  | some phys =>
    let inventory ← listInterfaces
    returnPhys K netns inventory phys

def revertNamespaces : List Text → Service Unit
  | [] => pure ()
  | netns :: rest => do
    returnNamespacePhys K netns
    deleteNamespaceIfEmpty K netns
    revertNamespaces rest

/-- `revert_to_root(None)` -/
def revertAll : Service Unit := do
  let core ← coreNamespaces
  revertNamespaces K core

/-- `is_core_managed` -/
def isCoreManaged (e : Entry) : Service Bool := do
  match ← findLive e with
  | none => return true
  | some live =>
    match live.netns with
    | some netns => return decide (netns ∈ (← coreNamespaces))
    | none => isOwned live

/-- `may_undo` -/
def mayUndo (e : Entry) : Service Bool := do
  match ← findLive e with
  | none => return true
  | some live =>
    match live.netns with
    | some netns => return decide (netns ∈ (← coreNamespaces))
    | none => do
      if !(← isOwned live) then return false
      if ← inUse live then
        release live.name none
        return false
      return true

/-- `deactivate_config` -/
def deactivateConfig (e : Entry) : Service Unit := do
  let live ← findLive e
  let managed ← match live with
    | some _ => isCoreManaged e
    | none => pure true
  if managed then
    -- `remove_network`
    if e.base.security.isSome then onRunCommand aside (pure ())
    if live.isSome then
      if ← mayUndo e then revertToRoot K e

end WlanpiCore.Namespaces
