import WlanpiCore.Lib.Prog
import WlanpiCore.Lib.Text

/-!
# Creating a VLAN

`LiveVLANs.create_vlan`: a chain of `ip` and `dhcpcd` commands, each of which may fail, run out of
time or not start at all. The kernel keeps one link for each name, so it refuses to add a second one
and to delete a missing one; a command that runs out of time may have done its work.

**Theorem (`createVlan_allOrNothing_iff`).** When `create_vlan` raises and its cleanup did what it
was run for, the links are those from before, exactly outside the runs of `Strands`: the new link
was added and could not be set up, or adding it ran out of time after the kernel had done it. In
both the code raises without deleting the link; only a failing address is cleaned up after.
-/

namespace WlanpiCore.Vlan

open Prog

/-! ## Commands -/

inductive Command where
  | addrShow (name : Text)
  | linkAdd (parent name : Text) (vlanId : Int)
  | linkUp (name : Text)
  | addrAdd (address : Text) (extras : List Text) (name : Text) (lifetimes : List Text)
  | dhcpcd (waitip : List Text) (name : Text)
  | linkDelete (name : Text)
  deriving DecidableEq

def Command.argv : Command → List Text
  | .addrShow name => ["ip", "-j", "addr", "show"].map String.toList ++ [name]
  | .linkAdd parent name vlanId =>
    ["ip", "link", "add", "link"].map String.toList ++ [parent, "name".toList, name] ++
      ["type", "vlan", "id"].map String.toList ++ [(toString vlanId).toList]
  | .linkUp name => ["ip", "link", "set", "up"].map String.toList ++ [name]
  | .addrAdd address extras name lifetimes =>
    ["ip", "addr", "add"].map String.toList ++ [address] ++ extras ++
      ["dev".toList, name] ++ lifetimes
  | .dhcpcd waitip name => ["dhcpcd", "-b"].map String.toList ++ waitip ++ [name]
  | .linkDelete name => ["ip", "link", "delete"].map String.toList ++ [name]

/-- How a command ends. -/
inductive Outcome where
  | exited (stdout stderr : Text) (returnCode : Int)
  /-- `TimeoutExpired`, before or after the command took effect. -/
  | timedOut (applied : Bool) (text : Text)
  /-- The `OSError` for a program that does not start. -/
  | notStarted (text : Text)
  deriving DecidableEq

/-- The command took effect. -/
def Outcome.applied : Outcome → Bool
  | .exited _ _ returnCode => returnCode = 0
  | .timedOut applied _ => applied
  | .notStarted _ => false

/-- The end of a command that the kernel refuses. -/
def Outcome.refused : Outcome → Outcome
  | .exited stdout stderr returnCode =>
    if returnCode = 0 then .exited stdout "RTNETLINK answers".toList 2
    else .exited stdout stderr returnCode
  | .timedOut _ text => .timedOut false text
  | .notStarted text => .notStarted text

/-- `CommandResult` -/
structure CommandResult where
  stdout : Text
  stderr : Text
  returnCode : Int

def CommandResult.success (r : CommandResult) : Bool := r.returnCode = 0

inductive Exc where
  | runCommand (errorMsg : Text) (returnCode : Int)
  /-- A timeout, or an exception of a program that does not start. -/
  | other (text : Text)
  | vlanExists (errorMsg : Text)
  | vlanCreation (errorMsg : Text)
  deriving DecidableEq

/-- `str(e)` -/
def Exc.text : Exc → Text
  | .runCommand errorMsg returnCode => errorMsg ++ s!" (exit code {returnCode})".toList
  | .other text => text
  | .vlanExists errorMsg => errorMsg
  | .vlanCreation errorMsg => errorMsg

/-- What comes from outside: how the `n`-th command ends, unless the kernel refuses it. -/
structure Env where
  outcome : List Text → Nat → Outcome
  /-- The listing of the VLAN interfaces in `LiveVLANs()`, which only reads. -/
  vlanInterfaces : Except Exc Unit

structure World where
  /-- The names of the links. -/
  links : List Text
  /-- The commands run so far. -/
  log : List (Command × Outcome)

abbrev Live (α : Type) := Prog World Exc α

namespace World

variable (w : World)

def refuses : Command → Bool
  | .linkAdd _ name _ => w.links.contains name
  | .linkDelete name => !w.links.contains name
  | _ => false

/-- The links after a command took effect. -/
def linksAfter : Command → List Text
  | .linkAdd _ name _ => name :: w.links
  | .linkDelete name => w.links.filter (· ≠ name)
  | _ => w.links

/-- How the next command ends. -/
def next (E : Env) (c : Command) : Outcome :=
  if w.refuses c then (E.outcome c.argv w.log.length).refused else E.outcome c.argv w.log.length

def ran (E : Env) (c : Command) : World where
  links := if (w.next E c).applied then w.linksAfter c else w.links
  log := w.log ++ [(c, w.next E c)]

end World

/-- What `run_command` makes of a command's end. -/
def Outcome.result (raiseOnFail : Bool) : Outcome → Except Exc CommandResult
  | .exited stdout stderr returnCode =>
    if raiseOnFail ∧ returnCode ≠ 0 then .error (.runCommand stderr returnCode)
    else .ok { stdout, stderr, returnCode }
  | .timedOut _ text => .error (.other text)
  | .notStarted text => .error (.other text)

section

variable (E : Env)

/-- `run_command` -/
def runCommand (c : Command) (raiseOnFail : Bool) : Live CommandResult :=
  fun w => ((w.next E c).result raiseOnFail, w.ran E c)

/-! ## `create_vlan` -/

/-- `address.scope`: a name or a number. -/
inductive Scope where
  | name (text : Text)
  | number (n : Int)
  deriving DecidableEq

/-- What `IPInterfaceAddress` holds of an address that was validated. -/
structure IPInterfaceAddress where
  family : Text
  localAddress : Text
  prefixlen : Int
  broadcast : Option Text
  anycast : Option Text
  scope : Scope
  dynamic : Bool
  validLifeTime : Option Int
  preferredLifeTime : Option Int

/-- An option for a field that is set and not empty. -/
def textOption (flag : String) : Option Text → List Text
  | some (c :: text) => [flag.toList, c :: text]
  | _ => []

/-- An option for a number that is set and not zero. -/
def numberOption (flag : String) : Option Int → List Text
  | some n => if n = 0 then [] else [flag.toList, (toString n).toList]
  | none => []

def Scope.option : Scope → List Text
  | .name text => textOption "scope" (some text)
  | .number n => numberOption "scope" (some n)

def IPInterfaceAddress.lifetimes (address : IPInterfaceAddress) : List Text :=
  numberOption "valid_lft" address.validLifeTime ++
    numberOption "preferred_lft" address.preferredLifeTime

/-- `f"{address.local}/{address.prefixlen}"` -/
def IPInterfaceAddress.text (address : IPInterfaceAddress) : Text :=
  address.localAddress ++ '/' :: (toString address.prefixlen).toList

/-- The loop gives a dynamic address the placeholder that DHCP replaces. -/
def IPInterfaceAddress.placed (address : IPInterfaceAddress) : IPInterfaceAddress :=
  if address.dynamic then { address with localAddress := "0.0.0.0".toList, prefixlen := 24 }
  else address

/-- `f"{if_name}.{vlan_id}"` -/
def vlanName (ifName : Text) (vlanId : Int) : Text := ifName ++ '.' :: (toString vlanId).toList

/-- `check_if_vlan_exists` -/
def checkIfVlanExists (ifName : Text) (vlanId : Int) : Live Bool := do
  return (← runCommand E (.addrShow (vlanName ifName vlanId)) false).success

def waitip (family : Text) : List Text :=
  if family = "inet".toList then ["--waitip".toList, ['4']]
  else if family = "inet6".toList then ["--waitip".toList, ['6']]
  else []

/-- `start_dhcp_for_vlan` -/
def startDhcpForVlan (ifName : Text) (vlanId : Int) (family : Text) : Live Unit :=
  discard (runCommand E (.dhcpcd (waitip family) (vlanName ifName vlanId)) true)

/-- The `try` of the loop. -/
def addAddress (ifName : Text) (vlanId : Int) (address : IPInterfaceAddress) : Live Unit :=
  if address.dynamic then do
    discard (runCommand E
      (.addrAdd address.placed.text address.scope.option (vlanName ifName vlanId) address.lifetimes)
        true)
    startDhcpForVlan E ifName vlanId address.family
  else
    discard (runCommand E
      (.addrAdd address.text (textOption "broadcast" address.broadcast ++
        textOption "anycast" address.anycast ++ address.scope.option)
        (vlanName ifName vlanId) address.lifetimes) true)

/-- `VLANCreationError` from another exception. -/
def creationError (text : Text) (e : Exc) : Exc := .vlanCreation (text ++ ": ".toList ++ e.text)

/-- The loop over the addresses. The first that fails takes the VLAN with it. -/
def addAddresses (ifName : Text) (vlanId : Int) : List IPInterfaceAddress → Live Unit
  | [] => return ()
  | address :: addresses => do
    attempt (addAddress E ifName vlanId address) fun e => do
      discard (runCommand E (.linkDelete (vlanName ifName vlanId)) false)
      raise (creationError ("Failed to add addresses ".toList ++ address.placed.text ++
        " to interface ".toList ++ vlanName ifName vlanId) e)
    addAddresses ifName vlanId addresses

/-- `Failed to … VLAN 10 on interface eth0` -/
def failure (what : String) (ifName : Text) (vlanId : Int) : Text :=
  s!"Failed to {what} VLAN {vlanId} on interface ".toList ++ ifName

/-- A command whose failure is a `VLANCreationError`. -/
def creationStep (what : String) (ifName : Text) (vlanId : Int) (c : Command) : Live Unit :=
  attempt (discard (runCommand E c true)) fun e =>
    raise (creationError (failure what ifName vlanId) e)

/-- The part of `create_vlan` behind its check. -/
def buildVlan (ifName : Text) (vlanId : Int) (addresses : List IPInterfaceAddress) : Live Unit := do
  creationStep E "create" ifName vlanId (.linkAdd ifName (vlanName ifName vlanId) vlanId)
  creationStep E "raise" ifName vlanId (.linkUp (vlanName ifName vlanId))
  addAddresses E ifName vlanId addresses

/-- `create_vlan` -/
def createVlan (ifName : Text) (vlanId : Int) (addresses : List IPInterfaceAddress) :
    Live Unit := do
  lift E.vlanInterfaces
  if ← checkIfVlanExists E ifName vlanId then
    raise (.vlanExists (s!"VLAN {vlanId} already exists on ".toList ++ ifName))
  else buildVlan E ifName vlanId addresses

end

/-! ## All or nothing -/

/-- `create_vlan` leaves the links as they were when it raises, provided the kernel did what the
cleanup asked for. -/
def AllOrNothing (E : Env) (ifName : Text) (vlanId : Int) (addresses : List IPInterfaceAddress)
    (w : World) : Prop :=
  Ends (createVlan E ifName vlanId addresses) w fun r w' => ∀ e, r = .error e →
    (∀ o, (.linkDelete (vlanName ifName vlanId), o) ∈ w'.log.drop w.log.length → o.applied = true) →
    ∀ link, link ∈ w'.links ↔ link ∈ w.links

/-- `run_command` raises for this end. -/
def Outcome.Raises (o : Outcome) : Prop := ∃ e, o.result true = .error e

/-- The check finds no VLAN of this name, the kernel adds the link, and either this command or the
one that sets the link up raises. -/
def Strands (E : Env) (ifName : Text) (vlanId : Int) (w : World) : Prop :=
  let name := vlanName ifName vlanId
  let w₁ := w.ran E (.addrShow name)
  let w₂ := w₁.ran E (.linkAdd ifName name vlanId)
  E.vlanInterfaces = .ok () ∧
    (∃ r : CommandResult, (w.next E (.addrShow name)).result false = .ok r ∧ r.success = false) ∧
    (w₁.next E (.linkAdd ifName name vlanId)).applied = true ∧
    ((w₁.next E (.linkAdd ifName name vlanId)).Raises ∨ (w₂.next E (.linkUp name)).Raises)

section

variable {E : Env}

/-! ## Single commands -/

/-- What the kernel refuses has no effect. -/
theorem Outcome.refused_applied (o : Outcome) : o.refused.applied = false := by
  cases o with
  | exited stdout stderr returnCode =>
    by_cases h : returnCode = 0
    · simp [Outcome.refused, h, Outcome.applied]
    · simp [Outcome.refused, h, Outcome.applied]
  | timedOut applied text => rfl
  | notStarted text => rfl

/-- A command without effect that `run_command` lets pass was not asked to raise. -/
theorem Outcome.applied_of_result {o : Outcome} {r : CommandResult} (h : o.result true = .ok r) :
    o.applied = true := by
  cases o with
  | exited stdout stderr returnCode =>
    by_cases hcode : returnCode = 0
    · simp [Outcome.applied, hcode]
    · simp [Outcome.result, hcode] at h
  | timedOut applied text => cases h
  | notStarted text => cases h

theorem World.next_applied {w : World} {c : Command} (h : (w.next E c).applied = true) :
    w.refuses c = false := by
  by_contra hrefuses
  unfold World.next at h
  rw [if_pos (by simpa using hrefuses), Outcome.refused_applied] at h
  cases h

@[simp] theorem World.ran_log (w : World) (c : Command) :
    (w.ran E c).log = w.log ++ [(c, w.next E c)] := rfl

/-- A command that neither adds nor deletes a link. -/
def Command.keepsLinks : Command → Bool
  | .linkAdd .. | .linkDelete _ => false
  | _ => true

theorem World.ran_links {w : World} {c : Command} (h : c.keepsLinks = true) :
    (w.ran E c).links = w.links := by
  have hafter : w.linksAfter c = w.links := by
    cases c <;> first | rfl | cases h
  show (if _ then w.linksAfter c else w.links) = w.links
  rw [hafter, ite_self]

theorem runCommand_ends (c : Command) (w : World) :
    Ends (discard (runCommand E c true)) w fun r w' =>
      w' = w.ran E c ∧ ((∃ e, r = .error e) ↔ (w.next E c).Raises) := by
  show Ends (runCommand E c true >>= fun _ => pure ()) w _
  rw [ends_bind]
  unfold Ends runCommand Outcome.Raises
  rcases (w.next E c).result true with e | r
  · exact ⟨rfl, by simp⟩
  · exact ⟨rfl, by simp⟩

theorem creationStep_ends (what : String) (ifName : Text) (vlanId : Int) (c : Command) (w : World) :
    Ends (creationStep E what ifName vlanId c) w fun r w' =>
      w' = w.ran E c ∧ ((∃ e, r = .error e) ↔ (w.next E c).Raises) := by
  unfold creationStep
  rw [ends_attempt]
  refine (runCommand_ends c w).mono fun r w' ⟨hw, hr⟩ => ?_
  cases r with
  | ok u => exact ⟨hw, hr⟩
  | error e => exact ⟨hw, ⟨fun _ => hr.1 ⟨e, rfl⟩, fun _ => ⟨_, rfl⟩⟩⟩

/-- The cleanup runs its delete whatever comes of it, and ends in an exception. -/
theorem cleanup_ends (name : Text) (e : Exc) (w : World) :
    Ends (do discard (runCommand E (.linkDelete name) false); raise e : Live Unit) w fun r w' =>
      (∃ e', r = .error e') ∧ w' = w.ran E (.linkDelete name) := by
  show Ends ((runCommand E (.linkDelete name) false >>= fun _ => pure ()) >>= fun _ => raise e) w _
  rw [ends_bind, ends_bind]
  unfold Ends runCommand
  rcases (w.next E (.linkDelete name)).result false with e' | r
  · exact ⟨⟨e', rfl⟩, rfl⟩
  · exact ⟨⟨e, rfl⟩, rfl⟩

/-! ## The addresses -/

/-- Commands were run, and the links stayed. -/
structure Steady (w w' : World) : Prop where
  links : w'.links = w.links
  log : w.log.length ≤ w'.log.length

theorem Steady.refl (w : World) : Steady w w := ⟨rfl, le_rfl⟩

theorem Steady.trans {w w' w'' : World} (h : Steady w w') (h' : Steady w' w'') : Steady w w'' :=
  ⟨h'.links.trans h.links, h.log.trans h'.log⟩

theorem Steady.ran {w : World} {c : Command} (h : c.keepsLinks = true) : Steady w (w.ran E c) :=
  ⟨World.ran_links h, by simp⟩

theorem addAddress_ends (ifName : Text) (vlanId : Int) (address : IPInterfaceAddress) (w : World) :
    Ends (addAddress E ifName vlanId address) w fun _ w' => Steady w w' := by
  unfold addAddress
  by_cases hdynamic : address.dynamic = true
  · rw [if_pos hdynamic, ends_bind]
    refine (runCommand_ends _ w).mono fun r w' ⟨hw, _⟩ => ?_
    subst hw
    cases r with
    | error e => exact .ran rfl
    | ok u =>
      unfold startDhcpForVlan
      refine (runCommand_ends _ _).mono fun r w' ⟨hw, _⟩ => ?_
      subst hw
      exact .trans (.ran rfl) (.ran rfl)
  · rw [if_neg hdynamic]
    refine (runCommand_ends _ w).mono fun r w' ⟨hw, _⟩ => ?_
    subst hw
    exact .ran rfl

/-- The loop ends with all addresses added, or with the delete of the VLAN. -/
theorem addAddresses_ends (ifName : Text) (vlanId : Int) (addresses : List IPInterfaceAddress)
    (w : World) :
    Ends (addAddresses E ifName vlanId addresses) w fun r w' =>
      (r = .ok () ∧ Steady w w') ∨
      ∃ o, (.linkDelete (vlanName ifName vlanId), o) ∈ w'.log.drop w.log.length ∧
        (o.applied = true → w'.links = w.links.filter (· ≠ vlanName ifName vlanId)) := by
  induction addresses generalizing w with
  | nil => exact Or.inl ⟨rfl, .refl w⟩
  | cons address addresses ih =>
    unfold addAddresses
    rw [ends_bind, ends_attempt]
    refine (addAddress_ends ifName vlanId address w).mono fun r w₁ hw₁ => ?_
    cases r with
    | ok u =>
      refine (ih w₁).mono fun r w₂ h => ?_
      rcases h with ⟨hr, hw₂⟩ | ⟨o, ho, hlinks⟩
      · exact Or.inl ⟨hr, hw₁.trans hw₂⟩
      · refine Or.inr ⟨o, List.drop_subset_drop_left _ hw₁.log ho, ?_⟩
        intro happlied
        rw [hlinks happlied, hw₁.links]
    | error e =>
      refine (cleanup_ends _ _ w₁).mono fun r w₂ ⟨⟨e', hr⟩, hw₂⟩ => ?_
      subst hr hw₂
      refine Or.inr ⟨w₁.next E (.linkDelete (vlanName ifName vlanId)), ?_, fun happlied => ?_⟩
      · rw [World.ran_log, List.drop_append_of_le_length hw₁.log]
        exact List.mem_append_right _ List.mem_cons_self
      · show (if _ then _ else _) = _
        rw [if_pos happlied, ← hw₁.links]
        rfl

/-! ## The whole run -/

theorem World.ran_linkAdd {w : World} {parent name : Text} {vlanId : Int}
    (h : (w.next E (.linkAdd parent name vlanId)).applied = true) :
    name ∉ w.links ∧ (w.ran E (.linkAdd parent name vlanId)).links = name :: w.links := by
  refine ⟨?_, if_pos h⟩
  have hrefuses := World.next_applied h
  simpa [World.refuses] using hrefuses

/-- The link was not there and is now, behind an exception and with no delete. -/
structure LeavesLink (name : Text) (w : World) (r : Except Exc Unit) (w' : World) : Prop where
  raised : ∃ e, r = .error e
  new : name ∉ w.links
  left : name ∈ w'.links
  noDelete : ∃ new, w'.log = w.log ++ new ∧ ∀ o, (.linkDelete name, o) ∉ new

/-- An exception leaves the links as they were, if the kernel did what the cleanup asked for. -/
def KeepsLinks (name : Text) (w : World) (r : Except Exc Unit) (w' : World) : Prop :=
  ∀ e, r = .error e →
    (∀ o, (.linkDelete name, o) ∈ w'.log.drop w.log.length → o.applied = true) →
    ∀ link, link ∈ w'.links ↔ link ∈ w.links

/-- Once the link is up, the loop over the addresses deletes it before it raises. -/
theorem addAddresses_keeps {ifName : Text} {vlanId : Int} (addresses : List IPInterfaceAddress)
    {w w₁ : World} (hnew : vlanName ifName vlanId ∉ w.links)
    (hlinks : w₁.links = vlanName ifName vlanId :: w.links) (hlog : w.log.length ≤ w₁.log.length) :
    Ends (addAddresses E ifName vlanId addresses) w₁ fun r w' =>
      KeepsLinks (vlanName ifName vlanId) w r w' := by
  refine (addAddresses_ends ifName vlanId addresses w₁).mono fun r w' h e he hdelete link => ?_
  rcases h with ⟨hok, -⟩ | ⟨o, ho, hdeleted⟩
  · rw [hok] at he
    cases he
  have hmem := List.drop_subset_drop_left _ hlog ho
  rw [hdeleted (hdelete o hmem), hlinks, List.mem_filter, List.mem_cons]
  have hne : link ∈ w.links → link ≠ vlanName ifName vlanId := fun hlink heq => hnew (heq ▸ hlink)
  constructor
  · intro ⟨hmem, hother⟩
    exact hmem.resolve_left (by simpa using hother)
  · intro hlink
    exact ⟨Or.inr hlink, by simpa using hne hlink⟩

theorem Outcome.applied_of_quiet {o : Outcome} (h : ¬o.Raises) : o.applied = true := by
  rcases hresult : o.result true with e | r
  · exact absurd ⟨e, hresult⟩ h
  · exact Outcome.applied_of_result hresult

/-- Behind its check, `create_vlan` keeps to all or nothing unless the link was added and this
command or the next raised. -/
theorem buildVlan_ends (ifName : Text) (vlanId : Int) (addresses : List IPInterfaceAddress)
    (w : World) :
    let name := vlanName ifName vlanId
    let add := Command.linkAdd ifName name vlanId
    let strands := (w.next E add).applied = true ∧
      ((w.next E add).Raises ∨ ((w.ran E add).next E (.linkUp name)).Raises)
    Ends (buildVlan E ifName vlanId addresses) w fun r w' =>
      (strands ∧ LeavesLink name w r w') ∨ (¬strands ∧ KeepsLinks name w r w') := by
  intro name add strands
  unfold buildVlan
  rw [ends_bind]
  refine (creationStep_ends "create" ifName vlanId add w).mono fun r w₁ ⟨hw₁, hr⟩ => ?_
  subst hw₁
  cases r with
  | error e =>
    have hraises := hr.1 ⟨e, rfl⟩
    by_cases happlied : (w.next E add).applied = true
    · obtain ⟨hnew, hlinks⟩ := World.ran_linkAdd happlied
      refine Or.inl ⟨⟨happlied, Or.inl hraises⟩, ⟨e, rfl⟩, hnew, ?_, ?_⟩
      · rw [hlinks]
        exact List.mem_cons_self
      · exact ⟨_, rfl, by simp [add]⟩
    · refine Or.inr ⟨fun h => happlied h.1, fun e he hdelete link => ?_⟩
      have hlinks : (w.ran E add).links = w.links := if_neg happlied
      rw [hlinks]
  | ok u =>
    have hquiet : ¬(w.next E add).Raises := fun h => by cases hr.2 h with | intro e he => cases he
    have happlied := Outcome.applied_of_quiet hquiet
    obtain ⟨hnew, hlinks⟩ := World.ran_linkAdd happlied
    dsimp only
    rw [ends_bind]
    refine (creationStep_ends "raise" ifName vlanId (.linkUp name) (w.ran E add)).mono
      fun r w₂ ⟨hw₂, hr₂⟩ => ?_
    subst hw₂
    have hlinks₂ : ((w.ran E add).ran E (.linkUp name)).links = name :: w.links := by
      rw [World.ran_links rfl, hlinks]
    cases r with
    | error e =>
      refine Or.inl ⟨⟨happlied, Or.inr (hr₂.1 ⟨e, rfl⟩)⟩, ⟨e, rfl⟩, hnew, ?_, ?_⟩
      · rw [hlinks₂]
        exact List.mem_cons_self
      · exact ⟨_, List.append_assoc _ _ _, by simp [add]⟩
    | ok u =>
      have hup : ¬((w.ran E add).next E (.linkUp name)).Raises :=
        fun h => by cases hr₂.2 h with | intro e he => cases he
      refine (addAddresses_keeps addresses hnew hlinks₂ (by simp)).mono fun r w₃ h => ?_
      exact Or.inr ⟨fun hfail => hfail.2.elim hquiet hup, h⟩

/-- The check of `create_vlan` finds no VLAN. -/
def Absent (E : Env) (name : Text) (w : World) : Prop :=
  E.vlanInterfaces = .ok () ∧
    ∃ r : CommandResult, (w.next E (.addrShow name)).result false = .ok r ∧ r.success = false

theorem createVlan_absent {ifName : Text} {vlanId : Int} {addresses : List IPInterfaceAddress}
    {w : World} (h : Absent E (vlanName ifName vlanId) w) :
    createVlan E ifName vlanId addresses w =
      buildVlan E ifName vlanId addresses (w.ran E (.addrShow (vlanName ifName vlanId))) := by
  obtain ⟨hlist, r, hr, hsuccess⟩ := h
  have hrun : runCommand E (.addrShow (vlanName ifName vlanId)) false w =
      (.ok r, w.ran E (.addrShow (vlanName ifName vlanId))) := by
    unfold runCommand
    rw [hr]
  have hcheck : checkIfVlanExists E ifName vlanId w =
      (.ok false, w.ran E (.addrShow (vlanName ifName vlanId))) := by
    unfold checkIfVlanExists
    rw [bind_ok hrun, hsuccess]
    rfl
  unfold createVlan
  rw [hlist, lift_ok, pure_bind, bind_ok hcheck]
  rfl

/-- Otherwise nothing but the check is run. -/
theorem createVlan_not_absent {ifName : Text} {vlanId : Int} {addresses : List IPInterfaceAddress}
    {w : World} (h : ¬Absent E (vlanName ifName vlanId) w) :
    Ends (createVlan E ifName vlanId addresses) w fun _ w' => w'.links = w.links := by
  unfold createVlan
  rw [ends_bind, ends_lift]
  rcases hlist : E.vlanInterfaces with e | u
  · rfl
  dsimp only
  unfold checkIfVlanExists
  rw [bind_assoc]
  have hrun : runCommand E (.addrShow (vlanName ifName vlanId)) false w =
      ((w.next E (.addrShow (vlanName ifName vlanId))).result false,
        w.ran E (.addrShow (vlanName ifName vlanId))) := rfl
  rcases hresult : (w.next E (.addrShow (vlanName ifName vlanId))).result false with e | r
  · rw [hresult] at hrun
    rw [ends_bind_error hrun]
    exact World.ran_links rfl
  have hfound : r.success = true := by
    by_contra hnot
    exact h ⟨hlist, r, hresult, by simpa using hnot⟩
  rw [hresult] at hrun
  rw [ends_bind_ok hrun, pure_bind, hfound, if_pos rfl, ends_raise]
  exact World.ran_links rfl

/-- `create_vlan` keeps to all or nothing exactly outside the runs of `Strands`. -/
theorem createVlan_allOrNothing_iff (E : Env) (ifName : Text) (vlanId : Int)
    (addresses : List IPInterfaceAddress) (w : World) :
    AllOrNothing E ifName vlanId addresses w ↔ ¬Strands E ifName vlanId w := by
  by_cases habsent : Absent E (vlanName ifName vlanId) w
  · have hbuild := buildVlan_ends (E := E) ifName vlanId addresses
      (w.ran E (.addrShow (vlanName ifName vlanId)))
    unfold AllOrNothing
    rw [Ends, createVlan_absent habsent]
    unfold Ends at hbuild
    rcases hbuild with ⟨⟨happlied, hraises⟩, ⟨e, he⟩, hnew, hleft, new, hlog, hnone⟩ | ⟨hsafe, hall⟩
    · refine ⟨fun h => ?_, fun h => absurd ⟨habsent.1, habsent.2, happlied, hraises⟩ h⟩
      have hsame := h e he (fun o ho => ?_) (vlanName ifName vlanId)
      · rw [World.ran_links rfl] at hnew
        exact absurd (hsame.1 hleft) hnew
      · rw [hlog, World.ran_log, List.append_assoc, List.drop_left] at ho
        rcases List.mem_append.1 ho with ho | ho
        · simp at ho
        · exact absurd ho (hnone o)
    · refine ⟨fun _ h => hsafe h.2.2, fun _ e he hdelete link => ?_⟩
      rw [hall e he (fun o ho => hdelete o ?_) link, World.ran_links rfl]
      exact List.drop_subset_drop_left _ (by simp) ho
  · refine ⟨fun _ h => habsent ⟨h.1, h.2.1⟩, fun _ => ?_⟩
    refine (createVlan_not_absent habsent).mono fun r w' hlinks e _ _ link => ?_
    rw [hlinks]

end

/-! ## A link that cannot be set up -/

/-- `eth0` is down: the VLAN is added and cannot be set up. -/
def downEnv : Env where
  outcome argv _ :=
    if argv.take 4 = ["ip", "link", "set", "up"].map String.toList then
      .exited [] "RTNETLINK answers: Network is down".toList 2
    else if argv.take 2 = ["ip", "-j"].map String.toList then
      .exited [] "Device \"eth0.10\" does not exist.".toList 1
    else .exited [] [] 0
  vlanInterfaces := .ok ()

/-- The call raises and leaves `eth0.10` behind. -/
theorem not_allOrNothing_down : ¬AllOrNothing downEnv "eth0".toList 10
    [] ⟨["eth0".toList], []⟩ := by
  intro h
  have hrun : (createVlan downEnv "eth0".toList 10 [] ⟨["eth0".toList], []⟩).1 =
      .error (.vlanCreation
        ("Failed to raise VLAN 10 on interface eth0: " ++
          "RTNETLINK answers: Network is down (exit code 2)").toList) := by
    decide +kernel
  have hlinks : (createVlan downEnv "eth0".toList 10 [] ⟨["eth0".toList], []⟩).2.links =
      ["eth0.10".toList, "eth0".toList] := by decide +kernel
  have hlog :
    ((createVlan downEnv "eth0".toList 10 [] ⟨["eth0".toList], []⟩).2.log.map Prod.fst).contains
      (.linkDelete "eth0.10".toList) = false := by decide +kernel
  have hsame := h _ hrun (fun o ho => ?_) "eth0.10".toList
  · rw [hlinks] at hsame
    revert hsame
    decide
  · have hmem := List.mem_map_of_mem (f := Prod.fst) (List.mem_of_mem_drop ho)
    rw [← List.contains_iff_mem] at hmem
    exact absurd (hmem.symm.trans hlog) (by decide)

end WlanpiCore.Vlan
