import WlanpiCore.Scan.Pause
import WlanpiCore.Adapter.IwDev
import WlanpiCore.Config.Validation
import WlanpiCore.Lib.Json
import WlanpiCore.Lib.Prog
import Mathlib.Data.Finset.Lattice.Lemmas
import Mathlib.Data.Finset.SDiff
import Mathlib.Data.List.Infix
import Mathlib.Data.List.Lex
import Mathlib.Data.Char

/-!
# A call of `run_interface_scan`

One call, with every command it issues and every exception a command can end in. Which commands
fail, and with what, is the environment's choice (`Env`), and it may depend on all that was issued
before. What the scan's output is parsed to is a parameter (`Parsers`): the parsers may raise, or
return anything.
-/

namespace WlanpiCore.Scan

open Text

/-! ## Commands -/

inductive Command where
  /-- `readlink -f /sys/class/net/<iface>/device/driver` -/
  | readDriver (iface : Iface)
  /-- `iw dev` -/
  | iwDev
  /-- `ip -o link show up` -/
  | linksUp
  /-- `ss -0 -a -n -H` -/
  | sockets
  /-- `ip -j link show dev <iface>` -/
  | linkShow (iface : Iface)
  /-- `ip link set <iface> up`, or `down` -/
  | setState (iface : Iface) (up : Bool)
  | wpaCli (iface : Iface) (verb : Text)
  /-- `iw dev <iface> scan` -/
  | iwScan (iface : Iface)
  /-- `iw dev <iface> info` -/
  | iwInfo (iface : Iface)
  /-- the register writes of `clear_drop_other_uc` -/
  | clearDropOtherUc (phy : Text)
  deriving DecidableEq

/-- The command does not set a link state. -/
def Command.Quiet (c : Command) : Prop := ∀ iface up, c ≠ .setState iface up

structure CommandResult where
  stdout : Text
  stderr : Text
  returnCode : Int

inductive Exc where
  /-- `RunCommandError` -/
  | runCommand (message : Text) (returnCode : Int)
  | value (message : String)
  | scanInProgress (iface : Iface) (netns : Option Text)
  | monitorInUse (iface : Iface) (monitors : List Iface) (netns : Option Text)
  | scanNotSupported (iface : Iface) (netns : Option Text)
  | runtime (iface : Iface)
  /-- Any other exception: `OSError`, `TimeoutExpired`, `RecursionError`. -/
  | other (name : Text)

structure World where
  /-- The commands issued so far. -/
  issued : List Command
  /-- `_active_scans` -/
  active : Finset Key

abbrev ScanProg := Prog World Exc

/-- The names in `flags` of the first link, as `ip -j link show` prints it. -/
def linkFlags (depth : Nat) (iface : Iface) (stdout : Text) : Except Exc (List Json) :=
  match Json.loads depth stdout with
  | .ok (.arr (.obj link :: _)) =>
    match Json.member link "flags".toList with
    | some (.arr flags) => .ok flags
    | _ => .error (.runtime iface)
  | .ok _ | .error (.decode ..) => .error (.runtime iface)
  | .error _ => .error (.other "json".toList)

/-- `"UP" in flags`. -/
def hasUp (flags : List Json) : Bool :=
  flags.any fun flag => match flag with
    | .str (some name) => name = "UP".toList
    | _ => false

/-- The commands of a system: what each ends with, and the administrative state that they leave,
both by all that was issued before. -/
structure Env where
  /-- How deep `json.loads` can nest. -/
  depth : Nat
  exec : List Command → Command → Except Exc CommandResult
  up : List Command → Iface → Bool
  quiet_up : ∀ issued c, c.Quiet → up (issued ++ [c]) = up issued
  /-- `ip` shows the state as it is. -/
  linkShow_up : ∀ issued iface result flags, exec issued (.linkShow iface) = .ok result →
    result.returnCode = 0 → linkFlags depth iface result.stdout = .ok flags →
    hasUp flags = up issued iface

/-- The parsers of what a scan prints. -/
structure Parsers (Network : Type) where
  parseWpaScanResults : Text → Bool → Except Exc (List Network)
  parseIwScanOutput : Text → Bool → Text → Except Exc (List Network)
  finalizeNetworkEntry : Network → Text → Network

/-- The arguments of `run_interface_scan`. -/
structure Request where
  iface : Iface
  netns : Option Text
  includeHidden : Bool
  mode : Option Text
  detail : Text

variable {Network : Type} (E : Env) (P : Parsers Network)

/-- The process runs and ends, or `subprocess` raises. -/
def execute (c : Command) : ScanProg CommandResult := fun w =>
  (E.exec w.issued c, { w with issued := w.issued ++ [c] })

/-- `ns_exec` -/
def nsExec (netns : Option Text) (c : Command) (raiseOnFail : Bool := true) :
    ScanProg CommandResult := do
  match netns.bind validateNamespaceName with
  | some message => Prog.raise (.value message)
  | none =>
    let result ← execute E c
    if raiseOnFail ∧ result.returnCode ≠ 0 then
      Prog.raise (.runCommand result.stderr result.returnCode)
    else pure result

/-! ## The parts of a scan -/

/-- `str.lower()` of the ASCII letters: no other character becomes a letter of a level, a mode or a
message that is looked for. -/
def lower (t : Text) : Text := t.map Char.toLower

/-- `normalize_scan_detail` -/
def normalizeScanDetail (detail : Text) : Except Exc Text :=
  let detail := lower (strip (if detail = [] then "short".toList else detail))
  if detail = "short".toList ∨ detail = "full".toList then .ok detail
  else .error (.value "detail must be one of: full, short")

/-- `t.rpartition(sep)[2]` -/
def afterLast (sep : Char) (t : Text) : Text := t.rtakeWhile (· ≠ sep)

/-- `except (RunCommandError, ValueError): return value`. -/
def otherwise {α : Type} (value : α) : Exc → ScanProg α
  | .runCommand .. | .value _ => pure value
  | e => Prog.raise e

/-- `interface_driver` -/
def interfaceDriver (iface : Iface) (netns : Option Text) : ScanProg (Option Text) :=
  Prog.attempt
    (do
      let result ← nsExec E netns (.readDriver iface) false
      let driver := afterLast '/' (strip result.stdout)
      pure (if driver = [] then none else some driver))
    (otherwise none)

/-- The name on a line of `ip -o link show`. -/
def linkName (line : Text) : Text := ((strip ((line.splitOn ':').getD 1 [])).splitOn '@').headD []

/-- `_up_monitors` -/
def upMonitors (phyIndex : Int) (netns : Option Text) : ScanProg (List Iface) :=
  Prog.attempt
    (do
      let dev ← nsExec E netns .iwDev
      let monitors := (Adapter.parseIwDev dev.stdout netns).filter fun live =>
        live.phyIndex = phyIndex ∧ live.type = "monitor".toList
      let links ← nsExec E netns .linksUp
      let up := ((splitlines links.stdout).filter fun line => 2 ≤ line.count ':').map linkName
      pure ((monitors.map (·.name)).filter (· ∈ up)))
    (otherwise [])

/-- `up_sibling_monitors` -/
def siblingMonitors (iface : Iface) (netns : Option Text) : ScanProg (List Iface) := do
  let dev ← Prog.attempt (some <$> nsExec E netns .iwDev) (otherwise none)
  match dev with
  | none => pure []
  | some dev =>
    match (Adapter.parseIwDev dev.stdout netns).find? (·.name = iface) with
    | none => pure []
    | some live => do
      let monitors ← upMonitors E live.phyIndex netns
      pure (monitors.filter (· ≠ iface))

/-- `_captured_interfaces` -/
def capturedInterfaces (netns : Option Text) : ScanProg (List Iface) := do
  let result ← nsExec E netns .sockets
  let fields := ((splitlines result.stdout).map words).filter (5 ≤ ·.length)
  pure (fields.map fun field => afterLast ':' (field.getD 4 []))

/-- `_monitors_to_pause` -/
def monitorsToPause (iface : Iface) (netns : Option Text) : ScanProg (List Iface) := do
  let monitors ← siblingMonitors E iface netns
  if monitors = [] then pure []
  else do
    let captured ← capturedInterfaces E netns
    let busy := (monitors.filter (· ∈ captured)).dedup.mergeSort fun a b => decide (a ≤ b)
    if busy ≠ [] then Prog.raise (.monitorInUse iface busy netns) else pure monitors

/-- `_claim_scan`, around `x`. -/
def claimScan {α : Type} (iface : Iface) (netns : Option Text) (also : List Iface)
    (x : ScanProg α) : ScanProg α := do
  let keys := ((iface :: also).map fun name => (netns, name)).toFinset
  let w ← Prog.get
  if keys ∩ w.active ≠ ∅ then Prog.raise (.scanInProgress iface netns)
  else do
    Prog.update fun w => { w with active := w.active ∪ keys }
    Prog.ensuring x (Prog.update fun w => { w with active := w.active \ keys })

/-- `_interface_is_up` -/
def interfaceIsUp (iface : Iface) (netns : Option Text) : ScanProg Bool := do
  let result ← nsExec E netns (.linkShow iface)
  let flags ← Prog.lift (linkFlags E.depth iface result.stdout)
  pure (hasUp flags)

/-- `_set_interface_state` -/
def setInterfaceState (iface : Iface) (up : Bool) (netns : Option Text) : ScanProg Unit := do
  let _ ← nsExec E netns (.setState iface up)

/-- `wpa_cli_available` -/
def wpaCliAvailable (iface : Iface) (netns : Option Text) : ScanProg Bool := do
  let result ← nsExec E netns (.wpaCli iface "status".toList) false
  pure (result.returnCode = 0 ∧ "wpa_state".toList <:+: result.stdout)

/-- The polls of `run_wpa_cli_scan`, `attempts` of them being left. -/
def pollScanResults (req : Request) (detail : Text) :
    Nat → Option Exc → ScanProg (List Network)
  | 0, none => pure []
  | 0, some lastError => Prog.raise lastError
  | attempts + 1, lastError => do
    let fetched ← Prog.observe do
      let result ← nsExec E req.netns (.wpaCli req.iface "scan_results".toList)
      Prog.lift (P.parseWpaScanResults result.stdout req.includeHidden)
    match fetched with
    | .ok [] => pollScanResults req detail attempts lastError
    | .ok networks => pure (networks.map fun network => P.finalizeNetworkEntry network detail)
    | .error (.runCommand message code) =>
      pollScanResults req detail attempts (some (.runCommand message code))
    | .error e => Prog.raise e

/-- `run_wpa_cli_scan` -/
def runWpaCliScan (req : Request) (detail : Text) : ScanProg (List Network) := do
  let _ ← Prog.lift (normalizeScanDetail detail)
  let _ ← nsExec E req.netns (.wpaCli req.iface "scan".toList)
  pollScanResults E P req detail 8 none

/-- `run_iw_scan` -/
def runIwScan (req : Request) (detail : Text) : ScanProg (List Network) := do
  let _ ← Prog.lift (normalizeScanDetail detail)
  let result ← nsExec E req.netns (.iwScan req.iface) false
  let combined := result.stdout ++ '\n' :: result.stderr
  if result.returnCode ≠ 0 then
    if "not supported".toList <:+: lower combined then
      Prog.raise (.scanNotSupported req.iface req.netns)
    else
      let message := if strip combined = [] then "iw scan failed on ".toList ++ req.iface
        else strip combined
      Prog.raise (.runCommand message result.returnCode)
  else Prog.lift (P.parseIwScanOutput result.stdout req.includeHidden detail)

def mt7921Drivers : List Text := ["mt7921u".toList, "mt7921e".toList, "mt7921s".toList]

/-- The `phy` of `get_interface_info`: the last line that has an index gives it. -/
def infoPhy (stdout : Text) : Option Int :=
  (splitlines stdout).foldl
    (fun phy raw =>
      let line := strip raw
      if "Interface".toList.isPrefixOf line then phy
      else if "wiphy".toList.isPrefixOf line then (((words line)[1]?).bind int).or phy
      else phy)
    none

/-- `allow_other_unicast` -/
def allowOtherUnicast (iface : Iface) (netns : Option Text) : ScanProg Unit :=
  Prog.attempt
    (do
      let driver ← interfaceDriver E iface netns
      if driver.all (· ∉ mt7921Drivers) then pure ()
      else if strip iface = [] then Prog.raise (.value "interface_name cannot be empty")
      else do
        let info ← nsExec E netns (.iwInfo iface)
        match infoPhy info.stdout with
        | none => pure ()
        | some phy => do
          let _ ← execute E (.clearDropOtherUc ("phy".toList ++ (toString phy).toList)))
    fun _ => pure ()

/-! ## The scan -/

/-- `if not originally_up: _set_interface_state(iface, up, namespace)`. -/
def setUnlessUp (req : Request) (originallyUp up : Bool) : ScanProg Unit :=
  if originallyUp then pure () else setInterfaceState E req.iface up req.netns

/-- The `try` of `run_interface_scan`. -/
def tryScan (req : Request) (mode detail : Text) (paused : List Iface) (originallyUp : Bool) :
    ScanProg (List Network) := do
  paused.forM fun mon => setInterfaceState E mon false req.netns
  setUnlessUp E req originallyUp true
  if mode = "monitor".toList ∨ detail = "full".toList then runIwScan E P req detail
  else if ← wpaCliAvailable E req.iface req.netns then
    Prog.attempt (runWpaCliScan E P req detail) fun e =>
      match e with
      | .runCommand .. => runIwScan E P req detail
      | e => Prog.raise e
  else runIwScan E P req detail

/-- Every paused monitor gets its restore. -/
def restoreMonitors (req : Request) (paused : List Iface) : ScanProg Unit :=
  paused.forM fun mon => Prog.attempt (setInterfaceState E mon true req.netns) fun _ => pure ()

/-- The inner `finally`. -/
def lastly (req : Request) (driver : Option Text) (paused : List Iface) : ScanProg Unit := do
  restoreMonitors E req paused
  if driver.any (· ∈ mt7921Drivers) then allowOtherUnicast E req.iface req.netns else pure ()

/-- `_monitors_to_pause(iface, namespace) if iwlwifi else []` -/
def pausedFor (req : Request) (driver : Option Text) : ScanProg (List Iface) :=
  if driver = some "iwlwifi".toList then monitorsToPause E req.iface req.netns else pure []

/-- `run_interface_scan` -/
def runInterfaceScan (req : Request) : ScanProg (List Network) := do
  let detail ← Prog.lift (normalizeScanDetail req.detail)
  let mode := lower (req.mode.getD [])
  let driver ← interfaceDriver E req.iface req.netns
  let paused ← pausedFor E req driver
  let also := if driver = some "iwlwifi".toList then paused ++ ["iwlwifi".toList] else []
  claimScan req.iface req.netns also do
    let originallyUp ← interfaceIsUp E req.iface req.netns
    Prog.ensuring (tryScan E P req mode detail paused originallyUp)
      (Prog.ensuring (setUnlessUp E req originallyUp false) (lastly E req driver paused))

end WlanpiCore.Scan
