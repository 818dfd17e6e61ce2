import WlanpiCore.Lib.Prog
import WlanpiCore.Config.Schema
import Mathlib.Logic.Function.Basic

/-!
# The profile store

CONFIG_DIR with one JSON file for each profile, `current.txt` with the id of the active one, and
the readers of `utils/network_config.py`. File operations succeed; what a file holds is arbitrary
bytes.

What is not in the repository comes in through `Env`: pydantic, the stack the JSON scanner may use,
the clock, and the network namespace service, which may answer each call with anything and raise
anything. The service's `n`-th answer to a call is its answer when that call was made `n` times
before, so one `Env` fixes one pattern of outcomes; `World.trace` records the calls.
-/

namespace WlanpiCore

open Prog

/-! ## The world of the store -/

/-- What the store's code can raise. -/
inductive Exc where
  | fileNotFound (msg : String)
  | configMalformed (message : String) (cfgId : Option Text)
  | configActive (message : String)
  | configBusy (message : String)
  /-- `models.validation_error.ValidationError` -/
  | validation (errorMsg : String) (statusCode : Nat)
  | pydantic (errors : List FieldError)
  | unicodeDecode
  /-- The `ValueError` for an integer with too many digits. -/
  | intDigits
  | recursion
  /-- Any other exception of the namespace service or of discovery. -/
  | other (name : String)

/-- A wireless netdev as `discovery` reports it. -/
structure LiveInterface where
  name : Text
  phyIndex : Nat
  netns : Option Text
  type : Text
  deriving DecidableEq

/-- `NetworkSetupStatus`: its status and `response.selectErr`. -/
structure SetupStatus where
  status : String
  selectErr : String
  deriving DecidableEq

/-- A call out of the store's code. -/
inductive Call where
  | coreNamespaces
  | listInterfaces
  | isCoreManaged (entry : Entry)
  | validateConfig (entry : Entry)
  | activateConfig (entry : Entry)
  | deactivateConfig (entry : Entry)
  /-- `revert_to_root(None)` -/
  | revertToRoot
  | killAllSupplicants
  deriving DecidableEq

abbrev Call.Reply : Call → Type
  | .coreNamespaces => List Text
  | .listInterfaces => List LiveInterface
  | .isCoreManaged _ => Bool
  | .validateConfig _ => Bool × String
  | .activateConfig _ => Option SetupStatus
  | .deactivateConfig _ => Unit
  | .revertToRoot => Unit
  | .killAllSupplicants => Unit

/-- What the store's code takes from outside the repository. -/
structure Env where
  pydantic : Pydantic
  /-- `model_dump_json(indent=4)` -/
  dumpJson : NetConfig → Text
  /-- The nested containers `json.loads` has stack for. -/
  depth : Nat
  /-- `time.strftime`, when so many files were moved aside before. -/
  clock : Nat → String
  service : (c : Call) → Nat → Except Exc c.Reply

structure World where
  /-- `current.txt`; `none` when it does not exist. -/
  current : Option Bytes
  files : ConfigId → Option Bytes
  /-- Files moved out of the way by `get_config`. -/
  asides : List (String × Bytes)
  /-- `network_change_lock` is held. -/
  locked : Bool
  trace : List Call

abbrev Store (α : Type) := Prog World Exc α

namespace World

def write (w : World) (path : ConfigId) (bytes : Bytes) : World :=
  { w with files := Function.update w.files path (some bytes) }

def remove (w : World) (path : ConfigId) : World :=
  { w with files := Function.update w.files path none }

def setCurrent (w : World) (cfgId : Text) : World := { w with current := some (Text.encode cfgId) }

/-- What `get_current_config` compares: `current.txt`, decoded and stripped. -/
def currentText (w : World) : Option Text := w.current.bind fun b =>
    (Text.readText b).map Text.strip

/-- `current.txt` names an id. -/
def Names (w : World) (cfgId : Text) : Prop := w.currentText = some cfgId

instance (w : World) (cfgId : Text) : Decidable (w.Names cfgId) := by unfold Names; infer_instance

end World

section

variable (E : Env)

/-- A call of the namespace service or of discovery. -/
def call (c : Call) : Store c.Reply := fun w =>
  (E.service c (w.trace.count c), { w with trace := w.trace ++ [c] })

/-! ## Paths and the default profile -/

/-- `_config_path`. Its second check, that the path stays below CONFIG_DIR, cannot fail: a
validated id has no slash. -/
def configPath (cfgId : Text) : Except Exc ConfigId :=
  match h : validateConfigId cfgId with
  | none => .ok ⟨cfgId, h⟩
  | some msg => .error (.validation msg 400)

/-- `_legacy_default_config` -/
def legacyDefaultConfig : NetConfig where
  id := defaultId
  namespaces := some []
  roots := some
    [{ ifaceDisplayName := ⟨"wlan0".toList, wlan0_valid⟩
       phy := ⟨"phy0".toList, phy0_valid⟩
       interface := ⟨"wlan0".toList, wlan0_valid⟩
       security := some { ssid := ⟨"wlan0".toList, by decide⟩, security := .wpa2 }
       defaultRoute := true },
     { ifaceDisplayName := ⟨"wlan1".toList, wlan1_valid⟩
       phy := ⟨"phy1".toList, phy1_valid⟩
       interface := ⟨"wlan1".toList, wlan1_valid⟩
       defaultRoute := true }]

/-- `_is_system_monitor` -/
def isSystemMonitor (name : Text) : Bool :=
  "wlanpi".toList.isPrefixOf name && name.drop 6 ≠ [] && (name.drop 6).all Char.isDigit

/-- The `RootConfig` for a live interface; its name may fail the validators. -/
def rootOfLive (live : LiveInterface) : Except Exc RootConfig :=
  let mode := if live.type = "monitor".toList then NetworkModeEnum.monitor else .managed
  let fields := dumpMembers false
    [("mode", .ofText mode.value.toList), ("iface_display_name", .ofText live.name),
      ("phy", .ofText s!"phy{live.phyIndex}".toList), ("interface", .ofText live.name),
      ("security", .null), ("default_route", .bool false), ("autostart_app", .null)]
  (RootConfigBase.read E.pydantic (parseSecurity E.pydantic) fields []).mapError .pydantic

/-- The loop of `get_default_config` over the live interfaces. -/
def defaultRoots (coreNamespaces : List Text) :
    List RootConfig → List LiveInterface → Except Exc (List RootConfig)
  | roots, [] => .ok roots
  | roots, live :: rest =>
    if live.netns.any (· ∉ coreNamespaces) then defaultRoots coreNamespaces roots rest
    else if live.type = "monitor".toList ∧ isSystemMonitor live.name then
      defaultRoots coreNamespaces roots rest
    else if roots.any (·.interface.val = live.name) then
      defaultRoots coreNamespaces roots rest
    else do
      let root ← rootOfLive E live
      defaultRoots coreNamespaces (roots ++ [root]) rest

/-- `get_default_config("default")` -/
def getDefaultConfig : Store NetConfig := do
  let coreNamespaces ← call E .coreNamespaces
  let live ← call E .listInterfaces
  let roots ← lift (defaultRoots E coreNamespaces [] live)
  let cfg : NetConfig := { id := defaultId, namespaces := some [], roots := some roots }
  match validateUniqueInterfaces cfg with
  | none => return cfg
  | some msg => raise (.pydantic [⟨[], "Value error, " ++ msg, .obj cfg.modelDump⟩])

/-- `_write_live_default`. When the default cannot be built, nothing is written. -/
def writeLiveDefault : Store NetConfig := do
  match ← attempt (some <$> getDefaultConfig E) (fun _ => pure none) with
  | none => return { id := defaultId, namespaces := some [], roots := some [] }
  | some cfg =>
    update (·.write defaultId (Text.encode (E.dumpJson cfg)))
    return cfg

/-! ## Readers -/

/-- The type of a JSON value, in the message of the `TypeError` for `NetConfig(**data)`. -/
def typeName : Json → String
  | .null => "NoneType"
  | .bool _ => "bool"
  | .int _ => "int"
  | .float _ => "float"
  | .str _ => "str"
  | .arr _ => "list"
  | .obj _ => "dict"

/-- The part of `_read_config` that looks at the file's bytes only. A `UnicodeDecodeError`, the
`ValueError` of a long integer and a `RecursionError` pass its handlers. -/
def parseConfig (cfgId : ConfigId) (bytes : Bytes) : Except Exc NetConfig :=
  let name := String.ofList cfgId.val
  let malformed (msg : String) : Exc := .configMalformed msg (some cfgId.val)
  match Text.readText bytes with
  | none => .error .unicodeDecode
  | some text =>
    let content := Text.strip text
    if content = [] then
      .error (malformed s!"Configuration file {name}.json is empty or contains only whitespace.")
    else match h : Json.loads E.depth content with
      | .error (.decode msg pos) =>
        .error (malformed (s!"Configuration file {name}.json contains malformed JSON: " ++
          String.ofList (Json.errorText content msg pos)))
      | .error .intDigits => .error .intDigits
      | .error .recursion => .error .recursion
      | .error .fuel => (Json.loads_ne_fuel _ _ h).elim
      | .ok (.obj members) =>
        match NetConfig.modelValidate E.pydantic members with
        | .ok cfg => .ok cfg
        | .error errors =>
          .error
            (malformed
              s!"Failed to parse configuration {name}: {E.pydantic.errorText .stored errors}")
      | .ok data =>
        .error (malformed (s!"Failed to parse configuration {name}: " ++
          "wlanpi_core.schemas.network.network.NetConfig() argument after ** must be a mapping, " ++
          s!"not {typeName data}"))

/-- `_read_config`. The default shipped before #202 is replaced by a live one. -/
def readConfig (cfgId : ConfigId) (bytes : Bytes) : Store NetConfig := do
  let config ← lift (parseConfig E cfgId bytes)
  if cfgId = defaultId ∧ config = legacyDefaultConfig then writeLiveDefault E
  else return config

/-- Move an unusable default.json out of the way. The new name does not end in `.json`, so it is no
profile. -/
def moveAside (path : ConfigId) (bytes : Bytes) : Store Unit :=
  update fun w => { w.remove path with
    asides := w.asides ++ [(s!"default.json.bad-{E.clock w.asides.length}", bytes)] }

/-- `get_config` -/
def getConfig (cfgId : Text) : Store NetConfig := do
  let path ← lift (configPath cfgId)
  let w ← get
  match w.files path with
  | none =>
    if path = defaultId then writeLiveDefault E
    else raise (.fileNotFound s!"Configuration {String.ofList cfgId} not found.")
  | some bytes =>
    attempt (readConfig E path bytes) fun e =>
      match e with
      | .configMalformed _ _ =>
        if path ≠ defaultId then raise e
        else do
          moveAside E path bytes
          writeLiveDefault E
      | e => raise e

/-- `get_current_config` on the text of `current.txt`. -/
def checkCurrent (content : Text) : Store Text := do
  let name := String.ofList content
  let invalid (msg : String) : Exc :=
    .configMalformed s!"Current configuration '{name}' is invalid or malformed: {msg}"
      (some content)
  attempt (discard (getConfig E content)) fun e =>
    match e with
    | .fileNotFound msg => raise (invalid msg)
    | .configMalformed msg _ => raise (invalid msg)
    | e => raise e
  return content

/-- `get_current_config` -/
def getCurrentConfig : Store Text := do
  let w ← get
  match w.current with
  | none => raise (.fileNotFound "No current configuration set.")
  | some bytes =>
    match Text.readText bytes with
    | none => raise .unicodeDecode
    | some text =>
      if Text.strip text = [] then
        raise (.configMalformed
          "Current configuration file is empty or contains only whitespace." none)
      else checkCurrent E (Text.strip text)

/-- `_write_current` -/
def writeCurrent (cfgId : Text) : Store Unit := update (·.setCurrent cfgId)

/-- `_revert_current_config_to_default` -/
def revertCurrentConfigToDefault : Store Unit := writeCurrent defaultId.val

/-- `recover_current_config` -/
def recoverCurrentConfig : Store Text :=
  attempt (getCurrentConfig E) fun e =>
    match e with
    | .configMalformed msg cfgId => do
      revertCurrentConfigToDefault
      raise (.configMalformed s!"{msg}. Reverted to 'default'." cfgId)
    | e => raise e

/-- `is_active` -/
def isActive (cfgId : Text) : Store Bool :=
  attempt (do return decide ((← getCurrentConfig E) = cfgId)) fun e =>
    match e with
    | .configMalformed _ _ => pure false
    | e => raise e

end

/-! ## A small device -/

/-- A device without radios whose pydantic reads no string as a number. -/
def bareEnv : Env where
  pydantic :=
    { str := fun j => match j with
        | .str (some text) => .ok text
        | _ => .error "Input should be a valid string"
      int := fun j => match j with
        | .int n => .ok n
        | _ => .error "Input should be a valid integer"
      bool := fun j => match j with
        | .bool b => .ok b
        | _ => .error "Input should be a valid boolean"
      errorText := fun _ errors => s!"{errors.length} validation errors for NetConfig" }
  dumpJson _ :=
    "\x7b\n    \"id\": \"default\",\n    \"namespaces\": [],\n    \"roots\": []\n\x7d".toList
  depth := 100
  clock n := s!"20250101T00000{n}"
  service c _ := match c with
    | .coreNamespaces => .ok []
    | .listInterfaces => .ok []
    | .isCoreManaged _ => .ok true
    | .validateConfig _ => .ok (true, "")
    | .activateConfig _ => .ok none
    | .deactivateConfig _ => .ok ()
    | .revertToRoot => .ok ()
    | .killAllSupplicants => .ok ()

def labId : ConfigId := ⟨"lab".toList, labId_valid⟩

/-- `lab` is stored, `default.json` is missing. -/
def labWorld (current : Bytes) : World where
  current := some current
  files :=
    Function.update (fun _ => none) labId (some (Text.encode "\x7b\"id\": \"lab\"\x7d".toList))
  asides := []
  locked := false
  trace := []

end WlanpiCore
