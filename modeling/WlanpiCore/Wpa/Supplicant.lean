import Mathlib.Data.Char
import Mathlib.Data.List.Infix
import Mathlib.Data.List.Lex
import WlanpiCore.Config.Validation
import WlanpiCore.Lib.Dict
import WlanpiCore.Lib.Lines
import WlanpiCore.Lib.Shared

/-!
# The supplicants Core starts and stops

`wpa/supplicant.py` on the processes and the pidfiles it shares with every other program. A process
that ends may keep its PID as a zombie, which has no command line; `gone` is a PID whose process
ended in the call that is running, and `free` one that no process had. What a signal does to a
process is up to that process, and so is left to the others. What `wpa_supplicant -B -P` does is
left to the host of a start.
-/

namespace WlanpiCore.Supplicant

open Text Shared

/-- A process as `/proc/<pid>/cmdline` and `os.kill` show it. -/
inductive Proc where
  | free
  | gone
  | zombie
  | running (argv : List Text)
  deriving DecidableEq

/-- A file of Core's runtime directory: the directory below it and the name, less its suffix. -/
structure RunPath where
  dir : Text
  stem : Text
  deriving DecidableEq

/-- The directory of a namespace in `runtime_dir`. -/
def dirName (netns : Option Text) : Text :=
  match netns with
  | some (c :: cs) => c :: cs
  | _ => "@root".toList

/-- `runtime_dir`, of a directory's name. -/
def runtimeDir (dir : Text) : Text := "/run/wlanpi-core/wpa/".toList ++ dir

def RunPath.str (path : RunPath) (suffix : String) : Text :=
  runtimeDir path.dir ++ '/' :: (path.stem ++ suffix.toList)

/-- The stem `pidfile_path`, `config_path` and `log_path` share. -/
def runPath (iface : Text) (netns : Option Text) : RunPath := ⟨dirName netns, iface⟩

/-- `str(pidfile_path(iface, namespace))` -/
def pidfilePath (path : RunPath) : Text := path.str ".pid"

def configPath (path : RunPath) : Text := path.str ".conf"

def logPath (path : RunPath) : Text := path.str ".log"

inductive Signal where
  | sigterm
  | sigkill
  deriving DecidableEq

/-- What Core and the others share. -/
structure System where
  procs : Nat → Proc
  pidfiles : Dict RunPath Text

/-- The system, and what Core did to it: `signalled` keeps the command line of each process that it
sent a signal to, `reads` each pidfile that it read, with the system at that moment. -/
structure World extends System where
  signalled : List (Signal × List Text)
  reads : List (RunPath × System)

inductive Exc where
  | runCommandError
  | osError

/-- A program that runs beside the others. -/
abbrev Call (α : Type) : Type := Prog (Shared World) Exc α

namespace System

def proc (m : System) (pid : Int) : Proc := if 0 < pid then m.procs pid.toNat else .free

/-- The command line, `[]` if there is none to read. -/
def cmdline (m : System) (pid : Int) : List Text :=
  match m.proc pid with
  | .running argv => argv
  | _ => []

def pidfile (m : System) (path : RunPath) : Option Text := m.pidfiles.get path

end System

namespace World

/-- `os.kill`; `false` is `ProcessLookupError`. -/
def kill (w : World) (pid : Int) (sig : Signal) : Bool × World :=
  match w.proc pid with
  | .free | .gone => (false, w)
  | .zombie => (true, w)
  | .running argv => (true, { w with signalled := (sig, argv) :: w.signalled })

/-- `path.read_text()` -/
def readPidfile (w : World) (path : RunPath) : Option Text × World :=
  (w.pidfile path, { w with reads := (path, w.toSystem) :: w.reads })

/-- `Path.unlink(missing_ok=True)` -/
def unlink (w : World) (path : RunPath) : World :=
  { w with pidfiles := w.pidfiles.erase path }

end World

/-! ## Command lines -/

/-- `argv[argv.index(flag) + 1]`, where there is one. -/
def argAfter (flag : String) (argv : List Text) : Option Text := argv[argv.idxOf flag.toList + 1]?

/-- `_supplicant_iface` -/
def supplicantIface (argv : List Text) : Option Text :=
  match argv with
  | [] => none
  | arg0 :: _ => if "wpa_supplicant".toList <:+ arg0 then argAfter "-i" argv else none

/-- `_is_core_supplicant` -/
def isCoreSupplicant (argv : List Text) (path : RunPath) : Bool :=
  supplicantIface argv = some path.stem && argAfter "-P" argv = some (pidfilePath path)

/-- `argv[log_index] == f"/tmp/wpa-{iface}.log"` in `kill_all_supplicants`. -/
def isLegacy (argv : List Text) : Bool :=
  match supplicantIface argv with
  | none => false
  | some iface => argAfter "-f" argv = some ("/tmp/wpa-".toList ++ iface ++ ".log".toList)

/-- The command `start_or_restart_supplicant` runs. -/
def supplicantCommand (path : RunPath) : List Text :=
  ["wpa_supplicant".toList, "-B".toList, "-i".toList, path.stem, "-c".toList, configPath path,
    "-D".toList, "nl80211".toList, "-f".toList, logPath path, "-t".toList, "-P".toList,
    pidfilePath path]

/-! ## Stopping -/

section Functions

variable (others : Nat → World → World)

def readCmdline (pid : Int) : Call (List Text) := look others fun w => w.cmdline pid

/-- The loop of `_wait_gone`: a look every tenth of a second, and one at the end. -/
def waitGone (pid : Int) : Nat → Call Bool
  | 0 => do return (← readCmdline others pid).isEmpty
  | ticks + 1 => do
    if (← readCmdline others pid).isEmpty then
      return true
    waitGone pid ticks

def kill (pid : Int) (sig : Signal) : Call Bool :=
  syscall others fun w => (.ok (w.kill pid sig).1, (w.kill pid sig).2)

/-- The loop of `_terminate`. -/
def terminateWith (pid : Int) : List (Signal × Nat) → Call Bool
  | [] => pure false
  | (sig, ticks) :: rest => do
    if !(← kill others pid sig) then
      return true
    if ← waitGone others pid ticks then
      return true
    terminateWith pid rest

/-- `_terminate` -/
def terminate (pid : Int) : Call Bool := terminateWith others pid [(.sigterm, 20), (.sigkill, 10)]

/-- Whether the supplicant that the pidfile's text names survived: `none` is no such text. -/
def survives (path : RunPath) (text : Option Text) : Call Bool :=
  match text.bind int with
  | none => pure false
  | some pid => do
    if isCoreSupplicant (← readCmdline others pid) path then
      return !(← terminate others pid)
    return false

/-- `_stop_pidfile` -/
def stopPidfile (path : RunPath) : Call Bool := do
  let text ← syscall others fun w => (.ok (w.readPidfile path).1, (w.readPidfile path).2)
  if ← survives others path text then
    return false
  alter others fun w => w.unlink path
  return true

def stopSupplicant (iface : Text) (netns : Option Text) : Call Bool :=
  stopPidfile others (runPath iface netns)

/-- `sorted(….glob("*.pid"))`, of the pidfiles that `keep` selects. -/
def System.glob (keep : RunPath → Bool) (m : System) : List RunPath :=
  ((m.pidfiles.map (·.1)).filter keep).mergeSort fun a b =>
    decide (a.dir < b.dir) || a.dir =
      b.dir && decide (a.stem ++ ".pid".toList ≤ b.stem ++ ".pid".toList)

/-- `_stop_pidfile`, whatever it answers. -/
def stopEach (path : RunPath) : Call Unit := do
  let _ ← stopPidfile others path
  return ()

def stopNamespaceSupplicants (netns : Text) : Call Unit := do
  let paths ← look others fun w => w.glob fun path => path.dir = dirName (some netns)
  paths.forM (stopEach others)

/-- The second loop of `kill_all_supplicants`, on one PID. -/
def sweep (pid : Int) : Call Unit := do
  if isLegacy (← readCmdline others pid) then
    let _ ← terminate others pid
    return ()
  return ()

/-- `kill_all_supplicants`; `listed` is what `/proc` lists. -/
def killAllSupplicants (listed : System → List Int) : Call Unit :=
  Prog.attempt (do
    let paths ← look others fun w => w.glob fun _ => true
    paths.forM (stopEach others)
    let pids ← look others fun w => listed w.toSystem
    pids.forM (sweep others)) fun _ => pure ()

/-! ## Starting -/

/-- The host of a start: whether the directory and the log file could be made, and what the command
does. -/
structure Host where
  prepared : Bool
  launch : RunPath → System → Except Exc Unit × System

def World.launch (w : World) (host : Host) (path : RunPath) : Except Exc Unit × World :=
  ((host.launch path w.toSystem).1, { w with toSystem := (host.launch path w.toSystem).2 })

def startOrRestartSupplicant (host : Host) (iface : Text) (netns : Option Text) : Call Unit := do
  if !(← stopSupplicant others iface netns) then
    Prog.raise .runCommandError
  if !host.prepared then
    Prog.raise .osError
  syscall others fun w => w.launch host (runPath iface netns)

/-! ## Runs -/

/-- What Core does to its supplicants, one at a time under `network_change_lock`; `recycle` is the
time between two calls, in which the PIDs that are gone may be handed out again. -/
inductive Act where
  | start (host : Host) (iface : InterfaceName) (netns : Option NamespaceName)
  | stop (iface : InterfaceName) (netns : Option NamespaceName)
  | stopNamespace (netns : NamespaceName)
  | killAll (listed : System → List Int)
  | recycle

def Act.run : Act → Call Unit
  | .start host iface netns => startOrRestartSupplicant others host iface.val (netns.map (·.val))
  | .stop iface netns => do
    let _ ← stopSupplicant others iface.val (netns.map (·.val))
    return ()
  | .stopNamespace netns => stopNamespaceSupplicants others netns.val
  | .killAll listed => killAllSupplicants others listed
  | .recycle => alter others fun w =>
    { w with procs := fun pid => if w.procs pid = .gone then .free else w.procs pid }

def step (s : Shared World) (a : Act) : Option (Shared World) := some (a.run others s).2

end Functions

end WlanpiCore.Supplicant
