import Mathlib.Logic.Function.Basic
import WlanpiCore.Lib.Base64
import WlanpiCore.Lib.Shared
import WlanpiCore.Lib.Text
import WlanpiCore.Lib.Transition

/-!
# The secrets that Core keeps across its starts

`SecurityManager`: the shared secret that signs the local requests, and the Fernet key. Each is a
file that the first start writes and every later one loads. Any call to the system may fail, a write
may stop half-way, and Core may be killed between two calls.

**Theorem (`manager_agrees`).** In every run a Core that is up has the secret that is in the file,
whatever the files were when it started: the secret is not empty, and only root can read it.

**Theorem (`secrets_kept`).** As long as nothing but Core changes the files, the secret and the key
of a Core that is up are in the files at every moment from then on, and every later Core has the
same.
-/

namespace WlanpiCore.Secrets

open Shared

/-- The permission bits, and whether owner and group are root. -/
structure Access where
  mode : Nat
  root : Bool
  deriving DecidableEq

structure File where
  access : Access
  data : Bytes
  deriving DecidableEq

/-- `SECRETS_DIR` -/
structure Folder where
  access : Option Access
  files : Text → Option File

/-- What becomes of the next call. -/
inductive Fault where
  | none
  | raises
  /-- A write that raises after so many bytes. -/
  | short (written : Nat)

structure World where
  folder : Folder
  fault : Fault

inductive Exc where
  | osError
  | securityInit
  deriving DecidableEq

abbrev Call (α : Type) := Prog (Shared World) Exc α

/-- `SHARED_SECRET_FILE` -/
def sharedSecretFile : Text := "shared_secret.bin".toList

/-- `ENCRYPTION_KEY_FILE` -/
def encryptionKeyFile : Text := "fernet_key.b64".toList

/-- `f".test_{os.getpid()}_{attempt}"` -/
def testFile (pid attempt : Nat) : Text :=
  ".test_".toList ++ (Nat.toDigits 10 pid ++ '_' :: Nat.toDigits 10 attempt)

/-- What one start gets from the system. `isKey` says that `Fernet` takes a key. -/
structure Boot (isKey : Bytes → Bool) where
  pid : Nat
  /-- `os.urandom(16)` of each attempt -/
  urandom : Nat → Bytes
  /-- `secrets.token_bytes(32)` -/
  tokenBytes : { secret : Bytes // secret.length = 32 }
  /-- `Fernet.generate_key()` -/
  generateKey : { key : Bytes // isKey key = true ∧ key ≠ [] }

def Folder.put (d : Folder) (name : Text) (file : Option File) : Folder :=
  { d with files := Function.update d.files name file }

def Folder.modify (d : Folder) (name : Text) (f : File → File) : Folder :=
  d.put name ((d.files name).map f)

section Functions

variable (newMode : Nat) (faults : Nat → Fault)

/-- Nobody else changes the folder; the next call fails or not. -/
def meet (n : Nat) (w : World) : World := { w with fault := faults n }

def op {α : Type} (f : Folder → Except Exc α × Folder) : Call α :=
  syscall (meet faults) fun w =>
    match w.fault with
    | .raises => (.error .osError, w)
    | _ => ((f w.folder).1, { w with folder := (f w.folder).2 })

/-- `mkdir(mode=0o700, parents=True, exist_ok=True)` -/
def mkdir : Call Unit := op faults fun d =>
  (.ok (), if d.access = none then { d with access := some ⟨0o700, true⟩ } else d)

def statDir : Call Access := op faults fun d =>
  match d.access with
  | none => (.error .osError, d)
  | some access => (.ok access, d)

/-- `os.chown` and `chmod` of the directory. -/
def changeDir (f : Access → Access) : Call Unit := op faults fun d =>
  (if d.access = none then .error .osError else .ok (), { d with access := d.access.map f })

/-- `Path.exists`; it raises where `stat` fails for another reason than a missing file. -/
def isThere (name : Text) : Call Bool := op faults fun d => (.ok (d.files name).isSome, d)

def readFile (name : Text) : Call File := op faults fun d =>
  match d.files name with
  | none => (.error .osError, d)
  | some file => (.ok file, d)

/-- `os.chown` and `chmod` of a file. -/
def changeFile (name : Text) (f : Access → Access) : Call Unit := op faults fun d =>
  (if d.files name = none then .error .osError else .ok (),
    d.modify name fun file => { file with access := f file.access })

def unlink (name : Text) : Call Unit := op faults fun d =>
  (if d.files name = none then .error .osError else .ok (), d.put name none)

/-- `open(mode="wb")`: a file that is there keeps its mode and loses its data. -/
def openFile (name : Text) : Call Unit := op faults fun d =>
  match d.access with
  | none => (.error .osError, d)
  | some _ =>
    (.ok (), d.put name (some ⟨((d.files name).map File.access).getD ⟨newMode, true⟩, []⟩))

def writeData (name : Text) (data : Bytes) : Call Unit :=
  syscall (meet faults) fun w =>
    let write (data : Bytes) : World := { w with
      folder := w.folder.modify name fun file => { file with data := file.data ++ data } }
    match w.fault with
    | .none => (.ok (), write data)
    | .raises => (.error .osError, w)
    | .short written => (.error .osError, write (data.take written))

def writeBytes (name : Text) (data : Bytes) : Call Unit := do
  openFile newMode faults name
  writeData faults name data

def own (access : Access) : Access := { access with root := true }

def restrict (mode : Nat) (access : Access) : Access := { access with mode }

def onlyIf (c : Prop) [Decidable c] (x : Call Unit) : Call Unit := if c then x else pure ()

/-- `try: x except OSError: pass` -/
def quietly (x : Call Unit) : Call Unit := Prog.attempt x fun _ => pure ()

variable {isKey : Bytes → Bool} (boot : Boot isKey)

/-- The test write of one attempt. -/
def testWrite (attempt : Nat) : Call Bool := do
  let name := testFile boot.pid attempt
  writeBytes newMode faults name (boot.urandom attempt)
  let file ← readFile faults name
  quietly (unlink faults name)
  return file.data == boot.urandom attempt

/-- `if test_file.exists(): test_file.unlink()` -/
def cleanUp (attempt : Nat) : Call Unit := do
  let found ← isThere faults (testFile boot.pid attempt)
  onlyIf (found = true) (unlink faults (testFile boot.pid attempt))

/-- One turn of the loop; an exception ends it like a failed test. -/
def tryFilesystem (attempt : Nat) : Call Bool :=
  Prog.attempt
    (do
      mkdir faults
      let _ ← statDir faults
      Prog.attempt (testWrite newMode faults boot attempt) fun _ => do
        quietly (cleanUp faults boot attempt)
        return false)
    fun _ => pure false

def tryAll : List Nat → Call Bool
  | [] => pure false
  | attempt :: attempts => do
    if ← tryFilesystem newMode faults boot attempt then return true else tryAll attempts

/-- `_wait_for_filesystem_ready` -/
def waitForFilesystemReady : Call Bool := tryAll newMode faults boot (List.range 5)

/-- A new shared secret. -/
def writeSecret : Call Bytes := do
  writeBytes newMode faults sharedSecretFile boot.tokenBytes.val
  changeFile faults sharedSecretFile own
  changeFile faults sharedSecretFile (restrict 0o600)
  return boot.tokenBytes.val

/-- The shared secret that is there. -/
def loadSecret : Call Bytes := do
  let stat := (← readFile faults sharedSecretFile).access
  onlyIf (stat.root = false) (changeFile faults sharedSecretFile own)
  onlyIf (stat.mode ≠ 0o600) (changeFile faults sharedSecretFile (restrict 0o600))
  return (← readFile faults sharedSecretFile).data

/-- The directory's owner and mode. -/
def closeDir : Call Unit := do
  let stat ← statDir faults
  onlyIf (stat ≠ ⟨0o700, true⟩) do
    changeDir faults own
    changeDir faults (restrict 0o700)

/-- `_setup_shared_secret` -/
def setupSharedSecret : Call Bytes := do
  closeDir faults
  if ← isThere faults sharedSecretFile then
    let secret ← loadSecret faults
    if secret = [] then writeSecret newMode faults boot else return secret
  else writeSecret newMode faults boot

/-- A new key. -/
def writeKey : Call Bytes := do
  writeBytes newMode faults encryptionKeyFile boot.generateKey.val
  changeFile faults encryptionKeyFile (restrict 0o600)
  return boot.generateKey.val

/-- `_setup_encryption_key` -/
def setupEncryptionKey : Call Bytes := do
  if ← isThere faults encryptionKeyFile then
    let key := (← readFile faults encryptionKeyFile).data
    if key = [] ∨ isKey key = false then writeKey newMode faults boot else return key
  else writeKey newMode faults boot

/-- `SecurityManager()`: the shared secret and the key. -/
def securityManager : Call (Bytes × Bytes) := do
  if ← waitForFilesystemReady newMode faults boot then
    mkdir faults
    let secret ← setupSharedSecret newMode faults boot
    let key ← setupEncryptionKey newMode faults boot
    return (secret, key)
  else Prog.raise .securityInit

end Functions

/-! ## The system -/

/-- The files, and the manager of the Core that is up. -/
structure State where
  folder : Folder
  manager : Option (Bytes × Bytes)

inductive Act (isKey : Bytes → Bool) where
  | start (faults : Nat → Fault) (boot : Boot isKey)
  /-- Core is killed at some moment of a start. -/
  | killed (faults : Nat → Fault) (boot : Boot isKey) (moment : Nat)
  | stop
  /-- Core is down, and the files become others: a crash of the device, an administrator. -/
  | offline (folder : Folder)

section

variable (newMode : Nat) {isKey : Bytes → Bool}

def State.attempt (s : State) (faults : Nat → Fault) (boot : Boot isKey) :
    Except Exc (Bytes × Bytes) × Shared World :=
  securityManager newMode faults boot (Shared.start ⟨s.folder, .none⟩)

def step (s : State) : Act isKey → Option State
  | .start faults boot =>
    if s.manager = none then
      let (manager, run) := s.attempt newMode faults boot
      some ⟨run.world.folder, manager.toOption⟩
    else none
  | .killed faults boot moment =>
    if s.manager = none then
      let (_, run) := s.attempt newMode faults boot
      some ⟨(run.past[moment]?.getD run.world).folder, none⟩
    else none
  | .stop => some { s with manager := none }
  | .offline folder => if s.manager = none then some ⟨folder, none⟩ else none

end

def initial (folder : Folder) : State := ⟨folder, none⟩

/-! ## Rules -/

/-- What holds of the result, if there is one. -/
def Then {α : Type} (Q : α → Folder → Prop) : Except Exc α → Folder → Prop
  | .ok a, d => Q a d
  | .error _, _ => True

/-- `Triple` for what is said of the folder. -/
def Spec {α : Type} (I P : Folder → Prop) (x : Call α) (Q : α → Folder → Prop) : Prop :=
  Triple (fun w => I w.folder) (fun w => P w.folder) x fun r w => Then Q r w.folder

section Rules

variable {α β : Type} {I P P' : Folder → Prop} {Q : α → Folder → Prop} {Q' : β → Folder → Prop}
  {faults : Nat → Fault} {x y : Call α}

theorem respects_meet : Respects (fun w w' => w'.folder = w.folder) (meet faults) := fun _ _ => rfl

theorem stable_folder (I : World → Prop) (P : Folder → Prop) :
    Stable (fun w w' => w'.folder = w.folder) I fun w => P w.folder := by
  intro w w' h _ hp
  rwa [h]

theorem Spec.op {f : Folder → Except Exc α × Folder}
    (hf : ∀ d, I d → P d → I (f d).2 ∧ Then Q (f d).1 (f d).2) : Spec I P (op faults f) Q := by
  refine Triple.syscall respects_meet (stable_folder _ I) (stable_folder _ P) fun w hi hp => ?_
  cases w.fault with
  | none => exact hf _ hi hp
  | raises => exact ⟨hi, trivial⟩
  | short written => exact hf _ hi hp

theorem Spec.writeData {name : Text} {data : Bytes} {Q : Unit → Folder → Prop}
    (hI : ∀ d, I d → P d → ∀ f : File → File, (∀ file, (f file).access = file.access) →
      I (d.modify name f))
    (hQ : ∀ d, P d → Q () (d.modify name fun file => { file with data := file.data ++ data })) :
    Spec I P (writeData faults name data) Q := by
  refine Triple.syscall respects_meet (stable_folder _ I) (stable_folder _ P) fun w hi hp => ?_
  cases w.fault with
  | none => exact ⟨hI _ hi hp _ fun _ => rfl, hQ _ hp⟩
  | raises => exact ⟨hi, trivial⟩
  | short written => exact ⟨hI _ hi hp _ fun _ => rfl, trivial⟩

theorem Spec.bind {f : α → Call β} (hx : Spec I P x Q) (hf : ∀ a, Spec I (Q a) (f a) Q') :
    Spec I P (x >>= f) Q' :=
  Triple.bind hx hf fun _ _ _ _ => trivial

theorem Spec.pure {a : α} (h : ∀ d, I d → P d → Q a d) : Spec I P (pure a) Q :=
  Triple.pure fun w hi hp => h w.folder hi hp

theorem Spec.raise {e : Exc} : Spec I P (Prog.raise e) Q := Triple.raise fun _ _ _ => trivial

theorem Spec.mono (h : Spec I P' x Q) (hP : ∀ d, I d → P d → P' d) : Spec I P x Q :=
  Triple.mono h (fun w hi hp => hP w.folder hi hp) fun _ _ _ hq => hq

/-- What does not depend on the folder. -/
theorem Spec.assume {c : Prop} (h : c → Spec I (fun _ => True) x Q) : Spec I (fun _ => c) x Q :=
  fun s hs hc => h hc s hs trivial

/-- After an exception the handler may rely on the invariant. -/
theorem Spec.attempt {handler : Exc → Call α} (hx : Spec I P x Q)
    (hhandler : ∀ e, Spec I (fun _ => True) (handler e) Q) : Spec I P (Prog.attempt x handler) Q :=
  Triple.attempt hx (fun _ _ _ hq => hq) fun e => (hhandler e).mono fun _ _ _ => trivial

theorem Spec.ite {c : Prop} [Decidable c] (hx : c → Spec I P x Q) (hy : ¬c → Spec I P y Q) :
    Spec I P (if c then x else y) Q := by
  split_ifs with h
  · exact hx h
  · exact hy h

theorem Spec.onlyIf {c : Prop} [Decidable c] {x : Call Unit} {Q : Unit → Folder → Prop}
    (hx : c → Spec I P x Q) (hskip : ¬c → ∀ d, P d → Q () d) : Spec I P (onlyIf c x) Q :=
  Spec.ite hx fun hc => Spec.pure fun d _ hp => hskip hc d hp

end Rules

section Folders

variable {d : Folder} {name name' : Text} {file : Option File} {f : File → File}

@[simp] theorem put_self : (d.put name file).files name = file := Function.update_self ..

theorem put_ne (h : name' ≠ name) : (d.put name file).files name' = d.files name' :=
  Function.update_of_ne h _ _

@[simp] theorem modify_self : (d.modify name f).files name = (d.files name).map f := put_self

theorem modify_ne (h : name' ≠ name) : (d.modify name f).files name' = d.files name' := put_ne h

theorem access_modify {f : Access → Access} :
    ((d.modify name fun file => { file with access := f file.access }).files name).map File.access =
      ((d.files name).map File.access).map f := by
  rw [modify_self]
  cases d.files name <;> rfl

theorem data_modify {f : Access → Access} :
    ((d.modify name fun file => { file with access := f file.access }).files name).map File.data =
      (d.files name).map File.data := by
  rw [modify_self]
  cases d.files name <;> rfl

theorem testFile_ne (pid attempt : Nat) :
    sharedSecretFile ≠ testFile pid attempt ∧ encryptionKeyFile ≠ testFile pid attempt := by
  refine ⟨fun h => ?_, fun h => ?_⟩
  · exact absurd (congrArg List.head? h) (by decide : some 's' ≠ some '.')
  · exact absurd (congrArg List.head? h) (by decide : some 'f' ≠ some '.')

end Folders

/-! ## The test of the file system -/

/-- `I` says nothing of the directory's mode, nor of the test files. -/
structure Unconcerned (I : Folder → Prop) : Prop where
  access : ∀ d access, I d → I { d with access }
  test : ∀ d pid attempt file, I d → I (d.put (testFile pid attempt) file)

section Test

variable {I : Folder → Prop} {newMode : Nat} {faults : Nat → Fault} {isKey : Bytes → Bool}
  {boot : Boot isKey}

/-- A part of a start that keeps `I`. -/
abbrev Leaves {α : Type} (I : Folder → Prop) (x : Call α) : Prop :=
  Spec I (fun _ => True) x fun _ _ => True

theorem then_true {α : Type} (r : Except Exc α) (d : Folder) : Then (fun _ _ => True) r d := by
  cases r with
  | ok a => trivial
  | error e => trivial

theorem Leaves.op {α : Type} {f : Folder → Except Exc α × Folder} (hf : ∀ d, I d → I (f d).2) :
    Leaves I (op faults f) :=
  Spec.op fun d hi _ => ⟨hf d hi, then_true _ _⟩

theorem Leaves.bind {α β : Type} {x : Call α} {f : α → Call β} (hx : Leaves I x)
    (hf : ∀ a, Leaves I (f a)) : Leaves I (x >>= f) :=
  Spec.bind hx hf

theorem Leaves.pure {α : Type} (a : α) : Leaves I (pure a) := Spec.pure fun _ _ _ => trivial

theorem Leaves.attempt {α : Type} {x : Call α} {handler : Exc → Call α} (hx : Leaves I x)
    (hhandler : ∀ e, Leaves I (handler e)) : Leaves I (Prog.attempt x handler) :=
  Spec.attempt hx hhandler

theorem Leaves.quietly {x : Call Unit} (hx : Leaves I x) : Leaves I (quietly x) :=
  hx.attempt fun _ => Leaves.pure ()

theorem leaves_mkdir (h : Unconcerned I) : Leaves I (mkdir faults) := by
  refine Leaves.op fun d hi => ?_
  dsimp only
  split_ifs
  · exact h.access d _ hi
  · exact hi

theorem leaves_statDir : Leaves I (statDir faults) := by
  refine Leaves.op fun d hi => ?_
  cases d.access <;> exact hi

theorem leaves_isThere (name : Text) : Leaves I (isThere faults name) := Leaves.op fun _ hi => hi

theorem leaves_readFile (name : Text) : Leaves I (readFile faults name) := by
  refine Leaves.op fun d hi => ?_
  cases d.files name <;> exact hi

theorem leaves_unlink (h : Unconcerned I) (pid attempt : Nat) :
    Leaves I (unlink faults (testFile pid attempt)) :=
  Leaves.op fun d hi => h.test d pid attempt none hi

theorem leaves_writeBytes (h : Unconcerned I) (pid attempt : Nat) (data : Bytes) :
    Leaves I (writeBytes newMode faults (testFile pid attempt) data) := by
  refine Leaves.bind (Leaves.op fun d hi => ?_) fun _ => ?_
  · cases d.access with
    | none => exact hi
    | some access => exact h.test d pid attempt _ hi
  · exact Spec.writeData (fun d hi _ f _ => h.test d pid attempt _ hi) fun _ _ => trivial

theorem leaves_testWrite (h : Unconcerned I) (attempt : Nat) :
    Leaves I (testWrite newMode faults boot attempt) :=
  (leaves_writeBytes h boot.pid attempt _).bind fun _ => (leaves_readFile _).bind fun _ =>
    (leaves_unlink h boot.pid attempt).quietly.bind fun _ => Leaves.pure _

theorem leaves_cleanUp (h : Unconcerned I) (attempt : Nat) :
    Leaves I (cleanUp faults boot attempt) :=
  (leaves_isThere _).bind fun _ =>
    Spec.onlyIf (fun _ => leaves_unlink h boot.pid attempt) fun _ _ _ => trivial

theorem leaves_tryFilesystem (h : Unconcerned I) (attempt : Nat) :
    Leaves I (tryFilesystem newMode faults boot attempt) := by
  refine Leaves.attempt ?_ fun _ => Leaves.pure false
  refine (leaves_mkdir h).bind fun _ => leaves_statDir.bind fun _ => ?_
  refine (leaves_testWrite h attempt).attempt fun _ => ?_
  exact (leaves_cleanUp h attempt).quietly.bind fun _ => Leaves.pure false

theorem leaves_tryAll (h : Unconcerned I) (attempts : List Nat) :
    Leaves I (tryAll newMode faults boot attempts) := by
  induction attempts with
  | nil => exact Leaves.pure false
  | cons attempt attempts ih =>
    exact (leaves_tryFilesystem h attempt).bind fun _ =>
      Spec.ite (fun _ => Leaves.pure true) fun _ => ih

end Test

/-! ## What a start leaves -/

/-- The directory is root's alone. -/
def Locked (d : Folder) : Prop := d.access = some ⟨0o700, true⟩

def HasSecret (secret : Bytes) (d : Folder) : Prop :=
  Locked d ∧ d.files sharedSecretFile = some ⟨⟨0o600, true⟩, secret⟩ ∧ secret ≠ []

def HasKey (isKey : Bytes → Bool) (key : Bytes) (d : Folder) : Prop :=
  (d.files encryptionKeyFile).map File.data = some key ∧ isKey key = true ∧ key ≠ []

/-- The manager and the files agree. -/
def Agrees (isKey : Bytes → Bool) (manager : Bytes × Bytes) (d : Folder) : Prop :=
  HasSecret manager.1 d ∧ HasKey isKey manager.2 d

section Start

variable {newMode : Nat} {faults : Nat → Fault} {isKey : Bytes → Bool} {boot : Boot isKey}

/-- `Spec` without an invariant. -/
abbrev Gives {α : Type} (P : Folder → Prop) (x : Call α) (Q : α → Folder → Prop) : Prop :=
  Spec (fun _ => True) P x Q

theorem Gives.op {α : Type} {P : Folder → Prop} {Q : α → Folder → Prop}
    {f : Folder → Except Exc α × Folder} (hf : ∀ d, P d → Then Q (f d).1 (f d).2) :
    Gives P (op faults f) Q :=
  Spec.op fun d _ hp => ⟨trivial, hf d hp⟩

theorem gives_changeDir {P : Folder → Prop} {Q : Unit → Folder → Prop} {f : Access → Access}
    (h : ∀ d, P d → Q () { d with access := d.access.map f }) : Gives P (changeDir faults f) Q := by
  refine Gives.op fun d hp => ?_
  dsimp only
  split_ifs
  · trivial
  · exact h d hp

theorem gives_changeFile {P : Folder → Prop} {Q : Unit → Folder → Prop} {name : Text}
    {f : Access → Access}
    (h : ∀ d, P d → Q () (d.modify name fun file => { file with access := f file.access })) :
    Gives P (changeFile faults name f) Q := by
  refine Gives.op fun d hp => ?_
  dsimp only
  split_ifs
  · trivial
  · exact h d hp

theorem gives_readFile {P : Folder → Prop} {Q : File → Folder → Prop} {name : Text}
    (h : ∀ d file, P d → d.files name = some file → Q file d) : Gives P
    (readFile faults name) Q := by
  refine Gives.op fun d hp => ?_
  cases hfile : d.files name with
  | none => trivial
  | some file => exact h d file hp hfile

theorem gives_closeDir : Gives (fun _ => True) (closeDir faults) fun _ => Locked := by
  refine Spec.bind (Q := fun stat d => d.access = some stat) ?_ fun stat => ?_
  · refine Gives.op fun d _ => ?_
    cases h : d.access with
    | none => trivial
    | some access => exact h
  · refine Spec.onlyIf (fun _ => ?_) fun hclosed d hd => ?_
    · refine Spec.bind (Q := fun _ d => ∃ mode, d.access = some ⟨mode, true⟩) ?_ fun _ => ?_
      · exact gives_changeDir fun d hd => ⟨stat.mode, congrArg (Option.map own) hd⟩
      · exact gives_changeDir fun d ⟨mode, hd⟩ => congrArg (Option.map (restrict 0o700)) hd
    · rw [Locked, hd, not_ne_iff.1 hclosed]

/-- A file is written: where the rest of the folder stays in `P`, it has the data. -/
theorem gives_writeBytes {P : Folder → Prop} {name : Text} {data : Bytes}
    (hP : ∀ d file, P d → P (d.put name file)) :
    Gives P (writeBytes newMode faults name data) fun _ d =>
      P d ∧ ∃ access, d.files name = some ⟨access, data⟩ := by
  refine Spec.bind (Q := fun _ d => P d ∧ ∃ access, d.files name = some ⟨access, []⟩) ?_ fun _ => ?_
  · refine Gives.op fun d hp => ?_
    cases d.access with
    | none => trivial
    | some _ => exact ⟨hP d _ hp, _, put_self⟩
  · refine Spec.writeData (fun _ _ _ _ _ => trivial) fun d ⟨hp, access, hfile⟩ => ?_
    refine ⟨hP d _ hp, access, ?_⟩
    rw [modify_self, hfile]
    rfl

theorem locked_put {d : Folder} {name : Text} {file : Option File} (h : Locked d) :
    Locked (d.put name file) := h

theorem gives_writeSecret :
    Gives Locked (writeSecret newMode faults boot) HasSecret := by
  have hne : boot.tokenBytes.val ≠ [] := by
    intro hnil
    have hlength := boot.tokenBytes.property
    rw [hnil] at hlength
    cases hlength
  refine Spec.bind (gives_writeBytes fun d file hd => locked_put hd) fun _ => ?_
  refine Spec.bind (Q := fun _ d => Locked d ∧ ∃ mode, d.files sharedSecretFile =
    some ⟨⟨mode, true⟩, boot.tokenBytes.val⟩) ?_ fun _ => ?_
  · refine gives_changeFile fun d ⟨hd, access, hfile⟩ => ⟨hd, access.mode, ?_⟩
    rw [modify_self, hfile]
    rfl
  · refine Spec.bind (Q := fun _ => HasSecret boot.tokenBytes.val) ?_ fun _ =>
      Spec.pure fun _ _ hd => hd
    refine gives_changeFile fun d ⟨hd, mode, hfile⟩ => ⟨hd, ?_, hne⟩
    rw [modify_self, hfile]
    rfl

theorem gives_loadSecret : Gives Locked (loadSecret faults) fun secret d =>
    Locked d ∧ d.files sharedSecretFile = some ⟨⟨0o600, true⟩, secret⟩ := by
  refine Spec.bind (Q := fun file d => Locked d ∧
    (d.files sharedSecretFile).map File.access = some file.access) ?_ fun file => ?_
  · refine gives_readFile fun d file hd hfile => ⟨hd, ?_⟩
    rw [hfile]
    rfl
  refine Spec.bind (Q := fun _ d => Locked d ∧
    (d.files sharedSecretFile).map File.access = some ⟨file.access.mode, true⟩) ?_ fun _ => ?_
  · refine Spec.onlyIf (fun _ => ?_) fun hroot d ⟨hd, hfile⟩ => ⟨hd, ?_⟩
    · refine gives_changeFile fun d ⟨hd, hfile⟩ => ⟨hd, ?_⟩
      rw [access_modify, hfile]
      rfl
    · rw [hfile, ← Bool.of_not_eq_false hroot]
  refine Spec.bind (Q := fun _ d => Locked d ∧
    (d.files sharedSecretFile).map File.access = some ⟨0o600, true⟩) ?_ fun _ => ?_
  · refine Spec.onlyIf (fun _ => ?_) fun hmode d ⟨hd, hfile⟩ => ⟨hd, ?_⟩
    · refine gives_changeFile fun d ⟨hd, hfile⟩ => ⟨hd, ?_⟩
      rw [access_modify, hfile]
      rfl
    · rw [hfile, not_ne_iff.1 hmode]
  refine Spec.bind (Q := fun file d => Locked d ∧
    d.files sharedSecretFile = some ⟨⟨0o600, true⟩, file.data⟩) ?_ fun _ =>
      Spec.pure fun _ _ hd => hd
  refine gives_readFile fun d file ⟨hd, haccess⟩ hfile => ⟨hd, ?_⟩
  rw [hfile] at haccess ⊢
  rw [← Option.some.inj haccess]

theorem gives_setupSharedSecret :
    Gives (fun _ => True) (setupSharedSecret newMode faults boot) HasSecret := by
  refine Spec.bind gives_closeDir fun _ => ?_
  refine Spec.bind (Q := fun _ => Locked) (Gives.op fun _ hd => hd) fun _ => ?_
  refine Spec.ite (fun _ => ?_) fun _ => gives_writeSecret
  refine Spec.bind gives_loadSecret fun secret => ?_
  refine Spec.ite (fun _ => gives_writeSecret.mono fun _ _ hd => hd.1) fun hne => ?_
  exact Spec.pure fun _ _ hd => ⟨hd.1, hd.2, hne⟩

theorem hasSecret_put {secret : Bytes} {d : Folder} {file : Option File} (h : HasSecret secret d) :
    HasSecret secret (d.put encryptionKeyFile file) := by
  refine ⟨h.1, ?_, h.2.2⟩
  rw [put_ne (by decide)]
  exact h.2.1

theorem gives_writeKey {secret : Bytes} :
    Gives (HasSecret secret) (writeKey newMode faults boot) fun key d =>
      HasSecret secret d ∧ HasKey isKey key d := by
  refine Spec.bind (gives_writeBytes fun d file hd => hasSecret_put hd) fun _ => ?_
  refine Spec.bind (Q := fun _ d => HasSecret secret d ∧ HasKey isKey boot.generateKey.val d) ?_
    fun _ => Spec.pure fun _ _ hd => hd
  refine gives_changeFile fun d ⟨hd, access, hfile⟩ =>
    ⟨hasSecret_put hd, ?_, boot.generateKey.property⟩
  rw [modify_self, hfile]
  rfl

theorem gives_setupEncryptionKey {secret : Bytes} :
    Gives (HasSecret secret) (setupEncryptionKey newMode faults boot) fun key d =>
      HasSecret secret d ∧ HasKey isKey key d := by
  refine Spec.bind (Q := fun _ => HasSecret secret) (Gives.op fun _ hd => hd) fun _ => ?_
  refine Spec.ite (fun _ => ?_) fun _ => gives_writeKey
  refine Spec.bind (Q := fun file d => HasSecret secret d ∧ d.files encryptionKeyFile = some file)
    (gives_readFile fun _ _ hd hfile => ⟨hd, hfile⟩) fun file => ?_
  refine Spec.ite (fun _ => gives_writeKey.mono fun _ _ hd => hd.1) fun hkey => ?_
  rw [not_or] at hkey
  refine Spec.pure fun d _ ⟨hd, hfile⟩ => ⟨hd, ?_, Bool.of_not_eq_false hkey.2, hkey.1⟩
  rw [hfile]
  rfl

theorem gives_securityManager :
    Gives (fun _ => True) (securityManager newMode faults boot) (Agrees isKey) := by
  have hany : Unconcerned fun _ => True := ⟨fun _ _ _ => trivial, fun _ _ _ _ _ => trivial⟩
  refine Spec.bind (leaves_tryAll hany _) fun _ => Spec.ite (fun _ => ?_) fun _ => Spec.raise
  refine Spec.bind (leaves_mkdir hany) fun _ => Spec.bind gives_setupSharedSecret fun secret => ?_
  exact Spec.bind gives_setupEncryptionKey fun key => Spec.pure fun _ _ hd => hd

end Start

/-! ## What a start keeps -/

/-- The files have the manager's secret and key. -/
def Keeps (manager : Bytes × Bytes) (d : Folder) : Prop :=
  (d.files sharedSecretFile).map File.data = some manager.1 ∧
    (d.files encryptionKeyFile).map File.data = some manager.2

section Kept

variable {newMode : Nat} {faults : Nat → Fault} {isKey : Bytes → Bool} {boot : Boot isKey}
  {manager : Bytes × Bytes}

theorem unconcerned_keeps : Unconcerned (Keeps manager) where
  access _ _ h := h
  test d pid attempt file h := by
    obtain ⟨hsecret, hkey⟩ := testFile_ne pid attempt
    rw [Keeps, put_ne hsecret, put_ne hkey]
    exact h

theorem leaves_changeDir {f : Access → Access} : Leaves (Keeps manager) (changeDir faults f) :=
  Leaves.op fun _ hi => hi

theorem leaves_changeSecret {f : Access → Access} :
    Leaves (Keeps manager) (changeFile faults sharedSecretFile f) := by
  refine Leaves.op fun d hi => ⟨?_, ?_⟩
  · exact data_modify.trans hi.1
  · exact (congrArg (Option.map File.data) (modify_ne (by decide))).trans hi.2

theorem leaves_closeDir : Leaves (Keeps manager) (closeDir faults) :=
  leaves_statDir.bind fun _ => Spec.onlyIf
    (fun _ => leaves_changeDir.bind fun _ => leaves_changeDir) fun _ _ _ => trivial

/-- A file that is there is found. -/
theorem finds {name : Text} {data : Bytes}
    (h : ∀ d, Keeps manager d → (d.files name).map File.data = some data) :
    Spec (Keeps manager) (fun _ => True) (isThere faults name) fun found _ => found = true := by
  refine Spec.op fun d hi _ => ⟨hi, ?_⟩
  obtain ⟨file, hfile, -⟩ := Option.map_eq_some_iff.1 (h d hi)
  show (d.files name).isSome = true
  rw [hfile]
  rfl

theorem reads {name : Text} {data : Bytes}
    (h : ∀ d, Keeps manager d → (d.files name).map File.data = some data) :
    Spec (Keeps manager) (fun _ => True) (readFile faults name) fun file _ => file.data = data := by
  refine Spec.op fun d hi _ => ?_
  obtain ⟨file, hfile, hdata⟩ := Option.map_eq_some_iff.1 (h d hi)
  rw [hfile]
  exact ⟨hi, hdata⟩

theorem loadSecret_kept : Spec (Keeps manager) (fun _ => True) (loadSecret faults) fun secret _ =>
    secret = manager.1 := by
  refine Spec.bind (leaves_readFile _) fun file => ?_
  refine Spec.bind (Spec.onlyIf (fun _ => leaves_changeSecret) fun _ _ _ => trivial) fun _ => ?_
  refine Spec.bind (Spec.onlyIf (fun _ => leaves_changeSecret) fun _ _ _ => trivial) fun _ => ?_
  exact Spec.bind (reads fun _ hd => hd.1) fun file => Spec.pure fun _ _ hfile => hfile

/-- A secret that is there is loaded, and no call changes it. -/
theorem setupSharedSecret_kept (hne : manager.1 ≠ []) :
    Spec (Keeps manager) (fun _ => True) (setupSharedSecret newMode faults boot) fun secret _ =>
      secret = manager.1 := by
  refine Spec.bind leaves_closeDir fun _ => Spec.bind (finds fun _ hd => hd.1) fun found => ?_
  refine Spec.assume fun hfound => ?_
  rw [if_pos hfound]
  refine Spec.bind loadSecret_kept fun secret => Spec.assume fun hsecret => ?_
  rw [if_neg (hsecret ▸ hne)]
  exact Spec.pure fun _ _ _ => hsecret

theorem setupEncryptionKey_kept (hne : manager.2 ≠ []) (hkey : isKey manager.2 = true) :
    Spec (Keeps manager) (fun _ => True) (setupEncryptionKey newMode faults boot) fun key _ =>
      key = manager.2 := by
  refine Spec.bind (finds fun _ hd => hd.2) fun found => Spec.assume fun hfound => ?_
  rw [if_pos hfound]
  refine Spec.bind (reads fun _ hd => hd.2) fun file => Spec.assume fun hfile => ?_
  have hgood : ¬(file.data = [] ∨ isKey file.data = false) := by
    rw [hfile, hkey]
    simp [hne]
  rw [if_neg hgood]
  exact Spec.pure fun _ _ _ => hfile

theorem securityManager_kept (hsecret : manager.1 ≠ []) (hne : manager.2 ≠ [])
    (hkey : isKey manager.2 = true) :
    Spec (Keeps manager) (fun _ => True) (securityManager newMode faults boot) fun found _ =>
      found = manager := by
  refine Spec.bind (leaves_tryAll unconcerned_keeps _) fun _ =>
    Spec.ite (fun _ => ?_) fun _ => Spec.raise
  refine Spec.bind (leaves_mkdir unconcerned_keeps) fun _ => ?_
  refine Spec.bind (setupSharedSecret_kept hsecret) fun secret => Spec.assume fun hfirst => ?_
  refine Spec.bind (setupEncryptionKey_kept hne hkey) fun key => Spec.pure fun _ _ hsecond => ?_
  rw [hfirst, hsecond]

end Kept

/-! ## Every run -/

section Runs

variable {newMode : Nat} {isKey : Bytes → Bool} {s t : State}

/-- What is known of a start is known of the run of it. -/
theorem attempt_spec {I : Folder → Prop} {Q : Bytes × Bytes → Folder → Prop}
    (newMode : Nat) (faults : Nat → Fault) (boot : Boot isKey)
    (h : Spec I (fun _ => True) (securityManager newMode faults boot) Q) (hI : I s.folder) :
    Always (fun w => I w.folder) (s.attempt newMode faults boot).2 ∧
      Then Q (s.attempt newMode faults boot).1 (s.attempt newMode faults boot).2.world.folder := by
  have hstart : Always (fun w : World => I w.folder) (Shared.start ⟨s.folder, .none⟩) :=
    Always.start hI
  exact h _ hstart trivial

theorem then_toOption {α : Type} {r : Except Exc α} {Q : α → Folder → Prop} {d : Folder}
    (h : Then Q r d) {a : α} (ha : r.toOption = some a) : Q a d := by
  cases r with
  | error e => cases ha
  | ok b =>
    obtain rfl := Option.some.inj ha
    exact h

/-- What a step does. -/
theorem step_cases {a : Act isKey} (hstep : step newMode s a = some t) :
    (∃ faults, ∃ boot : Boot isKey, s.manager = none ∧
      t = ⟨(s.attempt newMode faults boot).2.world.folder,
        (s.attempt newMode faults boot).1.toOption⟩) ∨
    (∃ faults boot moment, a = .killed faults boot moment ∧ s.manager = none ∧
      t = ⟨((s.attempt newMode faults boot).2.past[moment]?.getD
        (s.attempt newMode faults boot).2.world).folder, none⟩) ∨
    (a = .stop ∧ t = { s with manager := none }) ∨
    ∃ folder, a = .offline folder ∧ s.manager = none ∧ t = ⟨folder, none⟩ := by
  cases a with
  | start faults boot =>
    simp only [step] at hstep
    split_ifs at hstep with hdown
    exact Or.inl ⟨faults, boot, hdown, (Option.some.inj hstep).symm⟩
  | killed faults boot moment =>
    simp only [step] at hstep
    split_ifs at hstep with hdown
    exact Or.inr (Or.inl ⟨faults, boot, moment, rfl, hdown, (Option.some.inj hstep).symm⟩)
  | stop => exact Or.inr (Or.inr (Or.inl ⟨rfl, (Option.some.inj hstep).symm⟩))
  | offline folder =>
    simp only [step] at hstep
    split_ifs at hstep with hdown
    exact Or.inr (Or.inr (Or.inr ⟨folder, rfl, hdown, (Option.some.inj hstep).symm⟩))

/-- A Core that is up agrees with its files. -/
def Inv (isKey : Bytes → Bool) (s : State) : Prop :=
  ∀ manager, s.manager = some manager → Agrees isKey manager s.folder

theorem Inv.step {a : Act isKey} (hstep : step newMode s a = some t) : Inv isKey t := by
  intro manager hmanager
  obtain ⟨faults, boot, -, rfl⟩ | ⟨faults, boot, moment, -, -, rfl⟩ | ⟨-, rfl⟩ | ⟨folder,
    -, -, rfl⟩ :=
    step_cases hstep
  · exact then_toOption (attempt_spec newMode faults boot gives_securityManager trivial).2 hmanager
  · cases hmanager
  · cases hmanager
  · cases hmanager

theorem inv_reaches {folder : Folder}
    (h : Reaches (@Secrets.step newMode isKey) (initial folder) s) : Inv isKey s := by
  refine Run.invariant h (fun _ hmanager => ?_) fun _ _ _ _ _ hstep => Inv.step hstep
  cases hmanager

/-- **A Core that is up has the secrets that are in the files.** -/
theorem manager_agrees {folder : Folder}
    (h : Reaches (@Secrets.step newMode isKey) (initial folder) s) {secret key : Bytes}
    (hup : s.manager = some (secret, key)) :
    s.folder.access = some ⟨0o700, true⟩ ∧
      s.folder.files sharedSecretFile = some ⟨⟨0o600, true⟩, secret⟩ ∧ secret ≠ [] ∧
      (s.folder.files encryptionKeyFile).map File.data = some key ∧ isKey key = true := by
  obtain ⟨⟨hdir, hfile, hne⟩, hkey, hgood, -⟩ := inv_reaches h (secret, key) hup
  exact ⟨hdir, hfile, hne, hkey, hgood⟩

/-- What `Fernet` takes: the text of 32 bytes. -/
def fernetKey (key : Bytes) : Bool :=
  match Base64.urlsafeDecode (key.map fun b => Char.ofNat b.toNat) with
  | .ok bytes => bytes.length = 32
  | .error _ => false

/-- A start that draws 32 times the same byte. -/
def drawing (b : UInt8) : Boot fernetKey where
  pid := 7
  urandom _ := [b]
  tokenBytes := ⟨List.replicate 32 b, List.length_replicate⟩
  generateKey := ⟨List.replicate 43 65 ++ [61], by decide +kernel⟩

def calm : Nat → Fault := fun _ => .none

theorem manager_agrees_first : ∃ s, Reaches (@Secrets.step 0o644 fernetKey)
      (initial ⟨none, fun _ => none⟩) s ∧
    s.manager = some (List.replicate 32 1, List.replicate 43 65 ++ [61]) ∧
    (s.folder.access = some ⟨0o700, true⟩ ∧
      s.folder.files sharedSecretFile = some ⟨⟨0o600, true⟩, List.replicate 32 1⟩ ∧
      List.replicate 32 1 ≠ ([] : Bytes) ∧
      (s.folder.files encryptionKeyFile).map File.data = some (List.replicate 43 65 ++ [61]) ∧
      fernetKey (List.replicate 43 65 ++ [61]) = true) := by
  have hexec : (exec (@Secrets.step 0o644 fernetKey) (initial ⟨none, fun _ => none⟩)
      [.start calm (drawing 1)]).any (fun s => decide
        (s.manager = some (List.replicate 32 1, List.replicate 43 65 ++ [61]))) = true := by
    decide +kernel
  obtain ⟨s, hs, hmanager⟩ := (Option.any_eq_true _ _).1 hexec
  have hreach := Reaches.of_exec hs
  have hup := of_decide_eq_true hmanager
  exact ⟨s, hreach, hup, manager_agrees hreach hup⟩

/-- Core starts, is killed, or stops, and nobody else changes the files. -/
def Alone (a : Act isKey) : Prop := ∀ folder, a ≠ .offline folder

/-- The files keep the secrets of a manager, and there is no other one. -/
structure Kept (manager : Bytes × Bytes) (s : State) : Prop where
  files : Keeps manager s.folder
  only : ∀ manager', s.manager = some manager' → manager' = manager

theorem Kept.step {manager : Bytes × Bytes} (h : Kept manager s) (hsecret : manager.1 ≠ [])
    (hne : manager.2 ≠ []) (hkey : isKey manager.2 = true) {a : Act isKey} (ha : Alone a)
    (hstep : step newMode s a = some t) : Kept manager t := by
  obtain ⟨faults, boot, -, rfl⟩ | ⟨faults, boot, moment, -, -, rfl⟩ | ⟨-, rfl⟩ |
    ⟨folder, hfolder, -, -⟩ := step_cases hstep
  · have hrun := attempt_spec newMode faults boot (securityManager_kept hsecret hne hkey) h.files
    exact ⟨hrun.1.now, fun _ hmanager => then_toOption hrun.2 hmanager⟩
  · have hrun := attempt_spec newMode faults boot (securityManager_kept hsecret hne hkey) h.files
    refine ⟨?_, fun _ hmanager => by cases hmanager⟩
    show Keeps manager (((s.attempt newMode faults boot).2.past[moment]?).getD _).folder
    cases hpast : (s.attempt newMode faults boot).2.past[moment]? with
    | none => exact hrun.1.now
    | some w => exact hrun.1.past w (List.mem_of_getElem? hpast)
  · exact ⟨h.files, fun _ hmanager => by cases hmanager⟩
  · exact absurd hfolder (ha folder)

/-- **The secrets of a Core that is up stay in the files, and every later Core has them.** -/
theorem secrets_kept {folder : Folder}
    (h : Reaches (@Secrets.step newMode isKey) (initial folder) s) {secret key : Bytes}
    (hup : s.manager = some (secret, key))
    (hrun : Run (@Secrets.step newMode isKey) (fun _ a => Alone a) s t) :
    (t.folder.files sharedSecretFile).map File.data = some secret ∧
      (t.folder.files encryptionKeyFile).map File.data = some key ∧
      ∀ manager, t.manager = some manager → manager = (secret, key) := by
  obtain ⟨⟨-, hfile, hsecret⟩, hkey, hgood, hne⟩ := inv_reaches h (secret, key) hup
  have hstart : Kept (secret, key) s := by
    refine ⟨⟨?_, hkey⟩, fun manager hmanager => ?_⟩
    · rw [hfile]
      rfl
    · rw [hup] at hmanager
      exact (Option.some.inj hmanager).symm
  have hend := Run.invariant hrun hstart fun _ _ _ hs ha hstep =>
    hs.step hsecret hne hgood ha hstep
  exact ⟨hend.files.1, hend.files.2, hend.only⟩

/-- A second start, killed after a call, and a third. -/
theorem secrets_kept_restarted : ∃ s t, Reaches (@Secrets.step 0o644 fernetKey)
      (initial ⟨none, fun _ => none⟩) s ∧
    s.manager = some (List.replicate 32 1, List.replicate 43 65 ++ [61]) ∧
    Run (@Secrets.step 0o644 fernetKey) (fun _ a => Alone a) s t ∧ t.manager ≠ none ∧
    ((t.folder.files sharedSecretFile).map File.data = some (List.replicate 32 1) ∧
      (t.folder.files encryptionKeyFile).map File.data = some (List.replicate 43 65 ++ [61]) ∧
      ∀ manager, t.manager = some manager →
        manager = (List.replicate 32 1, List.replicate 43 65 ++ [61])) := by
  have hexec : (exec (@Secrets.step 0o644 fernetKey) (initial ⟨none, fun _ => none⟩)
      [.start calm (drawing 1)]).any (fun s => decide
        (s.manager = some (List.replicate 32 1, List.replicate 43 65 ++ [61])) &&
        (exec (@Secrets.step 0o644 fernetKey) s [.stop, .killed calm (drawing 2) 3,
          .start calm (drawing 2)]).any fun t => t.manager.isSome) = true := by
    decide +kernel
  obtain ⟨s, hs, hboth⟩ := (Option.any_eq_true _ _).1 hexec
  rw [Bool.and_eq_true, Option.any_eq_true] at hboth
  obtain ⟨hmanager, t, ht, hlater⟩ := hboth
  have hreach := Reaches.of_exec hs
  have hup := of_decide_eq_true hmanager
  have hrun : Run (@Secrets.step 0o644 fernetKey) (fun _ a => Alone a) s t := by
    refine Run.of_exec (fun a ha _ folder hfolder => ?_) ht
    rw [hfolder] at ha
    simp at ha
  have hne : t.manager ≠ none := by
    intro hnone
    rw [hnone] at hlater
    cases hlater
  exact ⟨s, t, hreach, hup, hrun, hne, secrets_kept hreach hup hrun⟩

end Runs

end WlanpiCore.Secrets
