import WlanpiCore.Lib.PyStr
import Mathlib.Data.List.Lex

/-!
# The profiler's files

`read_file` serves one file below the data root and `list_files` names the files it serves. Both go
down from the root one component at a time, with `O_NOFOLLOW`, each directory opened relative to the
descriptor of the one above it.

A `Tree` is the file system as the kernel answers in one instant; a reader that makes several calls
meets a `Tree` for each of them, and between two calls anything may have been swapped.
-/

namespace WlanpiCore.Profiler

open Text PyStr

/-! ## Strings -/

def slash : PyChar := .char '/'
def dot : PyChar := .char '.'

/-! ## The file system -/

/-- What a directory can call an entry. -/
def isName (bytes : Bytes) : Bool :=
  bytes ≠ [] && bytes ≠ [0x2e] && bytes ≠ [0x2e, 0x2e] && !bytes.contains 0x2f && !bytes.contains 0

abbrev Name := { bytes : Bytes // isName bytes = true }

/-- A directory: its entries, and the names `scandir` gives them. -/
structure Dir (ι : Type) where
  entry : Name → Option ι
  names : List Name
  complete : ∀ name, name ∈ names ↔ (entry name).isSome = true

/-- What an inode is. The time is in nanoseconds; `other` is a FIFO, a socket or a device. -/
inductive Node (ι : Type) where
  | regular (content : Bytes) (mtime : Int)
  | dir (d : Dir ι)
  | symlink
  | other

def Node.isDir {ι : Type} : Node ι → Bool
  | .dir _ => true
  | _ => false

/-- The file system in one instant. `walk` is where a name of several components leads, symlinks
followed, `follow` where a symlink does, `may` whether the process may open an inode, and search it
if it is a directory. `root` is what `os.open(DATA_ROOT)` opens: the data root may be a symlink. -/
structure Tree (ι : Type) where
  node : ι → Node ι
  parent : ι → ι
  walk : ι → Bytes → Option ι
  follow : ι → Option ι
  may : ι → Bool
  root : Option ι

structure Flags where
  directory : Bool := false
  nofollow : Bool := false

section Kernel

variable {ι : Type}

def Tree.lookup (k : Tree ι) (d : ι) (bytes : Bytes) : Option ι :=
  match k.node d with
  | .dir dir => if h : isName bytes = true then dir.entry ⟨bytes, h⟩ else none
  | _ => none

/-- Where a name leads from a directory, before the flags are looked at. -/
def Tree.resolve (k : Tree ι) (d : ι) (bytes : Bytes) (flags : Flags) : Option ι :=
  if bytes = [] then none
  else if 0x2f ∈ bytes then k.walk d bytes
  else if bytes = [0x2e] then some d
  else if bytes = [0x2e, 0x2e] then some (k.parent d)
  else
    match k.lookup d bytes with
    | none => none
    | some i =>
      match k.node i with
      | .symlink => if flags.nofollow then none else k.follow i
      | _ => some i

/-- `openat`; `none` is an `OSError`. -/
def Tree.openat (k : Tree ι) (d : ι) (bytes : Bytes) (flags : Flags) : Option ι :=
  (k.resolve d bytes flags).filter fun i => k.may i && (!flags.directory || (k.node i).isDir)

inductive Exc where
  | osError
  | valueError
  | indexError
  deriving DecidableEq

/-- `os.open(name, flags, dir_fd=fd)`. A name with a NUL or one that has no bytes is refused before
the kernel sees it. -/
def Tree.osOpen (k : Tree ι) (fd : ι) (name : PyStr) (flags : Flags) : Except Exc ι :=
  match fsencode name with
  | none => .error .valueError
  | some bytes =>
    if 0 ∈ bytes then .error .valueError
    else
      match k.openat fd bytes flags with
      | none => .error .osError
      | some i => .ok i

/-- `os.open(DATA_ROOT, _DIR_FLAGS)` -/
def Tree.openRoot (k : Tree ι) : Except Exc ι :=
  match k.root with
  | none => .error .osError
  | some i => if k.may i && (k.node i).isDir then .ok i else .error .osError

/-! ## The reader -/

/-- The loop of `_open_below_root` and its last open; call `n` meets `w n`. -/
def descend (w : Nat → Tree ι) (n : Nat) (fd : ι) (parts : List PyStr) (flags : Flags) :
    Except Exc ι :=
  match parts with
  | [] => .error .indexError
  | [name] => (w n).osOpen fd name { flags with nofollow := true }
  | name :: rest =>
    match (w n).osOpen fd name { directory := true, nofollow := true } with
    | .error e => .error e
    | .ok child => descend w (n + 1) child rest flags

/-- `_open_below_root` -/
def openBelowRoot (w : Nat → Tree ι) (parts : List PyStr) (flags : Flags) : Except Exc ι :=
  match (w 0).openRoot with
  | .error e => .error e
  | .ok fd => descend w 1 fd parts flags

/-- `{"clients": 3, "reports": 2}.get(parts[0])` -/
def depthOf (part : PyStr) : Option Nat :=
  if part = ofText "clients".toList then some 3
  else if part = ofText "reports".toList then some 2
  else none

/-- `p in ("", ".", "..") or "\0" in p` -/
def bad (p : PyStr) : Bool :=
  p = [] || p = [dot] || p = [dot, dot] || p.contains (.char '\x00')

/-- `os.path.splitext(path)[1]`, of the last component. -/
def extension (file : PyStr) : PyStr :=
  let stem := file.dropWhile (· = dot)
  if dot ∈ stem then dot :: (stem.reverse.takeWhile (· ≠ dot)).reverse else []

/-- `str.lower`, of the ASCII letters: no other character is one of `MEDIA_TYPES` in lower case. -/
def lower (s : PyStr) : PyStr :=
  s.map fun
    | .char c => .char c.toLower
    | .surrogate n => .surrogate n

def mediaTypes : List (PyStr × String) :=
  [(ofText ".json".toList, "application/json"), (ofText ".txt".toList, "text/plain; charset=utf-8"),
    (ofText ".pcap".toList, "application/vnd.tcpdump.pcap"),
    (ofText ".csv".toList, "text/csv; charset=utf-8")]

def otherMediaType : String := "application/octet-stream"

def mediaType (path : PyStr) : String :=
  (mediaTypes.lookup (lower (extension ((path.splitOn slash).getLastD [])))).getD otherMediaType

/-- How `read_file` fails: with its `ValidationError`, or with what it lets through. -/
inductive ReadError where
  | notFound
  | raised (e : Exc)
  deriving DecidableEq

/-- The part of `read_file` behind the open, with `fdopen`, `fstat` and `read` as calls `n`, `n + 1`
and `n + 2`. `fdopen` refuses a directory. -/
def readOpened (w : Nat → Tree ι) (n : Nat) (fd : ι) : Except ReadError Bytes :=
  if ((w n).node fd).isDir then .error (.raised .osError)
  else
    match (w (n + 1)).node fd with
    | .regular _ _ =>
      match (w (n + 2)).node fd with
      | .regular content _ => .ok content
      | _ => .error (.raised .osError)
    | _ => .error .notFound

/-- `read_file` -/
def readFile (w : Nat → Tree ι) (path : PyStr) : Except ReadError (Bytes × String) :=
  let parts := path.splitOn slash
  if some parts.length ≠ depthOf (parts.headD []) ∨ parts.any bad then .error .notFound
  else
    match openBelowRoot w parts {} with
    | .error .osError => .error .notFound
    | .error e => .error (.raised e)
    | .ok fd => (readOpened w (parts.length + 1) fd).map fun content => (content, mediaType path)

/-! ## The lister -/

/-- Names in the order of their code points. -/
def nameLE (a b : Text) : Bool := a.map Char.toNat ≤ b.map Char.toNat

/-- `_entries`, of a tree that does not change meanwhile. -/
def entries (k : Tree ι) (parts : List PyStr) : Except Exc (List (Text × Node ι)) :=
  match openBelowRoot (fun _ => k) parts { directory := true } with
  | .error .osError => .ok []
  | .error e => .error e
  | .ok fd =>
    match k.node fd with
    | .dir d =>
      let found := d.names.filterMap fun name =>
        match decode name.val, d.entry name with
        | some t, some i => some (t, k.node i)
        | _, _ => none
      .ok (found.mergeSort fun a b => nameLE a.1 b.1)
    | _ => .error .osError

structure FileInfo where
  path : Text
  size : Nat
  modified : Int

/-- An entry of the list, or `none` for what is not regular. `fromtimestamp` gives no date for a
time beyond the years it knows: a `ValueError` or an `OverflowError`. -/
def describe (fromtimestamp : Int → Option Int) (parts : List Text) (entry : Text × Node ι) :
    Except Exc (Option FileInfo) :=
  match entry.2 with
  | .regular content mtime =>
    match fromtimestamp mtime with
    | none => .error .valueError
    | some modified => .ok (some ⟨['/'].intercalate (parts ++ [entry.1]), content.length, modified⟩)
  | _ => .ok none

/-- `_regular_files` -/
def regularFiles (fromtimestamp : Int → Option Int) (k : Tree ι) (parts : List Text) :
    Except Exc (List FileInfo) :=
  match entries k (parts.map ofText) with
  | .error e => .error e
  | .ok es => (es.mapM (describe fromtimestamp parts)).map fun infos => infos.filterMap id

structure Client where
  mac : Text
  files : List FileInfo

structure Listing where
  clients : List Client
  reports : List FileInfo

/-- One step of the loop over the clients. -/
def clientOf (fromtimestamp : Int → Option Int) (k : Tree ι) (mac : Option Text) (name : Text) :
    Except Exc (Option Client) :=
  if mac.any (name ≠ ·) then .ok none
  else
    (regularFiles fromtimestamp k ["clients".toList, name]).map fun files =>
      if files.isEmpty then none
      else some ⟨name.map fun c => if c = '-' then ':' else c, files⟩

/-- `list_files` -/
def listFiles (fromtimestamp : Int → Option Int) (k : Tree ι) (mac : Option Text) :
    Except Exc Listing :=
  match entries k [ofText "clients".toList] with
  | .error e => .error e
  | .ok es =>
    match es.mapM fun entry => clientOf fromtimestamp k mac entry.1 with
    | .error e => .error e
    | .ok clients =>
      (regularFiles fromtimestamp k ["reports".toList]).map fun reports =>
        ⟨clients.filterMap id, reports⟩

def Listing.paths (l : Listing) : List Text :=
  l.clients.flatMap (fun client => client.files.map (·.path)) ++ l.reports.map (·.path)

end Kernel

end WlanpiCore.Profiler
