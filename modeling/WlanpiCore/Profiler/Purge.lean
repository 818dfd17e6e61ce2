import WlanpiCore.Lib.FileTree
import WlanpiCore.Lib.Prog
import WlanpiCore.Profiler.Files

/-!
# Deleting the profiler's data

`_delete_contents` empties the directories `clients` and `reports`. What it deletes it counts first:
`_tree_usage` walks a directory by path, `shutil.rmtree` goes down from one descriptor to the next.

**The file system** is a tree of directories, files and symlinks, and the place to which the path
of the data root leads. Below that place the kernel follows paths as it does, symlinks and `..` of
their targets included, and refuses a path of `PATH_MAX` bytes or more. A name relative to a
descriptor has no such limit. Nothing is refused for want of permission.

**The descriptors.** The process may open so many more (`FileSystem.descriptors`): its soft limit,
1024 unless it is set, less those that are open. `os.scandir` holds one while it reads. `rmtree`
keeps that of a directory open until everything below is gone, so it needs one for every level, and
one to read the last.

`os.walk` and `rmtree` take a bound on their steps from the number of directories there are.
-/

namespace WlanpiCore.Profiler

/-! ## The file system -/

/-- What is not a directory. -/
inductive File where
  | regular (content : Bytes)
  | symlink (target : Bytes)
  deriving DecidableEq

/-- `st_size` of an `lstat` -/
def File.size : File → Nat
  | .regular content => content.length
  | .symlink target => target.length

abbrev Inode := FileTree Name File

/-- `st_size`. That of a directory is not used. -/
def stSize : Inode → Nat
  | .leaf file => file.size
  | .dir _ => 0

inductive FileType where
  | dir
  | regular
  | symlink
  deriving DecidableEq

def fileType : Inode → FileType
  | .dir _ => .dir
  | .leaf (.regular _) => .regular
  | .leaf (.symlink _) => .symlink

/-- The names that lead to an inode from `/`, with no symlink among them. -/
abbrev Location := List Name

/-- `descriptors` is the number of descriptors that the process may still open. -/
structure FileSystem where
  tree : Inode
  dataRoot : Location
  descriptors : Nat

/-- Change the entries of the directory at a location. -/
def FileSystem.modify (fs : FileSystem) (location : Location)
    (f : List (Name × Inode) → List (Name × Inode)) : FileSystem :=
  { fs with tree := fs.tree.update f location }

/-- The `OSError`s. `symbolicLink` is the one `rmtree` raises itself. -/
inductive Errno where
  | fileNotFound
  | notADirectory
  | isADirectory
  | notEmpty
  | tooManyLinks
  | nameTooLong
  | tooManyOpen
  | symbolicLink
  deriving DecidableEq

/-! ## Paths -/

/-- How far the components of a path lead from a place: to a location, or to a symlink, with its
target and the components after it. -/
def hop (tree : Inode) (nofollow : Bool) :
    Location → List Bytes → Except Errno (Location ⊕ (Location × Bytes × List Bytes))
  | here, [] => .ok (.inl here)
  | here, component :: rest =>
    match tree.at? here with
    | some (.dir entries) =>
      if h : isName component = true then
        match Dict.get entries ⟨component, h⟩ with
        | none => .error .fileNotFound
        | some (.leaf (.symlink target)) =>
          if nofollow && rest.isEmpty then .ok (.inl (here ++ [⟨component, h⟩]))
          else .ok (.inr (here, target, rest))
        | some _ => hop tree nofollow (here ++ [⟨component, h⟩]) rest
      else if component = [0x2e, 0x2e] then hop tree nofollow here.dropLast rest
      else hop tree nofollow here rest
    | some (.leaf _) => .error .notADirectory
    | none => .error .fileNotFound

/-- Where the components lead, for a number of symlinks that may be followed. -/
def follow (tree : Inode) (nofollow : Bool) : Nat → Location → List Bytes → Except Errno Location
  | links, here, components =>
    match hop tree nofollow here components with
    | .error e => .error e
    | .ok (.inl location) => .ok location
    | .ok (.inr (here, target, rest)) =>
      match links with
      | 0 => .error .tooManyLinks
      | links + 1 =>
        follow tree nofollow links (if target.head? = some 0x2f then [] else here)
          (target.splitOn 0x2f ++ rest)

/-- A path: the components after `DATA_ROOT`. -/
abbrev Path := List Name

/-- `DATA_ROOT` -/
def dataRootPath : Text := "/var/www/html/profiler".toList

/-- The length of a path in bytes. -/
def pathSize (path : Path) : Nat :=
  dataRootPath.length + (path.map fun name => name.val.length + 1).sum

def pathMax : Nat := 4096

/-- Forty symlinks in one path are followed. -/
def maxLinks : Nat := 40

namespace FileSystem

variable (fs : FileSystem)

def locate (nofollow : Bool) (path : Path) : Except Errno Location :=
  if pathMax ≤ pathSize path then .error .nameTooLong
  else follow fs.tree nofollow maxLinks fs.dataRoot (path.map Subtype.val)

/-- `os.stat`; with `nofollow`, `os.lstat`. -/
def stat (nofollow : Bool) (path : Path) : Except Errno Inode := do
  let location ← fs.locate nofollow path
  match fs.tree.at? location with
  | some node => .ok node
  | none => .error .fileNotFound

def lstat (path : Path) : Except Errno Inode := fs.stat true path

/-- `os.path.islink` -/
def islink (path : Path) : Bool :=
  match fs.lstat path with
  | .ok (.leaf (.symlink _)) => true
  | _ => false

/-- `os.scandir` of a directory that is open. -/
def scandirAt (location : Location) : Except Errno (List (Name × FileType)) :=
  match fs.tree.at? location with
  | some (.dir entries) => .ok (entries.map fun e => (e.1, fileType e.2))
  | some (.leaf _) => .error .notADirectory
  | none => .error .fileNotFound

/-- `os.scandir`. The kernel takes a descriptor before it follows the path. -/
def scandir (path : Path) : Except Errno (List (Name × FileType)) :=
  if pathSize path < pathMax ∧ fs.descriptors = 0 then .error .tooManyOpen
  else do fs.scandirAt (← fs.locate false path)

/-- `entry.is_dir()`, which follows a symlink; `os.walk` takes an `OSError` for a no. -/
def isDir (path : Path) (entry : Name × FileType) : Bool :=
  match entry.2 with
  | .dir => true
  | .regular => false
  | .symlink =>
    match fs.stat false (path ++ [entry.1]) with
    | .ok (.dir _) => true
    | _ => false

/-! ## What is deleted -/

/-- `os.walk(top)` and the body of the loop over it. The walk is a generator: it goes on, to the
directories that are no symlinks, when the body is done. An `OSError` of `scandir` is ignored. -/
def walk {σ : Type} (body : σ → Path → List Name → List Name → Except Errno σ) :
    Nat → List Path → σ → Except Errno σ
  | _, [], acc => .ok acc
  | 0, _ :: _, acc => .ok acc
  | fuel + 1, top :: stack, acc =>
    match fs.scandir top with
    | .error _ => walk body fuel stack acc
    | .ok entries =>
      let dirs := (entries.filter fun e => fs.isDir top e).map Prod.fst
      let nondirs := (entries.filter fun e => !fs.isDir top e).map Prod.fst
      match body acc top dirs nondirs with
      | .error e => .error e
      | .ok acc =>
        let walked := dirs.filter fun name => !fs.islink (top ++ [name])
        walk body fuel (walked.map (fun name => top ++ [name]) ++ stack) acc

/-- One `lstat` of `_tree_usage`: the files and bytes so far, and the new ones. -/
def countEntry (dirpath : Path) (acc : Nat × Nat) (name : Name) : Except Errno (Nat × Nat) :=
  match fs.lstat (dirpath ++ [name]) with
  | .error .fileNotFound => .ok acc
  | .error e => .error e
  | .ok (.dir _) => .ok acc
  | .ok (.leaf file) => .ok (acc.1 + 1, acc.2 + file.size)

/-- The body of the loop of `_tree_usage`. The walk lists a symlink to a directory under
`dirnames`. -/
def countEntries (acc : Nat × Nat) (dirpath : Path) (dirnames filenames : List Name) :
    Except Errno (Nat × Nat) :=
  (dirnames ++ filenames).foldlM (fs.countEntry dirpath) acc

/-- `_tree_usage` -/
def treeUsage (path : Path) : Except Errno (Nat × Nat) :=
  fs.walk fs.countEntries fs.tree.dirCount [path] (0, 0)

end FileSystem

/-! ## Deleting -/

open Prog

/-- Remove an entry of the directory at a location. -/
def removeEntry (location : Location) (name : Name) : Prog FileSystem Errno Unit :=
  Prog.update fun fs => fs.modify location (Dict.erase name)

/-- `os.unlink(name, dir_fd=fd)` -/
def unlinkAt (location : Location) (name : Name) : Prog FileSystem Errno Unit := do
  let fs ← get
  match fs.tree.at? (location ++ [name]) with
  | some (.leaf _) => removeEntry location name
  | some (.dir _) => raise .isADirectory
  | none => raise .fileNotFound

/-- `os.rmdir(name, dir_fd=fd)` -/
def rmdirAt (location : Location) (name : Name) : Prog FileSystem Errno Unit := do
  let fs ← get
  match fs.tree.at? (location ++ [name]) with
  | some (.dir []) => removeEntry location name
  | some (.dir _) => raise .notEmpty
  | some (.leaf _) => raise .notADirectory
  | none => raise .fileNotFound

/-- An operation on the entry to which a path leads: on its directory and its name. `/` is none. -/
def atPath (path : Path) (operation : Location → Name → Prog FileSystem Errno Unit) :
    Prog FileSystem Errno Unit := do
  let fs ← get
  let location ← lift (fs.locate true path)
  match location.getLast? with
  | some name => operation location.dropLast name
  | none => raise .isADirectory

/-- `os.unlink(path)` -/
def unlink (path : Path) : Prog FileSystem Errno Unit := atPath path unlinkAt

/-- `_ignore_missing` -/
def ignoreMissing (e : Errno) : Prog FileSystem Errno Unit :=
  if e = .fileNotFound then pure () else raise e

/-- `os.scandir(fd)`, which duplicates the descriptor. -/
def scandirFd (descriptors : Nat) (location : Location) :
    Prog FileSystem Errno (List (Name × FileType)) := do
  let fs ← get
  if descriptors = 0 then raise .tooManyOpen else lift (fs.scandirAt location)

/-- `_rmtree_safe_fd` of an entry: the files first, then the directories from the last one, then the
directory itself, for a number of descriptors that may be opened. That of the directory is closed
after its directories are gone. -/
def rmtreeAt (onexc : Errno → Prog FileSystem Errno Unit) :
    Nat → Nat → Location → Name → Prog FileSystem Errno Unit
  | 0, _, _, _ => pure ()
  | _ + 1, 0, _, _ => onexc .tooManyOpen
  | fuel + 1, descriptors + 1, location, name => do
    let entries ← attempt (scandirFd descriptors (location ++ [name])) fun e => do
      onexc e
      pure []
    (entries.filter fun e => e.2 ≠ .dir).forM fun e =>
      attempt (unlinkAt (location ++ [name]) e.1) onexc
    (entries.filter fun e => e.2 = .dir).reverse.forM fun e =>
      rmtreeAt onexc fuel descriptors (location ++ [name]) e.1
    attempt (rmdirAt location name) onexc

/-- `shutil.rmtree(path, onexc=onexc)` -/
def rmtree (onexc : Errno → Prog FileSystem Errno Unit) (path : Path) :
    Prog FileSystem Errno Unit := do
  let fs ← get
  match fs.lstat path with
  | .error e => onexc e
  | .ok (.leaf (.symlink _)) => onexc .symbolicLink
  | .ok (.leaf (.regular _)) => onexc .notADirectory
  | .ok (.dir _) => atPath path (rmtreeAt onexc fs.tree.dirCount fs.descriptors)

/-- The body of the loop over the entries of a purge directory. -/
def purgeEntry (path : Path) (acc : Nat × Nat) (entry : Name × FileType) :
    Prog FileSystem Errno (Nat × Nat) :=
  attempt
    (if entry.2 = .dir then do
      let fs ← get
      let (count, used) ← lift (fs.treeUsage (path ++ [entry.1]))
      rmtree ignoreMissing (path ++ [entry.1])
      pure (acc.1 + count, acc.2 + used)
    else do
      let fs ← get
      let st ← lift (fs.lstat (path ++ [entry.1]))
      unlink (path ++ [entry.1])
      pure (acc.1 + 1, acc.2 + stSize st))
    fun e => if e = .fileNotFound then pure acc else raise e

/-- The body of the loop over `PURGE_DIRS`. A symlink is left, with a warning in the log. -/
def purgeDir (acc : Nat × Nat) (name : Name) : Prog FileSystem Errno (Nat × Nat) := do
  let fs ← get
  if fs.islink [name] then pure acc
  else
    match fs.scandir [name] with
    | .error e => if e = .fileNotFound then pure acc else raise e
    | .ok entries => entries.foldlM (purgeEntry [name]) acc

def clientsDir : Name := ⟨Text.encode "clients".toList, by decide⟩

def reportsDir : Name := ⟨Text.encode "reports".toList, by decide⟩

/-- `PURGE_DIRS` -/
def purgeDirs : List Name := [clientsDir, reportsDir]

structure Report where
  files : Nat
  bytes : Nat
  deriving DecidableEq

/-- `_delete_contents` -/
def deleteContents : Prog FileSystem Errno Report := do
  let (files, size) ← purgeDirs.foldlM purgeDir (0, 0)
  pure { files := files, bytes := size }

/-! ## What it is to do -/

/-- The number and the total size of the files and symlinks in a tree. -/
def usage (t : Inode) : Nat × Nat := (t.leaves.length, (t.leaves.map File.size).sum)

/-- The entries of a purge directory. -/
def FileSystem.contents (fs : FileSystem) (name : Name) : List (Name × Inode) :=
  match fs.tree.at? (fs.dataRoot ++ [name]) with
  | some (.dir entries) => entries
  | _ => []

/-- The purge directories are empty, nothing outside them has changed, and the report is the number
and the total size of what is gone. -/
structure Purges (before : FileSystem) (report : Except Errno Report) (after : FileSystem) :
    Prop where
  report : report = .ok
    { files := (purgeDirs.map fun name => (usage (.dir (before.contents name))).1).sum
      bytes := (purgeDirs.map fun name => (usage (.dir (before.contents name))).2).sum }
  empty : ∀ name ∈ purgeDirs, after.tree.at? (after.dataRoot ++ [name]) = some (.dir [])
  outside : ∀ location, (∀ name ∈ purgeDirs, ¬ before.dataRoot ++ [name] <+: location) →
    (after.tree.at? location).map FileTree.label = (before.tree.at? location).map FileTree.label
  dataRoot : after.dataRoot = before.dataRoot

/-- A path of every file and directory below the purge directories is short enough to be passed to
the kernel. -/
def FileSystem.PathsFit (fs : FileSystem) : Prop :=
  ∀ name ∈ purgeDirs, ∀ rest, (fs.tree.at? (fs.dataRoot ++ name :: rest)).isSome = true →
    pathSize (name :: rest) < pathMax

/-- The process may open a descriptor for every level of directories from the purge directories
down. -/
def FileSystem.DescriptorsSuffice (fs : FileSystem) : Prop :=
  ∀ name ∈ purgeDirs, ∀ rest entries,
    fs.tree.at? (fs.dataRoot ++ name :: rest) = some (.dir entries) → rest.length < fs.descriptors

/-- A file system whose purge directories are directories. -/
structure FileSystem.Ready (fs : FileSystem) : Prop where
  proper : fs.tree.Proper
  purgeDirs : ∀ name ∈ purgeDirs, ∃ entries, fs.tree.at? (fs.dataRoot ++ [name]) =
    some (.dir entries)

end WlanpiCore.Profiler
