import Mathlib.Logic.Function.Basic
import WlanpiCore.Lib.Text

/-!
# Files that survive a crash

A directory maps names to inodes. A reader sees what was written; a crash may lose it. `sync` makes
an inode survive, and nothing makes a directory entry survive: after a crash each name may have any
of the entries it ever had since the last one, and an inode that was not synced may hold anything.

`Settled P name` says that every entry a crash may give the name is one whose inode survives and
whose content is in `P`. It is what a reader relies on (`Settled.read`), a crash does not end it
(`Settled.crash`), and neither does anything done to other names and inodes.
-/

namespace WlanpiCore

/-- A file's bytes and mode. `durable` says that a crash leaves both as they are. -/
structure Inode where
  data : Bytes
  mode : Nat
  durable : Bool
  deriving DecidableEq

/-- `past` has the entries a name had before, which a crash may bring back. -/
structure Disk (ν : Type) where
  dir : ν → Option Nat
  past : ν → List (Option Nat)
  inodes : Nat → Inode
  next : Nat

namespace Disk

variable {ν : Type} [DecidableEq ν]

/-- The content an entry stands for. -/
def content (d : Disk ν) (entry : Option Nat) : Option (Bytes × Nat) :=
  entry.map fun ino => ((d.inodes ino).data, (d.inodes ino).mode)

/-- What a reader finds under a name. -/
def read (d : Disk ν) (name : ν) : Option (Bytes × Nat) := d.content (d.dir name)

def entries (d : Disk ν) (name : ν) : List (Option Nat) := d.dir name :: d.past name

def link (d : Disk ν) (name : ν) (entry : Option Nat) : Disk ν :=
  { d with
    dir := Function.update d.dir name entry
    past := Function.update d.past name (d.entries name) }

def setInode (d : Disk ν) (ino : Nat) (f : Inode → Inode) : Disk ν :=
  { d with inodes := Function.update d.inodes ino (f (d.inodes ino)) }

/-- Open a new file. -/
def create (d : Disk ν) (name : ν) (mode : Nat) : Disk ν :=
  { (d.setInode d.next fun _ => ⟨[], mode, false⟩).link name (some d.next) with next := d.next + 1 }

def chmod (d : Disk ν) (ino mode : Nat) : Disk ν :=
  d.setInode ino fun inode => { inode with mode, durable := false }

def append (d : Disk ν) (ino : Nat) (bytes : Bytes) : Disk ν :=
  d.setInode ino fun inode => { inode with data := inode.data ++ bytes, durable := false }

def sync (d : Disk ν) (ino : Nat) : Disk ν := d.setInode ino fun inode =>
    { inode with durable := true }

def rename (d : Disk ν) (source target : ν) : Disk ν :=
  (d.link target (d.dir source)).link source none

def unlink (d : Disk ν) (name : ν) : Disk ν := d.link name none

/-- The disk after a crash: `pick` says which of its entries each name has, and `junk` what is left
of the inodes that were not synced. -/
def crash (d : Disk ν) (pick : ν → Nat) (junk : Nat → Bytes × Nat) : Disk ν where
  dir name := ((d.entries name)[pick name]?).getD (d.dir name)
  past _ := []
  inodes ino := if (d.inodes ino).durable then d.inodes ino else ⟨(junk ino).1, (junk ino).2, true⟩
  next := d.next

/-- The inode is there after a crash, as it is. -/
def Durable (d : Disk ν) (entry : Option Nat) : Prop := ∀ ino ∈ entry, (d.inodes ino).durable = true

/-- Every entry that a crash may give the name survives, with a content in `P`. -/
def Settled (P : Option (Bytes × Nat) → Prop) (name : ν) (d : Disk ν) : Prop :=
  ∀ entry ∈ d.entries name, d.Durable entry ∧ P (d.content entry)

section Rules

variable {d : Disk ν} {P Q : Option (Bytes × Nat) → Prop} {name name' : ν} {entry : Option Nat}
  {ino : Nat}

omit [DecidableEq ν] in
theorem Settled.mono (h : Settled P name d) (hPQ : ∀ c, P c → Q c) : Settled Q name d :=
  fun entry hentry => ⟨(h entry hentry).1, hPQ _ (h entry hentry).2⟩

omit [DecidableEq ν] in
theorem Settled.read (h : Settled P name d) : P (d.read name) := (h _ List.mem_cons_self).2

omit [DecidableEq ν] in
theorem content_crash (h : d.Durable entry) (pick : ν → Nat) (junk : Nat → Bytes × Nat) :
    (d.crash pick junk).content entry = d.content entry := by
  cases entry with
  | none => rfl
  | some ino => simp [content, crash, h ino rfl]

omit [DecidableEq ν] in
theorem durable_crash (h : d.Durable entry) (pick : ν → Nat) (junk : Nat → Bytes × Nat) :
    (d.crash pick junk).Durable entry := by
  intro ino hino
  simp [crash, h ino hino]

omit [DecidableEq ν] in
theorem dir_crash_mem (d : Disk ν) (pick : ν → Nat) (junk : Nat → Bytes × Nat) (name : ν) :
    (d.crash pick junk).dir name ∈ d.entries name := by
  have hdir : (d.crash pick junk).dir name = ((d.entries name)[pick name]?).getD (d.dir name) := rfl
  rw [hdir]
  cases h : (d.entries name)[pick name]? with
  | none => exact List.mem_cons_self
  | some entry => exact List.mem_of_getElem? h

omit [DecidableEq ν] in
/-- A crash leaves a settled name settled. -/
theorem Settled.crash (h : Settled P name d) (pick : ν → Nat) (junk : Nat → Bytes × Nat) :
    Settled P name (d.crash pick junk) := by
  intro entry hentry
  obtain rfl : entry = (d.crash pick junk).dir name := by simpa [entries, Disk.crash] using hentry
  have hold := h _ (dir_crash_mem d pick junk name)
  exact ⟨durable_crash hold.1 pick junk, by rw [content_crash hold.1]; exact hold.2⟩

theorem entries_link_ne (h : name' ≠ name) : (d.link name entry).entries name' =
    d.entries name' := by
  simp [entries, link, h]

theorem entries_link_self : (d.link name entry).entries name = entry :: d.entries name := by
  simp [entries, link]

theorem link_comm (h : name ≠ name') {entry' : Option Nat} :
    (d.link name entry).link name' entry' = (d.link name' entry').link name entry := by
  simp [link, entries, h, h.symm, Function.update_comm h]

@[simp] theorem content_link (e : Option Nat) : (d.link name entry).content e = d.content e := rfl

@[simp] theorem durable_link (e : Option Nat) :
    (d.link name entry).Durable e ↔ d.Durable e := Iff.rfl

theorem Settled.link_ne (h : Settled P name' d) (hne : name' ≠ name) :
    Settled P name' (d.link name entry) := by
  intro e he
  rw [entries_link_ne hne] at he
  exact h e he

/-- A new entry for a settled name: its inode has to be synced. -/
theorem Settled.link (h : Settled P name d) (hdurable : d.Durable entry)
    (hP : P (d.content entry)) :
    Settled P name (d.link name entry) := by
  intro e he
  rw [entries_link_self] at he
  rcases List.mem_cons.1 he with rfl | he
  · exact ⟨hdurable, hP⟩
  · exact h e he

omit [DecidableEq ν] in
theorem content_setInode {f : Inode → Inode} (h : entry ≠ some ino) :
    (d.setInode ino f).content entry = d.content entry := by
  cases entry with
  | none => rfl
  | some i =>
    have hne : i ≠ ino := fun heq => h (congrArg some heq)
    simp [content, setInode, hne]

omit [DecidableEq ν] in
theorem durable_setInode {f : Inode → Inode} (h : entry ≠ some ino) :
    (d.setInode ino f).Durable entry ↔ d.Durable entry := by
  cases entry with
  | none => simp [Durable]
  | some i =>
    have hne : i ≠ ino := fun heq => h (congrArg some heq)
    simp [Durable, setInode, hne]

omit [DecidableEq ν] in
/-- What is done to an inode that no crash can give the name. -/
theorem Settled.setInode (h : Settled P name d) (hino : some ino ∉ d.entries name)
    (f : Inode → Inode) : Settled P name (d.setInode ino f) := by
  intro e he
  have hne : e ≠ some ino := fun heq => hino (heq ▸ he)
  rw [durable_setInode hne, content_setInode hne]
  exact h e he

end Rules

end Disk

end WlanpiCore
