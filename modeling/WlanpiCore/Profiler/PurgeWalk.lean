import Mathlib.Algebra.BigOperators.Group.List.Basic
import Mathlib.Algebra.Group.Prod
import WlanpiCore.Profiler.Purge

/-!
# What the walk counts

A path through directories leads where its names do (`hop_of_at`), if it is short enough for the
kernel. `_tree_usage` gives every name it meets to `lstat` as a path, and an error for a path that
is too long is not one it ignores.

`Fits` says that no path below a directory is too long. **Result (`treeUsage_eq`).** If the paths
fit, the walk counts exactly the files and symlinks in the tree, the ones that `rmtree` is going to
delete; else it raises.

The walk keeps a stack of paths. The induction is on the tree of the directory on top: walking it
takes a step for each of its directories and leaves the rest of the stack (`Walks`).
-/

namespace WlanpiCore.Profiler

/-! ## Paths without symlinks -/

theorem hop_of_at {tree : Inode} {nofollow : Bool} {node : Inode} (names : List Name) :
    ∀ {here : Location}, tree.at? (here ++ names) = some node →
      (nofollow = true ∨ fileType node ≠ .symlink) →
      hop tree nofollow here (names.map Subtype.val) = .ok (.inl (here ++ names)) := by
  induction names with
  | nil => simp [hop]
  | cons name rest ih =>
    intro here hat hlink
    obtain ⟨entries, hdir⟩ := FileTree.dir_of_at?_append hat
    have happend : here ++ name :: rest = (here ++ [name]) ++ rest := by simp
    have hget : tree.at? (here ++ [name]) = Dict.get entries name := FileTree.at?_entry hdir name
    rw [happend, FileTree.at?_append, hget] at hat
    cases hchild : Dict.get entries name with
    | none => simp [hchild] at hat
    | some child =>
      have hhop : hop tree nofollow (here ++ [name]) (rest.map Subtype.val) =
          .ok (.inl (here ++ [name] ++ rest)) := by
        apply ih _ hlink
        rw [FileTree.at?_append, hget]
        exact hat
      have hbelow : child.at? rest = some node := by simpa [hchild] using hat
      rw [List.map_cons, hop, hdir]
      simp only [name.property, dif_pos, hchild]
      cases child with
      | dir es => rw [hhop, happend]
      | leaf file =>
        cases rest with
        | cons name' rest => cases hbelow
        | nil =>
          obtain rfl : FileTree.leaf file = node := by simpa using hbelow
          cases file with
          | regular content => simpa using hhop
          | symlink target =>
            have hnofollow : nofollow = true := by simpa [fileType] using hlink
            simp [hnofollow]

namespace FileSystem

variable {fs : FileSystem} {nofollow : Bool} {path : Path} {node : Inode}

theorem locate_of_at (hsize : pathSize path < pathMax)
    (hat : fs.tree.at? (fs.dataRoot ++ path) = some node)
    (hlink : nofollow = true ∨ fileType node ≠ .symlink) :
    fs.locate nofollow path = .ok (fs.dataRoot ++ path) := by
  have hshort : ¬ pathMax ≤ pathSize path := Nat.not_le.2 hsize
  rw [locate, if_neg hshort, follow, hop_of_at path hat hlink]

theorem locate_of_long (hsize : ¬ pathSize path < pathMax) :
    fs.locate nofollow path = .error .nameTooLong := by
  rw [locate, if_pos (Nat.not_lt.1 hsize)]

theorem lstat_of_at (hsize : pathSize path < pathMax)
    (hat : fs.tree.at? (fs.dataRoot ++ path) = some node) : fs.lstat path = .ok node := by
  rw [lstat, stat, locate_of_at hsize hat (.inl rfl)]
  simp only [bind, Except.bind, hat]

theorem lstat_of_long (hsize : ¬ pathSize path < pathMax) :
    fs.lstat path = .error .nameTooLong := by
  rw [lstat, stat, locate_of_long hsize]
  rfl

theorem islink_of_at (hsize : pathSize path < pathMax)
    (hat : fs.tree.at? (fs.dataRoot ++ path) = some node) :
    fs.islink path = decide (fileType node = .symlink) := by
  rw [islink, lstat_of_at hsize hat]
  cases node with
  | dir entries => rfl
  | leaf file => cases file <;> rfl

theorem scandirAt_of_at {location : Location} {entries : List (Name × Inode)}
    (hat : fs.tree.at? location = some (.dir entries)) :
    fs.scandirAt location = .ok (entries.map fun e => (e.1, fileType e.2)) := by
  rw [scandirAt, hat]

theorem scandir_of_at {entries : List (Name × Inode)} (hfree : 0 < fs.descriptors)
    (hsize : pathSize path < pathMax)
    (hat : fs.tree.at? (fs.dataRoot ++ path) = some (.dir entries)) :
    fs.scandir path = .ok (entries.map fun e => (e.1, fileType e.2)) := by
  rw [scandir, if_neg fun h => hfree.ne' h.2, locate_of_at hsize hat (.inr (by simp [fileType]))]
  exact scandirAt_of_at hat

theorem scandir_of_long (hsize : ¬ pathSize path < pathMax) :
    fs.scandir path = .error .nameTooLong := by
  rw [scandir, if_neg fun h => hsize h.1, locate_of_long hsize]
  rfl

theorem scandir_of_exhausted (hfree : fs.descriptors = 0) (hsize : pathSize path < pathMax) :
    fs.scandir path = .error .tooManyOpen := by
  rw [scandir, if_pos ⟨hsize, hfree⟩]

end FileSystem

/-! ## Paths that fit -/

/-- The paths of what is at a place and below it are short enough. -/
def FileSystem.Fits (fs : FileSystem) (path : Path) : Prop :=
  ∀ rest, (fs.tree.at? (fs.dataRoot ++ path ++ rest)).isSome = true →
    pathSize (path ++ rest) < pathMax

namespace FileSystem

variable {fs : FileSystem} {path : Path}

theorem Fits.size_lt {node : Inode} (h : fs.Fits path)
    (hat : fs.tree.at? (fs.dataRoot ++ path) = some node) : pathSize path < pathMax := by
  have hsize := h []
  rw [List.append_nil, List.append_nil, hat] at hsize
  exact hsize rfl

theorem fits_leaf {file : File} (hat : fs.tree.at? (fs.dataRoot ++ path) = some (.leaf file)) :
    fs.Fits path ↔ pathSize path < pathMax := by
  constructor
  · intro h
    exact h.size_lt hat
  · intro hsize rest hrest
    cases rest with
    | nil => simpa using hsize
    | cons name rest =>
      rw [FileTree.at?_append, hat] at hrest
      cases hrest

theorem fits_dir {entries : List (Name × Inode)}
    (hat : fs.tree.at? (fs.dataRoot ++ path) = some (.dir entries)) :
    fs.Fits path ↔ pathSize path < pathMax ∧ ∀ e ∈ entries, fs.Fits (path ++ [e.1]) := by
  constructor
  · intro h
    refine ⟨h.size_lt hat, fun e _ rest hrest => ?_⟩
    have hsize := h (e.1 :: rest)
    rw [List.append_assoc, List.singleton_append]
    apply hsize
    simpa using hrest
  · intro ⟨hsize, hentries⟩ rest hrest
    cases rest with
    | nil => simpa using hsize
    | cons name rest =>
      cases hget : Dict.get entries name with
      | none =>
        rw [FileTree.at?_append, hat] at hrest
        simp [FileTree.at?_dir_cons, hget] at hrest
      | some node =>
        have hfits := hentries _ (Dict.mem_of_get hget) rest
        simp only [List.append_assoc, List.singleton_append] at hfits
        apply hfits
        simpa using hrest

end FileSystem

/-! ## What is counted -/

/-- What an entry counts for by itself. -/
def ownUsage : Inode → Nat × Nat
  | .leaf file => (1, file.size)
  | .dir _ => 0

@[simp] theorem usage_leaf (file : File) : usage (.leaf file) = (1, file.size) := by
  simp [usage]

theorem usage_dir (entries : List (Name × Inode)) :
    usage (.dir entries) = (entries.map fun e => usage e.2).sum := by
  induction entries with
  | nil => rfl
  | cons e entries ih =>
    rw [List.map_cons, List.sum_cons, ← ih]
    simp [usage]

def isDirectory (e : Name × Inode) : Bool := decide (fileType e.2 = .dir)

/-- A directory's usage: that of its entries by themselves, and of its directories. -/
theorem usage_dir_split (entries : List (Name × Inode)) :
    usage (.dir entries) = (entries.map fun e => ownUsage e.2).sum +
      ((entries.filter isDirectory).map fun e => usage e.2).sum := by
  rw [usage_dir]
  induction entries with
  | nil => rfl
  | cons e entries ih =>
    obtain ⟨name, t⟩ := e
    cases t with
    | leaf file => cases file <;> simp [isDirectory, fileType, ownUsage, ih, add_assoc]
    | dir es => simp [isDirectory, fileType, ownUsage, ih, add_left_comm]

theorem dirCount_split (entries : List (Name × Inode)) :
    (entries.map fun e => e.2.dirCount).sum =
      ((entries.filter isDirectory).map fun e => e.2.dirCount).sum := by
  induction entries with
  | nil => rfl
  | cons e entries ih =>
    obtain ⟨name, t⟩ := e
    cases t with
    | leaf file => cases file <;> simp [isDirectory, fileType, ih]
    | dir es => simp [isDirectory, fileType, ih]

section Count

variable {fs : FileSystem} {path : Path}

theorem countEntry_of_at {name : Name} {node : Inode} (hsize : pathSize (path ++ [name]) < pathMax)
    (hat : fs.tree.at? (fs.dataRoot ++ (path ++ [name])) = some node) (acc : Nat × Nat) :
    fs.countEntry path acc name = .ok (acc + ownUsage node) := by
  rw [FileSystem.countEntry, FileSystem.lstat_of_at hsize hat]
  cases node with
  | leaf file => rfl
  | dir entries => rfl

theorem countEntry_of_long {name : Name} (hsize : ¬ pathSize (path ++ [name]) < pathMax)
    (acc : Nat × Nat) : fs.countEntry path acc name = .error .nameTooLong := by
  rw [FileSystem.countEntry, FileSystem.lstat_of_long hsize]

theorem foldlM_countEntry_ok {es : List (Name × Inode)}
    (hsize : ∀ e ∈ es, pathSize (path ++ [e.1]) < pathMax)
    (hat : ∀ e ∈ es, fs.tree.at? (fs.dataRoot ++ (path ++ [e.1])) = some e.2) (acc : Nat × Nat) :
    (es.map Prod.fst).foldlM (fs.countEntry path) acc =
      .ok (acc + (es.map fun e => ownUsage e.2).sum) := by
  induction es generalizing acc with
  | nil => simp [pure, Except.pure]
  | cons e es ih =>
    obtain ⟨hsize, hsizes⟩ := List.forall_mem_cons.1 hsize
    obtain ⟨hat, hats⟩ := List.forall_mem_cons.1 hat
    rw [List.map_cons, List.foldlM_cons, countEntry_of_at hsize hat]
    show (es.map Prod.fst).foldlM (fs.countEntry path) (acc + ownUsage e.2) = _
    rw [ih hsizes hats, List.map_cons, List.sum_cons, add_assoc]

theorem foldlM_countEntry_error {es : List (Name × Inode)}
    (hat : ∀ e ∈ es, fs.tree.at? (fs.dataRoot ++ (path ++ [e.1])) = some e.2)
    (hlong : ∃ e ∈ es, ¬ pathSize (path ++ [e.1]) < pathMax) (acc : Nat × Nat) :
    (es.map Prod.fst).foldlM (fs.countEntry path) acc = .error .nameTooLong := by
  induction es generalizing acc with
  | nil => simp at hlong
  | cons e es ih =>
    obtain ⟨hat, hats⟩ := List.forall_mem_cons.1 hat
    rw [List.map_cons, List.foldlM_cons]
    by_cases hsize : pathSize (path ++ [e.1]) < pathMax
    · rw [countEntry_of_at hsize hat]
      show (es.map Prod.fst).foldlM (fs.countEntry path) (acc + ownUsage e.2) = _
      exact ih hats (((List.exists_mem_cons_iff ..).1 hlong).resolve_left (not_not.2 hsize)) _
    · rw [countEntry_of_long hsize]
      rfl

end Count

/-! ## The walk -/

section Walk

variable {fs : FileSystem} {path : Path}

/-- The entries of a directory are where their names lead. -/
theorem at_entry {location : Location} {entries : List (Name × Inode)} (hproper : fs.tree.Proper)
    (hat : fs.tree.at? location = some (.dir entries)) :
    ∀ e ∈ entries, fs.tree.at? (location ++ [e.1]) = some e.2 := by
  intro e he
  rw [FileTree.at?_entry hat]
  exact (hproper.at? location hat).get he

theorem filter_scanned (p : Name × FileType → Bool) (entries : List (Name × Inode)) :
    ((entries.map fun e => (e.1, fileType e.2)).filter p).map Prod.fst =
      (entries.filter fun e => p (e.1, fileType e.2)).map Prod.fst := by
  rw [List.filter_map, List.map_map]
  rfl

/-- The directories the walk goes on to are the ones that are no symlinks. -/
theorem walked_eq {entries : List (Name × Inode)}
    (hsize : ∀ e ∈ entries, pathSize (path ++ [e.1]) < pathMax)
    (hat : ∀ e ∈ entries, fs.tree.at? (fs.dataRoot ++ (path ++ [e.1])) = some e.2) :
    (((entries.filter fun e => fs.isDir path (e.1, fileType e.2)).map Prod.fst).filter fun name =>
      !fs.islink (path ++ [name])) = (entries.filter isDirectory).map Prod.fst := by
  rw [List.filter_map, List.filter_filter]
  congr 1
  apply List.filter_congr
  intro e he
  have hlink := FileSystem.islink_of_at (hsize e he) (hat e he)
  simp only [Function.comp_apply, hlink, FileSystem.isDir, isDirectory]
  cases fileType e.2 <;> simp

/-- One directory of the walk. -/
theorem walk_step {entries : List (Name × Inode)} (hfree : 0 < fs.descriptors)
    (hpath : pathSize path < pathMax)
    (hdir : fs.tree.at? (fs.dataRoot ++ path) = some (.dir entries))
    (hat : ∀ e ∈ entries, fs.tree.at? (fs.dataRoot ++ (path ++ [e.1])) = some e.2)
    (fuel : Nat) (stack : List Path) (acc : Nat × Nat) :
    ((∀ e ∈ entries, pathSize (path ++ [e.1]) < pathMax) →
      fs.walk fs.countEntries (fuel + 1) (path :: stack) acc =
        fs.walk fs.countEntries fuel
          ((entries.filter isDirectory).map (fun e => path ++ [e.1]) ++ stack)
          (acc + (entries.map fun e => ownUsage e.2).sum)) ∧
      ((∃ e ∈ entries, ¬ pathSize (path ++ [e.1]) < pathMax) →
        fs.walk fs.countEntries (fuel + 1) (path :: stack) acc = .error .nameTooLong) := by
  let q := fun e : Name × Inode => fs.isDir path (e.1, fileType e.2)
  have hperm : (entries.filter q ++ entries.filter fun e => !q e).Perm entries :=
    List.filter_append_perm q entries
  have hats : ∀ e ∈ entries.filter q ++ entries.filter fun e => !q e,
      fs.tree.at? (fs.dataRoot ++ (path ++ [e.1])) = some e.2 :=
    fun e he => hat e (hperm.mem_iff.1 he)
  have hbody (r : Except Errno (Nat × Nat))
      (hr : ((entries.filter q ++ entries.filter fun e => !q e).map Prod.fst).foldlM
        (fs.countEntry path) acc = r) :
      fs.countEntries acc path ((entries.filter q).map Prod.fst)
        ((entries.filter fun e => !q e).map Prod.fst) = r := by
    rw [FileSystem.countEntries, ← List.map_append, hr]
  rw [FileSystem.walk, FileSystem.scandir_of_at hfree hpath hdir]
  simp only [filter_scanned]
  constructor
  · intro hsize
    have hok := foldlM_countEntry_ok (fun e he => hsize e (hperm.mem_iff.1 he)) hats acc
    rw [hbody _ hok, walked_eq hsize hat, List.map_map, (hperm.map fun e => ownUsage e.2).sum_eq]
    rfl
  · intro ⟨e, he, hlong⟩
    rw [hbody _ (foldlM_countEntry_error hats ⟨e, hperm.mem_iff.2 he, hlong⟩ acc)]

/-- Walking a directory adds its usage, or stops at a path that is too long. -/
def Walks (fs : FileSystem) (path : Path) (t : Inode) : Prop :=
  ∀ fuel stack acc,
    (fs.Fits path → fs.walk fs.countEntries (t.dirCount + fuel) (path :: stack) acc =
      fs.walk fs.countEntries fuel stack (acc + usage t)) ∧
    (¬ fs.Fits path →
      fs.walk fs.countEntries (t.dirCount + fuel) (path :: stack) acc = .error .nameTooLong)

theorem walks_list {es : List (Name × Inode)} (h : ∀ e ∈ es, Walks fs (path ++ [e.1]) e.2) :
    ∀ fuel stack acc,
      ((∀ e ∈ es, fs.Fits (path ++ [e.1])) →
        fs.walk fs.countEntries ((es.map fun e => e.2.dirCount).sum + fuel)
            (es.map (fun e => path ++ [e.1]) ++ stack) acc =
          fs.walk fs.countEntries fuel stack (acc + (es.map fun e => usage e.2).sum)) ∧
      ((∃ e ∈ es, ¬ fs.Fits (path ++ [e.1])) →
        fs.walk fs.countEntries ((es.map fun e => e.2.dirCount).sum + fuel)
          (es.map (fun e => path ++ [e.1]) ++ stack) acc = .error .nameTooLong) := by
  induction es with
  | nil => simp
  | cons e es ih =>
    intro fuel stack acc
    obtain ⟨hwalks, hes⟩ := List.forall_mem_cons.1 h
    obtain ⟨hfit, hunfit⟩ := hwalks ((es.map fun e => e.2.dirCount).sum + fuel)
      (es.map (fun e => path ++ [e.1]) ++ stack) acc
    obtain ⟨hfits, hunfits⟩ := ih hes fuel stack (acc + usage e.2)
    simp only [List.map_cons, List.sum_cons, List.cons_append, Nat.add_assoc]
    constructor
    · intro hall
      obtain ⟨he, hall⟩ := List.forall_mem_cons.1 hall
      rw [hfit he, hfits hall, add_assoc]
    · intro hnot
      by_cases he : fs.Fits (path ++ [e.1])
      · rw [hfit he]
        exact hunfits (((List.exists_mem_cons_iff ..).1 hnot).resolve_left (not_not.2 he))
      · exact hunfit he

/-- **The walk comes to everything that `rmtree` deletes.** -/
theorem walks_dir (hproper : fs.tree.Proper) (hfree : 0 < fs.descriptors) (t : Inode) :
    ∀ {path : Path} {entries : List (Name × Inode)}, t = .dir entries →
      fs.tree.at? (fs.dataRoot ++ path) = some t → pathSize path < pathMax → Walks fs path t := by
  induction t using FileTree.induct with
  | leaf file =>
    intro path entries h
    cases h
  | dir entries ih =>
    intro path _ _ hdir hpath
    have hat : ∀ e ∈ entries, fs.tree.at? (fs.dataRoot ++ (path ++ [e.1])) = some e.2 := by
      intro e he
      rw [← List.append_assoc]
      exact at_entry hproper hdir e he
    intro fuel stack acc
    have hfuel : (FileTree.dir entries : Inode).dirCount + fuel =
        ((entries.filter isDirectory).map fun e => e.2.dirCount).sum + fuel + 1 := by
      rw [FileTree.dirCount_dir, dirCount_split]
      omega
    rw [hfuel]
    obtain ⟨hstep, hlong⟩ := walk_step hfree hpath hdir hat
      (((entries.filter isDirectory).map fun e => e.2.dirCount).sum + fuel) stack acc
    by_cases hsize : ∀ e ∈ entries, pathSize (path ++ [e.1]) < pathMax
    · rw [hstep hsize]
      have hwalks : ∀ e ∈ entries.filter isDirectory, Walks fs (path ++ [e.1]) e.2 := by
        intro e he
        obtain ⟨hmem, hisdir⟩ := List.mem_filter.1 he
        cases ht : e.2 with
        | leaf file => cases file <;> simp [isDirectory, ht, fileType] at hisdir
        | dir es => exact ht ▸ ih e hmem ht (hat e hmem) (hsize e hmem)
      obtain ⟨hfits, hunfits⟩ := walks_list hwalks fuel stack
        (acc + (entries.map fun e => ownUsage e.2).sum)
      constructor
      · intro hfit
        have hentries := ((FileSystem.fits_dir hdir).1 hfit).2
        rw [hfits fun e he => hentries e (List.mem_of_mem_filter he), add_assoc, usage_dir_split]
      · intro hnot
        apply hunfits
        by_contra hall
        push Not at hall
        apply hnot
        refine (FileSystem.fits_dir hdir).2 ⟨hpath, fun e he => ?_⟩
        -- a leaf has nothing below it
        cases ht : e.2 with
        | leaf file => exact (FileSystem.fits_leaf (ht ▸ hat e he)).2 (hsize e he)
        | dir es => exact hall e (List.mem_filter.2 ⟨he, by simp [isDirectory, ht, fileType]⟩)
    · push Not at hsize
      obtain ⟨e, he, hle⟩ := hsize
      have herror := hlong ⟨e, he, Nat.not_lt.2 hle⟩
      constructor
      · intro hfit
        have hsize := (((FileSystem.fits_dir hdir).1 hfit).2 e he).size_lt (hat e he)
        exact absurd hsize (Nat.not_lt.2 hle)
      · intro _
        exact herror

theorem walk_nil (fuel : Nat) (acc : Nat × Nat) :
    fs.walk fs.countEntries fuel [] acc = .ok acc := by
  cases fuel <;> rfl

/-- **`_tree_usage` gives the number and the size of the files, or a path is too long.** -/
theorem treeUsage_eq (hproper : fs.tree.Proper) (hfree : 0 < fs.descriptors)
    {entries : List (Name × Inode)} (hpath : pathSize path < pathMax)
    (hdir : fs.tree.at? (fs.dataRoot ++ path) = some (.dir entries)) :
    (fs.Fits path → fs.treeUsage path = .ok (usage (.dir entries))) ∧
      (¬ fs.Fits path → fs.treeUsage path = .error .nameTooLong) := by
  obtain ⟨fuel, hfuel⟩ := Nat.exists_eq_add_of_le (FileTree.dirCount_at?_le _ hdir)
  obtain ⟨hfit, hunfit⟩ := walks_dir hproper hfree _ rfl hdir hpath fuel [] (0, 0)
  rw [FileSystem.treeUsage, hfuel]
  constructor
  · intro h
    rw [hfit h, walk_nil]
    exact congrArg Except.ok (zero_add (usage (.dir entries)))
  · exact hunfit

end Walk

end WlanpiCore.Profiler
