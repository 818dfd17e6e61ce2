import WlanpiCore.Profiler.PurgeWalk

/-!
# What rmtree removes

An operation on an entry `Removes` it if the tree is what it was, without the entry. One after the
other such operations empty a directory (`forM_removes`), and the removal of an empty directory
makes what happened in it irrelevant (`modify_erase`).

**Result (`removes_rmtreeAt`, `exhausts_rmtreeAt`).** `_rmtree_safe_fd` removes a directory if the
descriptors are enough for its levels (`Shallow`), and raises if they are not. By induction on the
tree: its files are unlinked, symlinks among them, and its directories removed by the induction
hypothesis, up to the first that is too deep.
-/

namespace WlanpiCore.Profiler

open Prog

/-- The entries with names other than these. -/
def eraseAll (names : List Name) : List (Name × Inode) → List (Name × Inode) :=
  Dict.keep fun name => name ∉ names

theorem eraseAll_erase (name : Name) (names : List Name) :
    eraseAll names ∘ Dict.erase name = eraseAll (name :: names) := by
  funext entries
  rw [Function.comp_apply, eraseAll, eraseAll, Dict.erase, Dict.keep_keep]
  congr 1
  funext n
  simp

theorem eraseAll_nil : eraseAll [] = id := by
  funext entries
  simp [eraseAll, Dict.keep]

theorem modify_modify (fs : FileSystem) (location : Location)
    (f g : List (Name × Inode) → List (Name × Inode)) :
    (fs.modify location g).modify location f = fs.modify location (f ∘ g) :=
  congrArg (fun tree => { fs with tree := tree }) (FileTree.update_update f g location fs.tree)

theorem modify_id (fs : FileSystem) (location : Location) : fs.modify location id = fs :=
  congrArg (fun tree => { fs with tree := tree }) (FileTree.update_id location fs.tree)

theorem modify_congr {fs : FileSystem} {location : Location} {entries : List (Name × Inode)}
    {f g : List (Name × Inode) → List (Name × Inode)}
    (hdir : fs.tree.at? location = some (.dir entries)) (h : f entries = g entries) :
    fs.modify location f = fs.modify location g := by
  refine congrArg (fun tree => { fs with tree := tree }) (FileTree.update_congr location ?_)
  intro es hes
  rw [hdir] at hes
  cases hes
  exact h

/-- `act` removes the entry of this name, and what is below it, from the directory. -/
def Removes (location : Location) (act : Name → Prog FileSystem Errno Unit) (e : Name × Inode) :
    Prop :=
  ∀ fs : FileSystem, fs.tree.Proper → fs.tree.at? (location ++ [e.1]) = some e.2 →
    act e.1 fs = (.ok (), fs.modify location (Dict.erase e.1))

theorem at?_keep {fs : FileSystem} {location : Location} {p : Name → Bool} {name : Name}
    {node : Inode} (hname : p name = true) (hat : fs.tree.at? (location ++ [name]) = some node) :
    (fs.modify location (Dict.keep p)).tree.at? (location ++ [name]) = some node := by
  obtain ⟨entries, hdir⟩ := FileTree.dir_of_at?_append hat
  show (fs.tree.update (Dict.keep p) location).at? _ = _
  rw [FileTree.at?_entry (FileTree.at?_update_self (Dict.keep p) location hdir),
    Dict.get_keep hname, ← FileTree.at?_entry hdir, hat]

/-- The other entries stay when one is erased. -/
theorem at?_erase {fs : FileSystem} {location : Location} {name : Name} {es : List (Name × Inode)}
    (hname : name ∉ es.map Prod.fst)
    (hat : ∀ e ∈ es, fs.tree.at? (location ++ [e.1]) = some e.2) :
    ∀ e ∈ es, (fs.modify location (Dict.erase name)).tree.at? (location ++ [e.1]) = some e.2 := by
  intro e he
  have hne : e.1 ≠ name := by
    intro h
    exact hname (List.mem_map.2 ⟨e, he, h⟩)
  exact at?_keep (by simpa using hne) (hat e he)

theorem modify_proper {fs : FileSystem} (location : Location) (p : Name → Bool)
    (h : fs.tree.Proper) : (fs.modify location (Dict.keep p)).tree.Proper :=
  h.update (fun _ hentries => hentries.keep p) location

/-- Removing entries one by one. -/
theorem forM_removes {location : Location} {act : Name → Prog FileSystem Errno Unit}
    {es : List (Name × Inode)} (hact : ∀ e ∈ es, Removes location act e)
    (hnames : (es.map Prod.fst).Nodup) :
    ∀ fs : FileSystem, fs.tree.Proper →
      (∀ e ∈ es, fs.tree.at? (location ++ [e.1]) = some e.2) →
      (es.map Prod.fst).forM act fs =
        (.ok (), fs.modify location (eraseAll (es.map Prod.fst))) := by
  induction es with
  | nil =>
    intro fs _ _
    rw [List.map_nil, eraseAll_nil, modify_id]
    rfl
  | cons e es ih =>
    intro fs hproper hat
    obtain ⟨hremoves, hact⟩ := List.forall_mem_cons.1 hact
    obtain ⟨hate, hat⟩ := List.forall_mem_cons.1 hat
    obtain ⟨hnotin, hnames⟩ := List.nodup_cons.1 hnames
    have hrest := at?_erase hnotin hat
    show (act e.1 >>= fun _ => (es.map Prod.fst).forM act) fs = _
    have hproper' : (fs.modify location (Dict.erase e.1)).tree.Proper :=
      modify_proper location _ hproper
    rw [bind_ok (hremoves fs hproper hate), ih hact hnames _ hproper' hrest, modify_modify,
      eraseAll_erase]
    rfl

theorem removes_unlinkAt (location : Location) (name : Name) (file : File) :
    Removes location (unlinkAt location) (name, .leaf file) := by
  intro fs _ hat
  refine (bind_ok (get_eq fs)).trans ?_
  rw [hat]
  rfl

theorem Removes.attempt {location : Location} {act : Name → Prog FileSystem Errno Unit}
    {e : Name × Inode} (h : Removes location act e)
    (onexc : Errno → Prog FileSystem Errno Unit) :
    Removes location (fun name => Prog.attempt (act name) onexc) e :=
  fun fs hproper hat => attempt_ok (h fs hproper hat)

/-- What was below an entry does not matter once the entry is gone. -/
theorem modify_erase (fs : FileSystem) (location : Location) (name : Name)
    (f : List (Name × Inode) → List (Name × Inode)) :
    (fs.modify (location ++ [name]) f).modify location (Dict.erase name) =
      fs.modify location (Dict.erase name) :=
  congrArg (fun tree => { fs with tree := tree })
    (FileTree.erase_update_append f location name fs.tree)

theorem removes_rmdirAt (location : Location) (name : Name) :
    Removes location (rmdirAt location) (name, .dir []) := by
  intro fs _ hat
  refine (bind_ok (get_eq fs)).trans ?_
  rw [hat]
  rfl

theorem forM_scanned (act : Name → Prog FileSystem Errno Unit) (es : List (Name × Inode)) :
    (es.map fun e => (e.1, fileType e.2)).forM (fun e => act e.1) = (es.map Prod.fst).forM act := by
  induction es with
  | nil => rfl
  | cons e es ih => exact congrArg (fun x => act e.1 >>= fun _ => x) ih

/-- Two entries of one name in a directory are one. -/
theorem entry_eq {fs : FileSystem} {location : Location} {entries : List (Name × Inode)}
    (hproper : fs.tree.Proper) (hat : fs.tree.at? location = some (.dir entries))
    {e f : Name × Inode} (he : e ∈ entries) (hf : f ∈ entries) (h : e.1 = f.1) : e.2 = f.2 := by
  have hsame := at_entry hproper hat e he
  rw [h, at_entry hproper hat f hf, Option.some_inj] at hsame
  exact hsame.symm

section Loops

variable {fs : FileSystem} {location : Location} {entries : List (Name × Inode)}
  {removeFile removeDir : Name → Prog FileSystem Errno Unit}

/-- What is no directory. -/
def filesOf (entries : List (Name × Inode)) : List (Name × Inode) :=
  entries.filter fun e => fileType e.2 ≠ .dir

theorem mem_filesOf {e : Name × Inode} :
    e ∈ filesOf entries ↔ e ∈ entries ∧ fileType e.2 ≠ .dir := by
  simp [filesOf]

/-- The loop of `_rmtree_safe_fd` over what is no directory. -/
theorem files_removed (hproper : fs.tree.Proper) (hat : fs.tree.at? location = some (.dir entries))
    (hfile : ∀ e ∈ entries, fileType e.2 ≠ .dir → Removes location removeFile e) :
    ((entries.map fun e => (e.1, fileType e.2)).filter fun e => e.2 ≠ .dir).forM
        (fun e => removeFile e.1) fs =
      (.ok (), fs.modify location (eraseAll ((filesOf entries).map Prod.fst))) := by
  have hremoves : ∀ e ∈ filesOf entries, Removes location removeFile e := by
    intro e he
    obtain ⟨hmem, htype⟩ := mem_filesOf.1 he
    exact hfile e hmem htype
  have hnames : ((filesOf entries).map Prod.fst).Nodup :=
    (hproper.at? _ hat).names.sublist (List.filter_sublist.map _)
  rw [List.filter_map, forM_scanned]
  exact forM_removes hremoves hnames fs hproper fun e he =>
    at_entry hproper hat e (mem_filesOf.1 he).1

/-- The directories, from the last one. -/
def dirsFromLast (entries : List (Name × Inode)) : List (Name × Inode) :=
  (entries.filter isDirectory).reverse

theorem mem_dirsFromLast {e : Name × Inode} :
    e ∈ dirsFromLast entries ↔ e ∈ entries ∧ fileType e.2 = .dir := by
  simp [dirsFromLast, isDirectory]

theorem dirsFromLast_nodup (h : (entries.map Prod.fst).Nodup) :
    ((dirsFromLast entries).map Prod.fst).Nodup := by
  rw [dirsFromLast, List.map_reverse, List.nodup_reverse]
  exact h.sublist (List.filter_sublist.map _)

theorem forM_dirs (act : Name → Prog FileSystem Errno Unit) :
    ((entries.map fun e => (e.1, fileType e.2)).filter fun e => e.2 = .dir).reverse.forM
      (fun e => act e.1) = ((dirsFromLast entries).map Prod.fst).forM act := by
  rw [List.filter_map, ← List.map_reverse, forM_scanned]
  rfl

/-- The directories are still there after the files are gone. -/
theorem kept_dirsFromLast (hproper : fs.tree.Proper)
    (hat : fs.tree.at? location = some (.dir entries)) :
    ∀ e ∈ dirsFromLast entries,
      (fs.modify location (eraseAll ((filesOf entries).map Prod.fst))).tree.at?
        (location ++ [e.1]) =
        some e.2 := by
  intro e he
  obtain ⟨hmem, htype⟩ := mem_dirsFromLast.1 he
  refine at?_keep ?_ (at_entry hproper hat e hmem)
  rw [decide_eq_true_eq, List.mem_map]
  intro ⟨f, hf, hname⟩
  obtain ⟨hmemf, htypef⟩ := mem_filesOf.1 hf
  rw [← entry_eq hproper hat hmemf hmem hname] at htype
  exact htypef htype

/-- The loop over the directories leaves nothing. -/
theorem dirs_removed (hproper : fs.tree.Proper) (hat : fs.tree.at? location = some (.dir entries))
    (hdir : ∀ e ∈ entries, fileType e.2 = .dir → Removes location removeDir e) :
    ((entries.map fun e => (e.1, fileType e.2)).filter fun e => e.2 = .dir).reverse.forM
        (fun e => removeDir e.1) (fs.modify location (eraseAll ((filesOf entries).map Prod.fst))) =
      (.ok (), fs.modify location fun _ => []) := by
  have hremoves : ∀ e ∈ dirsFromLast entries, Removes location removeDir e := by
    intro e he
    obtain ⟨hmem, htype⟩ := mem_dirsFromLast.1 he
    exact hdir e hmem htype
  have hproper' : (fs.modify location (eraseAll ((filesOf entries).map Prod.fst))).tree.Proper :=
    modify_proper location _ hproper
  rw [forM_dirs, forM_removes hremoves (dirsFromLast_nodup (hproper.at? _ hat).names) _ hproper'
    (kept_dirsFromLast hproper hat), modify_modify]
  congr 1
  refine modify_congr hat ?_
  rw [Function.comp_apply, eraseAll, eraseAll, Dict.keep_keep, Dict.keep, List.filter_eq_nil_iff]
  intro e he
  by_cases htype : fileType e.2 = .dir
  · have hgone : e.1 ∈ (dirsFromLast entries).map Prod.fst :=
      List.mem_map_of_mem (mem_dirsFromLast.2 ⟨he, htype⟩)
    simp [List.mem_map.1 hgone]
  · have hgone : e.1 ∈ (filesOf entries).map Prod.fst :=
      List.mem_map_of_mem (mem_filesOf.2 ⟨he, htype⟩)
    simp [List.mem_map.1 hgone]

end Loops

/-! ## The descriptors -/

/-- So many descriptors are enough to go down a tree: one for each level, and one to read the
last. -/
def Shallow (descriptors : Nat) (t : Inode) : Prop :=
  ∀ rest entries, t.at? rest = some (.dir entries) → rest.length + 2 ≤ descriptors

theorem shallow_leaf (descriptors : Nat) (file : File) : Shallow descriptors (.leaf file) := by
  intro rest entries h
  cases rest with
  | nil => simp at h
  | cons name rest => simp at h

theorem shallow_dir {descriptors : Nat} {entries : List (Name × Inode)}
    (hproper : FileTree.Proper (.dir entries : Inode)) :
    Shallow (descriptors + 1) (.dir entries) ↔
      0 < descriptors ∧ ∀ e ∈ entries, Shallow descriptors e.2 := by
  constructor
  · intro h
    have hself := h [] entries (FileTree.at?_nil _)
    refine ⟨Nat.le_of_succ_le_succ hself, fun e he rest es hes => ?_⟩
    have hbelow : (FileTree.dir entries : Inode).at? (e.1 :: rest) = some (.dir es) := by
      rw [FileTree.at?_dir_cons, hproper.get he]
      exact hes
    have hlength := h _ es hbelow
    rw [List.length_cons] at hlength
    omega
  · intro ⟨hpos, hentries⟩ rest es hes
    cases rest with
    | nil => exact Nat.succ_le_succ hpos
    | cons name rest =>
      rw [FileTree.at?_dir_cons] at hes
      cases hget : Dict.get entries name with
      | none => simp [hget] at hes
      | some node =>
        have hlength := hentries _ (Dict.mem_of_get hget) rest es (by simpa [hget] using hes)
        rw [List.length_cons]
        omega

theorem not_shallow_zero (entries : List (Name × Inode)) : ¬ Shallow 0 (.dir entries) := by
  intro h
  have hself := h [] entries (FileTree.at?_nil _)
  exact absurd hself (by simp)

theorem scandirFd_of_at {fs : FileSystem} {location : Location} {entries : List (Name × Inode)}
    {descriptors : Nat} (hpos : 0 < descriptors)
    (hat : fs.tree.at? location = some (.dir entries)) :
    scandirFd descriptors location fs = (.ok (entries.map fun e => (e.1, fileType e.2)), fs) := by
  refine (bind_ok (get_eq fs)).trans ?_
  rw [if_neg hpos.ne']
  exact lift_eq (FileSystem.scandirAt_of_at hat) fs

/-! ## rmtree -/

theorem removes_attempt_unlinkAt (onexc : Errno → Prog FileSystem Errno Unit) (location : Location)
    {e : Name × Inode} (htype : fileType e.2 ≠ .dir) :
    Removes location (fun name => Prog.attempt (unlinkAt location name) onexc) e := by
  obtain ⟨name, t⟩ := e
  cases t with
  | leaf file => exact (removes_unlinkAt _ name file).attempt onexc
  | dir es => exact absurd rfl htype

/-- **`rmtree` of a directory removes it and all that is below it.** -/
theorem removes_rmtreeAt (onexc : Errno → Prog FileSystem Errno Unit) (t : Inode) :
    ∀ {entries : List (Name × Inode)}, t = .dir entries → ∀ {fuel descriptors : Nat},
      t.dirCount ≤ fuel → Shallow descriptors t → ∀ (location : Location) (name : Name),
        Removes location (rmtreeAt onexc fuel descriptors location) (name, t) := by
  induction t using FileTree.induct with
  | leaf file =>
    intro entries h
    cases h
  | dir entries ih =>
    intro _ _ fuel descriptors hfuel hshallow location name fs hproper hat
    rw [FileTree.dirCount_dir] at hfuel
    obtain ⟨fuel, rfl⟩ : ∃ n, fuel = n + 1 := Nat.exists_eq_add_of_le' (Nat.le_of_add_left_le hfuel)
    obtain ⟨descriptors, rfl⟩ : ∃ n, descriptors = n + 1 := by
      cases descriptors with
      | zero => exact absurd hshallow (not_shallow_zero entries)
      | succ n => exact ⟨n, rfl⟩
    obtain ⟨hpos, hentries⟩ := (shallow_dir (hproper.at? _ hat)).1 hshallow
    have hdir : ∀ e ∈ entries, fileType e.2 = .dir → Removes (location ++ [name])
        (rmtreeAt onexc fuel descriptors (location ++ [name])) e := by
      intro e he htype
      have hle := FileTree.dirCount_entry_le he
      have hbelow := hentries e he
      obtain ⟨n, t⟩ := e
      cases t with
      | leaf file => cases file <;> cases htype
      | dir es => exact ih _ he rfl (by omega) hbelow _ n
    have hfiles := files_removed hproper hat fun e _ htype =>
      removes_attempt_unlinkAt onexc (location ++ [name]) htype
    have hproper' : (fs.modify (location ++ [name]) fun _ => []).tree.Proper :=
      hproper.update (fun _ _ => .dir (by simp) (by simp)) _
    have hrmdir := removes_rmdirAt location name _ hproper'
      (FileTree.at?_update_self (fun _ => []) _ hat)
    rw [modify_erase] at hrmdir
    rw [rmtreeAt]
    refine (bind_ok (attempt_ok (scandirFd_of_at hpos hat))).trans ?_
    refine (bind_ok hfiles).trans ?_
    refine (bind_ok (dirs_removed hproper hat hdir)).trans ?_
    exact attempt_ok hrmdir

/-- `act` finds that too many descriptors are open. -/
def Exhausts (location : Location) (act : Name → Prog FileSystem Errno Unit) (e : Name × Inode) :
    Prop :=
  ∀ fs : FileSystem, fs.tree.Proper → fs.tree.at? (location ++ [e.1]) = some e.2 →
    (act e.1 fs).1 = .error .tooManyOpen

/-- A loop ends at the first entry for which the descriptors are too few. -/
theorem forM_exhausts {location : Location} {act : Name → Prog FileSystem Errno Unit}
    {es : List (Name × Inode)}
    (hact : ∀ e ∈ es, Removes location act e ∨ Exhausts location act e)
    (hdeep : ∃ e ∈ es, Exhausts location act e) (hnames : (es.map Prod.fst).Nodup) :
    ∀ fs : FileSystem, fs.tree.Proper →
      (∀ e ∈ es, fs.tree.at? (location ++ [e.1]) = some e.2) →
      ((es.map Prod.fst).forM act fs).1 = .error .tooManyOpen := by
  induction es with
  | nil => simp at hdeep
  | cons e es ih =>
    intro fs hproper hat
    obtain ⟨hate, hat⟩ := List.forall_mem_cons.1 hat
    obtain ⟨hnotin, hnames⟩ := List.nodup_cons.1 hnames
    obtain ⟨hfirst, hact⟩ := List.forall_mem_cons.1 hact
    show ((act e.1 >>= fun _ => (es.map Prod.fst).forM act) fs).1 = _
    by_cases hexhausts : Exhausts location act e
    · exact bind_fst_error (hexhausts fs hproper hate)
    · have hremoves := hfirst.resolve_right hexhausts
      have hrest := ((List.exists_mem_cons_iff ..).1 hdeep).resolve_left hexhausts
      rw [bind_ok (hremoves fs hproper hate)]
      exact ih hact hrest hnames _ (modify_proper location _ hproper) (at?_erase hnotin hat)

/-- The loop over the directories ends at one that is too deep. -/
theorem dirs_exhausted {fs : FileSystem} {location : Location} {entries : List (Name × Inode)}
    {removeDir : Name → Prog FileSystem Errno Unit} (hproper : fs.tree.Proper)
    (hat : fs.tree.at? location = some (.dir entries))
    (hdir : ∀ e ∈ entries, fileType e.2 = .dir →
      Removes location removeDir e ∨ Exhausts location removeDir e)
    (hdeep : ∃ e ∈ entries, fileType e.2 = .dir ∧ Exhausts location removeDir e) :
    (((entries.map fun e => (e.1, fileType e.2)).filter fun e => e.2 = .dir).reverse.forM
      (fun e => removeDir e.1)
        (fs.modify location (eraseAll ((filesOf entries).map Prod.fst)))).1 =
          .error .tooManyOpen := by
  have hall : ∀ e ∈ dirsFromLast entries,
      Removes location removeDir e ∨ Exhausts location removeDir e := by
    intro e he
    obtain ⟨hmem, htype⟩ := mem_dirsFromLast.1 he
    exact hdir e hmem htype
  obtain ⟨e, he, htype, hexhausts⟩ := hdeep
  rw [forM_dirs]
  exact forM_exhausts hall ⟨e, mem_dirsFromLast.2 ⟨he, htype⟩, hexhausts⟩
    (dirsFromLast_nodup (hproper.at? _ hat).names) _ (modify_proper location _ hproper)
    (kept_dirsFromLast hproper hat)

/-- **`rmtree` of a tree that is too deep for the descriptors ends with an `OSError`.** -/
theorem exhausts_rmtreeAt (t : Inode) :
    ∀ {entries : List (Name × Inode)}, t = .dir entries → ∀ {fuel descriptors : Nat},
      t.dirCount ≤ fuel → ¬ Shallow descriptors t → ∀ (location : Location) (name : Name),
        Exhausts location (rmtreeAt ignoreMissing fuel descriptors location) (name, t) := by
  induction t using FileTree.induct with
  | leaf file =>
    intro entries h
    cases h
  | dir entries ih =>
    intro _ _ fuel descriptors hfuel hdeep location name fs hproper hat
    rw [FileTree.dirCount_dir] at hfuel
    obtain ⟨fuel, rfl⟩ : ∃ n, fuel = n + 1 := Nat.exists_eq_add_of_le' (Nat.le_of_add_left_le hfuel)
    cases descriptors with
    | zero => rfl
    | succ descriptors =>
      rw [rmtreeAt]
      by_cases hpos : 0 < descriptors
      · have hboth : ∀ e ∈ entries, fileType e.2 = .dir →
            (Shallow descriptors e.2 → Removes (location ++ [name])
              (rmtreeAt ignoreMissing fuel descriptors (location ++ [name])) e) ∧
            (¬ Shallow descriptors e.2 → Exhausts (location ++ [name])
              (rmtreeAt ignoreMissing fuel descriptors (location ++ [name])) e) := by
          intro e he htype
          have hle := FileTree.dirCount_entry_le he
          obtain ⟨n, t⟩ := e
          cases t with
          | leaf file => cases file <;> cases htype
          | dir es =>
            have hle' : (FileTree.dir es : Inode).dirCount ≤ fuel := Nat.le_trans hle (by omega)
            exact ⟨fun h => removes_rmtreeAt ignoreMissing _ rfl hle' h _ n,
              fun h => ih _ he rfl hle' h _ n⟩
        have hsome : ∃ e ∈ entries, fileType e.2 = .dir ∧ ¬ Shallow descriptors e.2 := by
          by_contra hall
          push Not at hall
          refine hdeep ((shallow_dir (hproper.at? _ hat)).2 ⟨hpos, fun e he => ?_⟩)
          -- a leaf needs no descriptor
          cases ht : e.2 with
          | leaf file => exact shallow_leaf descriptors file
          | dir es => exact ht ▸ hall e he (by rw [ht]; rfl)
        obtain ⟨e, he, htype, hnot⟩ := hsome
        have hfiles := files_removed hproper hat fun e _ htype =>
          removes_attempt_unlinkAt ignoreMissing (location ++ [name]) htype
        have hdirs := dirs_exhausted hproper hat
          (fun e he htype => (em _).imp (hboth e he htype).1 (hboth e he htype).2)
          ⟨e, he, htype, (hboth e he htype).2 hnot⟩
        rw [bind_ok (attempt_ok (scandirFd_of_at hpos hat)), bind_ok hfiles]
        exact bind_fst_error hdirs
      · obtain rfl : descriptors = 0 := Nat.eq_zero_of_not_pos hpos
        have hscan : scandirFd 0 (location ++ [name]) fs = (.error .tooManyOpen, fs) := rfl
        refine bind_fst_error ?_
        rw [attempt_error hscan]
        rfl

end WlanpiCore.Profiler
