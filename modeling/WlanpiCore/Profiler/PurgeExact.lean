import WlanpiCore.Profiler.PurgeRemoval

/-!
# When the purge directories are emptied

**Theorem (`deleteContents_purges_iff`).** `_delete_contents` empties `clients` and `reports`,
leaves everything else as it is and reports what is gone, exactly if every path below them fits into
`PATH_MAX` and the process may open a descriptor for every level of directories.

Deleting an entry changes no path of the others, so whether they fit can be said of the tree there
is at the beginning (`fits_congr`). An entry with a path that is too long ends the purge with an
`OSError` before anything of it is deleted, although `rmtree` would have deleted it. One that is too
deep ends it in the middle of `rmtree`.
-/

namespace WlanpiCore.Profiler

open Prog

/-! ## A purge directory -/

section Purge

variable {fs : FileSystem} {path : Path}

theorem atPath_of_at {name : Name} {node : Inode} (hsize : pathSize (path ++ [name]) < pathMax)
    (hat : fs.tree.at? (fs.dataRoot ++ path ++ [name]) = some node)
    (operation : Location → Name → Prog FileSystem Errno Unit) :
    atPath (path ++ [name]) operation fs = operation (fs.dataRoot ++ path) name fs := by
  have happend : fs.dataRoot ++ (path ++ [name]) = fs.dataRoot ++ path ++ [name] := by simp
  have hlocate : fs.locate true (path ++ [name]) = .ok (fs.dataRoot ++ path ++ [name]) := by
    rw [FileSystem.locate_of_at hsize (happend ▸ hat) (.inl rfl), happend]
  refine (bind_ok (get_eq fs)).trans ?_
  refine (bind_ok (lift_eq hlocate fs)).trans ?_
  simp only [List.getLast?_concat, List.dropLast_concat]

theorem rmtree_of_at (onexc : Errno → Prog FileSystem Errno Unit) {name : Name}
    {entries : List (Name × Inode)} (hsize : pathSize (path ++ [name]) < pathMax)
    (hat : fs.tree.at? (fs.dataRoot ++ path ++ [name]) = some (.dir entries)) :
    rmtree onexc (path ++ [name]) fs =
      rmtreeAt onexc fs.tree.dirCount fs.descriptors (fs.dataRoot ++ path) name fs := by
  have happend : fs.dataRoot ++ (path ++ [name]) = fs.dataRoot ++ path ++ [name] := by simp
  refine (bind_ok (get_eq fs)).trans ?_
  rw [FileSystem.lstat_of_at hsize (happend ▸ hat)]
  exact atPath_of_at hsize hat (rmtreeAt onexc fs.tree.dirCount fs.descriptors)

/-- An entry whose paths fit and which is not too deep is removed and counted. -/
theorem purgeEntry_of_fits {e : Name × Inode} (hproper : fs.tree.Proper)
    (hfree : 0 < fs.descriptors) (hat : fs.tree.at? (fs.dataRoot ++ path ++ [e.1]) = some e.2)
    (hfits : fs.Fits (path ++ [e.1])) (hshallow : Shallow fs.descriptors e.2) (acc : Nat × Nat) :
    purgeEntry path acc (e.1, fileType e.2) fs =
      (.ok (acc + usage e.2), fs.modify (fs.dataRoot ++ path) (Dict.erase e.1)) := by
  obtain ⟨name, t⟩ := e
  have hat' : fs.tree.at? (fs.dataRoot ++ (path ++ [name])) = some t := by
    rw [← List.append_assoc]
    exact hat
  have hsize := hfits.size_lt hat'
  apply attempt_ok
  cases t with
  | dir entries =>
    have hused := (treeUsage_eq hproper hfree hsize hat').1 hfits
    have hremoved := removes_rmtreeAt ignoreMissing _ rfl (FileTree.dirCount_at?_le _ hat) hshallow
      _ name fs hproper hat
    refine (bind_ok (get_eq fs)).trans ?_
    refine (bind_ok (lift_eq hused fs)).trans ?_
    exact bind_ok ((rmtree_of_at ignoreMissing hsize hat).trans hremoved)
  | leaf file =>
    have htype : fileType (.leaf file) ≠ .dir := by cases file <;> simp [fileType]
    rw [if_neg htype]
    refine (bind_ok (get_eq fs)).trans ?_
    refine (bind_ok (lift_eq (FileSystem.lstat_of_at hsize hat') fs)).trans ?_
    have hunlink : unlink (path ++ [name]) fs =
        (.ok (), fs.modify (fs.dataRoot ++ path) (Dict.erase name)) := by
      rw [unlink, atPath_of_at hsize hat]
      exact removes_unlinkAt _ name file fs hproper hat
    rw [usage_leaf]
    exact bind_ok hunlink

/-- `os.walk` ignores a directory it cannot open. -/
theorem treeUsage_of_long (hsize : ¬ pathSize path < pathMax) : fs.treeUsage path = .ok (0, 0) := by
  rw [FileSystem.treeUsage]
  cases fs.tree.dirCount with
  | zero => rfl
  | succ fuel =>
    rw [FileSystem.walk, FileSystem.scandir_of_long hsize]
    exact walk_nil fuel (0, 0)

theorem purgeEntry_error {x : Prog FileSystem Errno (Nat × Nat)} {err : Errno} {acc : Nat × Nat}
    (hx : (x fs).1 = .error err) (herr : err ≠ .fileNotFound) :
    (Prog.attempt x (fun e => if e = .fileNotFound then pure acc else raise e) fs).1 =
      .error err := by
  rw [attempt_error (Prod.ext hx rfl), if_neg herr]
  rfl

/-- An entry with a path that is too long ends the purge. -/
theorem purgeEntry_of_not_fits {e : Name × Inode} (hproper : fs.tree.Proper)
    (hfree : 0 < fs.descriptors) (hat : fs.tree.at? (fs.dataRoot ++ path ++ [e.1]) = some e.2)
    (hfits : ¬ fs.Fits (path ++ [e.1])) (acc : Nat × Nat) :
    (purgeEntry path acc (e.1, fileType e.2) fs).1 = .error .nameTooLong := by
  obtain ⟨name, t⟩ := e
  have hat' : fs.tree.at? (fs.dataRoot ++ (path ++ [name])) = some t := by
    rw [← List.append_assoc]
    exact hat
  refine purgeEntry_error
    (congrArg Prod.fst (?_ : _ = (Except.error Errno.nameTooLong, fs))) (by simp)
  cases t with
  | dir entries =>
    refine (bind_ok (get_eq fs)).trans ?_
    by_cases hsize : pathSize (path ++ [name]) < pathMax
    · have hused := (treeUsage_eq hproper hfree hsize hat').2 hfits
      exact bind_error (lift_eq hused fs)
    · refine (bind_ok (lift_eq (treeUsage_of_long hsize) fs)).trans ?_
      have hrmtree : rmtree ignoreMissing (path ++ [name]) fs = (.error .nameTooLong, fs) := by
        refine (bind_ok (get_eq fs)).trans ?_
        rw [FileSystem.lstat_of_long hsize]
        rfl
      exact bind_error hrmtree
  | leaf file =>
    have hsize : ¬ pathSize (path ++ [name]) < pathMax :=
      fun h => hfits ((FileSystem.fits_leaf hat').2 h)
    have htype : fileType (.leaf file) ≠ .dir := by cases file <;> simp [fileType]
    rw [if_neg htype]
    refine (bind_ok (get_eq fs)).trans ?_
    exact bind_error (lift_eq (FileSystem.lstat_of_long hsize) fs)

/-- A directory that is too deep ends the purge, with what is above it still there. -/
theorem purgeEntry_of_deep {e : Name × Inode} (hproper : fs.tree.Proper)
    (hfree : 0 < fs.descriptors) (hat : fs.tree.at? (fs.dataRoot ++ path ++ [e.1]) = some e.2)
    (hfits : fs.Fits (path ++ [e.1])) (hdeep : ¬ Shallow fs.descriptors e.2) (acc : Nat × Nat) :
    (purgeEntry path acc (e.1, fileType e.2) fs).1 = .error .tooManyOpen := by
  obtain ⟨name, t⟩ := e
  have hat' : fs.tree.at? (fs.dataRoot ++ (path ++ [name])) = some t := by
    rw [← List.append_assoc]
    exact hat
  have hsize := hfits.size_lt hat'
  cases t with
  | dir entries =>
    have hused := (treeUsage_eq hproper hfree hsize hat').1 hfits
    have hexhausted := exhausts_rmtreeAt _ rfl (FileTree.dirCount_at?_le _ hat) hdeep
      _ name fs hproper hat
    have hrmtree : (rmtree ignoreMissing (path ++ [name]) fs).1 = .error .tooManyOpen := by
      rw [rmtree_of_at ignoreMissing hsize hat]
      exact hexhausted
    refine purgeEntry_error ?_ (by simp)
    refine (congrArg Prod.fst (bind_ok (get_eq fs))).trans ?_
    refine (congrArg Prod.fst (bind_ok (lift_eq hused fs))).trans ?_
    exact bind_fst_error hrmtree
  | leaf file => exact absurd (shallow_leaf _ file) hdeep

/-- What the purge asks of an entry. -/
def Purgeable (fs : FileSystem) (path : Path) (e : Name × Inode) : Prop :=
  fs.Fits (path ++ [e.1]) ∧ Shallow fs.descriptors e.2

theorem purgeEntry_of_not_purgeable {e : Name × Inode} (hproper : fs.tree.Proper)
    (hfree : 0 < fs.descriptors) (hat : fs.tree.at? (fs.dataRoot ++ path ++ [e.1]) = some e.2)
    (h : ¬ Purgeable fs path e) (acc : Nat × Nat) :
    ∃ err, (purgeEntry path acc (e.1, fileType e.2) fs).1 = .error err := by
  by_cases hfits : fs.Fits (path ++ [e.1])
  · have hdeep : ¬ Shallow fs.descriptors e.2 := fun hshallow => h ⟨hfits, hshallow⟩
    exact ⟨_, purgeEntry_of_deep hproper hfree hat hfits hdeep acc⟩
  · exact ⟨_, purgeEntry_of_not_fits hproper hfree hat hfits acc⟩

theorem fits_congr {fs' : FileSystem} {node : Inode} (hroot : fs'.dataRoot = fs.dataRoot)
    (hat : fs.tree.at? (fs.dataRoot ++ path) = some node)
    (hat' : fs'.tree.at? (fs.dataRoot ++ path) = some node) : fs'.Fits path ↔ fs.Fits path := by
  unfold FileSystem.Fits
  refine forall_congr' fun rest => ?_
  have happend (t : Inode) := FileTree.at?_append (fs.dataRoot ++ path) rest t
  rw [hroot, happend, happend, hat, hat']

/-- The loop over the entries of a purge directory. -/
theorem foldlM_purgeEntry {es : List (Name × Inode)} (hnames : (es.map Prod.fst).Nodup) :
    ∀ (fs : FileSystem) (acc : Nat × Nat), fs.tree.Proper → 0 < fs.descriptors →
      (∀ e ∈ es, fs.tree.at? (fs.dataRoot ++ path ++ [e.1]) = some e.2) →
      ((∀ e ∈ es, Purgeable fs path e) →
        (es.map fun e => (e.1, fileType e.2)).foldlM (purgeEntry path) acc fs =
          (.ok (acc + (es.map fun e => usage e.2).sum),
            fs.modify (fs.dataRoot ++ path) (eraseAll (es.map Prod.fst)))) ∧
      ((∃ e ∈ es, ¬ Purgeable fs path e) →
        ∃ err, ((es.map fun e => (e.1, fileType e.2)).foldlM (purgeEntry path) acc fs).1 =
          .error err) := by
  induction es with
  | nil =>
    intro fs acc _ _ _
    constructor
    · intro _
      have hstate : fs.modify (fs.dataRoot ++ path) (eraseAll []) = fs := by
        rw [eraseAll_nil, modify_id]
      show (Except.ok acc, fs) = (Except.ok (acc + 0), fs.modify _ (eraseAll []))
      rw [hstate, add_zero]
    · simp
  | cons e es ih =>
    intro fs acc hproper hfree hat
    obtain ⟨hnotin, hnames⟩ := List.nodup_cons.1 hnames
    obtain ⟨hate, hats⟩ := List.forall_mem_cons.1 hat
    by_cases hpurgeable : Purgeable fs path e
    · have hentry := purgeEntry_of_fits hproper hfree hate hpurgeable.1 hpurgeable.2 acc
      have hkept := at?_erase hnotin hats
      have hsame : ∀ e' ∈ es, Purgeable (fs.modify (fs.dataRoot ++ path) (Dict.erase e.1)) path e' ↔
          Purgeable fs path e' := by
        intro e' he'
        have hbefore := hats e' he'
        have hafter := hkept e' he'
        rw [List.append_assoc] at hbefore hafter
        have hroot : (fs.modify (fs.dataRoot ++ path) (Dict.erase e.1)).dataRoot = fs.dataRoot :=
          rfl
        exact and_congr_left' (fits_congr hroot hbefore hafter)
      obtain ⟨hok, herror⟩ := ih hnames (fs.modify (fs.dataRoot ++ path) (Dict.erase e.1))
        (acc + usage e.2) (modify_proper _ _ hproper) hfree hkept
      rw [List.map_cons, List.foldlM_cons, bind_ok hentry]
      constructor
      · intro hall
        rw [hok fun e' he' => (hsame e' he').2 (hall e' (List.mem_cons_of_mem e he')), add_assoc]
        show (_, (fs.modify _ _).modify (fs.dataRoot ++ path) _) = _
        rw [modify_modify, eraseAll_erase]
        rfl
      · intro hnot
        obtain ⟨e', he', hnot⟩ :=
          ((List.exists_mem_cons_iff ..).1 hnot).resolve_left (not_not.2 hpurgeable)
        exact herror ⟨e', he', fun h => hnot ((hsame e' he').1 h)⟩
    · obtain ⟨err, hraised⟩ := purgeEntry_of_not_purgeable hproper hfree hate hpurgeable acc
      rw [List.map_cons, List.foldlM_cons]
      constructor
      · intro hall
        exact absurd (hall e List.mem_cons_self) hpurgeable
      · intro _
        exact ⟨err, bind_fst_error hraised⟩

/-- The process may open a descriptor for every level of directories from this one down. -/
def FileSystem.Suffices (fs : FileSystem) (path : Path) : Prop :=
  ∀ rest entries, fs.tree.at? (fs.dataRoot ++ path ++ rest) = some (.dir entries) →
    rest.length < fs.descriptors

theorem suffices_dir {entries : List (Name × Inode)} (hproper : fs.tree.Proper)
    (hat : fs.tree.at? (fs.dataRoot ++ path) = some (.dir entries)) :
    fs.Suffices path ↔ 0 < fs.descriptors ∧ ∀ e ∈ entries, Shallow fs.descriptors e.2 := by
  rw [← shallow_dir (hproper.at? _ hat)]
  refine forall_congr' fun rest => forall_congr' fun es => ?_
  rw [FileTree.at?_append, hat]
  exact imp_congr_right fun _ => Nat.succ_le_succ_iff.symm

/-- **A purge directory is emptied, or one of its paths is too long or too deep.** -/
theorem purgeDir_eq {name : Name} {entries : List (Name × Inode)} (hproper : fs.tree.Proper)
    (hname : pathSize [name] < pathMax)
    (hat : fs.tree.at? (fs.dataRoot ++ [name]) = some (.dir entries)) (acc : Nat × Nat) :
    (fs.Fits [name] ∧ fs.Suffices [name] → purgeDir acc name fs =
      (.ok (acc + usage (.dir entries)), fs.modify (fs.dataRoot ++ [name]) fun _ => [])) ∧
    (¬ (fs.Fits [name] ∧ fs.Suffices [name]) → ∃ err, (purgeDir acc name fs).1 = .error err) := by
  have hlink : fs.islink [name] = false := FileSystem.islink_of_at hname hat
  rw [FileSystem.fits_dir hat, suffices_dir hproper hat]
  by_cases hfree : 0 < fs.descriptors
  · have hrun : purgeDir acc name fs =
        (entries.map fun e => (e.1, fileType e.2)).foldlM (purgeEntry [name]) acc fs := by
      refine (bind_ok (get_eq fs)).trans ?_
      rw [hlink, FileSystem.scandir_of_at hfree hname hat]
      rfl
    have hnames : (entries.map Prod.fst).Nodup := (hproper.at? _ hat).names
    obtain ⟨hok, herror⟩ := foldlM_purgeEntry hnames fs acc hproper hfree (at_entry hproper hat)
    have hall : eraseAll (entries.map Prod.fst) entries = [] := by
      rw [eraseAll, Dict.keep, List.filter_eq_nil_iff]
      intro e he
      simp [List.mem_map.1 (List.mem_map_of_mem he)]
    have hempty := modify_congr (g := fun _ => []) hat hall
    rw [hrun]
    constructor
    · rintro ⟨⟨-, hfits⟩, -, hshallow⟩
      rw [hok fun e he => ⟨hfits e he, hshallow e he⟩, hempty, usage_dir]
    · intro hnot
      apply herror
      by_contra hall
      push Not at hall
      exact hnot ⟨⟨hname, fun e he => (hall e he).1⟩, hfree, fun e he => (hall e he).2⟩
  · constructor
    · rintro ⟨-, hfree', -⟩
      exact absurd hfree' hfree
    · intro _
      refine ⟨.tooManyOpen, ?_⟩
      refine (congrArg Prod.fst (bind_ok (get_eq fs))).trans ?_
      rw [hlink, FileSystem.scandir_of_exhausted (Nat.eq_zero_of_not_pos hfree) hname]
      rfl

end Purge

/-! ## Both directories -/

section Delete

variable {fs : FileSystem}

theorem pathSize_purgeDirs : ∀ name ∈ purgeDirs, pathSize [name] < pathMax := by decide

theorem clientsDir_ne_reportsDir : clientsDir ≠ reportsDir := by decide

theorem not_prefix_sibling (location : Location) {name other : Name} (h : name ≠ other) :
    ¬ location ++ [name] <+: location ++ [other] := by
  rw [List.prefix_append_right_inj, List.cons_prefix_cons]
  rintro ⟨hname, -⟩
  exact h hname

/-- What is next to a directory that is changed stays. -/
theorem at?_modify_sibling (fs : FileSystem) (location : Location) {name other : Name}
    (h : name ≠ other) (f : List (Name × Inode) → List (Name × Inode)) :
    (fs.modify (location ++ [name]) f).tree.at? (location ++ [other]) =
      fs.tree.at? (location ++ [other]) :=
  FileTree.at?_update_of_disjoint f (not_prefix_sibling location h)
    (not_prefix_sibling location h.symm) fs.tree

theorem contents_eq {name : Name} {entries : List (Name × Inode)}
    (hat : fs.tree.at? (fs.dataRoot ++ [name]) = some (.dir entries)) :
    fs.contents name = entries := by
  rw [FileSystem.contents, hat]

theorem pathsFit_iff : fs.PathsFit ↔ fs.Fits [clientsDir] ∧ fs.Fits [reportsDir] := by
  have hfits (name : Name) : fs.Fits [name] ↔ ∀ rest,
      (fs.tree.at? (fs.dataRoot ++ name :: rest)).isSome = true →
        pathSize (name :: rest) < pathMax := by
    simp [FileSystem.Fits]
  rw [FileSystem.PathsFit, hfits, hfits]
  simp [purgeDirs]

theorem descriptorsSuffice_iff :
    fs.DescriptorsSuffice ↔ fs.Suffices [clientsDir] ∧ fs.Suffices [reportsDir] := by
  have hsuffices (name : Name) : fs.Suffices [name] ↔ ∀ rest entries,
      fs.tree.at? (fs.dataRoot ++ name :: rest) = some (.dir entries) →
        rest.length < fs.descriptors := by
    simp [FileSystem.Suffices]
  rw [FileSystem.DescriptorsSuffice, hsuffices, hsuffices]
  simp [purgeDirs]

/-- Emptying the two directories is what a purge is to do. -/
theorem purges_modify {clients reports : List (Name × Inode)}
    (hclients : fs.tree.at? (fs.dataRoot ++ [clientsDir]) = some (.dir clients))
    (hreports : fs.tree.at? (fs.dataRoot ++ [reportsDir]) = some (.dir reports)) :
    Purges fs
      (.ok ⟨(usage (.dir clients) + usage (.dir reports)).1,
        (usage (.dir clients) + usage (.dir reports)).2⟩)
      ((fs.modify (fs.dataRoot ++ [clientsDir]) fun _ => []).modify (fs.dataRoot ++ [reportsDir])
        fun _ => []) where
  report := by
    simp [purgeDirs, contents_eq hclients, contents_eq hreports]
  empty := by
    intro name hname
    have hclients' := FileTree.at?_update_self (fun _ => []) _ hclients
    have hreports' := at?_modify_sibling fs fs.dataRoot clientsDir_ne_reportsDir fun _ => []
    rw [hreports] at hreports'
    rcases List.mem_cons.1 hname with rfl | hname
    · exact (at?_modify_sibling _ fs.dataRoot clientsDir_ne_reportsDir.symm _).trans hclients'
    · obtain rfl := List.mem_singleton.1 hname
      exact FileTree.at?_update_self (fun _ => []) _ hreports'
  outside := by
    intro location hlocation
    have hnotClients := hlocation clientsDir (by simp [purgeDirs])
    have hnotReports := hlocation reportsDir (by simp [purgeDirs])
    exact (FileTree.label_at?_update _ hnotReports _).trans
      (FileTree.label_at?_update _ hnotClients _)
  dataRoot := rfl

/-- The run of `_delete_contents`, where the limits allow it and where they do not. -/
theorem deleteContents_eq (h : fs.Ready) :
    (fs.PathsFit ∧ fs.DescriptorsSuffice →
      Purges fs (deleteContents fs).1 (deleteContents fs).2) ∧
    (¬ (fs.PathsFit ∧ fs.DescriptorsSuffice) → ∃ err, (deleteContents fs).1 = .error err) := by
  have hmemClients : clientsDir ∈ purgeDirs := by simp [purgeDirs]
  have hmemReports : reportsDir ∈ purgeDirs := by simp [purgeDirs]
  obtain ⟨clients, hclients⟩ := h.purgeDirs clientsDir hmemClients
  obtain ⟨reports, hreports⟩ := h.purgeDirs reportsDir hmemReports
  have hrun : deleteContents = purgeDir (0, 0) clientsDir >>= fun acc =>
      purgeDir acc reportsDir >>= fun total => pure ⟨total.1, total.2⟩ := by
    simp only [deleteContents, purgeDirs, List.foldlM_cons, List.foldlM_nil, bind_assoc, pure_bind]
  obtain ⟨hok, herror⟩ := purgeDir_eq h.proper (pathSize_purgeDirs _ hmemClients) hclients (0, 0)
  rw [pathsFit_iff, descriptorsSuffice_iff, and_and_and_comm, hrun]
  by_cases hallowed : fs.Fits [clientsDir] ∧ fs.Suffices [clientsDir]
  · have hproper : (fs.modify (fs.dataRoot ++ [clientsDir]) fun _ => []).tree.Proper :=
      h.proper.update (fun _ _ => .dir (by simp) (by simp)) _
    have hreports' := at?_modify_sibling fs fs.dataRoot clientsDir_ne_reportsDir fun _ => []
    rw [hreports] at hreports'
    have hfits : (fs.modify (fs.dataRoot ++ [clientsDir]) fun _ => []).Fits [reportsDir] ↔
        fs.Fits [reportsDir] := fits_congr rfl hreports hreports'
    have hsuffices : (fs.modify (fs.dataRoot ++ [clientsDir]) fun _ => []).Suffices [reportsDir] ↔
        fs.Suffices [reportsDir] :=
      (suffices_dir hproper hreports').trans (suffices_dir h.proper hreports).symm
    obtain ⟨hok', herror'⟩ := purgeDir_eq hproper (pathSize_purgeDirs _ hmemReports) hreports'
      ((0, 0) + usage (.dir clients))
    rw [hfits, hsuffices] at hok' herror'
    rw [bind_ok (hok hallowed)]
    constructor
    · intro ⟨_, hallowed'⟩
      rw [bind_ok (hok' hallowed')]
      have hzero : ((0, 0) : Nat × Nat) + usage (.dir clients) = usage (.dir clients) := zero_add _
      rw [hzero]
      exact purges_modify hclients hreports
    · intro hnot
      obtain ⟨err, hraised⟩ := herror' fun hallowed' => hnot ⟨hallowed, hallowed'⟩
      exact ⟨err, bind_fst_error hraised⟩
  · constructor
    · intro ⟨hallowed', _⟩
      exact absurd hallowed' hallowed
    · intro _
      obtain ⟨err, hraised⟩ := herror hallowed
      exact ⟨err, bind_fst_error hraised⟩

/-- **The purge does what it is to do exactly if every path fits and the descriptors suffice.** -/
theorem deleteContents_purges_iff (h : fs.Ready) :
    Purges fs (deleteContents fs).1 (deleteContents fs).2 ↔
      fs.PathsFit ∧ fs.DescriptorsSuffice := by
  obtain ⟨hok, herror⟩ := deleteContents_eq h
  constructor
  · intro hpurges
    by_contra hnot
    obtain ⟨err, hraised⟩ := herror hnot
    have hreport := hpurges.report
    rw [hraised] at hreport
    cases hreport
  · exact hok

end Delete

/-! ## A data root in its usual place -/

section Examples

def profilerRoot : Location :=
  [⟨Text.encode "var".toList, by decide⟩, ⟨Text.encode "www".toList, by decide⟩,
    ⟨Text.encode "html".toList, by decide⟩, ⟨Text.encode "profiler".toList, by decide⟩]

/-- A file system with nothing but the data root, and twenty descriptors of 1024 in use. -/
def profilerFs (clients reports : List (Name × Inode)) : FileSystem where
  tree := profilerRoot.foldr (fun name t => .dir [(name, t)])
    (.dir [(clientsDir, .dir clients), (reportsDir, .dir reports)])
  dataRoot := profilerRoot
  descriptors := 1004

theorem profilerFs_ready {clients reports : List (Name × Inode)}
    (hclients : FileTree.Proper (.dir clients : Inode))
    (hreports : FileTree.Proper (.dir reports : Inode)) : (profilerFs clients reports).Ready where
  proper := by
    have hnest (names : List Name) {t : Inode} (ht : t.Proper) :
        (names.foldr (fun name t => (.dir [(name, t)] : Inode)) t).Proper := by
      induction names with
      | nil => exact ht
      | cons name names ih => exact .dir (by simp) (by simpa using ih)
    apply hnest
    refine .dir (by simp [clientsDir_ne_reportsDir]) ?_
    simp [hclients, hreports]
  purgeDirs := by
    intro name hname
    rcases List.mem_cons.1 hname with rfl | hname
    · exact ⟨clients, rfl⟩
    · obtain rfl := List.mem_singleton.1 hname
      exact ⟨reports, rfl⟩

def clientName : Name := ⟨Text.encode "aa-bb".toList, by decide⟩
def fileName : Name := ⟨Text.encode "aa-bb.pcap".toList, by decide⟩
def linkName : Name := ⟨Text.encode "latest".toList, by decide⟩

/-- One client with a capture and a link to the root of the file system. -/
def oneClient : List (Name × Inode) :=
  [(clientName, .dir
    [(fileName, .leaf (.regular [1, 2, 3])),
      (linkName, .leaf (.symlink (Text.encode "/var/../".toList)))])]

theorem deleteContents_purges_oneClient :
    Purges (profilerFs oneClient []) (deleteContents (profilerFs oneClient [])).1
      (deleteContents (profilerFs oneClient [])).2 := by
  have hready : (profilerFs oneClient []).Ready := by
    refine profilerFs_ready (.dir (by decide) ?_) (.dir (by decide) (by simp))
    intro e he
    obtain rfl := List.mem_singleton.1 he
    exact .dir (by decide) (by simp [FileTree.Proper.leaf])
  have hclient : (profilerFs oneClient []).Fits ([clientsDir] ++ [clientName]) := by
    refine (FileSystem.fits_dir rfl).2 ⟨by decide, ?_⟩
    intro e he
    rcases List.mem_cons.1 he with rfl | he
    · exact (FileSystem.fits_leaf rfl).2 (by decide)
    · obtain rfl := List.mem_singleton.1 he
      exact (FileSystem.fits_leaf rfl).2 (by decide)
  have hclients : (profilerFs oneClient []).Fits [clientsDir] := by
    refine (FileSystem.fits_dir rfl).2 ⟨by decide, ?_⟩
    intro e he
    obtain rfl := List.mem_singleton.1 he
    exact hclient
  have hreports : (profilerFs oneClient []).Fits [reportsDir] :=
    (FileSystem.fits_dir rfl).2 ⟨by decide, by simp⟩
  have hclients' : (profilerFs oneClient []).Suffices [clientsDir] := by
    refine (suffices_dir hready.proper rfl).2 ⟨by decide, ?_⟩
    intro e he
    obtain rfl := List.mem_singleton.1 he
    refine (shallow_dir (.dir (by decide) (by simp [FileTree.Proper.leaf]))).2 ⟨by decide, ?_⟩
    simp [shallow_leaf]
  have hreports' : (profilerFs oneClient []).Suffices [reportsDir] :=
    (suffices_dir hready.proper rfl).2 ⟨by decide, by simp⟩
  exact (deleteContents_purges_iff hready).2
    ⟨pathsFit_iff.2 ⟨hclients, hreports⟩, descriptorsSuffice_iff.2 ⟨hclients', hreports'⟩⟩

example : (deleteContents (profilerFs oneClient [])).1.toOption = some ⟨2, 11⟩ := by
  decide +kernel

/-- A name as long as a name can be. -/
def longName : Name := ⟨List.replicate 255 0x64, by decide +kernel⟩

/-- Directories in directories, and a file in the last one. -/
def nested : Nat → Inode
  | 0 => .leaf (.regular [])
  | n + 1 => .dir [(longName, nested n)]

theorem nested_at (n : Nat) : (nested n).at? (List.replicate n longName) = some (nested 0) := by
  induction n with
  | zero => rfl
  | succ n ih =>
    show (FileTree.dir [(longName, nested n)] : Inode).at? (longName :: _) = _
    rw [FileTree.at?_dir_cons, Dict.get_cons_self]
    exact ih

theorem nested_proper (n : Nat) : (nested n).Proper := by
  induction n with
  | zero => exact .leaf _
  | succ n ih => exact .dir (by simp) (by simpa using ih)

theorem pathSize_nested (n : Nat) :
    pathSize (clientsDir :: List.replicate n longName) = 30 + 256 * n := by
  have hlong : longName.val.length = 255 := List.length_replicate
  have hclients : clientsDir.val.length = 7 := rfl
  have hroot : dataRootPath.length = 22 := rfl
  simp only [pathSize, List.map_cons, List.map_replicate, List.sum_cons, List.sum_replicate_nat,
    hlong, hclients, hroot]
  omega

/-- A file with a path of 4126 bytes: the purge ends with an `OSError`. -/
theorem deleteContents_nested :
    (profilerFs [(longName, nested 15)] []).Ready ∧
      ¬ Purges (profilerFs [(longName, nested 15)] [])
        (deleteContents (profilerFs [(longName, nested 15)] [])).1
        (deleteContents (profilerFs [(longName, nested 15)] [])).2 := by
  have hready : (profilerFs [(longName, nested 15)] []).Ready :=
    profilerFs_ready (nested_proper 16) (.dir (by decide) (by simp))
  have hfile (clients reports : List (Name × Inode)) (rest : List Name) :
      (profilerFs clients reports).tree.at?
        ((profilerFs clients reports).dataRoot ++ clientsDir :: rest) =
          (FileTree.dir clients : Inode).at? rest := rfl
  have hfits : ¬ (profilerFs [(longName, nested 15)] []).PathsFit := by
    intro hfits
    have hsize := hfits clientsDir (by simp [purgeDirs]) (List.replicate 16 longName)
    have hat : (FileTree.dir [(longName, nested 15)] : Inode).at? (List.replicate 16 longName) =
        some (nested 0) := nested_at 16
    rw [hfile, hat, pathSize_nested] at hsize
    exact absurd (hsize rfl) (by decide)
  refine ⟨hready, fun hpurges => ?_⟩
  obtain ⟨err, hraised⟩ := (deleteContents_eq hready).2 fun h => hfits h.1
  have hreport := hpurges.report
  rw [hraised] at hreport
  cases hreport

end Examples

end WlanpiCore.Profiler
