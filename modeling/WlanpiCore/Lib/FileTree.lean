import Mathlib.Algebra.Order.BigOperators.Group.List
import Mathlib.Algebra.Order.Ring.Nat
import WlanpiCore.Lib.Dict

/-!
# Trees of named entries

A `FileTree` is a leaf, or a directory with named entries. `at?` is the node at a location, the
names that lead to it from the root; `update` changes the entries of the directory at a location.

The rules say what an update does at its own location (`at?_update_self`), next to it
(`at?_update_of_disjoint`) and anywhere outside (`label_at?_update`), and how updates combine
(`update_update`, `update_append`). A tree is `Proper` when no directory has two entries of one
name.
-/

namespace WlanpiCore

/-- A tree whose directories name their entries by `ν` and whose leaves hold an `α`. -/
inductive FileTree (ν α : Type) where
  | leaf (a : α)
  | dir (entries : List (ν × FileTree ν α))

namespace FileTree

variable {ν α : Type}

/-- Induction on a tree: a property of every entry of a directory is one of the directory. -/
@[elab_as_elim]
theorem induct {motive : FileTree ν α → Prop} (leaf : ∀ a, motive (leaf a))
    (dir : ∀ entries : Dict ν (FileTree ν α), (∀ e ∈ entries, motive e.2) → motive (dir entries))
    (t : FileTree ν α) : motive t := by
  apply FileTree.rec (motive_1 := motive) (motive_2 := fun entries => ∀ e ∈ entries, motive e.2)
    (motive_3 := fun e => motive e.2) leaf dir
  · simp
  · intro e entries he hentries
    exact List.forall_mem_cons.2 ⟨he, hentries⟩
  · intro name t ht
    exact ht

/-- No directory has two entries of one name. -/
inductive Proper : FileTree ν α → Prop
  | leaf (a : α) : Proper (leaf a)
  | dir {entries : Dict ν (FileTree ν α)} (names : (entries.map Prod.fst).Nodup)
      (proper : ∀ e ∈ entries, Proper e.2) : Proper (dir entries)

/-- What a node is by itself: the names in a directory, and not what they lead to. -/
def label : FileTree ν α → α ⊕ List ν
  | leaf a => .inl a
  | dir entries => .inr (entries.map Prod.fst)

mutual

/-- What the leaves hold. -/
def leaves : FileTree ν α → List α
  | leaf a => [a]
  | dir entries => leavesOf entries

def leavesOf : List (ν × FileTree ν α) → List α
  | [] => []
  | (_, t) :: entries => t.leaves ++ leavesOf entries

end

mutual

/-- How many directories the tree has. -/
def dirCount : FileTree ν α → Nat
  | leaf _ => 0
  | dir entries => dirCountOf entries + 1

def dirCountOf : List (ν × FileTree ν α) → Nat
  | [] => 0
  | (_, t) :: entries => t.dirCount + dirCountOf entries

end

theorem leavesOf_eq (entries : Dict ν (FileTree ν α)) :
    leavesOf entries = entries.flatMap fun e => e.2.leaves := by
  induction entries with
  | nil => rfl
  | cons e entries ih =>
    obtain ⟨name, t⟩ := e
    simp [leavesOf, ih]

theorem dirCountOf_eq (entries : Dict ν (FileTree ν α)) :
    dirCountOf entries = (entries.map fun e => e.2.dirCount).sum := by
  induction entries with
  | nil => rfl
  | cons e entries ih =>
    obtain ⟨name, t⟩ := e
    simp [dirCountOf, ih]

@[simp] theorem leaves_leaf (a : α) : (leaf a : FileTree ν α).leaves = [a] := rfl

@[simp] theorem leaves_dir (entries : Dict ν (FileTree ν α)) :
    (dir entries).leaves = entries.flatMap fun e => e.2.leaves := leavesOf_eq entries

@[simp] theorem dirCount_leaf (a : α) : (leaf a : FileTree ν α).dirCount = 0 := rfl

@[simp] theorem dirCount_dir (entries : Dict ν (FileTree ν α)) :
    (dir entries).dirCount = (entries.map fun e => e.2.dirCount).sum + 1 :=
  congrArg (· + 1) (dirCountOf_eq entries)

theorem Proper.names {entries : Dict ν (FileTree ν α)} (h : Proper (FileTree.dir entries)) :
    (entries.map Prod.fst).Nodup := by
  cases h
  assumption

theorem Proper.entry {entries : Dict ν (FileTree ν α)} (h : Proper (FileTree.dir entries)) :
    ∀ e ∈ entries, Proper e.2 := by
  cases h
  assumption

theorem Proper.keep {entries : Dict ν (FileTree ν α)} (p : ν → Bool)
    (h : Proper (FileTree.dir entries)) : Proper (FileTree.dir (Dict.keep p entries)) :=
  .dir (h.names.sublist (List.filter_sublist.map _))
    fun e he => h.entry e (List.mem_of_mem_filter he)

theorem dirCount_entry_le {entries : Dict ν (FileTree ν α)} {e : ν × FileTree ν α}
    (he : e ∈ entries) :
    e.2.dirCount ≤ (entries.map fun e => e.2.dirCount).sum :=
  List.single_le_sum (fun _ _ => Nat.zero_le _) _ (List.mem_map_of_mem he)

variable [DecidableEq ν]

/-- The node at a location. -/
def at? : FileTree ν α → List ν → Option (FileTree ν α)
  | t, [] => some t
  | leaf _, _ :: _ => none
  | dir entries, name :: rest =>
    match Dict.get entries name with
    | none => none
    | some t => t.at? rest

/-- Change the entries of the directory at a location, if there is one. -/
def update (f : Dict ν (FileTree ν α) → Dict ν (FileTree ν α)) :
    List ν → FileTree ν α → FileTree ν α
  | _, leaf a => leaf a
  | [], dir entries => dir (f entries)
  | name :: rest, dir entries =>
    match Dict.get entries name with
    | none => dir entries
    | some t => dir (Dict.set entries name (update f rest t))

@[simp] theorem at?_nil (t : FileTree ν α) : t.at? [] = some t := by
  cases t <;> rfl

@[simp] theorem at?_leaf_cons (a : α) (name : ν) (rest : List ν) :
    (leaf a : FileTree ν α).at? (name :: rest) = none := rfl

theorem at?_dir_cons (entries : Dict ν (FileTree ν α)) (name : ν) (rest : List ν) :
    (dir entries).at? (name :: rest) = (Dict.get entries name).bind (·.at? rest) := by
  rw [at?]
  cases Dict.get entries name <;> rfl

theorem at?_append (p q : List ν) :
    ∀ t : FileTree ν α, t.at? (p ++ q) = (t.at? p).bind (·.at? q) := by
  induction p with
  | nil => simp
  | cons name p ih =>
    intro t
    cases t with
    | leaf a => simp
    | dir entries =>
      rw [List.cons_append, at?_dir_cons, at?_dir_cons]
      cases Dict.get entries name with
      | none => rfl
      | some t => exact ih t

theorem at?_entry {t : FileTree ν α} {p : List ν} {entries : Dict ν (FileTree ν α)}
    (h : t.at? p = some (dir entries)) (name : ν) :
    t.at? (p ++ [name]) = Dict.get entries name := by
  rw [at?_append, h]
  show (dir entries).at? [name] = _
  rw [at?_dir_cons]
  cases Dict.get entries name <;> simp

/-- What has something below it is a directory. -/
theorem dir_of_at?_append {t u : FileTree ν α} {p : List ν} {name : ν} {rest : List ν}
    (h : t.at? (p ++ name :: rest) = some u) : ∃ entries, t.at? p = some (dir entries) := by
  rw [at?_append] at h
  cases hp : t.at? p with
  | none => simp [hp] at h
  | some v =>
    cases v with
    | leaf a => simp [hp] at h
    | dir entries => exact ⟨entries, rfl⟩

theorem dirCount_at?_le (p : List ν) :
    ∀ {t u : FileTree ν α}, t.at? p = some u → u.dirCount ≤ t.dirCount := by
  induction p with
  | nil =>
    intro t u h
    simp at h
    exact h ▸ Nat.le_refl _
  | cons name p ih =>
    intro t u h
    cases t with
    | leaf a => cases h
    | dir entries =>
      rw [at?_dir_cons] at h
      cases hget : Dict.get entries name with
      | none => simp [hget] at h
      | some v =>
        have hv : u.dirCount ≤ v.dirCount := ih (by simpa [hget] using h)
        have hentry := dirCount_entry_le (Dict.mem_of_get hget)
        simp only [dirCount_dir] at hentry ⊢
        omega

/-! ## Updates -/

section Update

variable (f g : Dict ν (FileTree ν α) → Dict ν (FileTree ν α))

@[simp] theorem update_leaf (p : List ν) (a : α) : update f p (leaf a) = leaf a := by
  cases p <;> rfl

@[simp] theorem update_nil_dir (entries : Dict ν (FileTree ν α)) :
    update f [] (dir entries) = dir (f entries) := rfl

theorem update_cons_of_get {entries : Dict ν (FileTree ν α)} {name : ν} {t : FileTree ν α}
    (rest : List ν) (h : Dict.get entries name = some t) :
    update f (name :: rest) (dir entries) = dir (Dict.set entries name (update f rest t)) := by
  rw [update, h]

theorem update_cons_of_none {entries : Dict ν (FileTree ν α)} {name : ν} (rest : List ν)
    (h : Dict.get entries name = none) :
    update f (name :: rest) (dir entries) = dir entries := by
  rw [update, h]

theorem at?_update_cons_self (name : ν) (p q : List ν) (entries : Dict ν (FileTree ν α)) :
    (update f (name :: p) (dir entries)).at? (name :: q) =
      (Dict.get entries name).bind fun u => (update f p u).at? q := by
  cases hget : Dict.get entries name with
  | none =>
      rw [update_cons_of_none f p hget, at?_dir_cons, hget, Option.bind_none, Option.bind_none]
  | some u => rw [update_cons_of_get f p hget, at?_dir_cons, Dict.get_set_self, Option.bind_some,
      Option.bind_some]

theorem at?_update_cons_ne {n m : ν} (h : n ≠ m) (p q : List ν) (entries : Dict ν (FileTree ν α)) :
    (update f (n :: p) (dir entries)).at? (m :: q) = (dir entries).at? (m :: q) := by
  cases hget : Dict.get entries n with
  | none => rw [update_cons_of_none f p hget]
  | some u => rw [update_cons_of_get f p hget, at?_dir_cons, at?_dir_cons, Dict.get_set_ne h]

theorem at?_update_self (p : List ν) : ∀ {t : FileTree ν α} {entries : Dict ν (FileTree ν α)},
    t.at? p = some (dir entries) → (update f p t).at? p = some (dir (f entries)) := by
  induction p with
  | nil =>
    intro t entries h
    simp at h
    simp [h]
  | cons name p ih =>
    intro t entries h
    cases t with
    | leaf a => cases h
    | dir es =>
      rw [at?_dir_cons] at h
      obtain ⟨u, hget, hu⟩ := Option.bind_eq_some_iff.1 h
      rw [at?_update_cons_self, hget]
      exact ih hu

/-- A node that is neither above the update nor below it stays. -/
theorem at?_update_of_disjoint : ∀ {p q : List ν}, ¬ p <+: q → ¬ q <+: p →
    ∀ t : FileTree ν α, (update f p t).at? q = t.at? q
  | [], q, hp, _, _ => absurd List.nil_prefix hp
  | _ :: _, [], _, hq, _ => absurd List.nil_prefix hq
  | _ :: _, _ :: _, _, _, leaf a => by simp
  | n :: p, m :: q, hp, hq, dir entries => by
    by_cases hnm : n = m
    · subst hnm
      rw [at?_update_cons_self, at?_dir_cons]
      refine Option.bind_congr fun u _ => ?_
      exact at?_update_of_disjoint (fun h => hp (List.cons_prefix_cons.2 ⟨rfl, h⟩))
        (fun h => hq (List.cons_prefix_cons.2 ⟨rfl, h⟩)) u
    · exact at?_update_cons_ne f hnm p q entries

/-- **Outside the directory that is updated every node stays what it is.** -/
theorem label_at?_update : ∀ {p q : List ν}, ¬ p <+: q →
    ∀ t : FileTree ν α, ((update f p t).at? q).map label = (t.at? q).map label
  | [], _, hp, _ => absurd List.nil_prefix hp
  | _ :: _, _, _, leaf a => by simp
  | n :: p, [], _, dir entries => by
    cases hget : Dict.get entries n with
    | none => rw [update_cons_of_none f p hget]
    | some u => simp [update_cons_of_get f p hget, label, Dict.keys_set_of_get _ hget]
  | n :: p, m :: q, hp, dir entries => by
    by_cases hnm : n = m
    · subst hnm
      rw [at?_update_cons_self, at?_dir_cons, Option.map_bind, Option.map_bind]
      refine Option.bind_congr fun u _ => ?_
      exact label_at?_update (fun h => hp (List.cons_prefix_cons.2 ⟨rfl, h⟩)) u
    · rw [at?_update_cons_ne f hnm]

theorem update_update (p : List ν) (t : FileTree ν α) :
    update f p (update g p t) = update (f ∘ g) p t := by
  induction p generalizing t with
  | nil => cases t <;> simp
  | cons name p ih =>
    cases t with
    | leaf a => simp
    | dir entries =>
      cases hget : Dict.get entries name with
      | none =>
        rw [update_cons_of_none g p hget, update_cons_of_none f p hget,
          update_cons_of_none _ p hget]
      | some u =>
        rw [update_cons_of_get g p hget, update_cons_of_get f p (Dict.get_set_self _ _ _),
          update_cons_of_get _ p hget, Dict.set_set, ih]

variable {f g}

/-- An update is what it does to the directory that is there. -/
theorem update_congr (p : List ν) {t : FileTree ν α}
    (h : ∀ entries, t.at? p = some (dir entries) → f entries = g entries) :
    update f p t = update g p t := by
  induction p generalizing t with
  | nil =>
    cases t with
    | leaf a => simp
    | dir entries => simp [h entries rfl]
  | cons name p ih =>
    cases t with
    | leaf a => simp
    | dir entries =>
      cases hget : Dict.get entries name with
      | none => rw [update_cons_of_none f p hget, update_cons_of_none g p hget]
      | some u =>
        have hu : update f p u = update g p u := by
          apply ih
          intro es hes
          apply h es
          rw [at?_dir_cons, hget]
          exact hes
        rw [update_cons_of_get f p hget, update_cons_of_get g p hget, hu]

theorem update_id (p : List ν) (t : FileTree ν α) : update id p t = t := by
  induction p generalizing t with
  | nil => cases t <;> simp
  | cons name p ih =>
    cases t with
    | leaf a => simp
    | dir entries =>
      cases hget : Dict.get entries name with
      | none => rw [update_cons_of_none id p hget]
      | some u => rw [update_cons_of_get id p hget, ih, Dict.set_of_get hget]

variable (f g)

/-- An update further down is one of the entries of the directory above. -/
theorem update_append (p : List ν) (name : ν) (t : FileTree ν α) :
    update f (p ++ [name]) t = update
      (fun entries =>
        match Dict.get entries name with
        | none => entries
        | some u => Dict.set entries name (update f [] u)) p t := by
  induction p generalizing t with
  | nil =>
    cases t with
    | leaf a => simp
    | dir entries =>
      cases hget : Dict.get entries name with
      | none => simp [update_cons_of_none f [] hget, hget]
      | some u => simp [update_cons_of_get f [] hget, hget]
  | cons n p ih =>
    cases t with
    | leaf a => simp
    | dir entries =>
      rw [List.cons_append]
      cases hget : Dict.get entries n with
      | none => rw [update_cons_of_none f _ hget, update_cons_of_none _ p hget]
      | some u => rw [update_cons_of_get f _ hget, update_cons_of_get _ p hget, ih]

/-- What happened in an entry does not matter once the entry is gone. -/
theorem erase_update_append (p : List ν) (name : ν) (t : FileTree ν α) :
    update (Dict.erase name) p (update f (p ++ [name]) t) = update (Dict.erase name) p t := by
  rw [update_append, update_update]
  apply update_congr
  intro entries _
  show Dict.erase name (match Dict.get entries name with
    | none => entries
    | some u => Dict.set entries name (update f [] u)) = _
  cases Dict.get entries name with
  | none => rfl
  | some u => exact Dict.keep_set (by simp) entries _

end Update

/-! ## Proper trees -/

theorem Proper.at? (p : List ν) :
    ∀ {t u : FileTree ν α}, Proper t → t.at? p = some u → Proper u := by
  induction p with
  | nil =>
    intro t u ht h
    simp at h
    exact h ▸ ht
  | cons name p ih =>
    intro t u ht h
    cases t with
    | leaf a => cases h
    | dir entries =>
      rw [at?_dir_cons] at h
      cases hget : Dict.get entries name with
      | none => simp [hget] at h
      | some v => exact ih (ht.entry _ (Dict.mem_of_get hget)) (by simpa [hget] using h)

/-- An update keeps the tree proper if it keeps the directory so. -/
theorem Proper.update {f : Dict ν (FileTree ν α) → Dict ν (FileTree ν α)}
    (hf : ∀ entries, Proper (FileTree.dir entries) → Proper (FileTree.dir (f entries)))
    (p : List ν) :
    ∀ {t : FileTree ν α}, Proper t → Proper (update f p t) := by
  induction p with
  | nil =>
    intro t ht
    cases t with
    | leaf a => exact .leaf a
    | dir entries => exact hf entries ht
  | cons name p ih =>
    intro t ht
    cases t with
    | leaf a => exact .leaf a
    | dir entries =>
      cases hget : Dict.get entries name with
      | none => rwa [update_cons_of_none f p hget]
      | some u =>
        rw [update_cons_of_get f p hget]
        refine .dir ?_ fun e he => ?_
        · rw [Dict.keys_set_of_get _ hget]
          exact ht.names
        · rcases Dict.mem_set he with he | he
          · exact ht.entry e he
          · rw [he]
            exact ih (ht.entry _ (Dict.mem_of_get hget))

theorem Proper.get {entries : Dict ν (FileTree ν α)} (h : Proper (FileTree.dir entries)) {name : ν}
    {t : FileTree ν α} (ht : (name, t) ∈ entries) : Dict.get entries name = some t :=
  Dict.get_eq_some_of_mem h.names ht

end FileTree

end WlanpiCore
