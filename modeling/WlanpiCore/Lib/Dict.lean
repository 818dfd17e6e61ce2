import Mathlib.Data.List.Forall2
import Mathlib.Data.List.Nodup

/-!
# Dictionaries in insertion order

A Python `dict` is the list of its items. `set` replaces the value of a key it has and puts a new
key last. `mask` is the loop that hides the values of some keys, each only if it passes a test.

**Theorem (`mask_eq_of_alike`).** Two dictionaries that differ only in values that are hidden, each
of them passing the test, have the same mask.
-/

namespace WlanpiCore

/-- The items of a `dict`, in insertion order. -/
abbrev Dict (κ ν : Type) := List (κ × ν)

namespace Dict

variable {κ ν : Type} [DecidableEq κ]

/-- `d.get(key)` -/
def get (d : Dict κ ν) (key : κ) : Option ν := d.lookup key

/-- `d[key] = value` -/
def set : Dict κ ν → κ → ν → Dict κ ν
  | [], key, value => [(key, value)]
  | (k, v) :: d, key, value => if k = key then (k, value) :: d else (k, v) :: set d key value

@[simp] theorem set_cons_self (d : Dict κ ν) (key : κ) (v value : ν) :
    set ((key, v) :: d) key value = (key, value) :: d := by
  simp [set]

@[simp] theorem set_cons_ne {d : Dict κ ν} {k key : κ} (h : k ≠ key) (v value : ν) :
    set ((k, v) :: d) key value = (k, v) :: d.set key value := by
  simp [set, h]

@[simp] theorem get_cons_self (d : Dict κ ν) (key : κ) (v : ν) :
    get ((key, v) :: d) key = some v := by
  simp [get]

@[simp] theorem get_cons_ne {d : Dict κ ν} {k key : κ} (h : k ≠ key) (v : ν) :
    get ((k, v) :: d) key = d.get key := by
  have hne : (key == k) = false := by simpa using h.symm
  simp [get, List.lookup_cons, hne]

/-- Storing the value a key has changes nothing. -/
theorem set_of_get {key : κ} {value : ν} :
    ∀ {d : Dict κ ν}, get d key = some value → set d key value = d
  | [], h => by simp [get] at h
  | (k, v) :: d, h => by
    by_cases hk : k = key
    · subst hk
      have hv : v = value := by simpa using h
      simp [hv]
    · have hd : get d key = some value := by simpa [hk] using h
      simp [hk, set_of_get hd]

theorem get_set_self (d : Dict κ ν) (key : κ) (value : ν) :
    get (set d key value) key = some value := by
  induction d with
  | nil => simp [set, get]
  | cons item d ih =>
    obtain ⟨k, v⟩ := item
    by_cases hk : k = key
    · subst hk
      simp
    · simp [hk, ih]

theorem get_set_ne {k key : κ} (h : key ≠ k) (d : Dict κ ν) (value : ν) :
    get (set d key value) k = get d k := by
  induction d with
  | nil => simp [set, get_cons_ne h]
  | cons item d ih =>
    obtain ⟨k', v⟩ := item
    by_cases hk' : k' = key
    · subst hk'
      simp [h]
    · by_cases hk : k' = k
      · subst hk
        simp [hk']
      · simp [hk', hk, ih]

theorem set_set (d : Dict κ ν) (key : κ) (v value : ν) :
    set (set d key v) key value = set d key value := by
  induction d with
  | nil => simp [set]
  | cons item d ih =>
    obtain ⟨k, v'⟩ := item
    by_cases hk : k = key
    · subst hk
      simp
    · simp [hk, ih]

/-- A key that is there stays where it is. -/
theorem keys_set_of_get {key : κ} {v : ν} (value : ν) :
    ∀ {d : Dict κ ν}, get d key = some v → (set d key value).map Prod.fst = d.map Prod.fst
  | [], h => by simp [get] at h
  | (k, v') :: d, h => by
    by_cases hk : k = key
    · subst hk
      simp
    · have hd : get d key = some v := by simpa [hk] using h
      simp [hk, keys_set_of_get value hd]

theorem mem_set {key : κ} {value : ν} {item : κ × ν} :
    ∀ {d : Dict κ ν}, item ∈ set d key value → item ∈ d ∨ item = (key, value)
  | [], h => .inr (List.mem_singleton.1 h)
  | (k, v) :: d, h => by
    by_cases hk : k = key
    · subst hk
      rw [set_cons_self] at h
      rcases List.mem_cons.1 h with h | h
      · exact .inr h
      · exact .inl (List.mem_cons_of_mem _ h)
    · rw [set_cons_ne hk] at h
      rcases List.mem_cons.1 h with h | h
      · exact .inl (h ▸ List.mem_cons_self)
      · exact (mem_set h).imp_left (List.mem_cons_of_mem _)

theorem get_eq_some_of_mem {key : κ} {value : ν} :
    ∀ {d : Dict κ ν}, (d.map Prod.fst).Nodup → (key, value) ∈ d → get d key = some value
  | (k, v) :: d, hnodup, h => by
    obtain ⟨hnotin, hnodup⟩ := List.nodup_cons.1 hnodup
    rcases List.mem_cons.1 h with h | h
    · cases h
      simp
    · have hne : k ≠ key := by
        intro hk
        subst hk
        exact hnotin (List.mem_map.2 ⟨_, h, rfl⟩)
      simp [hne, get_eq_some_of_mem hnodup h]

theorem mem_of_get {key : κ} {value : ν} :
    ∀ {d : Dict κ ν}, get d key = some value → (key, value) ∈ d
  | [], h => by simp [get] at h
  | (k, v) :: d, h => by
    by_cases hk : k = key
    · subst hk
      have hv : v = value := by simpa using h
      simp [hv]
    · exact List.mem_cons_of_mem _ (mem_of_get (by simpa [hk] using h))

/-- The items whose keys pass a test. -/
def keep (p : κ → Bool) (d : Dict κ ν) : Dict κ ν := d.filter fun item => p item.1

/-- `del d[key]` -/
def erase (key : κ) : Dict κ ν → Dict κ ν := keep fun k => k ≠ key

omit [DecidableEq κ] in
theorem keep_keep (p q : κ → Bool) (d : Dict κ ν) :
    keep p (keep q d) = keep (fun k => q k && p k) d := by
  rw [keep, keep, keep, List.filter_filter]
  congr 1
  funext item
  exact Bool.and_comm _ _

theorem keep_set {p : κ → Bool} {key : κ} (h : p key = false) (d : Dict κ ν) (value : ν) :
    keep p (set d key value) = keep p d := by
  induction d with
  | nil => simp [set, keep, h]
  | cons item d ih =>
    obtain ⟨k, v⟩ := item
    by_cases hk : k = key
    · subst hk
      simp [keep, h]
    · unfold keep at ih ⊢
      rw [set_cons_ne hk, List.filter_cons, List.filter_cons, ih]

theorem get_keep {p : κ → Bool} {key : κ} (h : p key = true) (d : Dict κ ν) :
    get (keep p d) key = get d key := by
  induction d with
  | nil => rfl
  | cons item d ih =>
    obtain ⟨k, v⟩ := item
    unfold keep at ih ⊢
    rw [List.filter_cons]
    by_cases hk : k = key
    · subst hk
      simp [h]
    · split
      · rw [get_cons_ne hk, get_cons_ne hk, ih]
      · rw [get_cons_ne hk, ih]

theorem get_keep_none {p : κ → Bool} {key : κ} (h : p key = false) (d : Dict κ ν) :
    get (keep p d) key = none := by
  induction d with
  | nil => rfl
  | cons item d ih =>
    obtain ⟨k, v⟩ := item
    unfold keep at ih ⊢
    rw [List.filter_cons]
    split
    · rename_i hk
      have hne : k ≠ key := by
        rintro rfl
        exact absurd hk (by simp [h])
      rw [get_cons_ne hne, ih]
    · exact ih

theorem get_erase (key k : κ) (d : Dict κ ν) :
    get (erase key d) k = if k = key then none else get d k := by
  split_ifs with h
  · exact get_keep_none (by simp [h]) d
  · exact get_keep (by simp [h]) d

theorem get_set (key k : κ) (value : ν) (d : Dict κ ν) :
    get (set d key value) k = if k = key then some value else get d k := by
  split_ifs with h
  · rw [h, get_set_self]
  · exact get_set_ne (Ne.symm h) d value

/-- Every item whose key and value pass `p` gets the value `value`. -/
def hide (p : κ → ν → Bool) (value : ν) (d : Dict κ ν) : Dict κ ν :=
  d.map fun item => (item.1, if p item.1 item.2 then value else item.2)

omit [DecidableEq κ] in
theorem hide_cons (p : κ → ν → Bool) (value : ν) (item : κ × ν) (d : Dict κ ν) :
    hide p value (item :: d) =
      (item.1, if p item.1 item.2 then value else item.2) :: hide p value d := rfl

omit [DecidableEq κ] in
theorem keys_hide (p : κ → ν → Bool) (value : ν) (d : Dict κ ν) :
    (hide p value d).map Prod.fst = d.map Prod.fst := by
  simp [hide]

section Mask

variable (test : ν → Bool) (value : ν)

/-- `if d.get(key): d[key] = value`, for a test of one's own. -/
def maskKey (d : Dict κ ν) (key : κ) : Dict κ ν :=
  if (d.get key).any test then d.set key value else d

/-- `for key in keys: …` -/
def mask (keys : List κ) (d : Dict κ ν) : Dict κ ν := keys.foldl (maskKey test value) d

omit [DecidableEq κ] in
theorem hide_of_forall_not {p : κ → ν → Bool} {d : Dict κ ν}
    (h : ∀ item ∈ d, p item.1 item.2 = false) : hide p value d = d := by
  unfold hide
  conv_rhs => rw [← List.map_id d]
  apply List.map_congr_left
  intro item hitem
  simp [h item hitem]

/-- Of the items of a dictionary at most one has the key. -/
theorem maskKey_eq_hide (key : κ) :
    ∀ {d : Dict κ ν}, (d.map Prod.fst).Nodup →
      maskKey test value d key = hide (fun k v => decide (k = key) && test v) value d
  | [], _ => by simp [maskKey, get, hide]
  | (k, v) :: d, hnodup => by
    obtain ⟨hnotin, hnodup⟩ := List.nodup_cons.1 hnodup
    by_cases hk : k = key
    · subst hk
      have hrest : hide (fun k' v => decide (k' = k) && test v) value d = d := by
        apply hide_of_forall_not
        intro item hitem
        have hne : item.1 ≠ k := by
          intro h
          exact hnotin (List.mem_map.2 ⟨item, hitem, h⟩)
        simp [hne]
      rw [hide_cons, hrest]
      by_cases hv : test v <;> simp [maskKey, hv]
    · have ih := maskKey_eq_hide key hnodup
      rw [hide_cons, ← ih]
      by_cases hv : (get d key).any test <;> simp [maskKey, hk, hv]

/-- **The loop hides exactly the listed keys whose values pass the test.** -/
theorem mask_eq_hide :
    ∀ (keys : List κ) {d : Dict κ ν}, (d.map Prod.fst).Nodup →
      mask test value keys d = hide (fun k v => decide (k ∈ keys) && test v) value d
  | [], d, _ => by
    rw [hide_of_forall_not value (by simp)]
    rfl
  | key :: keys, d, hnodup => by
    have hstep := maskKey_eq_hide test value key hnodup
    have hnodup' : ((maskKey test value d key).map Prod.fst).Nodup := by
      rw [hstep, keys_hide]
      exact hnodup
    show mask test value keys (maskKey test value d key) = _
    rw [mask_eq_hide keys hnodup', hstep]
    simp only [hide, List.map_map]
    apply List.map_congr_left
    intro item _
    by_cases hk : item.1 = key <;> by_cases hv : test item.2 <;> simp [hk, hv]

/-- The same key, and the same value unless both are to be hidden. -/
def AlikeItem (keys : List κ) (i j : κ × ν) : Prop :=
  i.1 = j.1 ∧ (i.2 = j.2 ∨ i.1 ∈ keys ∧ test i.2 = true ∧ test j.2 = true)

/-- **Hidden values do not influence the mask.** -/
theorem mask_eq_of_alike {keys : List κ} {d d' : Dict κ ν} (hnodup : (d.map Prod.fst).Nodup)
    (h : List.Forall₂ (AlikeItem test keys) d d') :
    mask test value keys d = mask test value keys d' := by
  have hkeys : d.map Prod.fst = d'.map Prod.fst := by
    induction h with
    | nil => rfl
    | cons hitem _ ih => simp [hitem.1, ih (List.nodup_cons.1 hnodup).2]
  rw [mask_eq_hide test value keys hnodup, mask_eq_hide test value keys (hkeys ▸ hnodup)]
  clear hnodup hkeys
  induction h with
  | nil => rfl
  | @cons i j d d' hitem _ ih =>
    obtain ⟨hkey, hvalue⟩ := hitem
    rw [hide_cons, hide_cons, ih]
    rcases hvalue with hvalue | ⟨hmem, hi, hj⟩
    · rw [hkey, hvalue]
    · simp [← hkey, hmem, hi, hj]

end Mask

end Dict

end WlanpiCore
