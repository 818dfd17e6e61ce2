import Mathlib.Algebra.Order.Ring.Int
import Mathlib.Data.List.Induction
import Mathlib.Data.List.Nodup

/-!
# The best of each key

A list of records is reduced to the best one of each key, as a loop over a dictionary does it that
replaces a record when a better one comes, and the rest is sorted by rank, the best first.

**Theorem (`isBest_keepBest`).** What is left has each key once, with the first record of maximal
rank for it, and it is ordered by falling rank, equal ranks in the order in which the keys came.
The dictionary keeps a key where it first stood, and the sort is stable.
-/

namespace WlanpiCore.KeepBest

open List

variable {α κ : Type}

/-! ## The best record of a key -/

section FirstBest

variable (key : α → κ) (rank : α → Int)

/-- `e` is the first of maximal rank among the records of `l` with its key. -/
def FirstBest (l : List α) (e : α) : Prop :=
  ∃ before after, l = before ++ e :: after ∧ (∀ a ∈ before, key a = key e → rank a < rank e) ∧
    ∀ a ∈ after, key a = key e → rank a ≤ rank e

variable {key rank}

theorem FirstBest.snoc {l : List α} {e a : α} (h : FirstBest key rank l e)
    (ha : key a = key e → rank a ≤ rank e) : FirstBest key rank (l ++ [a]) e := by
  obtain ⟨before, after, rfl, hbefore, hafter⟩ := h
  refine ⟨before, after ++ [a], by simp, hbefore, fun b hb => ?_⟩
  rcases mem_append.1 hb with hb | hb
  · exact hafter b hb
  · exact mem_singleton.1 hb ▸ ha

/-- A record that is better than the best one so far. -/
theorem FirstBest.replaced {l : List α} {e a : α} (h : FirstBest key rank l e)
    (hkey : key e = key a)
    (hrank : rank e < rank a) : FirstBest key rank (l ++ [a]) a := by
  obtain ⟨before, after, rfl, hbefore, hafter⟩ := h
  refine ⟨before ++ e :: after, [], rfl, fun b hb hb' => ?_, by simp⟩
  rcases mem_append.1 hb with hb | hb
  · exact (hbefore b hb (hb'.trans hkey.symm)).trans hrank
  · rcases mem_cons.1 hb with rfl | hb
    · exact hrank
    · exact (hafter b hb (hb'.trans hkey.symm)).trans_lt hrank

theorem FirstBest.new {l : List α} {a : α} (h : key a ∉ l.map key) :
    FirstBest key rank (l ++ [a]) a :=
  ⟨l, [], rfl, fun b hb hb' => absurd (hb' ▸ mem_map_of_mem hb) h, by simp⟩

end FirstBest

/-! ## The dictionary and the sort -/

variable [DecidableEq κ] (key : α → κ) (rank : α → Int)

/-- One turn of the loop: the dictionary in the order of its keys. -/
def insertBest (seen : List α) (a : α) : List α :=
  match seen.find? fun e => key e = key a with
  | none => seen ++ [a]
  | some existing =>
    if rank existing < rank a then seen.map fun e => if key e = key a then a else e else seen

def collect (l : List α) : List α := l.foldl (insertBest key rank) []

/-- `list.sort(key=rank, reverse=True)`: equal elements keep their order. -/
def sortByRank (l : List α) : List α := l.mergeSort fun a b => decide (rank b ≤ rank a)

def keepBest (l : List α) : List α := sortByRank rank (collect key rank l)

/-- Where a key first stands. -/
def sighting (l : List α) (e : α) : Nat := (l.map key).idxOf (key e)

/-- `r` is the best of each key of `l`, by falling rank and then in the order of first sighting. -/
structure IsBest (l r : List α) : Prop where
  nodup : (r.map key).Nodup
  keys : ∀ k, k ∈ r.map key ↔ k ∈ l.map key
  best : ∀ e ∈ r, FirstBest key rank l e
  ordered : r.Pairwise fun a b =>
    rank b < rank a ∨ rank a = rank b ∧ sighting key l a < sighting key l b

/-! ## The loop -/

/-- What the dictionary is after the records of `l`. -/
structure Collected (l seen : List α) : Prop where
  nodup : (seen.map key).Nodup
  keys : ∀ k, k ∈ seen.map key ↔ k ∈ l.map key
  best : ∀ e ∈ seen, FirstBest key rank l e
  ordered : seen.Pairwise fun a b => sighting key l a < sighting key l b

variable {key rank}

theorem sighting_snoc {l : List α} {a e : α} (h : key e ∈ l.map key) :
    sighting key (l ++ [a]) e = sighting key l e := by
  unfold sighting
  rw [map_append, idxOf_append_of_mem h]

theorem sighting_lt {l : List α} {e : α} (h : key e ∈ l.map key) : sighting key l e < l.length := by
  have hlt := idxOf_lt_length_of_mem h
  rwa [length_map] at hlt

theorem sighting_new {l : List α} {a : α} (h : key a ∉ l.map key) :
    sighting key (l ++ [a]) a = l.length := by
  unfold sighting
  rw [map_append, idxOf_append_of_notMem h, length_map]
  simp

/-- The records with a key that changes in place keep their keys. -/
theorem map_key_replace (seen : List α) (a : α) :
    (seen.map fun e => if key e = key a then a else e).map key = seen.map key := by
  rw [map_map]
  refine map_congr_left fun e _ => ?_
  by_cases h : key e = key a
  · simp [h]
  · simp [h]

theorem Collected.mem {l seen : List α} (h : Collected key rank l seen) {e : α} (he : e ∈ seen) :
    key e ∈ l.map key :=
  (h.keys _).1 (mem_map_of_mem he)

/-- One more record moves no first sighting. -/
theorem Collected.ordered_snoc {l seen : List α} (h : Collected key rank l seen) (a : α) :
    seen.Pairwise fun e b => sighting key (l ++ [a]) e < sighting key (l ++ [a]) b := by
  refine h.ordered.imp_of_mem fun he hb hlt => ?_
  rw [sighting_snoc (h.mem he), sighting_snoc (h.mem hb)]
  exact hlt

theorem Collected.extend {l seen : List α} (h : Collected key rank l seen) {a : α}
    (hnew : key a ∉ seen.map key) : Collected key rank (l ++ [a]) (seen ++ [a]) := by
  have hnew' : key a ∉ l.map key := mt (h.keys _).2 hnew
  refine ⟨?_, fun k => ?_, fun e he => ?_, ?_⟩
  · rw [map_append, nodup_append]
    refine ⟨h.nodup, nodup_singleton _, ?_⟩
    intro k hk k' hk' heq
    exact hnew (mem_singleton.1 hk' ▸ heq ▸ hk)
  · rw [map_append, map_append, mem_append, mem_append, h.keys]
  · rcases mem_append.1 he with he | he
    · refine (h.best e he).snoc fun hkey => ?_
      exact absurd (hkey ▸ mem_map_of_mem he) hnew
    · obtain rfl := mem_singleton.1 he
      exact .new hnew'
  · rw [pairwise_append]
    refine ⟨h.ordered_snoc a, pairwise_singleton _ _, fun e he b hb => ?_⟩
    obtain rfl := mem_singleton.1 hb
    rw [sighting_snoc (h.mem he), sighting_new hnew']
    exact sighting_lt (h.mem he)

section Known

variable {l seen : List α} {a existing : α}

theorem Collected.keys_known (h : Collected key rank l seen) (hin : existing ∈ seen)
    (hkey : key existing = key a) (k : κ) : k ∈ seen.map key ↔ k ∈ (l ++ [a]).map key := by
  rw [h.keys, map_append, mem_append]
  refine ⟨Or.inl, fun hk => hk.elim id fun hk => ?_⟩
  rw [mem_singleton.1 hk, ← hkey]
  exact h.mem hin

theorem Collected.replace (h : Collected key rank l seen) (hin : existing ∈ seen)
    (hkey : key existing = key a) (hrank : rank existing < rank a) :
    Collected key rank (l ++ [a]) (seen.map fun e => if key e = key a then a else e) := by
  refine ⟨?_, fun k => ?_, fun e he => ?_, ?_⟩
  · rw [map_key_replace]
    exact h.nodup
  · rw [map_key_replace, h.keys_known hin hkey]
  · obtain ⟨e₀, he₀, rfl⟩ := mem_map.1 he
    by_cases hkey' : key e₀ = key a
    · rw [if_pos hkey']
      exact (h.best existing hin).replaced hkey hrank
    · rw [if_neg hkey']
      exact (h.best e₀ he₀).snoc fun heq => absurd heq.symm hkey'
  · have hsame (e : α) : sighting key (l ++ [a]) (if key e = key a then a else e) =
        sighting key (l ++ [a]) e := by
      unfold sighting
      by_cases hkey' : key e = key a
      · rw [if_pos hkey', hkey']
      · rw [if_neg hkey']
    rw [pairwise_map]
    refine (h.ordered_snoc a).imp fun {e b} hlt => ?_
    rw [hsame, hsame]
    exact hlt

theorem Collected.keep (h : Collected key rank l seen) (hin : existing ∈ seen)
    (hkey : key existing = key a) (hrank : rank a ≤ rank existing) :
    Collected key rank (l ++ [a]) seen := by
  refine ⟨h.nodup, h.keys_known hin hkey, fun e he => (h.best e he).snoc fun heq => ?_,
    h.ordered_snoc a⟩
  -- The dictionary has the key once.
  have honly : e = existing := inj_on_of_nodup_map h.nodup he hin (heq.symm.trans hkey.symm)
  rw [honly]
  exact hrank

end Known

theorem Collected.step {l seen : List α} (h : Collected key rank l seen) (a : α) :
    Collected key rank (l ++ [a]) (insertBest key rank seen a) := by
  unfold insertBest
  cases hfind : seen.find? fun e => key e = key a with
  | none =>
    apply h.extend
    intro hin
    obtain ⟨e, he, hkey⟩ := mem_map.1 hin
    exact find?_eq_none.1 hfind e he (by simpa using hkey)
  | some existing =>
    have hin : existing ∈ seen := mem_of_find?_eq_some hfind
    have hkey : key existing = key a := by simpa using find?_some hfind
    by_cases hrank : rank existing < rank a
    · show Collected key rank (l ++ [a]) (if _ then _ else _)
      rw [if_pos hrank]
      exact h.replace hin hkey hrank
    · show Collected key rank (l ++ [a]) (if _ then _ else _)
      rw [if_neg hrank]
      exact h.keep hin hkey (not_lt.1 hrank)

theorem collected (l : List α) : Collected key rank l (collect key rank l) := by
  induction l using List.reverseRecOn with
  | nil => exact ⟨nodup_nil, fun k => Iff.rfl, fun e he => absurd he not_mem_nil, Pairwise.nil⟩
  | append_singleton l a ih =>
    unfold collect at ih ⊢
    rw [foldl_append]
    exact ih.step a

/-! ## The sort -/

section Order

variable {β : Type}

/-- Two elements of a list stand in one order or the other. -/
theorem pair_sublist_or {l : List β} {a b : β} (ha : a ∈ l) (hb : b ∈ l) (hne : a ≠ b) :
    [a, b] <+ l ∨ [b, a] <+ l := by
  induction l with
  | nil => cases ha
  | cons c l ih =>
    rcases mem_cons.1 ha with rfl | ha'
    · rcases mem_cons.1 hb with rfl | hb'
      · exact absurd rfl hne
      · exact .inl ((singleton_sublist.2 hb').cons_cons _)
    · rcases mem_cons.1 hb with rfl | hb'
      · exact .inr ((singleton_sublist.2 ha').cons_cons _)
      · exact (ih ha' hb').imp (·.cons c) (·.cons c)

/-- In a list without duplicates only in one. -/
theorem pair_sublist_asymm {l : List β} (hl : l.Nodup) {a b : β} (h : [a, b] <+ l) :
    ¬[b, a] <+ l := by
  induction l with
  | nil => cases h
  | cons c l ih =>
    obtain ⟨hc, hl⟩ := nodup_cons.1 hl
    intro h'
    cases h with
    | cons _ h =>
      cases h' with
      | cons _ h' => exact ih hl h h'
      | cons_cons _ h' => exact hc (h.subset (by simp))
    | cons_cons _ h =>
      cases h' with
      | cons _ h' => exact hc (h'.subset (by simp))
      | cons_cons _ h' => exact hc (singleton_sublist.1 h)

end Order

/-- **The loop and the sort leave the best of each key.** -/
theorem isBest_keepBest (l : List α) : IsBest key rank l (keepBest key rank l) := by
  have hcollected := @collected _ _ _ key rank l
  have hperm : keepBest key rank l ~ collect key rank l := mergeSort_perm _ _
  have hnodup : ((keepBest key rank l).map key).Nodup :=
    (hperm.map key).nodup_iff.2 hcollected.nodup
  refine ⟨hnodup, fun k => ?_, fun e he => hcollected.best e (hperm.mem_iff.1 he), ?_⟩
  · rw [(hperm.map key).mem_iff, hcollected.keys]
  · have htrans (a b c : α) : decide (rank b ≤ rank a) = true → decide (rank c ≤ rank b) = true →
        decide (rank c ≤ rank a) = true := by
      simp only [decide_eq_true_eq]
      omega
    have htotal (a b : α) : (decide (rank b ≤ rank a) || decide (rank a ≤ rank b)) = true := by
      simp only [Bool.or_eq_true, decide_eq_true_eq]
      omega
    have hsorted : (keepBest key rank l).Pairwise fun a b => decide (rank b ≤ rank a) = true :=
      pairwise_mergeSort htrans htotal _
    rw [pairwise_iff_forall_sublist] at hsorted ⊢
    intro a b hab
    have hle : rank b ≤ rank a := by simpa using hsorted hab
    by_cases heq : rank a = rank b
    · refine .inr ⟨heq, ?_⟩
      have ha : a ∈ collect key rank l := hperm.mem_iff.1 (hab.subset (by simp))
      have hb : b ∈ collect key rank l := hperm.mem_iff.1 (hab.subset (by simp))
      have hne : a ≠ b := by
        rintro rfl
        exact pair_sublist_asymm (Nodup.of_map key hnodup) hab hab
      -- Equal ranks stand as they stood before the sort.
      rcases pair_sublist_or ha hb hne with hbefore | hafter
      · exact pairwise_iff_forall_sublist.1 hcollected.ordered hbefore
      · have hstable : [b, a] <+ keepBest key rank l :=
          pair_sublist_mergeSort htrans htotal (by simpa using heq.le) hafter
        exact absurd hstable (pair_sublist_asymm (Nodup.of_map key hnodup) hab)
    · exact .inl (lt_of_le_of_ne hle fun h => heq h.symm)

end WlanpiCore.KeepBest
