import Mathlib.Data.List.Basic
import Mathlib.Data.List.Infix

/-!
# Byte strings

Searching a byte string for a pattern, cutting slices out of it, and reading fixed-width
integers in either byte order. A search that fails on a prefix of a stream has only to keep the
last `pat.length - 1` bytes of it: `find_append_of_none` says the search in the whole stream is
the search in what was kept.
-/

namespace WlanpiCore.Bytes

section Find

variable {α : Type*} [DecidableEq α]

/-- The first position at which `pat` occurs. -/
def find (pat : List α) : List α → Option Nat
  | [] => if pat = [] then some 0 else none
  | b :: bs => if pat <+: b :: bs then some 0 else (find pat bs).map (· + 1)

theorem find_zero {pat bs : List α} (h : pat <+: bs) : find pat bs = some 0 := by
  cases bs with
  | nil => simp [find, List.prefix_nil.1 h]
  | cons b bs => simp [find, h]

theorem prefix_drop_of_find {pat : List α} :
    ∀ {bs : List α} {n : Nat}, find pat bs = some n → pat <+: bs.drop n
  | [], n, h => by
    simp only [find, Option.ite_none_right_eq_some, Option.some.injEq] at h
    obtain ⟨rfl, rfl⟩ := h
    exact List.nil_prefix
  | b :: bs, n, h => by
    simp only [find] at h
    split_ifs at h with hp
    · obtain rfl := Option.some.inj h
      exact hp
    · obtain ⟨m, hm, rfl⟩ := Option.map_eq_some_iff.1 h
      simpa using prefix_drop_of_find hm

/-- A pattern found in a prefix of the stream is found at the same place in the stream. -/
theorem find_append {pat : List α} (cs : List α) :
    ∀ {bs : List α} {n : Nat}, find pat bs = some n → find pat (bs ++ cs) = some n
  | [], n, h => by
    simp only [find, Option.ite_none_right_eq_some, Option.some.injEq] at h
    obtain ⟨rfl, rfl⟩ := h
    exact find_zero List.nil_prefix
  | b :: bs, n, h => by
    simp only [find] at h
    split_ifs at h with hp
    · obtain rfl := Option.some.inj h
      exact find_zero (hp.trans (List.prefix_append _ _))
    · obtain ⟨m, hm, rfl⟩ := Option.map_eq_some_iff.1 h
      have hlen : pat.length ≤ (b :: bs).length := by
        have := (prefix_drop_of_find hm).length_le
        simp only [List.length_drop, List.length_cons] at this ⊢
        omega
      have hp' : ¬ pat <+: b :: (bs ++ cs) := fun hpre => hp
        (List.prefix_of_prefix_length_le hpre (List.prefix_append (b :: bs) cs) hlen)
      simp [find, hp', find_append cs hm]

/-- After a failed search only the last `pat.length - 1` bytes can still matter. -/
theorem find_append_of_none {pat : List α} (cs : List α) :
    ∀ {bs : List α}, find pat bs = none →
      find pat (bs ++ cs) = (find pat (bs.drop (bs.length - (pat.length - 1)) ++ cs)).map
        (· + (bs.length - (pat.length - 1)))
  | [], _ => by simp
  | b :: bs, h => by
    simp only [find] at h
    split_ifs at h with hp
    have hbs : find pat bs = none := by simpa using h
    by_cases hlen : bs.length + 1 ≤ pat.length - 1
    · simp [Nat.sub_eq_zero_of_le hlen]
    · have hp' : ¬ pat <+: b :: (bs ++ cs) := fun hpre => hp
        (List.prefix_of_prefix_length_le hpre (List.prefix_append (b :: bs) cs)
          (by simp only [List.length_cons]; omega))
      have hsub : (b :: bs).length - (pat.length - 1) =
          bs.length - (pat.length - 1) + 1 := by
        simp only [List.length_cons]; omega
      rw [hsub, List.drop_succ_cons, List.cons_append]
      simp only [find, hp', if_false]
      rw [find_append_of_none cs hbs, Option.map_map]
      rfl

end Find

/-! ## Slices and integers -/

/-- `xs[i:j]`, clamped to the length as Python slices are. -/
def slice {α : Type*} (xs : List α) (i j : Nat) : List α := (xs.drop i).take (j - i)

theorem slice_append {α : Type*} {xs ys : List α} {i j : Nat} (h : j ≤ xs.length) :
    slice (xs ++ ys) i j = slice xs i j := by
  unfold slice
  by_cases hij : j ≤ i
  · simp [Nat.sub_eq_zero_of_le hij]
  · rw [List.drop_append_of_le_length (by omega),
      List.take_append_of_le_length (by simp only [List.length_drop]; omega)]

inductive Endian where
  | little
  | big
  deriving DecidableEq, Repr

/-- `int.from_bytes(bs, endian)`. -/
def fromBytes : Endian → List UInt8 → Nat
  | .little, bs => bs.foldr (fun b n => b.toNat + 256 * n) 0
  | .big, bs => bs.foldl (fun n b => 256 * n + b.toNat) 0

example : fromBytes .little [1, 2, 0, 0] = 513 ∧ fromBytes .big [0, 0, 1, 2] = 258 := by decide

end WlanpiCore.Bytes
