import Mathlib.Tactic.SplitIfs

/-!
# Transition systems

A system takes the steps of a partial function: `step s a` is the state after the action `a`, where
`s` allows it. An action picks one of the steps that are possible in a state, so what holds of
every run holds of every interleaving.

`Run ok s t` is a run from `s` to `t` each of whose steps meets `ok`, a condition on the action and
the state before it. `Run.invariant` is the induction over runs, done once; `Reaches.of_exec` finds
the run of a given list of actions by computing it, and `Run.of_guarded` one that meets a condition.
-/

namespace WlanpiCore

section

variable {σ α : Type} (step : σ → α → Option σ)

/-- A run whose steps all meet `ok`. -/
inductive Run (ok : σ → α → Prop) : σ → σ → Prop where
  | refl (s : σ) : Run ok s s
  | tail {s t u : σ} {a : α} (h : Run ok s t) (hok : ok t a) (hstep : step t a = some u) :
    Run ok s u

/-- A run with no condition on its steps. -/
abbrev Reaches : σ → σ → Prop := Run step fun _ _ => True

/-- The state after a list of actions. -/
def exec (s : σ) : List α → Option σ
  | [] => some s
  | a :: as => (step s a).bind fun t => exec t as

variable {step}

/-- What holds at first and is kept by every step holds after every run. -/
theorem Run.invariant {ok : σ → α → Prop} {I : σ → Prop} {s t : σ} (h : Run step ok s t) (hs : I s)
    (hstep : ∀ s a t, I s → ok s a → step s a = some t → I t) : I t := by
  induction h with
  | refl => exact hs
  | tail _ hok hnext ih => exact hstep _ _ _ ih hok hnext

theorem Run.mono {ok ok' : σ → α → Prop} {s t : σ} (h : Run step ok s t)
    (hok : ∀ s a, ok s a → ok' s a) : Run step ok' s t := by
  induction h with
  | refl => exact .refl _
  | tail _ ha hstep ih => exact ih.tail (hok _ _ ha) hstep

theorem Run.trans {ok : σ → α → Prop} {s t u : σ} (h : Run step ok s t) (h' : Run step ok t u) :
    Run step ok s u := by
  induction h' with
  | refl => exact h
  | tail _ hok hnext ih => exact ih.tail hok hnext

/-- The run of a list of actions that are allowed wherever they are taken. -/
theorem Run.of_exec {ok : σ → α → Prop} {s t : σ} : ∀ {as : List α}, (∀ a ∈ as, ∀ u, ok u a) →
    exec step s as = some t → Run step ok s t := by
  intro as
  induction as generalizing s with
  | nil =>
    intro _ h
    cases h
    exact .refl _
  | cons a as ih =>
    intro hok h
    obtain ⟨u, hu, hexec⟩ := Option.bind_eq_some_iff.1 h
    exact Run.trans (.tail (.refl s) (hok a List.mem_cons_self s) hu)
      (ih (fun a ha => hok a (List.mem_cons_of_mem _ ha)) hexec)

theorem Reaches.of_exec {s t : σ} {as : List α} (h : exec step s as = some t) : Reaches step s t :=
  Run.of_exec (fun _ _ _ => trivial) h

variable (step) in
/-- `step` where `ok` allows it. -/
def guarded (ok : σ → α → Bool) (s : σ) (a : α) : Option σ := if ok s a then step s a else none

/-- A run of the allowed steps is a run whose steps are allowed. -/
theorem Run.of_guarded {ok : σ → α → Bool} {s t : σ} (h : Reaches (guarded step ok) s t) :
    Run step (fun s a => ok s a = true) s t := by
  induction h with
  | refl => exact .refl s
  | tail _ _ hstep ih =>
    unfold guarded at hstep
    split_ifs at hstep with hok
    exact ih.tail hok hstep

end

end WlanpiCore
