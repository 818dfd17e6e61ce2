import WlanpiCore.Config.Readers

/-!
# What the parts of an operation do

One specification for each part of activation and teardown: the calls it makes, what it leaves of
the store, and where its exceptions come from. The operations' own theorems are put together from
these and never look inside a part again.

`appliedEntries` replays the log of calls: the entries whose activation the service answered with
`connected` or `provisioned`.
-/

namespace WlanpiCore

open Prog

variable (E : Env)

/-- The service raised this exception at one of its calls. -/
def ServiceRaises (e : Exc) : Prop := ∃ c n, E.service c n = .error e

/-- The calls made since. -/
def World.callsSince (w w' : World) : List Call := w'.trace.drop w.trace.length

/-- A radio was touched on the way. -/
def Touched (w w' : World) : Prop := ∃ c ∈ w.callsSince w', c.touches = true

instance (w w' : World) : Decidable (Touched w w') := by unfold Touched; infer_instance

/-- An entry whose activation was answered with `connected` or `provisioned`. -/
def appliedBy (before : List Call) : Call → List Entry
  | .activateConfig e =>
    match E.service (.activateConfig e) (before.count (.activateConfig e)) with
    | .ok result => if isApplied result then [e] else []
    | .error _ => []
  | _ => []

/-- The entries applied by `calls`, made after `before`. -/
def appliedEntries : List Call → List Call → List Entry
  | _, [] => []
  | before, c :: calls => appliedBy E before c ++ appliedEntries (before ++ [c]) calls

/-- After the last activation, deactivation was attempted for every entry that was applied. -/
def RolledBack (before calls : List Call) : Prop :=
  ∃ up down, calls = up ++ down ∧ (∀ e, .activateConfig e ∉ down) ∧
    ∀ e ∈ appliedEntries E before calls, .deactivateConfig e ∈ down

variable {E}

theorem World.callsSince_append {w w' : World} {calls : List Call}
    (h : w'.trace = w.trace ++ calls) :
    w.callsSince w' = calls := by
  rw [World.callsSince, h, List.drop_left]

/-- A call that touches a radio is not answered anew by calls that touch none. -/
theorem Untouched.count {w w' : World} (h : Untouched w w') {c : Call} (hc : c.touches = true) :
    w'.trace.count c = w.trace.count c := by
  obtain ⟨calls, htrace, hcalls⟩ := h
  have hzero : calls.count c = 0 := by
    rw [List.count_eq_zero]
    intro hmem
    rw [hcalls c hmem] at hc
    cases hc
  rw [htrace, List.count_append, hzero, Nat.add_zero]

theorem appliedEntries_append (before : List Call) :
    ∀ calls calls', appliedEntries E before (calls ++ calls') =
      appliedEntries E before calls ++ appliedEntries E (before ++ calls) calls' := by
  intro calls
  induction calls generalizing before with
  | nil => intro calls'; simp [appliedEntries]
  | cons c calls ih =>
    intro calls'
    rw [List.cons_append, appliedEntries, appliedEntries, ih, List.append_assoc]
    simp

theorem appliedEntries_eq_nil {calls : List Call} (h : ∀ e, .activateConfig e ∉ calls) :
    ∀ before, appliedEntries E before calls = [] := by
  induction calls with
  | nil => exact fun _ => rfl
  | cons c calls ih =>
    intro before
    have hc : appliedBy E before c = [] := by
      cases c with
      | activateConfig e => exact absurd List.mem_cons_self (h e)
      | _ => rfl
    rw [appliedEntries, hc, ih fun e he => h e (List.mem_cons_of_mem _ he)]
    rfl

/-- Calls that activated nothing can come before. -/
theorem RolledBack.after {before calls calls' : List Call} (h : ∀ e, .activateConfig e ∉ calls)
    (hrolled : RolledBack E (before ++ calls) calls') : RolledBack E before (calls ++ calls') := by
  obtain ⟨up, down, rfl, hdown, hall⟩ := hrolled
  refine ⟨calls ++ up, down, by rw [List.append_assoc], hdown, fun e he => hall e ?_⟩
  rwa [appliedEntries_append, appliedEntries_eq_nil h, List.nil_append] at he

theorem Untouched.not_activated {w w' : World} (h : Untouched w w') :
    ∃ calls, w'.trace = w.trace ++ calls ∧ ∀ e, .activateConfig e ∉ calls := by
  obtain ⟨calls, htrace, hcalls⟩ := h
  refine ⟨calls, htrace, fun e he => ?_⟩
  have := hcalls _ he
  cases this

/-! ## The lock -/

/-- An operation under `network_change_lock` that finds the lock free runs its body with the lock
held. -/
theorem networkChangeLock_ends {α : Type} {body : Store α} {w : World}
    {Q : Except Exc α → World → Prop}
    (hbusy : w.locked = true → ∀ msg, Q (.error (.configBusy msg)) w)
    (hbody : w.locked = false → Ends body { w with locked := true } fun r w' =>
      Q r { w' with locked := false }) : Ends (networkChangeLock body) w Q := by
  unfold networkChangeLock
  rw [ends_bind, ends_get]
  dsimp only
  split_ifs with hlock
  · exact hbusy hlock _
  · rw [ends_ensuring, ends_bind, ends_update]
    refine (hbody (by simpa using hlock)).mono fun r w' hr => ?_
    exact hr

theorem networkChangeLock_free {α : Type} {body : Store α} {w w' : World} {r : Except Exc α}
    (hlock : w.locked = false) (hbody : body { w with locked := true } = (r, w')) :
    networkChangeLock body w = (r, { w' with locked := false }) := by
  have hends : Ends (networkChangeLock body) w fun r' w'' =>
    (r', w'') = (r, { w' with locked := false }) := by
    refine networkChangeLock_ends (fun h => absurd (hlock.symm.trans h) (by decide)) fun _ => ?_
    rw [Ends, hbody]
  exact hends

theorem networkChangeLock_world {α : Type} (body : Store α) {w : World} (hlock : w.locked = false) :
    (networkChangeLock body w).2 = { (body { w with locked := true }).2 with locked := false } := by
  rcases hbody : body { w with locked := true } with ⟨r, w'⟩
  rw [networkChangeLock_free hlock hbody]

variable (E)

/-! ## Deactivating a list of entries -/

/-- Best-effort deactivation calls the service for every entry, whatever it raises. -/
theorem deactivateQuietly_eq : ∀ (entries : List Entry) (w : World),
    forEachQuietly (fun e => call E (.deactivateConfig e)) entries w =
      (.ok (), { w with trace := w.trace ++ entries.map .deactivateConfig })
  | [], w => by simp [forEachQuietly, pure]
  | e :: entries, w => by
    have hquiet : attempt (call E (.deactivateConfig e)) (fun _ => pure ()) w =
        (.ok (), { w with trace := w.trace ++ [.deactivateConfig e] }) := by
      rcases hcall : E.service (.deactivateConfig e) (w.trace.count (.deactivateConfig e))
        with err | u
      · exact (attempt_error (e := err) (by simp only [call, hcall])).trans rfl
      · exact attempt_ok (by simp only [call, hcall])
    refine (bind_ok hquiet).trans ((deactivateQuietly_eq entries _).trans ?_)
    simp

/-! ## Validating and applying entries -/

theorem notCoreManaged_ends (only : Bool) (entry : Entry) (w : World) :
    Ends (notCoreManaged E only entry) w fun r w' =>
      Called w w' ∧ (∀ e, r = .error e → ServiceRaises E e) ∧
        (r = .ok true → w'.trace = w.trace ++ [.isCoreManaged entry] ∧
          E.service (.isCoreManaged entry) (w.trace.count (.isCoreManaged entry)) = .ok false) := by
  cases only with
  | false => exact ⟨.refl w, by rintro e ⟨⟩, by rintro ⟨⟩⟩
  | true =>
    change Ends (call E (.isCoreManaged entry) >>= fun b => pure !b) w _
    rw [ends_bind, ends_call]
    cases hcall : E.service (.isCoreManaged entry) _ with
    | error e =>
      refine ⟨.call rfl, ?_, by rintro ⟨⟩⟩
      rintro _ ⟨⟩
      exact ⟨_, _, hcall⟩
    | ok b =>
      refine ⟨.call rfl, by rintro e ⟨⟩, fun h => ⟨rfl, ?_⟩⟩
      cases b with
      | false => rfl
      | true => cases h

/-- Validation touches no radio, and every outcome it answers is an error. -/
theorem invalidEntries_ends (only : Bool) : ∀ (entries : List Entry) (w : World),
    Ends (invalidEntries E only entries) w fun r w' =>
      Called w w' ∧ (∀ e, r = .error e → ServiceRaises E e) ∧
        ∀ outcomes, r = .ok outcomes → ∀ o ∈ outcomes, o.status = "error"
  | [], w => ⟨.refl w, by rintro e ⟨⟩, by rintro _ ⟨⟩ o ho; cases ho⟩
  | entry :: entries, w => by
    unfold invalidEntries
    rw [ends_bind]
    refine (notCoreManaged_ends E only entry w).mono fun r w₁ ⟨hcalled, hraise, _⟩ => ?_
    cases r with
    | error e =>
      refine ⟨hcalled, ?_, by rintro _ ⟨⟩⟩
      rintro _ ⟨⟩
      exact hraise _ rfl
    | ok skip =>
      dsimp only
      cases skip with
      | true =>
        refine (invalidEntries_ends only entries w₁).mono fun r w₂ ⟨hcalled', h⟩ => ?_
        exact ⟨hcalled.trans hcalled', h⟩
      | false =>
        simp only [Bool.false_eq_true, if_false]
        rw [ends_bind, ends_call]
        have hcall : Called w₁ { w₁ with trace := w₁.trace ++ [.validateConfig entry] } :=
          .call rfl
        cases hreply : E.service (.validateConfig entry) (w₁.trace.count (.validateConfig entry))
          with
        | error e =>
          refine ⟨hcalled.trans hcall, ?_, by rintro _ ⟨⟩⟩
          rintro _ ⟨⟩
          exact ⟨_, _, hreply⟩
        | ok reply =>
          dsimp only
          rw [ends_bind]
          refine (invalidEntries_ends only entries _).mono fun r w₂ ⟨hcalled', hraise', hall⟩ => ?_
          cases r with
          | error e =>
            refine ⟨hcalled.trans (hcall.trans hcalled'), ?_, by rintro _ ⟨⟩⟩
            rintro _ ⟨⟩
            exact hraise' _ rfl
          | ok outcomes =>
            dsimp only
            split_ifs
            · exact ⟨hcalled.trans (hcall.trans hcalled'), by rintro _ ⟨⟩, hall⟩
            · refine ⟨hcalled.trans (hcall.trans hcalled'), by rintro _ ⟨⟩, ?_⟩
              rintro _ ⟨⟩ o ho
              rcases List.mem_cons.1 ho with rfl | ho
              · rfl
              · exact hall _ rfl o ho

/-- The `n`th call of a kind is one of those made after `before` and up to `after`. -/
def MadeBetween (before after : List Call) (c : Call) (n : Nat) : Prop :=
  before.count c ≤ n ∧ n < after.count c

/-- An outcome is what the service answered about its entry, at a call made after `before` and up to
`after`. -/
inductive Answered (before after : List Call) (entry : Entry) : AdapterOutcome → Prop where
  | skipped (n : Nat) (hn : MadeBetween before after (.isCoreManaged entry) n)
      (h : E.service (.isCoreManaged entry) n = .ok false) :
    Answered before after entry
      { interface := entry.base.interface.val, netns := entry.netns, status := "skipped",
        detail := "Not created by Core; left alone", invalid := false }
  | activated (n : Nat) (hn : MadeBetween before after (.activateConfig entry) n)
      (result : Option SetupStatus) (h : E.service (.activateConfig entry) n = .ok result) :
    Answered before after entry
      { interface := entry.base.interface.val, netns := entry.netns,
        status := result.elim "error" SetupStatus.status,
        detail := result.elim "" SetupStatus.selectErr,
        invalid := result.elim "error" SetupStatus.status == "error" &&
          "Config validation failed".isPrefixOf (result.elim "" SetupStatus.selectErr) }

theorem MadeBetween.last {before after : List Call} {c : Call} (h : before ++ [c] <+: after) :
    MadeBetween before after c (before.count c) := by
  have hle := h.sublist.count_le c
  rw [List.count_append, List.count_singleton_self] at hle
  exact ⟨le_rfl, hle⟩

theorem MadeBetween.mono {before before' after after' : List Call} {c : Call} {n : Nat}
    (h : MadeBetween before after c n) (hbefore : before' <+: before) (hafter : after <+: after') :
    MadeBetween before' after' c n :=
  ⟨(hbefore.sublist.count_le c).trans h.1, h.2.trans_le (hafter.sublist.count_le c)⟩

variable {E} in
theorem Answered.mono {before before' after after' : List Call} {entry : Entry}
    {o : AdapterOutcome} (h : Answered E before after entry o) (hbefore : before' <+: before)
    (hafter : after <+: after') : Answered E before' after' entry o := by
  cases h with
  | skipped n hn h => exact .skipped n (hn.mono hbefore hafter) h
  | activated n hn result h => exact .activated n (hn.mono hbefore hafter) result h

variable {E} in
theorem forall₂_answered_mono {before before' after after' : List Call} {entries : List Entry}
    {outcomes : List AdapterOutcome}
    (h : List.Forall₂ (Answered E before after) entries outcomes) (hbefore : before' <+: before)
    (hafter : after <+: after') : List.Forall₂ (Answered E before' after') entries outcomes :=
  h.imp fun _ _ h => h.mono hbefore hafter

theorem appliedBy_activate {before : List Call} {entry : Entry} {result : Option SetupStatus}
    (h : E.service (.activateConfig entry) (before.count (.activateConfig entry)) = .ok result) :
    appliedBy E before (.activateConfig entry) = if isApplied result then [entry] else [] := by
  simp only [appliedBy, h]

/-- `_apply_entries` answers one outcome for each entry, unless the service raises, and its list of
activated entries is what the log of calls says was applied. -/
theorem applyEntries_ends (only : Bool) : ∀ (entries : List Entry) (outcomes : List AdapterOutcome)
    (activated : List Entry) (w : World),
    Ends (applyEntries E only entries outcomes activated) w fun r w' =>
      ∃ res calls, r = .ok (res, activated ++ appliedEntries E w.trace calls) ∧
        w'.trace = w.trace ++ calls ∧ Traced w w' ∧
        (∀ e, res = .error e → ServiceRaises E e) ∧
        ∀ outcomes', res = .ok outcomes' →
          ∃ new, outcomes' = outcomes ++ new ∧
            List.Forall₂ (Answered E w.trace w'.trace) entries new
  | [], outcomes, activated, w =>
    ⟨.ok outcomes, [], by
      simp only [appliedEntries, List.append_nil]; rfl, (List.append_nil _).symm,
      rfl, by rintro e ⟨⟩, by rintro _ ⟨⟩; exact ⟨[], by simp, .nil⟩⟩
  | entry :: entries, outcomes, activated, w => by
    unfold applyEntries
    rw [ends_bind, ends_observe]
    refine (notCoreManaged_ends E only entry w).mono fun r w₁ ⟨hcalled, hraise, hskip⟩ => ?_
    obtain ⟨calls, htrace, hcalls⟩ := hcalled.untouched.not_activated
    have hnone := appliedEntries_eq_nil (E := E) hcalls w.trace
    cases r with
    | error e =>
      refine ⟨.error e, calls, by rw [hnone, List.append_nil]; rfl, htrace, hcalled.traced, ?_,
        by rintro _ ⟨⟩⟩
      rintro _ ⟨⟩
      exact hraise _ rfl
    | ok skip =>
      cases skip with
      | true =>
        refine (applyEntries_ends only entries _ activated w₁).mono
          fun r w₂ ⟨res, calls', hr, htrace', htraced, hraise', hanswered⟩ => ?_
        refine ⟨res, calls ++ calls', ?_, by rw [htrace', htrace, List.append_assoc],
          hcalled.traced.trans htraced, hraise', fun outcomes' hout => ?_⟩
        · rw [hr, appliedEntries_append, hnone, List.nil_append, htrace]
        · obtain ⟨new, rfl, hnew⟩ := hanswered _ hout
          obtain ⟨hlog, hreply⟩ := hskip rfl
          have hlater : w₁.trace <+: w₂.trace := ⟨calls', htrace'.symm⟩
          exact ⟨_ :: new, List.append_assoc _ _ _,
            .cons (.skipped _ (.last (hlog ▸ hlater)) hreply)
              (forall₂_answered_mono hnew ⟨calls, htrace.symm⟩ List.prefix_rfl)⟩
      | false =>
        dsimp only
        rw [ends_bind, ends_observe, ends_call]
        have hactivate : Traced w₁ { w₁ with trace := w₁.trace ++ [.activateConfig entry] } := rfl
        have hlog : w.trace ++ (calls ++ [.activateConfig entry]) =
            w₁.trace ++ [.activateConfig entry] := by rw [htrace, List.append_assoc]
        have happlied : appliedEntries E w.trace (calls ++ [.activateConfig entry]) =
            appliedBy E w₁.trace (.activateConfig entry) := by
          rw [appliedEntries_append, hnone, htrace]
          simp [appliedEntries]
        cases hreply : E.service (.activateConfig entry)
            (w₁.trace.count (.activateConfig entry)) with
        | error e =>
          have hby : appliedBy E w₁.trace (.activateConfig entry) = [] := by
            simp only [appliedBy, hreply]
          refine ⟨.error e, calls ++ [.activateConfig entry], ?_, hlog.symm,
            hcalled.traced.trans hactivate, ?_, by rintro _ ⟨⟩⟩
          · rw [happlied, hby, List.append_nil]
            rfl
          · rintro _ ⟨⟩
            exact ⟨_, _, hreply⟩
        | ok result =>
          have hby := appliedBy_activate E hreply
          refine (applyEntries_ends only entries _ _ _).mono
            fun r w₂ ⟨res, calls', hr, htrace', htraced, hraise', hanswered⟩ => ?_
          refine ⟨res, calls ++ [.activateConfig entry] ++ calls', ?_, ?_,
            hcalled.traced.trans (hactivate.trans htraced), hraise', fun outcomes' hout => ?_⟩
          · rw [hr, appliedEntries_append, happlied, hby, hlog]
            split_ifs <;> simp
          · rw [htrace', ← hlog, List.append_assoc]
          · obtain ⟨new, rfl, hnew⟩ := hanswered _ hout
            have hbefore : w.trace <+: w₁.trace := ⟨calls, htrace.symm⟩
            have hlater : w₁.trace ++ [.activateConfig entry] <+: w₂.trace := ⟨calls', htrace'.symm⟩
            have hmade := (MadeBetween.last hlater).mono hbefore List.prefix_rfl
            exact ⟨_ :: new, List.append_assoc _ _ _, .cons (.activated _ hmade result hreply)
              (forall₂_answered_mono hnew (hbefore.trans (List.prefix_append _ _))
                List.prefix_rfl)⟩

/-! ## Recording a profile -/

theorem World.names_setCurrent (w : World) (path : ConfigId) :
    (w.setCurrent path.val).Names path.val := by
  simp only [World.Names, World.currentText, World.setCurrent, Option.bind_some,
    path.readText_encode, Option.map_some, path.strip]

/-- The end of an activation: every outcome is what the service answered, and the profile is
recorded and every outcome is acceptable, or `default` is recorded and what was applied was rolled
back. -/
theorem applyOrRollback_ends (path : ConfigId) (cfg : NetConfig) (w : World) :
    Ends (applyOrRollback E path.val cfg) w fun r w' =>
      ∃ calls, w'.trace = w.trace ++ calls ∧
        (∀ applied outcomes, r = .ok (applied, outcomes) →
          List.Forall₂ (Answered E w.trace w'.trace) cfg.entries outcomes) ∧
        (∀ outcomes, r = .ok (true, outcomes) → w'.Names path.val ∧
          ∀ o ∈ outcomes, acceptable o = true) ∧
        (∀ outcomes, r = .ok (false, outcomes) → w'.Names defaultId.val ∧
          (∃ o ∈ outcomes, acceptable o = false) ∧ RolledBack E w.trace calls) ∧
        ∀ e, r = .error e → w'.Names defaultId.val ∧ ServiceRaises E e ∧
          RolledBack E w.trace calls := by
  unfold applyOrRollback
  rw [ends_bind]
  refine (applyEntries_ends E _ cfg.entries [] [] w).mono
    fun r w₁ ⟨res, calls, hr, htrace, htraced, hraise, hanswered⟩ => ?_
  rw [hr, List.nil_append]
  -- Rolling back calls the service once for each entry that was applied.
  set down := (appliedEntries E w.trace calls).map Call.deactivateConfig with hdown
  have hrolled : RolledBack E w.trace (calls ++ down) := by
    have hnone : ∀ e, Call.activateConfig e ∉ down := by simp [hdown]
    refine ⟨calls, down, rfl, hnone, fun e he => ?_⟩
    rw [appliedEntries_append, appliedEntries_eq_nil hnone, List.append_nil] at he
    exact List.mem_map_of_mem he
  have hdowntrace : w₁.trace ++ down = w.trace ++ (calls ++ down) := by
    rw [htrace, List.append_assoc]
  dsimp only
  cases res with
  | error e =>
    dsimp only
    rw [ends_bind]
    unfold rollbackActivatedConfigs
    simp only [Ends, deactivateQuietly_eq]
    refine ⟨calls ++ down, hdowntrace, by rintro _ _ ⟨⟩, by rintro _ ⟨⟩, by rintro _ ⟨⟩, ?_⟩
    rintro _ ⟨⟩
    exact ⟨World.names_setCurrent _ _, hraise _ rfl, hrolled⟩
  | ok outcomes =>
    obtain ⟨new, hnew, hforall⟩ := hanswered _ rfl
    obtain rfl : outcomes = new := by simpa using hnew
    dsimp only
    split_ifs with hall
    · refine ⟨calls, htrace, ?_, ?_, by rintro _ ⟨⟩, by rintro _ ⟨⟩⟩
      · rintro _ _ ⟨⟩
        exact hforall
      · rintro _ ⟨⟩
        exact ⟨World.names_setCurrent _ _, by simpa using hall⟩
    · rw [ends_bind]
      unfold rollbackActivatedConfigs
      simp only [Ends, deactivateQuietly_eq]
      refine ⟨calls ++ down, hdowntrace, ?_, by rintro _ ⟨⟩, ?_, by rintro _ ⟨⟩⟩
      · rintro _ _ ⟨⟩
        exact forall₂_answered_mono hforall List.prefix_rfl (List.prefix_append _ _)
      · rintro _ ⟨⟩
        exact ⟨World.names_setCurrent _ _, by simpa using hall, hrolled⟩

/-! ## Tearing a profile down -/

/-- An exception of `get_config` that `_teardown_profile` handles. -/
inductive Exc.TeardownHandled : Exc → Prop where
  | handled {e : Exc} (h : e.Handled) : TeardownHandled e
  | validation (msg : String) (status : Nat) : TeardownHandled (.validation msg status)

/-- Unless the profile's file stops it, a teardown deactivates its entries and ends with the
answer of the service to `revert_to_root(None)`. -/
theorem teardownProfile_cases (cfgId : Text) (w : World) :
    (∃ e w₁, getConfig E cfgId w = (.error e, w₁) ∧ ¬e.TeardownHandled ∧
      teardownProfile E cfgId w = (.error e, w₁)) ∨
    ∃ (w₁ : World) (entries : List Entry), getConfig E cfgId w = ((getConfig E cfgId w).1, w₁) ∧
      (∀ e, (getConfig E cfgId w).1 = .error e → e.TeardownHandled) ∧
      teardownProfile E cfgId w =
        (E.service .revertToRoot (w.trace.count .revertToRoot),
          { w₁ with trace := w₁.trace ++ (entries.map .deactivateConfig ++ [.revertToRoot]) }) := by
  have hregen := getConfig_regenerated E cfgId w
  unfold Ends at hregen
  -- What follows the reading of the profile.
  have hrest (w₁ : World) (hw₁ : Regenerated E w w₁) (entries : List Entry) :
      (do forEachQuietly (fun e => call E (.deactivateConfig e)) entries
          call E .revertToRoot : Store Unit) w₁ =
        (E.service .revertToRoot (w.trace.count .revertToRoot),
          { w₁ with trace := w₁.trace ++ (entries.map .deactivateConfig ++ [.revertToRoot]) }) := by
    refine (bind_ok (deactivateQuietly_eq E entries w₁)).trans ?_
    have hcount : (w₁.trace ++ entries.map Call.deactivateConfig).count .revertToRoot =
        w.trace.count .revertToRoot := by
      have hzero : (entries.map Call.deactivateConfig).count .revertToRoot = 0 := by
        rw [List.count_eq_zero]
        simp
      rw [List.count_append, hw₁.untouched.count rfl, hzero, Nat.add_zero]
    simp only [call, hcount, List.append_assoc]
  unfold teardownProfile
  rcases hload : getConfig E cfgId w with ⟨r, w₁⟩
  rw [hload] at hregen
  cases r with
  | ok cfg =>
    refine Or.inr ⟨w₁, cfg.entries, rfl, by rintro e ⟨⟩, ?_⟩
    have hsome : (some <$> getConfig E cfgId) w = (.ok (some cfg), w₁) := bind_ok hload
    exact (bind_ok (attempt_ok hsome)).trans (hrest w₁ hregen cfg.entries)
  | error e =>
    have hsome : (some <$> getConfig E cfgId) w = (.error e, w₁) := bind_error hload
    by_cases he : e.TeardownHandled
    · refine Or.inr ⟨w₁, [], rfl, by rintro _ ⟨⟩; exact he, ?_⟩
      refine (@bind_ok _ _ _ _ _ _ _ w₁ none ?_).trans (hrest w₁ hregen [])
      refine (attempt_error hsome).trans ?_
      rcases he with ⟨⟨⟩⟩ | _ <;> rfl
    · refine Or.inl ⟨e, w₁, rfl, he, bind_error ((attempt_error hsome).trans ?_)⟩
      cases e with
      | fileNotFound msg => exact absurd (.handled (.fileNotFound msg)) he
      | configMalformed msg cfgId => exact absurd (.handled (.configMalformed msg cfgId)) he
      | validation msg status => exact absurd (.validation msg status) he
      | _ => rfl

/-! ## The profile in force -/

/-- `current.txt` holds nothing usable: it is blank, or names a profile that is missing or
malformed. -/
inductive Unusable (w : World) : Prop where
  | blank (h : w.Names [])
  | named (path : ConfigId) (hname : w.Names path.val) (hne : path ≠ defaultId)
      (hfile : w.files path = none ∨ Malformed E w path)

/-- What activation takes for the profile in force, and what it does to `current.txt`. -/
inductive ActiveReading (w : World) : Except Exc Text × World → Prop where
  | absent (h : w.current = none) : ActiveReading w (.ok defaultId.val, w)
  | named (content : Text) (cfg : NetConfig) (w' : World) (hname : w.Names content)
      (hload : getConfig E content w = (.ok cfg, w')) : ActiveReading w (.ok content, w')
  | reset (h : Unusable E w) : ActiveReading w (.ok defaultId.val, w.setCurrent defaultId.val)
  | escaped (e : Exc) (he : ¬e.Handled) (h : getCurrentConfig E w = (.error e, w)) :
    ActiveReading w (.error e, w)

theorem activeOrDefault_reading (w : World) : ActiveReading E w (activeOrDefault E w) := by
  have hread := getCurrentConfig_reading E w
  rcases hcurrent : getCurrentConfig E w with ⟨r, w'⟩
  rw [hcurrent] at hread
  unfold activeOrDefault
  cases hread with
  | absent msg h =>
    rw [attempt_error hcurrent]
    exact .absent h
  | named content cfg w' hname hload =>
    rw [attempt_ok hcurrent]
    exact .named content cfg w' hname hload
  | blank msg h =>
    rw [attempt_error hcurrent]
    exact .reset (.blank h)
  | unusable msg path hname hne hfile =>
    rw [attempt_error hcurrent]
    exact .reset (.named path hname hne hfile)
  | undecodable bytes h htext =>
    rw [attempt_error hcurrent]
    exact .escaped _ (by rintro ⟨⟩) hcurrent
  | noId content e hname hblank h =>
    obtain ⟨msg, rfl⟩ := configPath_error h
    rw [attempt_error hcurrent]
    exact .escaped _ (by rintro ⟨⟩) hcurrent
  | stray path bytes e hname hfile hparse he =>
    rw [attempt_error hcurrent]
    cases he <;> exact .escaped _ (by rintro ⟨⟩) hcurrent

theorem ActiveReading.regenerated {w : World} {active : Text} {w' : World}
    (h : ActiveReading E w (.ok active, w')) : Regenerated E w w' ∨
      w' = w.setCurrent defaultId.val := by
  cases h with
  | absent h => exact Or.inl (.refl w)
  | named content cfg w' hname hload =>
    have hregen := getConfig_regenerated E active w
    rw [Ends, hload] at hregen
    exact Or.inl hregen
  | reset h => exact Or.inr rfl

theorem refusal_active {cfgId active : Text} {overrideActive : Bool} {e : Exc}
    (h : refusal cfgId active overrideActive = some e) : ∃ msg, e = .configActive msg := by
  unfold refusal at h
  split_ifs at h <;> cases h <;> exact ⟨_, rfl⟩

/-- How an activation starts: the profile is read, then the one in force, and then the activation
is refused or goes on. -/
theorem beginActivation_cases (cfgId : Text) (overrideActive : Bool) (w : World) :
    (∃ e w₀, getConfig E cfgId w = (.error e, w₀) ∧
      beginActivation E cfgId overrideActive w = (.error e, w₀)) ∨
    ∃ cfg w₀, getConfig E cfgId w = (.ok cfg, w₀) ∧
      ((∃ e w₁, activeOrDefault E w₀ = (.error e, w₁) ∧
          beginActivation E cfgId overrideActive w = (.error e, w₁)) ∨
        ∃ active w₁, activeOrDefault E w₀ = (.ok active, w₁) ∧
          ((∃ msg, beginActivation E cfgId overrideActive w = (.error (.configActive msg), w₁)) ∨
            beginActivation E cfgId overrideActive w = (.ok (cfg, active), w₁))) := by
  unfold beginActivation
  rcases hload : getConfig E cfgId w with ⟨e | cfg, w₀⟩
  · exact Or.inl ⟨e, w₀, rfl, bind_error hload⟩
  refine Or.inr ⟨cfg, w₀, rfl, ?_⟩
  rcases hactive : activeOrDefault E w₀ with ⟨e | active, w₁⟩
  · exact Or.inl ⟨e, w₁, rfl, (bind_ok hload).trans (bind_error hactive)⟩
  refine Or.inr ⟨active, w₁, rfl, ?_⟩
  cases hrefuse : refusal cfgId active overrideActive with
  | some e =>
    obtain ⟨msg, rfl⟩ := refusal_active hrefuse
    refine Or.inl ⟨msg, (bind_ok hload).trans ((bind_ok hactive).trans ?_)⟩
    rw [hrefuse]
    rfl
  | none =>
    refine Or.inr ((bind_ok hload).trans ((bind_ok hactive).trans ?_))
    rw [hrefuse]
    rfl

end WlanpiCore
