import Mathlib.Logic.Function.Basic
import WlanpiCore.Lib.Transition

/-!
# Starting, stopping and purging the profiler

`start_profiler`, `stop_profiler` and `purge_data` as tasks of one event loop, switched at every
`await`; children exit when they like, and the loop notices it some time later (`returncode`).
`profiler_lock` is modelled with the task that holds it and how far that task got, so only the tasks
outside the lock are kept apart. Every request may come at any time and any number of times.

**Theorems.** `one_profiler`: at every moment at most one profiler that Core started is running, and
`profiler_process` is it, unless the task that started it has not yet stored it. `purge_alone`:
while files are deleted none is running. `stopped_none`: when `stop_profiler` answers `True` the
profiler it stopped has been waited for, and no other runs.
-/

namespace WlanpiCore.Profiler.Lifecycle

/-- A child of Core: whether the process is there, and whether `returncode` is set. -/
structure Child where
  alive : Bool
  returned : Bool
  deriving DecidableEq

inductive Kind where
  | start
  | stop
  | purge
  deriving DecidableEq

/-- What a request answers: the `reason` of a start, the result of a stop or of a purge. -/
inductive Answer where
  | running
  | starting
  | alreadyRunning
  | spawnFailed
  | exited
  | stopped (there : Bool)
  | busy
  | purged
  deriving DecidableEq

/-- A task outside the lock. -/
inductive Task where
  | idle
  | waiting (kind : Kind)
  /-- `_await_start` -/
  | awaiting (child : Nat)
  | done (answer : Answer)
  deriving DecidableEq

/-- How far the task got that holds the lock. -/
inductive Phase where
  | startCheck
  /-- `await profiler_process.wait()` of one that has exited. -/
  | startReap
  | startSpawn
  /-- The child runs; `profiler_process` is not set yet. -/
  | startAssign (child : Nat)
  | stopCheck
  /-- SIGTERM is sent. -/
  | stopTerm (child : Nat)
  /-- SIGKILL is sent. -/
  | stopKill (child : Nat)
  | purgeProcess
  | purgeStatus
  | purgeUnit
  | purgeDelete
  deriving DecidableEq

structure State where
  tasks : Nat → Task
  lock : Option (Nat × Phase)
  process : Option Nat
  children : Nat → Child
  /-- The children so far. -/
  next : Nat

/-- What a call that can end in more than one way did: it succeeded or said yes, it failed or said
no, or its time ran out. -/
inductive Outcome where
  | yes
  | no
  | late
  deriving DecidableEq

inductive Act where
  | request (i : Nat) (kind : Kind)
  | acquire (i : Nat)
  /-- The task in the lock goes on. -/
  | holder (outcome : Outcome)
  /-- A task in `_await_start` goes on. -/
  | poll (i : Nat) (outcome : Outcome)
  | exit (child : Nat)
  /-- The event loop sets `returncode`. -/
  | notice (child : Nat)

def State.returned (s : State) (child : Nat) : Bool := (s.children child).returned

/-- The first step of a request with the lock. -/
def Kind.enter : Kind → Phase
  | .start => .startCheck
  | .stop => .stopCheck
  | .purge => .purgeProcess

def State.to (s : State) (i : Nat) (phase : Phase) : State := { s with lock := some (i, phase) }

/-- Leave the lock. -/
def State.leave (s : State) (i : Nat) (task : Task) : State :=
  { s with lock := none, tasks := Function.update s.tasks i task }

def State.answer (s : State) (i : Nat) (answer : Answer) : State := s.leave i (.done answer)

/-- The step of the task `i` that holds the lock, from each phase. -/
def State.advance (s : State) (i : Nat) (phase : Phase) (outcome : Outcome) : Option State :=
  match phase with
  | .startCheck =>
    match s.process with
    | none => some (s.to i .startSpawn)
    | some k => if s.returned k then some (s.to i .startReap) else some (s.answer i .alreadyRunning)
  | .startReap => some ({ s with process := none }.to i .startSpawn)
  | .startSpawn =>
    match outcome with
    | .yes =>
      some ({ s with
        children := Function.update s.children s.next ⟨true, false⟩
        next := s.next + 1 }.to i (.startAssign s.next))
    | _ => some (s.answer i .spawnFailed)
  | .startAssign k => some ({ s with process := some k }.leave i (.awaiting k))
  | .stopCheck =>
    match s.process with
    | none => some (s.answer i (.stopped false))
    | some k =>
      if s.returned k then some ({ s with process := none }.answer i (.stopped false))
      else some (s.to i (.stopTerm k))
  | .stopTerm k =>
    match outcome with
    | .late => some (s.to i (.stopKill k))
    | _ => if s.returned k then some ({ s with process := none }.answer i (.stopped true)) else none
  | .stopKill k =>
    if s.returned k then some ({ s with process := none }.answer i (.stopped true)) else none
  | .purgeProcess =>
    if s.process.any fun k => !s.returned k then some (s.answer i .busy)
      else some (s.to i .purgeStatus)
  | .purgeStatus =>
    -- Whether the status file names a live process.
    match outcome with
    | .yes => some (s.answer i .busy)
    | _ => some (s.to i .purgeUnit)
  | .purgeUnit =>
    -- Whether the unit is inactive or failed.
    match outcome with
    | .yes => some (s.to i .purgeDelete)
    | _ => some (s.answer i .busy)
  | .purgeDelete =>
    -- `yes` is the last file.
    match outcome with
    | .yes => some (s.answer i .purged)
    | _ => some s

/-- A round of `_await_start`: `yes` is a status file that says running with this child's PID. -/
def State.awaitStart (s : State) (i k : Nat) (outcome : Outcome) : State :=
  let task := if s.returned k then .done .exited else
    match outcome with
    | .yes => .done .running
    | .late => .done .starting
    | .no => .awaiting k
  { s with tasks := Function.update s.tasks i task }

def step (s : State) : Act → Option State
  | .request i kind =>
    match s.tasks i with
    | .idle | .done _ => some { s with tasks := Function.update s.tasks i (.waiting kind) }
    | _ => none
  | .acquire i =>
    match s.lock, s.tasks i with
    | none, .waiting kind =>
      some { s with lock := some (i, kind.enter), tasks := Function.update s.tasks i .idle }
    | _, _ => none
  | .holder outcome => s.lock.bind fun held => s.advance held.1 held.2 outcome
  | .poll i outcome =>
    match s.tasks i with
    | .awaiting k => some (s.awaitStart i k outcome)
    | _ => none
  | .exit k =>
    some { s with children := Function.update s.children k { s.children k with alive := false } }
  | .notice k =>
    if (s.children k).alive then none
    else some { s with
      children := Function.update s.children k { s.children k with returned := true } }

def initial : State := ⟨fun _ => .idle, none, none, fun _ => ⟨false, true⟩, 0⟩

/-! ## The invariant -/

/-- Every child that may still run is `k`. -/
def Only (s : State) (k : Nat) : Prop := ∀ j, s.returned j = false → j = k

/-- Every child has returned. -/
def Quiet (s : State) : Prop := ∀ j, s.returned j = true

/-- Every child that may still run is `profiler_process`. -/
def Kept (s : State) : Prop := ∀ j, s.returned j = false → s.process = some j

/-- What is known where the lock is held, phase by phase. -/
def Phase.Knows (s : State) : Phase → Prop
  | .startCheck | .stopCheck | .purgeProcess => Kept s
  | .startReap => Quiet s
  | .startSpawn => Quiet s ∧ s.process = none
  | .startAssign k => Only s k ∧ s.process = none
  | .stopTerm k | .stopKill k => Only s k ∧ s.process = some k
  | .purgeStatus | .purgeUnit | .purgeDelete => Quiet s

structure Inv (s : State) : Prop where
  /-- A process that is there has no `returncode`. -/
  alive : ∀ k, (s.children k).alive = true → s.returned k = false
  fresh : ∀ k, s.next ≤ k → s.returned k = true
  free : s.lock = none → Kept s
  held : ∀ i phase, s.lock = some (i, phase) → phase.Knows s

theorem Quiet.kept {s : State} (h : Quiet s) : Kept s := by
  intro j hj
  rw [h j] at hj
  cases hj

theorem Only.quiet {s : State} {k : Nat} (h : Only s k) (hk : s.returned k = true) : Quiet s := by
  intro j
  by_contra hj
  obtain rfl := h j (by simpa using hj)
  exact hj hk

/-- `profiler_process` is none, or has returned: nothing runs. -/
theorem Kept.quiet {s : State} (h : Kept s)
    (hprocess : ∀ k, s.process = some k → s.returned k = true) :
    Quiet s := by
  intro j
  by_contra hj
  exact hj (hprocess j (h j (by simpa using hj)))

theorem Kept.only {s : State} {k : Nat} (h : Kept s) (hprocess : s.process = some k) :
    Only s k := by
  intro j hj
  have hsome := h j hj
  rw [hprocess] at hsome
  exact (Option.some.inj hsome).symm

section OneStep

variable {s t : State} {i : Nat} {phase : Phase} {outcome : Outcome}

/-- The holder goes on to another phase. -/
theorem Inv.to (h : Inv s) (hknows : phase.Knows s) : Inv (s.to i phase) where
  alive := h.alive
  fresh := h.fresh
  free hnone := by cases hnone
  held j phase' heq := by
    obtain ⟨rfl, rfl⟩ := Prod.mk.inj (Option.some.inj heq)
    cases phase <;> exact hknows

/-- The holder leaves. -/
theorem Inv.leave (h : Inv s) (hkept : Kept s) (task : Task) : Inv (s.leave i task) where
  alive := h.alive
  fresh := h.fresh
  free _ := hkept
  held j phase' heq := by cases heq

/-- `profiler_process` is a field of its own. -/
theorem Inv.process (h : Inv s) (hlock : s.lock = some (i, phase)) {process : Option Nat}
    (hknows : phase.Knows { s with process }) : Inv { s with process } where
  alive := h.alive
  fresh := h.fresh
  free hnone := by
    change s.lock = none at hnone
    rw [hlock] at hnone
    cases hnone
  held j phase' heq := by
    change s.lock = some (j, phase') at heq
    rw [hlock] at heq
    obtain ⟨rfl, rfl⟩ := Prod.mk.inj (Option.some.inj heq)
    exact hknows

/-- After the end of a child the process handle is dropped and the lock left. -/
theorem Inv.drop (h : Inv s) (hquiet : Quiet s) (answer : Answer) :
    Inv ({ s with process := none }.answer i answer) where
  alive := h.alive
  fresh := h.fresh
  free _ := Quiet.kept (s := { s with process := none }.answer i answer) hquiet
  held j phase' heq := by cases heq

theorem Inv.spawn (h : Inv s) (hquiet : Quiet s) (hprocess : s.process = none) :
    Inv ({ s with
      children := Function.update s.children s.next ⟨true, false⟩
      next := s.next + 1 }.to i (.startAssign s.next)) where
  alive k hk := by
    by_cases hn : k = s.next
    · simp [State.to, State.returned, hn]
    · have halive : (s.children k).alive = true := by simpa [State.to, hn] using hk
      simpa [State.to, State.returned, hn] using h.alive k halive
  fresh k hk := by
    have hn : k ≠ s.next := fun heq =>
      absurd (heq ▸ hk : s.next + 1 ≤ s.next) (Nat.not_succ_le_self _)
    simpa [State.to, State.returned, hn] using h.fresh k (Nat.le_of_succ_le hk)
  free hnone := by cases hnone
  held j phase' heq := by
    obtain ⟨rfl, rfl⟩ := Prod.mk.inj (Option.some.inj heq)
    refine ⟨fun j hj => ?_, hprocess⟩
    by_contra hn
    have hreturned := hquiet j
    simp [State.to, State.returned, hn] at hj hreturned
    rw [hreturned] at hj
    cases hj

/-- **The holder's step keeps the invariant**, one case for each phase. -/
theorem Inv.advance (h : Inv s) (hlock : s.lock = some (i, phase))
    (hstep : s.advance i phase outcome = some t) : Inv t := by
  have hknows := h.held i phase hlock
  cases phase with
  | startCheck =>
    have hkept : Kept s := hknows
    simp only [State.advance] at hstep
    cases hprocess : s.process with
    | none =>
      rw [hprocess] at hstep
      obtain rfl := Option.some.inj hstep
      exact h.to ⟨hkept.quiet fun k hk => (Option.some_ne_none k (hk.symm.trans hprocess)).elim,
        hprocess⟩
    | some k =>
      rw [hprocess] at hstep
      dsimp only at hstep
      by_cases hreturned : s.returned k = true
      · rw [if_pos hreturned] at hstep
        obtain rfl := Option.some.inj hstep
        exact h.to ((hkept.only hprocess).quiet hreturned)
      · rw [if_neg hreturned] at hstep
        obtain rfl := Option.some.inj hstep
        exact h.leave hkept _
  | startReap =>
    have hquiet : Quiet s := hknows
    obtain rfl := Option.some.inj hstep
    have hinv : Inv { s with process := none } := h.process hlock hquiet
    have hnext : Phase.startSpawn.Knows { s with process := none } := ⟨hquiet, rfl⟩
    exact hinv.to hnext
  | startSpawn =>
    obtain ⟨hquiet, hprocess⟩ := (hknows : Quiet s ∧ s.process = none)
    cases outcome with
    | yes =>
      obtain rfl := Option.some.inj hstep
      exact h.spawn hquiet hprocess
    | no | late =>
      obtain rfl := Option.some.inj hstep
      exact h.leave hquiet.kept _
  | startAssign k =>
    obtain ⟨honly, -⟩ := (hknows : Only s k ∧ s.process = none)
    obtain rfl := Option.some.inj hstep
    exact
      { alive := h.alive
        fresh := h.fresh
        free := fun _ j hj => congrArg some (honly j hj).symm
        held := fun j phase' heq => by cases heq }
  | stopCheck =>
    have hkept : Kept s := hknows
    simp only [State.advance] at hstep
    cases hprocess : s.process with
    | none =>
      rw [hprocess] at hstep
      obtain rfl := Option.some.inj hstep
      exact h.leave hkept _
    | some k =>
      rw [hprocess] at hstep
      dsimp only at hstep
      by_cases hreturned : s.returned k = true
      · rw [if_pos hreturned] at hstep
        obtain rfl := Option.some.inj hstep
        exact h.drop ((hkept.only hprocess).quiet hreturned) _
      · rw [if_neg hreturned] at hstep
        obtain rfl := Option.some.inj hstep
        exact h.to ⟨hkept.only hprocess, hprocess⟩
  | stopTerm k =>
    obtain ⟨honly, hprocess⟩ := (hknows : Only s k ∧ s.process = some k)
    cases outcome with
    | late =>
      obtain rfl := Option.some.inj hstep
      exact h.to ⟨honly, hprocess⟩
    | yes | no =>
      simp only [State.advance] at hstep
      split_ifs at hstep with hreturned
      obtain rfl := Option.some.inj hstep
      exact h.drop (honly.quiet hreturned) _
  | stopKill k =>
    obtain ⟨honly, -⟩ := (hknows : Only s k ∧ s.process = some k)
    simp only [State.advance] at hstep
    split_ifs at hstep with hreturned
    obtain rfl := Option.some.inj hstep
    exact h.drop (honly.quiet hreturned) _
  | purgeProcess =>
    have hkept : Kept s := hknows
    simp only [State.advance] at hstep
    split_ifs at hstep with hany
    · obtain rfl := Option.some.inj hstep
      exact h.leave hkept _
    · obtain rfl := Option.some.inj hstep
      refine h.to (hkept.quiet fun k hk => ?_)
      rw [hk] at hany
      simpa using hany
  | purgeStatus =>
    have hquiet : Quiet s := hknows
    cases outcome with
    | yes =>
      obtain rfl := Option.some.inj hstep
      exact h.leave hquiet.kept _
    | no | late =>
      obtain rfl := Option.some.inj hstep
      exact h.to hquiet
  | purgeUnit =>
    have hquiet : Quiet s := hknows
    cases outcome with
    | yes =>
      obtain rfl := Option.some.inj hstep
      exact h.to hquiet
    | no | late =>
      obtain rfl := Option.some.inj hstep
      exact h.leave hquiet.kept _
  | purgeDelete =>
    have hquiet : Quiet s := hknows
    cases outcome with
    | yes =>
      obtain rfl := Option.some.inj hstep
      exact h.leave hquiet.kept _
    | no | late =>
      obtain rfl := Option.some.inj hstep
      exact h

/-- A child that returns or exits takes nothing from what is known. -/
theorem Inv.children (h : Inv s) {children : Nat → Child}
    (halive : ∀ k, (children k).alive = true → (children k).returned = false)
    (hreturned : ∀ k, (children k).returned = false → s.returned k = false) :
    Inv { s with children } := by
  have hquiet (hq : Quiet s) : Quiet { s with children } := by
    intro j
    by_contra hj
    have hfalse : (children j).returned = false := Bool.eq_false_iff.2 hj
    have hrunning := hreturned j hfalse
    rw [hq j] at hrunning
    cases hrunning
  have honly (k : Nat) (ho : Only s k) : Only { s with children } k := fun j hj =>
    ho j (hreturned j hj)
  have hkept (hk : Kept s) : Kept { s with children } := fun j hj => hk j (hreturned j hj)
  refine ⟨halive, fun k hk => ?_, fun hnone => hkept (h.free hnone), fun i phase heq => ?_⟩
  · by_contra hj
    have hfalse : (children k).returned = false := Bool.eq_false_iff.2 hj
    have hrunning := hreturned k hfalse
    rw [h.fresh k hk] at hrunning
    cases hrunning
  · have hknows := h.held i phase heq
    cases phase with
    | startCheck | stopCheck | purgeProcess => exact hkept hknows
    | startReap | purgeStatus | purgeUnit | purgeDelete => exact hquiet hknows
    | startSpawn => exact ⟨hquiet hknows.1, hknows.2⟩
    | startAssign k | stopTerm k | stopKill k => exact ⟨honly k hknows.1, hknows.2⟩

/-- The tasks outside the lock know nothing. -/
theorem Inv.tasks (h : Inv s) (tasks : Nat → Task) : Inv { s with tasks } where
  alive := h.alive
  fresh := h.fresh
  free hnone := h.free hnone
  held i phase heq := by
    have hknows := h.held i phase heq
    cases phase <;> exact hknows

theorem Inv.step {a : Act} (h : Inv s) (hstep : step s a = some t) : Inv t := by
  cases a with
  | request i kind =>
    simp only [Lifecycle.step] at hstep
    split at hstep
    · obtain rfl := Option.some.inj hstep
      exact h.tasks _
    · obtain rfl := Option.some.inj hstep
      exact h.tasks _
    · cases hstep
  | acquire i =>
    simp only [Lifecycle.step] at hstep
    split at hstep
    · rename_i kind hlock htask
      obtain rfl := Option.some.inj hstep
      refine (h.tasks _).to (?_ : kind.enter.Knows _)
      cases kind <;> exact h.free hlock
    · cases hstep
  | holder outcome =>
    obtain ⟨⟨i, phase⟩, hlock, hadvance⟩ := Option.bind_eq_some_iff.1 hstep
    exact h.advance hlock hadvance
  | poll i outcome =>
    simp only [Lifecycle.step] at hstep
    split at hstep
    · obtain rfl := Option.some.inj hstep
      exact h.tasks _
    · cases hstep
  | exit k =>
    obtain rfl := Option.some.inj hstep
    refine h.children (fun j hj => ?_) fun j hj => ?_
    · by_cases hk : j = k
      · subst hk
        simp at hj
      · have halive : (s.children j).alive = true := by simpa [hk] using hj
        simpa [State.returned, hk] using h.alive j halive
    · by_cases hk : j = k
      · subst hk
        simpa [State.returned] using hj
      · simpa [State.returned, hk] using hj
  | notice k =>
    simp only [Lifecycle.step] at hstep
    split_ifs at hstep with halive
    obtain rfl := Option.some.inj hstep
    refine h.children (fun j hj => ?_) fun j hj => ?_
    · by_cases hk : j = k
      · subst hk
        simp [halive] at hj
      · have halive' : (s.children j).alive = true := by simpa [hk] using hj
        simpa [State.returned, hk] using h.alive j halive'
    · by_cases hk : j = k
      · subst hk
        simp at hj
      · simpa [State.returned, hk] using hj

end OneStep

theorem inv_initial : Inv initial where
  alive _ h := by cases h
  fresh _ _ := rfl
  free _ _ h := by cases h
  held _ _ h := by cases h

theorem inv_reaches {s : State} (h : Reaches step initial s) : Inv s :=
  Run.invariant h inv_initial fun _ _ _ hs _ hstep => hs.step hstep

/-! ## The theorems -/

/-- **Core runs at most one profiler at a time**, and `profiler_process` is it unless the task in
the lock has just started it. -/
theorem one_profiler {s : State} (h : Reaches step initial s) {j k : Nat}
    (hj : (s.children j).alive = true) (hk : (s.children k).alive = true) :
    j = k ∧ (s.process = some k ∨ ∃ i, s.lock = some (i, .startAssign k)) := by
  have hinv := inv_reaches h
  have hjr := hinv.alive j hj
  have hkr := hinv.alive k hk
  have hkept (hkept : Kept s) : j = k ∧ s.process = some k :=
    ⟨Option.some.inj ((hkept j hjr).symm.trans (hkept k hkr)), hkept k hkr⟩
  have hquiet (hquiet : Quiet s) : False := Bool.false_ne_true (hkr.symm.trans (hquiet k))
  cases hlock : s.lock with
  | none => exact ⟨(hkept (hinv.free hlock)).1, Or.inl (hkept (hinv.free hlock)).2⟩
  | some held =>
    obtain ⟨i, phase⟩ := held
    have hknows := hinv.held i phase hlock
    cases phase with
    | startCheck | stopCheck | purgeProcess => exact ⟨(hkept hknows).1, Or.inl (hkept hknows).2⟩
    | startReap | purgeStatus | purgeUnit | purgeDelete => exact (hquiet hknows).elim
    | startSpawn => exact (hquiet hknows.1).elim
    | startAssign n =>
      have hjn := hknows.1 j hjr
      have hkn := hknows.1 k hkr
      exact ⟨hjn.trans hkn.symm, Or.inr ⟨i, by rw [hkn]⟩⟩
    | stopTerm n | stopKill n =>
      have hjn := hknows.1 j hjr
      have hkn := hknows.1 k hkr
      exact ⟨hjn.trans hkn.symm, Or.inl (by rw [hkn]; exact hknows.2)⟩

/-- A start that has stored its child. -/
def startActs : List Act :=
  [.request 0 .start, .acquire 0, .holder .yes, .holder .yes, .holder .yes]

theorem one_profiler_started : ∃ s, Reaches step initial s ∧ (s.children 0).alive = true ∧
    (0 = 0 ∧ (s.process = some 0 ∨ ∃ i, s.lock = some (i, .startAssign 0))) := by
  have hexec : (exec step initial startActs).any (fun s => (s.children 0).alive) = true := by decide
  obtain ⟨s, hs, halive⟩ := (Option.any_eq_true _ _).1 hexec
  have hreach := Reaches.of_exec hs
  exact ⟨s, hreach, halive, one_profiler hreach halive halive⟩

/-- **While a purge deletes files, or has passed its first check, no profiler of Core runs.** -/
theorem purge_alone {s : State} (h : Reaches step initial s) {i : Nat} {phase : Phase}
    (hlock : s.lock = some (i, phase))
    (hphase : phase = .purgeStatus ∨ phase = .purgeUnit ∨ phase = .purgeDelete) (k : Nat) :
    (s.children k).alive = false := by
  have hinv := inv_reaches h
  have hknows := hinv.held i phase hlock
  have hquiet : Quiet s := by
    rcases hphase with rfl | rfl | rfl <;> exact hknows
  by_contra halive
  have hrunning := hinv.alive k (by simpa using halive)
  rw [hquiet k] at hrunning
  cases hrunning

/-- The profiler exits by itself and a purge passes its checks. -/
theorem purge_alone_exited : ∃ s, Reaches step initial s ∧ s.lock = some (1, .purgeDelete) ∧
    s.next = 1 ∧ (s.children 0).alive = false := by
  have hexec : (exec step initial (startActs ++ [.exit 0, .notice 0, .request 1 .purge, .acquire 1,
      .holder .no, .holder .no, .holder .yes])).any
      (fun s => decide (s.lock = some (1, .purgeDelete) ∧ s.next = 1)) = true := by decide
  obtain ⟨s, hs, hboth⟩ := (Option.any_eq_true _ _).1 hexec
  have hreach := Reaches.of_exec hs
  obtain ⟨hlock, hnext⟩ := of_decide_eq_true hboth
  exact ⟨s, hreach, hlock, hnext, purge_alone hreach hlock (Or.inr (Or.inr rfl)) 0⟩

/-- Only a stop whose child has returned answers `True`. -/
theorem advance_stopped {s t : State} {outcome : Outcome} {i : Nat} {phase : Phase}
    (hstep : s.advance i phase outcome = some t) (hanswer : t.tasks i = .done (.stopped true))
    (hbefore : s.tasks i ≠ .done (.stopped true)) :
    ∃ k, (phase = .stopTerm k ∨ phase = .stopKill k) ∧ s.returned k = true ∧
      t.children = s.children := by
  have hother {answer : Answer} (hne : answer ≠ .stopped true) (process : Option Nat)
      (heq : t = { s with process }.answer i answer) : False := by
    subst heq
    simp [State.answer, State.leave, hne] at hanswer
  have hsame (heq : t.tasks = s.tasks) : False := hbefore (by rw [← heq]; exact hanswer)
  cases phase with
  | startCheck =>
    simp only [State.advance] at hstep
    split at hstep
    · obtain rfl := Option.some.inj hstep
      exact (hsame rfl).elim
    · split_ifs at hstep
      · obtain rfl := Option.some.inj hstep
        exact (hsame rfl).elim
      · exact (hother (by simp) s.process (Option.some.inj hstep).symm).elim
  | startReap =>
    obtain rfl := Option.some.inj hstep
    exact (hsame rfl).elim
  | startSpawn =>
    cases outcome with
    | yes =>
      obtain rfl := Option.some.inj hstep
      exact (hsame rfl).elim
    | no | late => exact (hother (by simp) s.process (Option.some.inj hstep).symm).elim
  | startAssign k =>
    obtain rfl := Option.some.inj hstep
    simp [State.leave] at hanswer
  | stopCheck =>
    simp only [State.advance] at hstep
    split at hstep
    · exact (hother (by simp) s.process (Option.some.inj hstep).symm).elim
    · split_ifs at hstep
      · exact (hother (by simp) none (Option.some.inj hstep).symm).elim
      · obtain rfl := Option.some.inj hstep
        exact (hsame rfl).elim
  | stopTerm k =>
    cases outcome with
    | late =>
      obtain rfl := Option.some.inj hstep
      exact (hsame rfl).elim
    | yes | no =>
      simp only [State.advance] at hstep
      split_ifs at hstep with hreturned
      obtain rfl := Option.some.inj hstep
      exact ⟨k, Or.inl rfl, hreturned, rfl⟩
  | stopKill k =>
    simp only [State.advance] at hstep
    split_ifs at hstep with hreturned
    obtain rfl := Option.some.inj hstep
    exact ⟨k, Or.inr rfl, hreturned, rfl⟩
  | purgeProcess =>
    simp only [State.advance] at hstep
    split_ifs at hstep
    · exact (hother (by simp) s.process (Option.some.inj hstep).symm).elim
    · obtain rfl := Option.some.inj hstep
      exact (hsame rfl).elim
  | purgeStatus | purgeUnit | purgeDelete =>
    cases outcome <;> simp only [State.advance] at hstep <;> first
      | exact (hother (by simp) s.process (Option.some.inj hstep).symm).elim
      | (obtain rfl := Option.some.inj hstep; exact (hsame rfl).elim)

/-- **A stop that answers `True` has waited for the profiler**: none that Core started runs then. -/
theorem stopped_none {s t : State} (h : Reaches step initial s) {outcome : Outcome} {i : Nat}
    {phase : Phase} (hlock : s.lock = some (i, phase))
    (hstep : s.advance i phase outcome = some t) (hanswer : t.tasks i = .done (.stopped true))
    (hbefore : s.tasks i ≠ .done (.stopped true)) (k : Nat) : (t.children k).alive = false := by
  have hinv := inv_reaches h
  obtain ⟨n, hphase, hreturned, hchildren⟩ := advance_stopped hstep hanswer hbefore
  have hknows := hinv.held i phase hlock
  have honly : Only s n := by
    rcases hphase with rfl | rfl
    · exact hknows.1
    · exact hknows.1
  rw [hchildren]
  by_contra halive
  have hrunning := hinv.alive k (by simpa using halive)
  rw [honly.quiet hreturned k] at hrunning
  cases hrunning

/-- A profiler that ignores SIGTERM is killed. -/
theorem stopped_none_killed : ∃ s t, Reaches step initial s ∧ s.lock = some (1, .stopKill 0) ∧
    s.advance 1 (.stopKill 0) .yes = some t ∧ t.tasks 1 = .done (.stopped true) ∧
    (t.children 0).alive = false := by
  have hexec : (exec step initial (startActs ++ [.request 1 .stop, .acquire 1, .holder .yes,
      .holder .late, .exit 0, .notice 0])).any (fun s => decide (s.lock = some (1, .stopKill 0)) &&
      decide (s.tasks 1 ≠ .done (.stopped true)) && (s.advance 1 (.stopKill 0) .yes).any
        fun t => decide (t.tasks 1 = .done (.stopped true))) = true := by decide
  obtain ⟨s, hs, hall⟩ := (Option.any_eq_true _ _).1 hexec
  simp only [Bool.and_eq_true, decide_eq_true_eq, Option.any_eq_true] at hall
  obtain ⟨⟨hlock, hbefore⟩, t, ht, hanswer⟩ := hall
  have hreach := Reaches.of_exec hs
  exact ⟨s, t, hreach, hlock, ht, hanswer, stopped_none hreach hlock ht hanswer hbefore 0⟩

end WlanpiCore.Profiler.Lifecycle
