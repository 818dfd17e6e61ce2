import WlanpiCore.Lib.Text
import WlanpiCore.Lib.Transition
import Mathlib.Logic.Function.Basic

/-!
# The app of a namespace

`start_app_in_namespace` and `stop_app_in_namespace` for one namespace, called from any number of
threads. A start looks at the table of its own processes and at the pidfile, then spawns, enters
the process in the table and writes the pidfile; a stop reads the pidfile, takes the process out of
the table, ends it and removes the pidfile. Each of these is a step, and no lock is held from one
to the next. The table has the entries of this namespace only.

A process outlives the service that started it: the next one finds it alive, named by the pidfile
and not in its table, and has to recognise it by its command line and its namespace.

**`Apps.one_app`**: from every state in which the pidfile names the one app that may be alive, as
long as no call begins while another one is between its first look and its last write, and a call
that meets a live app which is not in the table recognises it, at most one process is alive, and
the pidfile names it when no call is in progress. **`Apps.two_starts`** is a run without the first,
with two starts that both find nothing, and one without the second.
-/

namespace WlanpiCore.Namespaces

abbrev Pid := Nat

abbrev Thread := Nat

/-- What `start_app_in_namespace` starts. -/
structure App where
  appId : Text
  appCommand : Text

structure PidFile where
  pid : Pid
  app : App

/-- Where a call is. -/
inductive Call where
  | idle
  /-- `_prune_owned_app_processes` -/
  | pruning (app : App)
  /-- looking at the table -/
  | looking (app : App)
  /-- `_recorded_app_running` -/
  | checking (app : App)
  /-- removing a pidfile whose process is gone -/
  | dropping (app : App)
  | spawning (app : App)
  /-- entering the process in the table -/
  | entering (app : App) (pid : Pid)
  | writing (app : App) (pid : Pid)
  /-- taking the process out again, the pidfile not being written -/
  | removing (pid : Pid)
  | killing (pid : Pid)
  /-- sleeping, then polling -/
  | settling (pid : Pid)
  /-- a stop, reading the pidfile -/
  | reading
  /-- looking the process up in the table -/
  | finding (file : PidFile)
  /-- taking it out of the table -/
  | taking (file : PidFile)
  | terminating (file : PidFile)
  /-- a process that is not in the table -/
  | foreign (file : PidFile)
  | unlinking
  | ended

/-- The call is between its first look and its last write. -/
def Call.busy : Call → Bool
  | .idle | .settling _ | .ended => false
  | _ => true

def Call.inProgress : Call → Bool
  | .idle | .ended => false
  | _ => true

structure Apps where
  /-- The processes that Core started for the namespace, now or in an earlier service. -/
  alive : Pid → Bool := fun _ => false
  nextPid : Pid := 1
  /-- `_owned_app_processes` -/
  owned : List (Pid × App) := []
  pidFile : Option PidFile := none
  call : Thread → Call := fun _ => .idle
  /-- The calls that are busy. Only the statement uses it. -/
  busy : List Thread := []

/-- What a step is told. -/
inductive Answer where
  | yes
  | no
  | fails

inductive Act where
  | start (i : Thread) (app : App)
  | stop (i : Thread)
  | go (i : Thread) (answer : Answer)
  /-- A stop kills the processes that it takes for the recorded app: the recorded process, or every
  process of the namespace that runs the recorded command. It may take none for it. -/
  | kill (i : Thread) (pids : List Pid)
  /-- A process exits by itself. -/
  | exits (pid : Pid)

namespace Apps

def enter (s : Apps) (i : Thread) (call : Call) : Apps :=
  { s with
    call := Function.update s.call i call
    busy := if call.busy then s.busy else s.busy.erase i }

def ends (s : Apps) (pids : List Pid) : Apps :=
  { s with alive := fun pid => s.alive pid && pid ∉ pids }

/-- A call takes a process out of the table. -/
def drop (s : Apps) (pid : Pid) : Apps := { s with owned := s.owned.filter (·.1 ≠ pid) }

/-- What `start_app_in_namespace` does next. -/
def goStart (s : Apps) (i : Thread) (answer : Answer) : Call → Option Apps
  | .pruning app =>
    some ({ s with owned := s.owned.filter (s.alive ·.1) }.enter i (.looking app))
  | .looking app =>
    if s.owned ≠ [] then some (s.enter i .ended) else some (s.enter i (.checking app))
  | .checking app =>
    match s.pidFile with
    | none => some (s.enter i (.spawning app))
    | some _ =>
      match answer with
      -- the process exists, and is the recorded app
      | .yes => some (s.enter i .ended)
      | .no => some (s.enter i (.dropping app))
      | .fails => some (s.enter i .ended)
  | .dropping app => some ({ s with pidFile := none }.enter i (.spawning app))
  | .spawning app =>
    match answer with
    | .yes => some ({ s with
        alive := Function.update s.alive s.nextPid true
        nextPid := s.nextPid + 1 }.enter i (.entering app s.nextPid))
    | _ => some (s.enter i .ended)
  | .entering app pid =>
    some ({ s with owned := (pid, app) :: s.owned }.enter i (.writing app pid))
  | .writing app pid =>
    match answer with
    | .yes => some ({ s with pidFile := some ⟨pid, app⟩ }.enter i (.settling pid))
    | _ => some (s.enter i (.removing pid))
  | .removing pid => some ((s.drop pid).enter i (.killing pid))
  | .killing pid => some ((s.ends [pid]).enter i .ended)
  | .settling pid => some ((if s.alive pid then s else s.drop pid).enter i .ended)
  | _ => none

/-- What `stop_app_in_namespace` does next. -/
def goStop (s : Apps) (i : Thread) (answer : Answer) : Call → Option Apps
  | .reading =>
    match s.pidFile with
    | none => some (s.enter i .ended)
    | some file => some (s.enter i (.finding file))
  | .finding file =>
    match s.owned.lookup file.pid with
    | none => some (s.enter i (.foreign file))
    | some app =>
      if file.app.appId ≠ [] ∧ app.appId ≠ file.app.appId then some (s.enter i .ended)
      else if s.alive file.pid then some (s.enter i (.taking file))
      else some ((s.drop file.pid).enter i .ended)
  | .taking file => some ((s.drop file.pid).enter i (.terminating file))
  | .terminating file => some ((s.ends [file.pid]).enter i .unlinking)
  | .foreign _ =>
    match answer with
    -- no namespace, or no process could be killed
    | .fails => some (s.enter i .ended)
    | _ => none
  | .unlinking => some ({ s with pidFile := none }.enter i .ended)
  | _ => none

/-- `_stop_app_in_root` or `_stop_app_in_namespace_safe`, where it returns true. -/
def goKill (s : Apps) (i : Thread) (pids : List Pid) : Call → Option Apps
  | .foreign _ => some ((s.ends pids).enter i .unlinking)
  | _ => none

def begin (s : Apps) (i : Thread) (call : Call) : Option Apps :=
  match s.call i with
  | .idle => some { s with call := Function.update s.call i call, busy := i :: s.busy }
  | _ => none

def step (s : Apps) : Act → Option Apps
  | .start i app => s.begin i (.pruning app)
  | .stop i => s.begin i .reading
  | .go i answer => (s.goStart i answer (s.call i)).or (s.goStop i answer (s.call i))
  | .kill i pids => s.goKill i pids (s.call i)
  | .exits pid => some (s.ends [pid])

/-- Every process that is alive is the one the pidfile names. -/
def Named (s : Apps) : Prop :=
  ∀ pid, s.alive pid = true → ∃ file, s.pidFile = some file ∧ file.pid = pid

/-- No call has begun, and the pidfile names the app that is alive, if there is one. -/
structure Resting (s : Apps) : Prop where
  calls : ∀ i, s.call i = .idle
  busy : s.busy = []
  named : s.Named

/-- A call that begins is the only one between its first look and its last write. -/
def alone (s : Apps) : Act → Bool
  | .start .. | .stop _ => s.busy = []
  | _ => true

/-- A call that meets the recorded app alive recognises it: a start does not take it for another
process, and a stop that kills what it takes for the app kills this one. -/
def recognises (s : Apps) : Act → Bool
  | .go i .no =>
    match s.call i, s.pidFile with
    | .checking _, some file => !s.alive file.pid
    | _, _ => true
  | .kill i pids =>
    match s.call i with
    | .foreign file => !s.alive file.pid || file.pid ∈ pids
    | _ => true
  | _ => true

def orderly (s : Apps) (a : Act) : Bool := s.alone a && s.recognises a

/-- One app at most, and a pidfile for it. -/
structure Single (s : Apps) : Prop where
  one : ∀ pid pid', s.alive pid = true → s.alive pid' = true → pid = pid'
  named : (∀ i, (s.call i).inProgress = false) → s.Named

/-! ## The invariant -/

/-- No other process is alive. -/
def Only (s : Apps) (pid : Pid) : Prop := ∀ pid', s.alive pid' = true → pid' = pid

def Nothing (s : Apps) : Prop := ∀ pid, s.alive pid = false

/-- What a call has found out. -/
def Sound (s : Apps) : Call → Prop
  | .idle | .settling _ | .ended => True
  | .pruning _ | .looking _ | .checking _ | .reading => s.Named
  | .dropping _ | .spawning _ | .unlinking => s.Nothing
  | .entering _ pid | .writing _ pid | .removing pid | .killing pid => s.Only pid
  | .finding file | .taking file | .foreign file => s.Named ∧ s.pidFile = some file
  | .terminating file => s.Only file.pid

structure Inv (s : Apps) : Prop where
  busy : ∀ i, i ∈ s.busy ↔ (s.call i).busy = true
  nodup : s.busy.Nodup
  single : ∀ i j, (s.call i).busy = true → (s.call j).busy = true → i = j
  sound : ∀ i, s.Sound (s.call i)
  quiet : (∀ i, (s.call i).busy = false) → s.Named

variable {s : Apps} {i : Thread}

theorem Named.only (h : s.Named) {file : PidFile} (hfile : s.pidFile = some file) :
    s.Only file.pid := by
  intro pid hpid
  obtain ⟨file', hfile', hname⟩ := h pid hpid
  rw [hfile] at hfile'
  cases hfile'
  exact hname.symm

theorem Named.nothing (h : s.Named) (hfile : s.pidFile = none) : s.Nothing := by
  intro pid
  by_contra halive
  obtain ⟨file, hsome, -⟩ := h pid (by simpa using halive)
  rw [hfile] at hsome
  cases hsome

theorem Only.nothing {pid : Pid} (h : s.Only pid) (hdead : s.alive pid = false) : s.Nothing := by
  intro pid'
  by_contra halive
  have halive : s.alive pid' = true := by simpa using halive
  rw [h pid' halive, hdead] at halive
  cases halive

theorem Nothing.only (h : s.Nothing) (pid : Pid) : s.Only pid := by
  intro pid' halive
  rw [h pid'] at halive
  cases halive

theorem Nothing.named (h : s.Nothing) : s.Named := by
  intro pid halive
  rw [h pid] at halive
  cases halive

theorem Named.one (h : s.Named) : ∃ pid, s.Only pid := by
  cases hfile : s.pidFile with
  | none => exact ⟨0, (h.nothing hfile).only 0⟩
  | some file => exact ⟨file.pid, h.only hfile⟩

/-- What every call's soundness makes of the processes that are alive. -/
theorem Sound.one {call : Call} (hbusy : call.busy = true) (h : s.Sound call) :
    ∃ pid, s.Only pid := by
  cases call with
  | idle | settling pid | ended => cases hbusy
  | pruning app | looking app | checking app => exact Named.one h
  | reading => exact Named.one h
  | dropping app | spawning app => exact ⟨0, Nothing.only h 0⟩
  | unlinking => exact ⟨0, Nothing.only h 0⟩
  | entering app pid | writing app pid => exact ⟨pid, h⟩
  | removing pid | killing pid => exact ⟨pid, h⟩
  | finding file | taking file | foreign file => exact h.1.one
  | terminating file => exact ⟨file.pid, h⟩

/-- Processes that end change nothing of what a call has found out. -/
theorem Sound.ends {call : Call} (h : s.Sound call) (pids : List Pid) :
    (s.ends pids).Sound call := by
  have halive (pid : Pid) (hpid : (s.ends pids).alive pid = true) : s.alive pid = true :=
    (Bool.and_eq_true_iff.1 hpid).1
  have hnamed (h : s.Named) : (s.ends pids).Named := fun pid hpid => h pid (halive pid hpid)
  have honly (pid : Pid) (h : s.Only pid) : (s.ends pids).Only pid :=
    fun pid' hpid' => h pid' (halive pid' hpid')
  have hnothing (h : s.Nothing) : (s.ends pids).Nothing := by
    intro pid
    show (s.alive pid && _) = false
    rw [h pid, Bool.false_and]
  cases call with
  | idle | settling pid | ended => trivial
  | pruning app | looking app | checking app => exact hnamed h
  | reading => exact hnamed h
  | dropping app | spawning app => exact hnothing h
  | unlinking => exact hnothing h
  | entering app pid | writing app pid => exact honly pid h
  | removing pid | killing pid => exact honly pid h
  | finding file | taking file | foreign file => exact ⟨hnamed h.1, h.2⟩
  | terminating file => exact honly file.pid h

theorem Sound.idle {call : Call} (h : call.busy = false) : s.Sound call := by
  cases call with
  | idle | settling pid | ended => trivial
  | _ => cases h

@[simp] theorem enter_call (s : Apps) (i : Thread) (call : Call) (j : Thread) :
    (s.enter i call).call j = if j = i then call else s.call j := by
  simp only [enter, Function.update_apply]

/-- A busy call goes on: what the others have found out is nothing. -/
theorem Inv.move (h : s.Inv) (hi : (s.call i).busy = true) {alive : Pid → Bool} {nextPid : Pid}
    {owned : List (Pid × App)} {pidFile : Option PidFile} {call : Call}
    (hsound : call.busy = true → Sound { s with alive, nextPid, owned, pidFile } call)
    (hnamed : call.busy = false → Named { s with alive, nextPid, owned, pidFile }) :
    Inv ({ s with alive, nextPid, owned, pidFile }.enter i call) := by
  set s₁ : Apps := { s with alive, nextPid, owned, pidFile } with hs₁
  have hcall (j : Thread) : (s₁.enter i call).call j = if j = i then call else s.call j :=
    enter_call s₁ i call j
  have hothers (j : Thread) (hj : j ≠ i) : (s.call j).busy = false := by
    by_contra hbusy
    exact hj (h.single j i (by simpa using hbusy) hi)
  refine ⟨fun j => ?_, ?_, fun j j' hj hj' => ?_, fun j => ?_, fun hquiet => ?_⟩
  · have hbusy : (s₁.enter i call).busy = if call.busy then s.busy else s.busy.erase i := rfl
    rw [hbusy, hcall]
    by_cases hj : j = i
    · rw [if_pos hj, hj]
      split_ifs with hc
      · simp [hc, (h.busy i).2 hi]
      · simp [hc, h.nodup.mem_erase_iff]
    · rw [if_neg hj, hothers j hj]
      have hnot : j ∉ s.busy := by
        rw [h.busy j, hothers j hj]
        simp
      split_ifs
      · simp [hnot]
      · simp [h.nodup.mem_erase_iff, hnot]
  · have hbusy : (s₁.enter i call).busy = if call.busy then s.busy else s.busy.erase i := rfl
    rw [hbusy]
    split_ifs
    · exact h.nodup
    · exact h.nodup.erase i
  · rw [hcall] at hj hj'
    split_ifs at hj hj' with heq heq' heq'
    · rw [heq, heq']
    · rw [hothers j' heq'] at hj'
      cases hj'
    · rw [hothers j heq] at hj
      cases hj
    · rw [hothers j heq] at hj
      cases hj
  · rw [hcall]
    split_ifs with hj
    · by_cases hbusy : call.busy = true
      · exact hsound hbusy
      · exact Sound.idle (by simpa using hbusy)
    · exact Sound.idle (hothers j hj)
  · have hbusy := hquiet i
    rw [hcall, if_pos rfl] at hbusy
    exact hnamed hbusy

/-- A call that is not busy ends. -/
theorem Inv.leave (h : s.Inv) (hi : (s.call i).busy = false) : (s.enter i .ended).Inv := by
  have hmem : i ∉ s.busy := by
    rw [h.busy i, hi]
    simp
  have hbusy : (s.enter i .ended).busy = s.busy := List.erase_of_not_mem hmem
  have hsame (j : Thread) : ((s.enter i .ended).call j).busy = (s.call j).busy := by
    rw [enter_call]
    split_ifs with hj
    · rw [hj, hi]
      rfl
    · rfl
  refine ⟨fun j => ?_, ?_, fun j j' hj hj' => ?_, fun j => ?_, fun hquiet => ?_⟩
  · rw [hbusy, hsame]
    exact h.busy j
  · rw [hbusy]
    exact h.nodup
  · rw [hsame] at hj hj'
    exact h.single j j' hj hj'
  · rw [enter_call]
    split_ifs
    · trivial
    · exact h.sound j
  · exact h.quiet fun j => hsame j ▸ hquiet j

/-! ## Steps -/

/-- Processes exit. -/
theorem Inv.ends (h : s.Inv) (pids : List Pid) : (s.ends pids).Inv := by
  refine ⟨h.busy, h.nodup, h.single, fun i => (h.sound i).ends pids, fun hquiet => ?_⟩
  have hsound : s.Sound .reading := h.quiet hquiet
  exact hsound.ends pids

/-- The table is not what the invariant is about. -/
theorem Inv.drop (h : s.Inv) (pid : Pid) : (s.drop pid).Inv := by
  refine ⟨h.busy, h.nodup, h.single, fun i => ?_, h.quiet⟩
  have hsound := h.sound i
  show Sound _ (s.call i)
  revert hsound
  cases s.call i <;> exact id

theorem nothing_ends {pid : Pid} {pids : List Pid} (h : s.Only pid)
    (hpid : s.alive pid = true → pid ∈ pids) : (s.ends pids).Nothing := by
  intro pid'
  by_contra halive
  have halive : (s.alive pid' && decide (pid' ∉ pids)) = true := by simpa [ends] using halive
  rw [Bool.and_eq_true, decide_eq_true_eq] at halive
  obtain rfl := h pid' halive.1
  exact halive.2 (hpid halive.1)

theorem nothing_end {pid : Pid} (h : s.Only pid) : (s.ends [pid]).Nothing :=
  nothing_ends h fun _ => List.mem_singleton.2 rfl

theorem Inv.goStart (h : s.Inv) {answer : Answer} {s' : Apps}
    (hok : s.recognises (.go i answer) = true)
    (hstep : s.goStart i answer (s.call i) = some s') : s'.Inv := by
  have hsound := h.sound i
  unfold Apps.goStart at hstep
  cases hc : s.call i with
  | pruning app =>
    rw [hc] at hstep hsound
    cases hstep
    exact h.move (by rw [hc]; rfl) (fun _ => hsound) fun hbusy => by cases hbusy
  | looking app =>
    rw [hc] at hstep hsound
    dsimp only at hstep
    split_ifs at hstep
    · cases hstep
      exact h.move (by rw [hc]; rfl) (fun hbusy => by cases hbusy) fun _ => hsound
    · cases hstep
      exact h.move (by rw [hc]; rfl) (fun _ => hsound) fun hbusy => by cases hbusy
  | checking app =>
    rw [hc] at hstep hsound
    dsimp only at hstep
    cases hfile : s.pidFile with
    | none =>
      rw [hfile] at hstep
      cases hstep
      exact h.move (by rw [hc]; rfl) (fun _ => Named.nothing hsound hfile)
        fun hbusy => by cases hbusy
    | some file =>
      rw [hfile] at hstep
      cases answer with
      | yes =>
        cases hstep
        exact h.move (by rw [hc]; rfl) (fun hbusy => by cases hbusy) fun _ => hsound
      | no =>
        cases hstep
        -- The recorded process would have been recognised, so it is not alive.
        have hdead : s.alive file.pid = false := by
          simpa [recognises, hc, hfile] using hok
        exact h.move (by rw [hc]; rfl) (fun _ => (Named.only hsound hfile).nothing hdead)
          fun hbusy => by cases hbusy
      | fails =>
        cases hstep
        exact h.move (by rw [hc]; rfl) (fun hbusy => by cases hbusy) fun _ => hsound
  | dropping app =>
    rw [hc] at hstep hsound
    cases hstep
    exact h.move (by rw [hc]; rfl) (fun _ => hsound) fun hbusy => by cases hbusy
  | spawning app =>
    rw [hc] at hstep hsound
    cases answer with
    | yes =>
      cases hstep
      refine h.move (by rw [hc]; rfl) (fun _ => fun pid halive => ?_) fun hbusy => by cases hbusy
      by_contra hne
      have hold : s.alive pid = true := by
        have hother := Function.update_of_ne (f := s.alive) hne true
        exact hother ▸ halive
      rw [hsound pid] at hold
      cases hold
    | _ =>
      cases hstep
      exact h.move (by rw [hc]; rfl) (fun hbusy => by cases hbusy) fun _ => Nothing.named hsound
  | entering app pid =>
    rw [hc] at hstep hsound
    cases hstep
    exact h.move (by rw [hc]; rfl) (fun _ => hsound) fun hbusy => by cases hbusy
  | writing app pid =>
    rw [hc] at hstep hsound
    cases answer with
    | yes =>
      cases hstep
      refine h.move (by rw [hc]; rfl) (fun hbusy => by cases hbusy) fun _ pid' halive => ?_
      exact ⟨_, rfl, (hsound pid' halive).symm⟩
    | _ =>
      cases hstep
      exact h.move (by rw [hc]; rfl) (fun _ => hsound) fun hbusy => by cases hbusy
  | removing pid =>
    rw [hc] at hstep hsound
    cases hstep
    exact h.move (by rw [hc]; rfl) (fun _ => hsound) fun hbusy => by cases hbusy
  | killing pid =>
    rw [hc] at hstep hsound
    cases hstep
    exact h.move (by rw [hc]; rfl) (fun hbusy => by cases hbusy)
      fun _ => Nothing.named (nothing_end hsound)
  | settling pid =>
    rw [hc] at hstep
    cases hstep
    split_ifs
    · exact h.leave (by rw [hc]; rfl)
    · refine Inv.leave (h.drop pid) ?_
      exact hc ▸ rfl
  | _ => rw [hc] at hstep; cases hstep

theorem Inv.goStop (h : s.Inv) {answer : Answer} {s' : Apps}
    (hstep : s.goStop i answer (s.call i) = some s') : s'.Inv := by
  have hsound := h.sound i
  unfold Apps.goStop at hstep
  cases hc : s.call i with
  | reading =>
    rw [hc] at hstep hsound
    dsimp only at hstep
    cases hfile : s.pidFile with
    | none =>
      rw [hfile] at hstep
      cases hstep
      exact h.move (by rw [hc]; rfl) (fun hbusy => by cases hbusy) fun _ => hsound
    | some file =>
      rw [hfile] at hstep
      cases hstep
      exact h.move (by rw [hc]; rfl) (fun _ => ⟨hsound, hfile⟩) fun hbusy => by cases hbusy
  | finding file =>
    rw [hc] at hstep hsound
    dsimp only at hstep
    cases howned : s.owned.lookup file.pid with
    | none =>
      rw [howned] at hstep
      cases hstep
      exact h.move (by rw [hc]; rfl) (fun _ => hsound) fun hbusy => by cases hbusy
    | some app =>
      rw [howned] at hstep
      dsimp only at hstep
      by_cases hother : file.app.appId ≠ [] ∧ app.appId ≠ file.app.appId
      · rw [if_pos hother] at hstep
        cases hstep
        exact h.move (by rw [hc]; rfl) (fun hbusy => by cases hbusy) fun _ => hsound.1
      · rw [if_neg hother] at hstep
        split_ifs at hstep
        · cases hstep
          exact h.move (by rw [hc]; rfl) (fun _ => hsound) fun hbusy => by cases hbusy
        · cases hstep
          exact h.move (by rw [hc]; rfl) (fun hbusy => by cases hbusy) fun _ => hsound.1
  | taking file =>
    rw [hc] at hstep hsound
    cases hstep
    exact h.move (by rw [hc]; rfl) (fun _ => hsound.1.only hsound.2) fun hbusy => by cases hbusy
  | terminating file =>
    rw [hc] at hstep hsound
    cases hstep
    exact h.move (by rw [hc]; rfl) (fun _ => nothing_end hsound) fun hbusy => by cases hbusy
  | foreign file =>
    rw [hc] at hstep hsound
    cases answer with
    | fails =>
      cases hstep
      exact h.move (by rw [hc]; rfl) (fun hbusy => by cases hbusy) fun _ => hsound.1
    | _ => cases hstep
  | unlinking =>
    rw [hc] at hstep hsound
    cases hstep
    exact h.move (by rw [hc]; rfl) (fun hbusy => by cases hbusy) fun _ => Nothing.named hsound
  | _ => rw [hc] at hstep; cases hstep

/-- A stop that kills the recorded app, if it is alive, leaves nothing. -/
theorem Inv.goKill (h : s.Inv) {pids : List Pid} {s' : Apps}
    (hok : s.recognises (.kill i pids) = true)
    (hstep : s.goKill i pids (s.call i) = some s') : s'.Inv := by
  have hsound := h.sound i
  unfold Apps.goKill at hstep
  cases hc : s.call i with
  | foreign file =>
    rw [hc] at hstep hsound
    cases hstep
    have hkilled : s.alive file.pid = true → file.pid ∈ pids := by
      intro halive
      simpa [recognises, hc, halive] using hok
    exact h.move (by rw [hc]; rfl)
      (fun _ => nothing_ends (hsound.1.only hsound.2) hkilled) fun hbusy => by cases hbusy
  | _ => rw [hc] at hstep; cases hstep

/-- A call that begins alone knows what every state in which no call is busy has. -/
theorem Inv.begin (h : s.Inv) (halone : s.busy = []) {call : Call} {s' : Apps}
    (hstep : s.begin i call = some s') (hcall : call.busy = true)
    (hfirst : s.Named → ∀ busy call', Sound { s with busy, call := call' } call) : s'.Inv := by
  have hquiet (j : Thread) : (s.call j).busy = false := by
    by_contra hbusy
    have hmem := (h.busy j).2 (by simpa using hbusy)
    rw [halone] at hmem
    cases hmem
  unfold Apps.begin at hstep
  split at hstep <;> cases hstep
  have hnew (j : Thread) : Function.update s.call i call j = if j = i then call else s.call j :=
    Function.update_apply ..
  refine ⟨fun j => ?_, by simp [halone], fun j j' hj hj' => ?_, fun j => ?_, fun hall => ?_⟩
  · dsimp only
    rw [hnew, halone]
    split_ifs with hj
    · simp [hj, hcall]
    · simp [hj, hquiet j]
  · dsimp only at hj hj'
    rw [hnew] at hj hj'
    split_ifs at hj hj' with heq heq' heq'
    · rw [heq, heq']
    · rw [hquiet j'] at hj'
      cases hj'
    · rw [hquiet j] at hj
      cases hj
    · rw [hquiet j] at hj
      cases hj
  · dsimp only
    rw [hnew]
    split_ifs with hj
    · exact hfirst (h.quiet hquiet) ..
    · exact Sound.idle (hquiet j)
  · have hbusy := hall i
    dsimp only at hbusy
    rw [hnew, if_pos rfl, hcall] at hbusy
    cases hbusy

theorem Inv.step (h : s.Inv) {a : Act} (hok : s.orderly a = true) {s' : Apps}
    (hstep : s.step a = some s') : s'.Inv := by
  obtain ⟨halone, hrecognises⟩ := Bool.and_eq_true_iff.1 hok
  cases a with
  | start i app =>
    have hstep : s.begin i (.pruning app) = some s' := hstep
    exact h.begin (of_decide_eq_true halone) hstep rfl fun hnamed _ _ => hnamed
  | stop i =>
    have hstep : s.begin i .reading = some s' := hstep
    exact h.begin (of_decide_eq_true halone) hstep rfl fun hnamed _ _ => hnamed
  | go i answer =>
    rcases Option.or_eq_some_iff.1 hstep with hstep | ⟨-, hstep⟩
    · exact h.goStart hrecognises hstep
    · exact h.goStop hstep
  | kill i pids => exact h.goKill hrecognises hstep
  | exits pid =>
    cases hstep
    exact h.ends [pid]

theorem Resting.inv (h : s.Resting) : s.Inv := by
  have hidle (i : Thread) : (s.call i).busy = false := by
    rw [h.calls i]
    rfl
  refine ⟨fun i => ?_, by rw [h.busy]; exact List.nodup_nil, fun i j hi => ?_,
    fun i => Sound.idle (hidle i), fun _ => h.named⟩
  · simp [h.busy, hidle i]
  · rw [hidle i] at hi
    cases hi

theorem Inv.one (h : s.Inv) : ∃ pid, s.Only pid := by
  by_cases hbusy : ∃ i, (s.call i).busy = true
  · obtain ⟨i, hi⟩ := hbusy
    exact (h.sound i).one hi
  · have hquiet (i : Thread) : (s.call i).busy = false := by
      by_contra hi
      exact hbusy ⟨i, by simpa using hi⟩
    exact (h.quiet hquiet).one

theorem busy_of_inProgress {call : Call} (h : call.inProgress = false) :
    call.busy = false := by
  cases call with
  | idle | ended => rfl
  | _ => cases h

/-- As long as no call begins while another one is between its first look and its last write, and
every call that meets the recorded app alive recognises it, at most one process is alive, and when
no call is in progress the pidfile names it. -/
theorem one_app {s₀ s : Apps} (h₀ : s₀.Resting)
    (h : Run step (fun s a => s.orderly a = true) s₀ s) : s.Single := by
  have hinv : s.Inv := h.invariant h₀.inv fun s a s' hs hok => hs.step hok
  obtain ⟨pid, honly⟩ := hinv.one
  refine ⟨fun pid₁ pid₂ h₁ h₂ => ?_, fun hquiet => ?_⟩
  · rw [honly pid₁ h₁, honly pid₂ h₂]
  · exact hinv.quiet fun i => busy_of_inProgress (hquiet i)

/-! ## An app of an earlier service -/

def web : App := ⟨"web".toList, "webd".toList⟩

/-- Process 7 is left by an earlier service, and the pidfile names it. -/
def leftover : Apps where
  alive pid := pid = 7
  nextPid := 8
  pidFile := some ⟨7, web⟩

theorem leftover_resting : leftover.Resting where
  calls _ := rfl
  busy := rfl
  named _ h := ⟨_, rfl, (of_decide_eq_true h).symm⟩

/-- A start finds the app of the earlier service and refuses, a stop kills it, and another start
begins one. -/
theorem one_app_restart : ∃ s, Run step (fun s a => s.orderly a = true) leftover s ∧
    leftover.alive 7 = true ∧ s.alive 7 = false ∧ s.alive 8 = true ∧ s.Single := by
  have hexec : (exec (guarded step orderly) leftover
      [.start 0 web, .go 0 .yes, .go 0 .yes, .go 0 .yes,
        .stop 1, .go 1 .yes, .go 1 .yes, .kill 1 [7], .go 1 .yes,
        .start 2 web, .go 2 .yes, .go 2 .yes, .go 2 .yes, .go 2 .yes, .go 2 .yes, .go 2 .yes]).any
      (fun s => !s.alive 7 && s.alive 8) = true := by
    decide +kernel
  obtain ⟨s, hs, halive⟩ := (Option.any_eq_true _ _).1 hexec
  rw [Bool.and_eq_true, Bool.not_eq_true'] at halive
  have hrun := Run.of_guarded (Reaches.of_exec hs)
  exact ⟨s, hrun, rfl, halive.1, halive.2, one_app leftover_resting hrun⟩

/-- Two starts from a state without an app, both of which find neither a process nor a pidfile and
spawn one; and a start that is alone and does not recognise the app of an earlier service. -/
theorem two_starts : (¬∀ s₀ s : Apps, s₀.Resting → Reaches step s₀ s → s.Single) ∧
    ¬∀ s₀ s : Apps, s₀.Resting → Run step (fun s a => s.alone a = true) s₀ s → s.Single := by
  constructor
  · intro h
    have hexec : (exec step {}
        [.start 0 web, .go 0 .yes, .go 0 .yes, .go 0 .yes,
          .start 1 web, .go 1 .yes, .go 1 .yes, .go 1 .yes,
          .go 0 .yes, .go 1 .yes]).any (fun s => s.alive 1 && s.alive 2) = true := by
      decide +kernel
    obtain ⟨s, hs, halive⟩ := (Option.any_eq_true _ _).1 hexec
    rw [Bool.and_eq_true] at halive
    have hresting : Resting {} := ⟨fun _ => rfl, rfl, fun _ halive => by cases halive⟩
    have heq := (h {} s hresting (Reaches.of_exec hs)).one 1 2 halive.1 halive.2
    cases heq
  · intro h
    have hexec : (exec (guarded step alone) leftover
        [.start 0 web, .go 0 .yes, .go 0 .yes, .go 0 .no, .go 0 .yes, .go 0 .yes]).any
        (fun s => s.alive 7 && s.alive 8) = true := by
      decide +kernel
    obtain ⟨s, hs, halive⟩ := (Option.any_eq_true _ _).1 hexec
    rw [Bool.and_eq_true] at halive
    have heq := (h leftover s leftover_resting (Run.of_guarded (Reaches.of_exec hs))).one 7 8
      halive.1 halive.2
    cases heq

end Apps

end WlanpiCore.Namespaces
