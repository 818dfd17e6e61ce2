import WlanpiCore.Lib.Text
import WlanpiCore.Lib.Transition
import Mathlib.Data.List.AList
import Mathlib.Logic.Function.Basic

/-!
# Connection monitors

A controller that starts and stops monitors, one call after another, and the threads of the
monitors. What a call does under the lock is one step, and so is what a thread does between two
looks at its stop flag. A `join` may time out, so the step after it may come at any time.

**`Monitors.orderly`**: in every reachable state, of the monitors of one interface that have not
finished at most one has not been told to stop, the two registries agree, a monitor that was told
to stop has begun at most one more side effect, and no thread removes another one's entries.
-/

namespace WlanpiCore.Connection

/-- `monitor_key` -/
abbrev Key := Text

abbrev MonitorId := Nat

/-- What a monitor reads of its configuration. -/
structure Config where
  defaultRoute : Bool
  autostartApp : Option Text

/-- What a monitor is started for. -/
structure Start where
  cfg : Config
  netns : Option Text
  iface : Text

def monitorKey (netns : Option Text) (iface : Text) : Key :=
  (netns.filter (· ≠ [])).getD "root".toList ++ ":".toList ++ iface

inductive Effect where
  | dhcp
  | defaultRoute
  | app

/-- Where the thread of a monitor is. -/
inductive Pc where
  | unstarted
  /-- at the head of the loop -/
  | polling
  /-- asking for the WPA status -/
  | checking
  /-- connected, about to look at the flag -/
  | connected
  | dhcp
  | afterDhcp
  | route
  | afterRoute
  | app
  /-- not connected in time, about to look at the flag -/
  | late
  | lateDhcp
  | deregistering
  | finished
  deriving DecidableEq

structure Monitor where
  start : Start
  /-- `stop_event.is_set()` -/
  flag : Bool := false
  pc : Pc := .unstarted
  /-- The effects begun since the flag was set. Only statements use it. -/
  late : List Effect := []

def Monitor.key (m : Monitor) : Key := monitorKey m.start.netns m.start.iface

/-- Where the controller is. -/
inductive Call where
  | idle
  /-- joining, in `stop_connection_monitor`, which `start_monitor` calls for what it starts -/
  | stopping (key : Key) (next : Option Start)
  | registering (start : Start)
  | launching (id : MonitorId)
  | stoppingAll

structure Monitors where
  /-- `_connection_monitors` -/
  threads : AList fun _ : Key => MonitorId := ∅
  /-- `_monitor_stop_flags` -/
  flags : AList fun _ : Key => MonitorId := ∅
  monitor : MonitorId → Monitor
  next : MonitorId := 0
  call : Call := .idle

inductive Act where
  | start (start : Start)
  | stop (netns : Option Text) (iface : Text)
  | stopAll
  /-- The controller goes on; whether a thread that it starts does start. -/
  | go (started : Bool)
  /-- A monitor's thread goes on; what it was told. -/
  | run (id : MonitorId) (answer : Bool)

namespace Monitors

def update (s : Monitors) (id : MonitorId) (f : Monitor → Monitor) : Monitors :=
  { s with monitor := Function.update s.monitor id (f (s.monitor id)) }

@[simp] theorem update_monitor (s : Monitors) (id : MonitorId) (f : Monitor → Monitor)
    (id' : MonitorId) :
    (s.update id f).monitor id' = if id' = id then f (s.monitor id) else s.monitor id' := by
  simp only [update, Function.update_apply]

/-! ## The controller -/

/-- The first part of `stop_connection_monitor`. -/
def stop (s : Monitors) (key : Key) (next : Option Start) : Monitors :=
  let s := { s with call := .stopping key next }
  match s.flags.lookup key with
  | none => s
  | some id => s.update id ({ · with flag := true })

/-- The flag of every registered monitor is set. -/
def flagAll (s : Monitors) (id : MonitorId) : Monitor :=
  if id ∈ s.flags.entries.map Sigma.snd then { s.monitor id with flag := true } else s.monitor id

/-- The first part of `stop_all_connection_monitors`. -/
def stopAll (s : Monitors) : Monitors := { s with monitor := s.flagAll, call := .stoppingAll }

/-- What the controller does next. -/
def go (s : Monitors) (started : Bool) : Option Monitors :=
  match s.call with
  | .idle => none
  | .stopping key next => some { s with
      threads := s.threads.erase key
      flags := s.flags.erase key
      call := next.elim .idle .registering }
  | .registering start =>
    let key := monitorKey start.netns start.iface
    some { s with
      threads := s.threads.insert key s.next
      flags := s.flags.insert key s.next
      monitor := Function.update s.monitor s.next { start }
      next := s.next + 1
      call := .launching s.next }
  | .launching id =>
    let s := { s with call := .idle }
    if started then some (s.update id ({ · with pc := .polling }))
    else
      let key := (s.monitor id).key
      some { s.update id ({ · with pc := .finished }) with
        threads := s.threads.erase key
        flags := s.flags.erase key }
  | .stoppingAll => some { s with threads := ∅, flags := ∅, call := .idle }

/-! ## The threads -/

/-- The thread begins an effect. -/
def begin (s : Monitors) (id : MonitorId) (effect : Effect) (pc : Pc) : Monitors :=
  s.update id fun m => { m with pc, late := if m.flag then m.late ++ [effect] else m.late }

/-- The thread removes its own entries. -/
def deregister (s : Monitors) (id : MonitorId) : Monitors :=
  let key := (s.monitor id).key
  { s.update id ({ · with pc := .finished }) with
    threads := if s.threads.lookup key = some id then s.threads.erase key else s.threads
    flags := if s.flags.lookup key = some id then s.flags.erase key else s.flags }

/-- What a monitor's thread does next. `answer` is whether the time is up, whether the interface is
connected, or whether the effect raised. -/
def run (s : Monitors) (id : MonitorId) (answer : Bool) : Option Monitors :=
  let m := s.monitor id
  let enter (pc : Pc) : Option Monitors := some (s.update id ({ · with pc }))
  match m.pc with
  | .unstarted | .finished => none
  | .polling => enter (if answer then .late else if m.flag then .deregistering else .checking)
  | .checking => enter (if answer then .connected else .polling)
  | .connected => enter (if m.flag then .deregistering else .dhcp)
  | .dhcp => some (s.begin id .dhcp .afterDhcp)
  | .afterDhcp => enter (if answer ∨ m.flag then .deregistering
      else if m.start.cfg.defaultRoute then .route else .afterRoute)
  | .route => some (s.begin id .defaultRoute .afterRoute)
  | .afterRoute => enter (if answer ∨ m.flag then .deregistering
      else if (m.start.cfg.autostartApp.filter (· ≠ [])).isSome then .app else .deregistering)
  | .app => some (s.begin id .app .deregistering)
  | .late => enter (if m.flag then .deregistering else .lateDhcp)
  | .lateDhcp => some (s.begin id .dhcp .deregistering)
  | .deregistering => some (s.deregister id)

def step (s : Monitors) : Act → Option Monitors
  | .start start =>
    match s.call with
    | .idle => some (s.stop (monitorKey start.netns start.iface) (some start))
    | _ => none
  | .stop netns iface =>
    match s.call with
    | .idle => some (s.stop (monitorKey netns iface) none)
    | _ => none
  | .stopAll =>
    match s.call with
    | .idle => some s.stopAll
    | _ => none
  | .go started => s.go started
  | .run id answer => if id < s.next then s.run id answer else none

def initial : Monitors where
  monitor _ := { start := ⟨⟨false, none⟩, none, []⟩ }

/-! ## The invariant -/

/-- How a monitor may be changed by a step that leaves its entries: it is told to stop, or its
thread goes on. -/
structure Later (m m' : Monitor) : Prop where
  start : m'.start = m.start
  flag : m.flag = true → m'.flag = true
  finished : m.pc = .finished → m'.pc = .finished

theorem Later.refl (m : Monitor) : Later m m := ⟨rfl, id, id⟩

/-- A monitor that was told to stop begins at most one effect more. -/
def Halting (m : Monitor) : Prop :=
  (m.flag = false → m.late = []) ∧
    (m.late = [] ∨ (∃ effect, m.late = [effect]) ∧
      (m.pc = .afterDhcp ∨ m.pc = .afterRoute ∨ m.pc = .deregistering ∨ m.pc = .finished))

/-- What the controller has found out. -/
def CallSound (s : Monitors) : Call → Prop
  | .idle => True
  | .stopping key next => (∀ start, next = some start → monitorKey start.netns start.iface = key) ∧
    ∀ id, s.flags.lookup key = some id → (s.monitor id).flag = true
  | .registering start => s.flags.lookup (monitorKey start.netns start.iface) = none
  | .launching id => id < s.next ∧ (s.monitor id).pc = .unstarted ∧
    s.flags.lookup (s.monitor id).key = some id
  | .stoppingAll => ∀ key id, s.flags.lookup key = some id → (s.monitor id).flag = true

structure Inv (s : Monitors) : Prop where
  agree : ∀ key, s.threads.lookup key = s.flags.lookup key
  registered : ∀ key id, s.flags.lookup key = some id →
    id < s.next ∧ (s.monitor id).key = key
  /-- A monitor that is not registered has finished or was told to stop. -/
  unregistered : ∀ id < s.next, s.flags.lookup (s.monitor id).key ≠ some id →
    (s.monitor id).pc = .finished ∨ (s.monitor id).flag = true
  halting : ∀ id < s.next, Halting (s.monitor id)
  call : CallSound s s.call

/-- A step that leaves the registries and the controller alone. -/
theorem Inv.later {s : Monitors} (h : s.Inv) {monitor : MonitorId → Monitor}
    (hlater : ∀ id, Later (s.monitor id) (monitor id))
    (hhalting : ∀ id < s.next, Halting (monitor id))
    (hunstarted : ∀ id, s.call = .launching id → (s.monitor id).pc = .unstarted →
      (monitor id).pc = .unstarted) : { s with monitor }.Inv := by
  have hkey (id : MonitorId) : (monitor id).key = (s.monitor id).key := by
    rw [Monitor.key, (hlater id).start, Monitor.key]
  refine ⟨h.agree, fun key id hid => ?_, fun id hid hnot => ?_, hhalting, ?_⟩
  · rw [hkey]
    exact h.registered key id hid
  · rw [hkey] at hnot
    exact (h.unregistered id hid hnot).imp (hlater id).finished (hlater id).flag
  · have hcall := h.call
    cases hc : s.call with
    | idle => trivial
    | stopping key next =>
      rw [hc] at hcall
      exact ⟨hcall.1, fun id hid => (hlater id).flag (hcall.2 id hid)⟩
    | registering start =>
      rw [hc] at hcall
      exact hcall
    | launching id =>
      rw [hc] at hcall
      obtain ⟨hlt, hpc, hlookup⟩ := hcall
      exact ⟨hlt, hunstarted id hc hpc, by rw [hkey]; exact hlookup⟩
    | stoppingAll =>
      rw [hc] at hcall
      exact fun key id hid => (hlater id).flag (hcall key id hid)

/-- A step that changes one monitor only. -/
theorem Inv.update {s : Monitors} (h : s.Inv) {id : MonitorId} {f : Monitor → Monitor}
    (hlater : Later (s.monitor id) (f (s.monitor id)))
    (hhalting : id < s.next → Halting (f (s.monitor id)))
    (hunstarted : s.call = .launching id → (s.monitor id).pc = .unstarted →
      (f (s.monitor id)).pc = .unstarted) : (s.update id f).Inv := by
  refine h.later (fun id' => ?_) (fun id' hid' => ?_) fun id' hcall hpc => ?_
  all_goals
    rw [Function.update_apply]
    split_ifs with heq
  · rw [heq]
    exact hlater
  · exact .refl _
  · exact hhalting (heq ▸ hid')
  · exact h.halting id' hid'
  · exact hunstarted (heq ▸ hcall) (heq ▸ hpc)
  · exact hpc

/-- Entries of monitors that have finished or were told to stop may be removed. -/
theorem Inv.erase {s : Monitors} (h : s.Inv) {key : Key} {call : Call}
    (hover : ∀ id, s.flags.lookup key = some id →
      (s.monitor id).pc = .finished ∨ (s.monitor id).flag = true)
    (hcall : CallSound { s with
      threads := s.threads.erase key, flags := s.flags.erase key, call } call) :
    { s with threads := s.threads.erase key, flags := s.flags.erase key, call }.Inv := by
  have hlookup (registry : AList fun _ : Key => MonitorId) (key' : Key) :
      (registry.erase key).lookup key' = if key' = key then none else registry.lookup key' := by
    split_ifs with heq
    · rw [heq, AList.lookup_erase]
    · exact AList.lookup_erase_ne heq
  refine ⟨fun key' => ?_, fun key' id hid => ?_, fun id hid hnot => ?_, h.halting, hcall⟩
  · rw [hlookup, hlookup, h.agree]
  · dsimp only at hid
    rw [hlookup] at hid
    split_ifs at hid
    exact h.registered key' id hid
  · dsimp only at hnot ⊢
    rw [hlookup] at hnot
    split_ifs at hnot with heq
    · by_cases hregistered : s.flags.lookup key = some id
      · exact hover id hregistered
      · exact h.unregistered id hid (heq ▸ hregistered)
    · exact h.unregistered id hid hnot

theorem CallSound.erase {s : Monitors} {key : Key} {call : Call} (h : CallSound s call)
    (hlaunching : ∀ id, call = .launching id → (s.monitor id).key ≠ key) :
    CallSound { s with threads := s.threads.erase key, flags := s.flags.erase key } call := by
  have hkeep (key' : Key) (id : MonitorId) (hid : (s.flags.erase key).lookup key' = some id) :
      s.flags.lookup key' = some id := by
    by_cases heq : key' = key
    · rw [heq, AList.lookup_erase] at hid
      cases hid
    · rwa [AList.lookup_erase_ne heq] at hid
  cases call with
  | idle => trivial
  | stopping key' next => exact ⟨h.1, fun id hid => h.2 id (hkeep key' id hid)⟩
  | registering start =>
    change (s.flags.erase key).lookup _ = none
    by_contra hsome
    obtain ⟨id, hid⟩ := Option.ne_none_iff_exists'.1 hsome
    exact absurd ((hkeep _ id hid).symm.trans h) (by simp)
  | launching id =>
    obtain ⟨hlt, hunstarted, hlookup⟩ := h
    exact ⟨hlt, hunstarted, (AList.lookup_erase_ne (hlaunching id rfl)).trans hlookup⟩
  | stoppingAll => exact fun key' id hid => h key' id (hkeep key' id hid)

/-! ## Steps -/

theorem Halting.flagged {m : Monitor} (h : Halting m) : Halting { m with flag := true } :=
  ⟨fun hflag => Bool.noConfusion hflag, h.2⟩

theorem Inv.withCall {s : Monitors} (h : s.Inv) {call : Call} (hcall : CallSound s call) :
    { s with call }.Inv := by
  refine ⟨h.agree, h.registered, h.unregistered, h.halting, ?_⟩
  cases call <;> exact hcall

theorem Inv.stop {s : Monitors} (h : s.Inv) (key : Key) (next : Option Start)
    (hnext : ∀ start, next = some start → monitorKey start.netns start.iface = key) :
    (s.stop key next).Inv := by
  unfold Monitors.stop
  dsimp only
  cases hlookup : s.flags.lookup key with
  | none => exact h.withCall ⟨hnext, fun id hid => absurd (hlookup.symm.trans hid) (by simp)⟩
  | some id =>
    have hflagged : (s.update id ({ · with flag := true })).Inv :=
      h.update ⟨rfl, fun _ => rfl, fun hp => hp⟩ (fun hid => (h.halting id hid).flagged)
        fun _ hpc => hpc
    refine hflagged.withCall ⟨hnext, fun id' hid' => ?_⟩
    obtain rfl : id = id' := Option.some.inj (hlookup.symm.trans hid')
    rw [update_monitor, if_pos rfl]

theorem Inv.stopAll {s : Monitors} (h : s.Inv) : s.stopAll.Inv := by
  have hmem (id : MonitorId) (key : Key) (hid : s.flags.lookup key = some id) :
      id ∈ s.flags.entries.map Sigma.snd :=
    List.mem_map.2 ⟨⟨key, id⟩, AList.mem_lookup_iff.1 hid, rfl⟩
  have hflagged : { s with monitor := s.flagAll }.Inv := by
    refine h.later (fun id => ?_) (fun id hid => ?_) fun id _ hpc => ?_
    all_goals
      unfold flagAll
      split_ifs
    · exact ⟨rfl, fun _ => rfl, fun hp => hp⟩
    · exact .refl _
    · exact (h.halting id hid).flagged
    · exact h.halting id hid
    · exact hpc
    · exact hpc
  refine hflagged.withCall fun key id hid => ?_
  dsimp only [flagAll]
  rw [if_pos (hmem id key hid)]

/-- A new monitor is registered. -/
theorem Inv.register {s : Monitors} (h : s.Inv) {start : Start}
    (hcall : s.call = .registering start) :
    Inv { s with
      threads := s.threads.insert (monitorKey start.netns start.iface) s.next
      flags := s.flags.insert (monitorKey start.netns start.iface) s.next
      monitor := Function.update s.monitor s.next { start }
      next := s.next + 1
      call := .launching s.next } := by
  have hlookup (registry : AList fun _ : Key => MonitorId) (key : Key) :
      (registry.insert (monitorKey start.netns start.iface) s.next).lookup key =
        if key = monitorKey start.netns start.iface then some s.next else registry.lookup key := by
    split_ifs with heq
    · rw [heq, AList.lookup_insert]
    · exact AList.lookup_insert_ne heq
  have hfree : s.flags.lookup (monitorKey start.netns start.iface) = none := by
    have hsound := h.call
    rwa [hcall] at hsound
  have hold (id : MonitorId) (hid : id < s.next) :
      Function.update s.monitor s.next { start } id = s.monitor id :=
    Function.update_of_ne hid.ne _ _
  have hnew : Function.update s.monitor s.next { start } s.next = { start } :=
    Function.update_self ..
  refine ⟨fun key => ?_, fun key id hid => ?_, fun id hid hnot => ?_, fun id hid => ?_,
    ⟨Nat.lt_succ_self _, ?_, ?_⟩⟩
  · rw [hlookup, hlookup, h.agree]
  · dsimp only at hid ⊢
    rw [hlookup] at hid
    split_ifs at hid with heq
    · obtain rfl := Option.some.inj hid
      exact ⟨Nat.lt_succ_self _, by rw [hnew, heq]; rfl⟩
    · obtain ⟨hlt, hkey⟩ := h.registered key id hid
      exact ⟨hlt.trans (Nat.lt_succ_self _), by rw [hold id hlt, hkey]⟩
  · dsimp only at hid hnot ⊢
    rcases Nat.lt_succ_iff_lt_or_eq.1 hid with hlt | rfl
    · -- Nothing was registered under the key, so nothing is forgotten.
      rw [hold id hlt] at hnot ⊢
      refine h.unregistered id hlt fun hregistered => hnot ?_
      rw [hlookup, if_neg]
      · exact hregistered
      · intro heq
        rw [heq, hfree] at hregistered
        cases hregistered
    · rw [hnew, hlookup] at hnot
      exact absurd (if_pos rfl) hnot
  · dsimp only at hid ⊢
    rcases Nat.lt_succ_iff_lt_or_eq.1 hid with hlt | rfl
    · rw [hold id hlt]
      exact h.halting id hlt
    · rw [hnew]
      exact ⟨fun _ => rfl, Or.inl rfl⟩
  · dsimp only
    rw [hnew]
  · dsimp only
    rw [hnew]
    exact AList.lookup_insert _

/-- A monitor whose thread has begun nothing. -/
theorem Halting.enter {m : Monitor} {pc : Pc} (h : Halting m)
    (hpc : m.late = [] ∨ pc = .deregistering ∨ pc = .finished) : Halting { m with pc } := by
  refine ⟨h.1, ?_⟩
  rcases h.2 with hnone | ⟨hone, -⟩
  · exact Or.inl hnone
  · rcases hpc with hnone | hpc | hpc
    · exact Or.inl hnone
    · exact Or.inr ⟨hone, by simp [hpc]⟩
    · exact Or.inr ⟨hone, by simp [hpc]⟩

theorem Inv.go {s s' : Monitors} (h : s.Inv) {started : Bool} (hstep : s.go started = some s') :
    s'.Inv := by
  have hcall := h.call
  unfold Monitors.go at hstep
  cases hc : s.call with
  | idle => rw [hc] at hstep; cases hstep
  | stopping key next =>
    rw [hc] at hstep hcall
    cases hstep
    refine h.erase (fun id hid => Or.inr (hcall.2 id hid)) ?_
    cases next with
    | none => trivial
    | some start =>
      have hkey := hcall.1 start rfl
      change (s.flags.erase key).lookup (monitorKey start.netns start.iface) = none
      rw [hkey, AList.lookup_erase]
  | registering start =>
    rw [hc] at hstep
    cases hstep
    exact h.register hc
  | launching id =>
    rw [hc] at hstep hcall
    obtain ⟨hlt, hunstarted, hlookup⟩ := hcall
    have hidle : { s with call := Call.idle }.Inv := h.withCall trivial
    have hmove (pc : Pc) : ({ s with call := Call.idle }.update id ({ · with pc })).Inv := by
      refine hidle.update ⟨rfl, fun hflag => hflag, fun hfinished => ?_⟩ (fun _ => ?_)
        fun hlaunching => Call.noConfusion hlaunching
      · exact absurd (hunstarted.symm.trans hfinished) (by simp)
      · refine (h.halting id hlt).enter (Or.inl ?_)
        rcases (h.halting id hlt).2 with hnone | ⟨-, hpc⟩
        · exact hnone
        · simp [hunstarted] at hpc
    dsimp only at hstep
    split_ifs at hstep with hstarted
    · cases hstep
      exact hmove .polling
    · cases hstep
      refine (hmove .finished).erase (fun id' hid' => Or.inl ?_) trivial
      obtain rfl : id = id' := Option.some.inj (hlookup.symm.trans hid')
      rw [update_monitor, if_pos rfl]
  | stoppingAll =>
    rw [hc] at hstep hcall
    cases hstep
    refine ⟨fun key => rfl, fun key id hid => ?_, fun id hid hnot => ?_, h.halting, trivial⟩
    · rw [AList.lookup_empty] at hid
      cases hid
    · by_cases hregistered : s.flags.lookup (s.monitor id).key = some id
      · exact Or.inr (hcall _ id hregistered)
      · exact h.unregistered id hid hregistered


/-! ## Threads -/

/-- The thread of a monitor takes its own entries out. -/
theorem Inv.deregister {s : Monitors} (h : s.Inv) {id : MonitorId} (hlt : id < s.next)
    (hpc : (s.monitor id).pc = .deregistering) : (s.deregister id).Inv := by
  have hfinished : (s.update id ({ · with pc := .finished })).Inv := by
    refine h.update ⟨rfl, fun hflag => hflag, fun _ => rfl⟩
      (fun _ => (h.halting id hlt).enter (Or.inr (Or.inr rfl))) fun _ hunstarted => ?_
    exact absurd (hpc.symm.trans hunstarted) (by simp)
  unfold Monitors.deregister
  dsimp only
  rw [h.agree]
  by_cases hown : s.flags.lookup (s.monitor id).key = some id
  · rw [if_pos hown, if_pos hown]
    refine hfinished.erase (fun id' hid' => Or.inl ?_) ?_
    · obtain rfl : id = id' := Option.some.inj (hown.symm.trans hid')
      rw [update_monitor, if_pos rfl]
    · refine hfinished.call.erase fun id' hlaunching heq => ?_
      -- The monitor that is being launched has its own entry.
      have hcall := hfinished.call
      rw [hlaunching] at hcall
      obtain ⟨-, hunstarted, hlookup⟩ := hcall
      rw [heq] at hlookup
      obtain rfl : id = id' := Option.some.inj (hown.symm.trans hlookup)
      rw [update_monitor, if_pos rfl] at hunstarted
      cases hunstarted
  · rw [if_neg hown, if_neg hown]
    exact hfinished

theorem Inv.run {s s' : Monitors} (h : s.Inv) {id : MonitorId} {answer : Bool} (hlt : id < s.next)
    (hstep : s.run id answer = some s') : s'.Inv := by
  have hhalting := h.halting id hlt
  -- A thread that is told to stop at its next look has begun at most one effect.
  have henter (pc : Pc) (hpc : (s.monitor id).late = [] ∨ pc = .deregistering)
      (hstarted : (s.monitor id).pc ≠ .unstarted ∧ (s.monitor id).pc ≠ .finished) :
      (s.update id ({ · with pc })).Inv := by
    refine h.update ⟨rfl, fun hflag => hflag, fun hfinished => absurd hfinished hstarted.2⟩
      (fun _ => hhalting.enter (hpc.imp_right Or.inl))
      fun _ hunstarted => absurd hunstarted hstarted.1
  have hbegin (effect : Effect) (pc : Pc) (hnone : (s.monitor id).late = [])
      (hpc : pc = .afterDhcp ∨ pc = .afterRoute ∨ pc = .deregistering ∨ pc = .finished)
      (hstarted : (s.monitor id).pc ≠ .unstarted ∧ (s.monitor id).pc ≠ .finished) :
      (s.begin id effect pc).Inv := by
    refine h.update ⟨rfl, fun hflag => hflag, fun hfinished => absurd hfinished hstarted.2⟩
      (fun _ => ⟨fun hflag => ?_, ?_⟩) fun _ hunstarted => absurd hunstarted hstarted.1
    · dsimp only at hflag ⊢
      rw [hflag, hnone]
      rfl
    · dsimp only
      rw [hnone]
      split_ifs
      · exact Or.inr ⟨⟨effect, rfl⟩, hpc⟩
      · exact Or.inl rfl
  have hnone (hpc : (s.monitor id).pc ≠ .afterDhcp ∧ (s.monitor id).pc ≠ .afterRoute ∧
      (s.monitor id).pc ≠ .deregistering ∧ (s.monitor id).pc ≠ .finished) :
      (s.monitor id).late = [] := by
    rcases hhalting.2 with hnone | ⟨-, hor⟩
    · exact hnone
    · rcases hor with hor | hor | hor | hor
      · exact absurd hor hpc.1
      · exact absurd hor hpc.2.1
      · exact absurd hor hpc.2.2.1
      · exact absurd hor hpc.2.2.2
  have hunflagged (hflag : ¬(answer = true ∨ (s.monitor id).flag = true)) :
      (s.monitor id).late = [] := by
    rw [not_or] at hflag
    exact hhalting.1 (by simpa using hflag.2)
  unfold Monitors.run at hstep
  dsimp only at hstep
  cases hpc : (s.monitor id).pc with
  | unstarted => rw [hpc] at hstep; cases hstep
  | finished => rw [hpc] at hstep; cases hstep
  | polling | checking | connected | late =>
    rw [hpc] at hstep
    cases hstep
    exact henter _ (Or.inl (hnone (by simp [hpc]))) (by simp [hpc])
  | dhcp =>
    rw [hpc] at hstep
    cases hstep
    exact hbegin _ _ (hnone (by simp [hpc])) (by simp) (by simp [hpc])
  | route =>
    rw [hpc] at hstep
    cases hstep
    exact hbegin _ _ (hnone (by simp [hpc])) (by simp) (by simp [hpc])
  | app =>
    rw [hpc] at hstep
    cases hstep
    exact hbegin _ _ (hnone (by simp [hpc])) (by simp) (by simp [hpc])
  | lateDhcp =>
    rw [hpc] at hstep
    cases hstep
    exact hbegin _ _ (hnone (by simp [hpc])) (by simp) (by simp [hpc])
  | afterDhcp | afterRoute =>
    rw [hpc] at hstep
    cases hstep
    refine henter _ ?_ (by simp [hpc])
    by_cases hflag : answer = true ∨ (s.monitor id).flag = true
    · exact Or.inr (if_pos hflag)
    · exact Or.inl (hunflagged hflag)
  | deregistering =>
    rw [hpc] at hstep
    cases hstep
    exact h.deregister hlt hpc

theorem Inv.step {s s' : Monitors} (h : s.Inv) {a : Act} (hstep : s.step a = some s') : s'.Inv := by
  cases a with
  | start start =>
    simp only [Monitors.step] at hstep
    cases hc : s.call <;> rw [hc] at hstep <;> cases hstep
    refine h.stop _ _ fun start' hstart => ?_
    rw [← Option.some.inj hstart]
  | stop netns iface =>
    simp only [Monitors.step] at hstep
    cases hc : s.call <;> rw [hc] at hstep <;> cases hstep
    exact h.stop _ _ fun start hstart => by cases hstart
  | stopAll =>
    simp only [Monitors.step] at hstep
    cases hc : s.call <;> rw [hc] at hstep <;> cases hstep
    exact h.stopAll
  | go started => exact h.go hstep
  | run id answer =>
    simp only [Monitors.step, Option.ite_none_right_eq_some] at hstep
    exact h.run hstep.1 hstep.2

theorem inv_initial : initial.Inv := by
  refine ⟨fun key => rfl, fun key id hid => ?_, fun id hid => ?_, fun id hid => ?_, trivial⟩
  · cases hid
  · exact absurd hid (Nat.not_lt_zero id)
  · exact absurd hid (Nat.not_lt_zero id)

/-! ## Order -/

/-- What holds of the monitors at any time. -/
structure Orderly (s : Monitors) : Prop where
  single : ∀ id < s.next, ∀ id' < s.next,
    (s.monitor id).start.netns = (s.monitor id').start.netns →
    (s.monitor id).start.iface = (s.monitor id').start.iface →
    (s.monitor id).pc ≠ .finished → (s.monitor id').pc ≠ .finished →
    (s.monitor id).flag = false → (s.monitor id').flag = false → id = id'
  agree : ∀ key, s.threads.lookup key = s.flags.lookup key
  late : ∀ id < s.next, (s.monitor id).late.length ≤ 1
  /-- A thread leaves the entries of other monitors. -/
  own : ∀ id answer s', s.step (.run id answer) = some s' → ∀ key, ∀ id' ≠ id,
    s.threads.lookup key = some id' →
      s'.threads.lookup key = some id' ∧ s'.flags.lookup key = some id'

theorem lookup_deregister {registry : AList fun _ : Key => MonitorId} {key own : Key}
    {id id' : MonitorId} (hne : id' ≠ id) (hid' : registry.lookup key = some id') :
    (if registry.lookup own = some id then registry.erase own else registry).lookup key =
      some id' := by
  split_ifs with hown
  · rw [AList.lookup_erase_ne, hid']
    intro heq
    rw [← heq, hid'] at hown
    exact hne (Option.some.inj hown)
  · exact hid'

theorem Inv.toOrderly {s : Monitors} (h : s.Inv) : s.Orderly := by
  have hregistered (id : MonitorId) (hid : id < s.next) (hpc : (s.monitor id).pc ≠ .finished)
      (hflag : (s.monitor id).flag = false) : s.flags.lookup (s.monitor id).key = some id := by
    by_contra hnot
    rcases h.unregistered id hid hnot with hfinished | hflagged
    · exact hpc hfinished
    · rw [hflag] at hflagged
      cases hflagged
  refine ⟨fun id hid id' hid' hnetns hiface hpc hpc' hflag hflag' => ?_, h.agree,
    fun id hid => ?_, fun id answer s' hstep key id' hne hlookup => ?_⟩
  · have hlookup := hregistered id hid hpc hflag
    have hkey : (s.monitor id).key = (s.monitor id').key := by
      rw [Monitor.key, hnetns, hiface, Monitor.key]
    rw [hkey, hregistered id' hid' hpc' hflag'] at hlookup
    exact (Option.some.inj hlookup).symm
  · rcases (h.halting id hid).2 with hnone | ⟨⟨effect, hone⟩, -⟩
    · simp [hnone]
    · simp [hone]
  · have hflags : s.flags.lookup key = some id' := (h.agree key).symm.trans hlookup
    simp only [Monitors.step, Option.ite_none_right_eq_some] at hstep
    obtain ⟨-, hstep⟩ := hstep
    unfold Monitors.run at hstep
    dsimp only at hstep
    cases hpc : (s.monitor id).pc with
    | deregistering =>
      rw [hpc] at hstep
      cases hstep
      exact ⟨lookup_deregister hne hlookup, lookup_deregister hne hflags⟩
    | unstarted | finished =>
      rw [hpc] at hstep
      cases hstep
    | _ =>
      rw [hpc] at hstep
      cases hstep
      exact ⟨hlookup, hflags⟩

theorem orderly {s : Monitors} (h : Reaches step initial s) : s.Orderly := by
  have hinv : s.Inv := h.invariant inv_initial fun _ _ _ hs _ hstep => hs.step hstep
  exact hinv.toOrderly

/-- A monitor is replaced while its thread is in DHCP. -/
theorem orderly_replaced : ∃ s : Monitors, (s.monitor 0).pc = .afterDhcp ∧
    (s.monitor 0).flag = true ∧ (s.monitor 1).pc = .polling ∧ s.Orderly := by
  have hexec : (exec step initial
      [.start ⟨⟨true, none⟩, none, "wlan0".toList⟩, .go true, .go true, .go true, .run 0 false,
        .run 0 true, .run 0 false, .run 0 false,
        .start ⟨⟨true, none⟩, none, "wlan0".toList⟩, .go true, .go true, .go true]).any
      (fun s => (s.monitor 0).pc = .afterDhcp && (s.monitor 0).flag &&
        (s.monitor 1).pc = .polling) = true := by
    decide +kernel
  obtain ⟨s, hs, hstate⟩ := (Option.any_eq_true _ _).1 hexec
  rw [Bool.and_eq_true, Bool.and_eq_true] at hstate
  exact ⟨s, of_decide_eq_true hstate.1.1, hstate.1.2, of_decide_eq_true hstate.2,
    orderly (Reaches.of_exec hs)⟩

end Monitors

end WlanpiCore.Connection
