import WlanpiCore.Lib.Prog
import WlanpiCore.Lib.Text
import Mathlib.Data.List.Infix

/-!
# The service allowlist

The `/service/*` routes of `services/system_service.py`. A name is normalised three times over: the
allowlist sees it without any `.service` in it, systemd gets it with `.service` at the end unless
there is one somewhere, and the profiler lock is decided by the name without a last `.service`.

**Theorem (`request_decided_iff`).** An accepted name hands systemd the unit of an allowed service,
under the profiler lock where it starts the profiler, exactly when it is an allowed service with at
most one `.service` after it, or the system bus cannot be reached. The others pass the allowlist
because `replace` takes every `.service` out, also from the middle.
-/

namespace WlanpiCore.Services

open Prog

/-! ## Text -/

/-- `str.replace(part, "")` after `skip` more characters of a part that is taken out. -/
def removeFrom (part : Text) : Nat → Text → Text
  | _, [] => []
  | skip + 1, _ :: s => removeFrom part skip s
  | 0, c :: s =>
    if part.isPrefixOf (c :: s) then removeFrom part (part.length - 1) s
    else c :: removeFrom part 0 s

/-- `str.replace(part, "")` for a `part` that is not empty: left to right, without overlaps. -/
def removeAll (part s : Text) : Text := removeFrom part 0 s

/-- `str.removesuffix` -/
def removeEnd (part s : Text) : Text :=
  if part.isSuffixOf s then s.take (s.length - part.length) else s

def serviceSuffix : Text := ".service".toList

example : removeAll serviceSuffix "wlanpi.service-profiler.service".toList =
    "wlanpi-profiler".toList ∧
    removeAll serviceSuffix ".serv.serviceice".toList = serviceSuffix := by decide

@[simp] theorem removeEnd_append (part s : Text) : removeEnd part (s ++ part) = s := by
  have h : part.isSuffixOf (s ++ part) = true := by simp
  simp [removeEnd, h]

theorem removeEnd_of_not {part s : Text} (h : ¬part <:+: s) : removeEnd part s = s := by
  have hsuffix : ¬part <:+ s := fun hs => h hs.isInfix
  simp [removeEnd, hsuffix]

/-! ## The services -/

/-- `profiler_cli.PROFILER_UNIT` -/
def profilerUnit : Text := "wlanpi-profiler".toList

def allowedServices : List Text :=
  [profilerUnit, "wlanpi-fpms".toList, "wlanpi-chat-bot".toList, "bt-agent".toList,
    "bt-network".toList, "iperf2".toList, "iperf2-udp".toList, "iperf3".toList,
    "tftpd-hpa".toList, "hostapd".toList, "wpa_supplicant".toList, "kismet".toList,
    "grafana-server".toList, "cockpit".toList, "wlanpi-grafana-scanner-wlan0".toList,
    "wlanpi-grafana-scanner-wlan1".toList, "wlanpi-grafana-scanner-wlan2".toList,
    "wlanpi-grafana-health".toList, "wlanpi-grafana-internet".toList,
    "wlanpi-grafana-wispy-24".toList, "wlanpi-grafana-wispy-5".toList,
    "wlanpi-grafana-wipry-lp-24".toList, "wlanpi-grafana-wipry-lp-5".toList,
    "wlanpi-grafana-wipry-lp-6".toList, "wlanpi-grafana-wipry-lp-stop".toList,
    "wpa_supplicant@wlan0".toList]

/-- `models.validation_error.ValidationError` -/
structure ValidationError where
  errorMsg : String
  statusCode : Nat
  deriving DecidableEq

/-- A call of systemd's manager and the unit name handed over. -/
inductive SystemdCall where
  | getUnit (service : Text)
  | startUnit (service : Text)
  | stopUnit (service : Text)
  deriving DecidableEq

def SystemdCall.service : SystemdCall → Text
  | .getUnit service | .startUnit service | .stopUnit service => service

/-- What comes from outside the repository. -/
structure Env where
  unicode : Text.Unicode
  /-- `_get_systemd_client` -/
  client : Except ValidationError Unit
  /-- The `LoadState` and `ActiveState` of a unit, `none` when it is not loaded. -/
  unitState : Text → Except ValidationError (Option (Text × Text))
  startUnit : Text → Except ValidationError Unit
  stopUnit : Text → Except ValidationError Unit

structure World where
  /-- The running request holds `profiler_lock`. -/
  profilerLock : Bool
  /-- The calls of systemd, each with whether the lock was held. -/
  calls : List (SystemdCall × Bool)

abbrev Service (α : Type) := Prog World ValidationError α

/-- The answer of a `/service/*` route. -/
structure ServiceStatus where
  name : Text
  active : Bool
  deriving DecidableEq

section

variable (E : Env)

/-- `is_allowed_service` -/
def isAllowedService (service : Text) : Bool :=
  allowedServices.contains (removeAll serviceSuffix service)

/-- The unit name in `get_service_active_state`, `stop_service` and `start_service`. -/
def unitName (service : Text) : Text :=
  if serviceSuffix <:+: service then service else service ++ serviceSuffix

/-- A call of systemd through its D-Bus client. -/
def systemd {α : Type} (call : SystemdCall) (reply : Except ValidationError α) : Service α := do
  lift E.client
  update fun w => { w with calls := w.calls ++ [(call, w.profilerLock)] }
  lift reply

/-- `get_service_active_state` -/
def getServiceActiveState (service : Text) : Service Text := do
  match ← systemd E (.getUnit (unitName service)) (E.unitState (unitName service)) with
  | some (loadState, activeState) =>
    return if loadState = "loaded".toList then activeState else "inactive".toList
  | none => return "inactive".toList

/-- `check_service_status` -/
def checkServiceStatus (service : Text) : Service Bool := do
  return (← getServiceActiveState E service) = "active".toList

/-- `stop_service` -/
def stopService (service : Text) : Service Bool := do
  systemd E (.stopUnit (unitName service)) (E.stopUnit (unitName service))
  return false

/-- `start_service` -/
def startService (service : Text) : Service Bool := do
  systemd E (.startUnit (unitName service)) (E.startUnit (unitName service))
  return true

/-- `async with _start_lock(name)`. The lock of another task is waited for. -/
def startLock {α : Type} (name : Text) (body : Service α) : Service α :=
  if removeEnd serviceSuffix name = profilerUnit then
    ensuring (do update ({ · with profilerLock := true }); body)
      (update ({ · with profilerLock := false }))
  else body

/-- A request of the `/service/*` routes. -/
inductive Request where
  | status
  | stop
  | start
  deriving DecidableEq

/-- `name.strip().lower()` -/
def normalize (name : Text) : Text := Text.lower E.unicode (Text.strip name)

/-- What the three routes do with a name they accept. -/
def Request.act (name : Text) : Request → Service Bool
  | .status => checkServiceStatus E name
  | .stop => stopService E name
  | .start => startLock name (startService E name)

/-- The message for a name that is not accepted. -/
def Request.refusal (name : Text) : Request → String
  | .status => s!"{String.ofList name} access is restricted or does not exist"
  | .stop => s!"stopping {String.ofList name} is restricted or does not exist"
  | .start => s!"starting {String.ofList name} is restricted or does not exist"

/-- The three routes share their shape: normalise, check, act or refuse. -/
def Request.run (request : Request) (name : Text) : Service ServiceStatus := do
  let name := normalize E name
  if isAllowedService name then
    let active ← request.act E name
    return { name, active }
  else raise ⟨request.refusal name, 400⟩

/-- `get_systemd_service_status` -/
def getSystemdServiceStatus (name : Text) : Service ServiceStatus := Request.status.run E name

/-- `stop_systemd_service` -/
def stopSystemdService (name : Text) : Service ServiceStatus := Request.stop.run E name

/-- `start_systemd_service` -/
def startSystemdService (name : Text) : Service ServiceStatus := Request.start.run E name

end

/-! ## What is handed to systemd -/

/-- The unit of an allowed service, under the lock where the profiler is started. -/
def Decided (call : SystemdCall) (held : Bool) : Prop :=
  (∃ a ∈ allowedServices, call.service = a ++ serviceSuffix) ∧
    (call = .startUnit (profilerUnit ++ serviceSuffix) → held = true)

/-- An allowed service with at most one `.service` after it. -/
def Plain (name : Text) : Prop :=
  name ∈ allowedServices ∨ ∃ a ∈ allowedServices, name = a ++ serviceSuffix

instance (name : Text) : Decidable (Plain name) := by unfold Plain; infer_instance

theorem allowedServices_bare : ∀ a ∈ allowedServices, ¬serviceSuffix <:+: a := by decide +kernel

theorem unitName_bare {a : Text} (h : a ∈ allowedServices) : unitName a = a ++ serviceSuffix :=
  if_neg (allowedServices_bare a h)

theorem unitName_suffixed (a : Text) : unitName (a ++ serviceSuffix) = a ++ serviceSuffix :=
  if_pos (List.suffix_append a serviceSuffix).isInfix

/-- A plain name's unit and lock decision belong to one allowed service. -/
theorem Plain.service {name : Text} (h : Plain name) :
    ∃ a ∈ allowedServices, unitName name = a ++ serviceSuffix ∧
      removeEnd serviceSuffix name = a := by
  rcases h with h | ⟨a, ha, rfl⟩
  · exact ⟨name, h, unitName_bare h, removeEnd_of_not (allowedServices_bare name h)⟩
  · exact ⟨a, ha, unitName_suffixed a, removeEnd_append serviceSuffix a⟩

theorem plain_of_unitName {name a : Text} (ha : a ∈ allowedServices)
    (h : unitName name = a ++ serviceSuffix) : Plain name := by
  unfold unitName at h
  split_ifs at h with hinfix
  · exact Or.inr ⟨a, ha, h⟩
  · exact Or.inl (List.append_cancel_right h ▸ ha)

/-- The call a request makes. -/
def Request.call (name : Text) : Request → SystemdCall
  | .status => .getUnit (unitName name)
  | .stop => .stopUnit (unitName name)
  | .start => .startUnit (unitName name)

/-- A start takes the lock when the name without its last `.service` is the profiler's. -/
def Request.locks (name : Text) : Request → Bool
  | .start => removeEnd serviceSuffix name = profilerUnit
  | _ => false

@[simp] theorem Request.call_service (name : Text) (request : Request) :
    (request.call name).service = unitName name := by
  cases request <;> rfl

/-- A request for a plain name. -/
theorem Plain.decided {name : Text} (h : Plain name) (request : Request) (held : Bool) :
    Decided (request.call name) (request.locks name || held) := by
  obtain ⟨a, ha, hunit, hlock⟩ := h.service
  refine ⟨⟨a, ha, by rw [Request.call_service, hunit]⟩, ?_⟩
  cases request with
  | start =>
    intro hcall
    have hprofiler : a ++ serviceSuffix = profilerUnit ++ serviceSuffix := by
      rw [← hunit]
      exact SystemdCall.startUnit.inj hcall
    simp [Request.locks, hlock, List.append_cancel_right hprofiler]
  | status => intro hcall; cases hcall
  | stop => intro hcall; cases hcall

/-! ## Runs -/

variable {E : Env}

theorem systemd_calls {α : Type} {call : SystemdCall} {reply : Except ValidationError α}
    (hclient : E.client = .ok ()) (w : World) :
    Ends (systemd E call reply) w fun r w' =>
      r = reply ∧ w' = { w with calls := w.calls ++ [(call, w.profilerLock)] } := by
  unfold systemd
  rw [hclient, lift_ok, pure_bind, ends_bind, ends_update]
  exact ⟨rfl, rfl⟩

theorem systemd_unreachable {α : Type} {call : SystemdCall} {reply : Except ValidationError α}
    {e : ValidationError} (hclient : E.client = .error e) (w : World) :
    systemd E call reply w = (.error e, w) := by
  unfold systemd
  exact bind_error (by rw [hclient]; rfl)

/-- One call of systemd, if the bus can be reached, and nothing behind it that calls again. -/
theorem systemd_bind_calls {α β : Type} {call : SystemdCall} {reply : Except ValidationError α}
    {rest : α → Service β} (hrest : ∀ a w, Ends (rest a) w fun _ w' => w'.calls = w.calls)
    (w : World) :
    Ends (systemd E call reply >>= rest) w fun _ w' => w'.calls = w.calls ++
      if E.client = .ok () then [(call, w.profilerLock)] else [] := by
  rcases hclient : E.client with e | u
  · rw [ends_bind_error (systemd_unreachable hclient w)]
    simp
  · rw [ends_bind]
    refine (systemd_calls hclient w).mono fun r w' ⟨hr, hw⟩ => ?_
    subst hw
    cases r with
    | error e => rfl
    | ok a => exact (hrest a _).mono fun r w' h => h

theorem act_calls (request : Request) (name : Text) (w : World) :
    Ends (request.act E name) w fun _ w' => w'.calls = w.calls ++
      if E.client = .ok () then [(request.call name, request.locks name || w.profilerLock)]
        else [] := by
  cases request with
  | start =>
    have hstart (w : World) : Ends (startService E name) w fun _ w' => w'.calls = w.calls ++
        if E.client = .ok () then [(.startUnit (unitName name), w.profilerLock)] else [] := by
      unfold startService
      apply systemd_bind_calls
      intro _ w
      rfl
    unfold Request.act startLock Request.call Request.locks
    by_cases hlock : removeEnd serviceSuffix name = profilerUnit
    · simp only [hlock, if_true, decide_true, Bool.true_or]
      rw [ends_ensuring, ends_bind, ends_update]
      exact (hstart { w with profilerLock := true }).mono fun r w' h => by simpa using h
    · simp only [hlock, if_false, decide_false, Bool.false_or]
      exact hstart w
  | stop =>
    show Ends (stopService E name) w _
    unfold stopService
    apply systemd_bind_calls
    intro _ w
    rfl
  | status =>
    unfold Request.act Request.call Request.locks checkServiceStatus getServiceActiveState
    rw [bind_assoc]
    apply systemd_bind_calls
    intro unit w
    cases unit with
    | none => rfl
    | some unit => rfl

theorem run_calls (request : Request) (name : Text) (w : World) :
    Ends (request.run E name) w fun _ w' => w'.calls = w.calls ++
      if isAllowedService (normalize E name) = true ∧ E.client = .ok () then
        [(request.call (normalize E name), request.locks (normalize E name) || w.profilerLock)]
      else [] := by
  unfold Request.run
  generalize normalize E name = name
  by_cases hallowed : isAllowedService name = true
  · simp only [hallowed, if_true, true_and]
    rw [ends_bind]
    refine (act_calls request name w).mono fun r w' h => ?_
    cases r with
    | error e => exact h
    | ok active => exact h
  · simp only [hallowed, if_false, false_and, List.append_nil, Bool.false_eq_true]
    rfl

/-- An accepted name is one of an allowed service's two, or systemd is handed a unit that is no
allowed service's. -/
theorem request_decided_iff (E : Env) (request : Request) (name : Text) (w : World) :
    (∀ call held, (call, held) ∈ (request.run E name w).2.calls.drop w.calls.length →
      Decided call held) ↔
    (isAllowedService (normalize E name) = true → E.client = .ok () →
      Plain (normalize E name)) := by
  have hcalls := run_calls (E := E) request name w
  unfold Ends at hcalls
  rw [hcalls, List.drop_left]
  constructor
  · intro h hallowed hclient
    rw [if_pos ⟨hallowed, hclient⟩] at h
    obtain ⟨⟨a, ha, hunit⟩, -⟩ := h _ _ List.mem_cons_self
    rw [Request.call_service] at hunit
    exact plain_of_unitName ha hunit
  · intro h call held hmem
    split_ifs at hmem with hcond
    · obtain ⟨rfl, rfl⟩ := Prod.mk.inj (List.mem_singleton.1 hmem)
      exact (h hcond.1 hcond.2).decided request w.profilerLock
    · cases hmem

/-! ## A name with `.service` in the middle -/

/-- A device where everything systemd is asked for succeeds. -/
def calmEnv : Env where
  unicode := Text.Unicode.ascii
  client := .ok ()
  unitState _ := .ok (some ("loaded".toList, "active".toList))
  startUnit _ := .ok ()
  stopUnit _ := .ok ()

/-- The allowlist takes the name for the profiler's; systemd is asked for another unit. -/
theorem not_decided_middle : ¬∀ call held, (call, held) ∈
    (startSystemdService calmEnv "wlanpi.service-profiler".toList ⟨false, []⟩).2.calls →
      Decided call held := by
  intro h
  have hcalls : (startSystemdService calmEnv "wlanpi.service-profiler".toList ⟨false, []⟩).2.calls =
      [(.startUnit "wlanpi.service-profiler".toList, false)] := by decide +kernel
  obtain ⟨⟨a, ha, hunit⟩, -⟩ := h _ _ (hcalls ▸ List.mem_cons_self)
  revert a
  decide +kernel

end WlanpiCore.Services
