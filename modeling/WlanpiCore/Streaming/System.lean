import WlanpiCore.Streaming.Manager
import WlanpiCore.Lib.Transition

/-!
# The capture service

`ConnectionManager` runs on one event loop. Each socket has an endpoint coroutine that handles its
commands one after another; each capture has a `stream()` task and each subscription a
`_send_subscription` task. `System.step` runs one of them from the await where it is suspended to
the next one, and what the await returned is a `Reply`.

An await that does not suspend is one that is resumed at once, so the model has one step for it.
Tuning a channel, looking up a namespace and the like are awaits whose reply the environment
picks; a process exits and a hop task ends when the environment says so.
-/

namespace WlanpiCore.Streaming

/-! ## Where coroutines are suspended -/

/-- In `stop_streaming`, before it is done. -/
inductive StopAwait where
  /-- `await task` -/
  | task (k : CaptureId)
  /-- `terminate_process_async` -/
  | process (k : CaptureId)
  /-- `_stop_channel_tasks` -/
  | hops (hops : List HopId)

inductive StopOutcome where
  | unregistered
  /-- A subscriber cannot stop the owner's capture. -/
  | readOnly
  | waiting (await : StopAwait)
  | stopped

/-- What calls `stop_streaming`. -/
inductive AfterStop where
  | command
  | start (start : CaptureStart)
  | disconnect

/-- What calls `_detach_subscriber`. -/
inductive AfterDetach where
  | subscribe (sid : SessionId)
  | unsubscribe (sid : Option SessionId)
  | disconnect

/-- In `start_streaming`, once the interfaces are claimed. -/
inductive StartPhase where
  | resolving
  | tuning (iface : Iface) (todo : List Iface)
  | reporting (e : Event) (todo : List Iface)
  /-- `allow_other_unicast` -/
  | filtering (todo : List Iface)
  /-- `create_subprocess_exec` -/
  | spawning

/-- An endpoint coroutine. -/
inductive Handler where
  | fresh
  | accepting
  | authenticating
  /-- waiting for a command -/
  | idle
  /-- sending the last event of a command -/
  | replying (e : Event)
  | stopping (next : AfterStop) (await : StopAwait)
  | starting (start : CaptureStart) (phase : StartPhase)
  | detaching (next : AfterDetach) (q : SubId)
  /-- sending the last event of a disconnect -/
  | leaving (e : Event)
  /-- An exception escaped a command. -/
  | raised
  | gone

/-- What an await returns or raises. -/
inductive Reply where
  | ok
  | raises
  | timeout
  | osError
  | data (chunk : List UInt8)
  | resolved (netns : Except Text (Option Text))
  | tuned (error : Option Text)
  /-- A process, and the `token_hex` drawn after it. -/
  | spawned (token : Text)

inductive Command where
  | configure (configs : List (Iface × CaptureInterfaceConfig))
  /-- `none` when pydantic refuses the payload. -/
  | start (request : Option CaptureStart)
  | stop
  /-- `.error` is how Python prints a payload that is not a string with characters. -/
  | subscribe (request : Except Text SessionId)
  | unsubscribe

inductive Act where
  | connect (ws : Ws)
  | authenticate (ws : Ws) (did : Text)
  | command (ws : Ws) (c : Command)
  | disconnect (ws : Ws)
  /-- The endpoint's await returns. -/
  | resume (ws : Ws) (r : Reply)
  | stream (k : CaptureId) (r : Reply)
  | sender (q : SubId) (r : Reply)
  | hopEnds (h : HopId)
  | exits (k : CaptureId)

/-! ## Stopping -/

namespace Manager

/-- The end of `stop_streaming`, up to its notification. -/
def finishStop (m : Manager) (ws : Ws) : Manager :=
  ((m.releaseInterfaces ws).endSession ws "CAPTURE_STOPPED" "Capture stopped.").updateClient ws
    ({ · with capture := none })

/-- The loop of `_stop_channel_tasks` that awaits the tasks. -/
def awaitHops (m : Manager) (ws : Ws) (hops : List HopId) : Manager × StopOutcome :=
  if hops = [] then (m.finishStop ws, .stopped) else (m, .waiting (.hops hops))

def stopHops (m : Manager) (ws : Ws) : Manager × StopOutcome :=
  (m.updateClient ws ({ · with channelTasks := [] })).awaitHops ws (m.record ws).channelTasks

/-- `stop_streaming` -/
def stopStreaming (m : Manager) (ws : Ws) : Manager × StopOutcome :=
  if ws ∉ m.clients then (m, .unregistered)
  else if m.subscribedTo ws ≠ none then (m, .readOnly)
  else
    let m := m.updateClient ws fun c => { c with
      sessionEnd := if c.sessionId ≠ none then some ("CAPTURE_STOPPED", "Capture stopped.")
        else c.sessionEnd }
    match (m.record ws).capture with
    | none => m.stopHops ws
    | some k => (m.updateCapture k ({ · with cancelled := true }), .waiting (.task k))

/-- `stop_streaming` goes on, if what it awaits is done. -/
def resumeStop (m : Manager) (ws : Ws) : StopAwait → Option (Manager × StopOutcome)
  | .task k => if (m.capture k).task = .done then some (m, .waiting (.process k)) else none
  | .process k => if (m.capture k).alive then none else some (m.stopHops ws)
  | .hops [] => none
  | .hops (h :: hops) => if m.hopDone h then some (m.awaitHops ws hops) else none

/-! ## The stream task -/

/-- The end of the `finally` of `stream()`. -/
def finishStream (m : Manager) (k : CaptureId) : Manager :=
  let ws := (m.capture k).socket
  let m := m.releaseInterfaces ws
  let (code, message) := (m.record ws).sessionEnd.getD ("CAPTURE_ENDED", "Capture ended.")
  ((m.endSession ws code message).updateClient ws fun c => { c with
    capture := if c.capture = some k then none else c.capture }).updateCapture k
    ({ · with task := .done })

def streamHops (m : Manager) (k : CaptureId) (hops : List HopId) : Manager :=
  if hops = [] then m.finishStream k
  else m.updateCapture k ({ · with task := .stoppingHops hops })

/-- The `finally` of `stream()`, once the process is reaped. -/
def stopStreamHops (m : Manager) (k : CaptureId) : Manager :=
  let ws := (m.capture k).socket
  (m.updateClient ws ({ · with channelTasks := [] })).streamHops k (m.record ws).channelTasks

/-- The `CancelledError` that `cancel` asked for. In the `finally` it skips the rest, except that
the loop awaiting the hop tasks swallows it. -/
def cancelStream (m : Manager) (k : CaptureId) : Option Manager :=
  let m := m.updateCapture k ({ · with cancelled := false })
  let enter (task : StreamTask) : Manager := m.updateCapture k ({ · with task })
  match (m.capture k).task with
  | .created | .terminating => some (enter .done)
  | .reading | .sending _ | .ending | .failing => some (enter .terminating)
  | .stoppingHops (h :: hops) => if m.hopDone h then some (m.streamHops k hops) else none
  | _ => none

/-- `stream()` goes on. -/
def resumeStream (m : Manager) (k : CaptureId) (r : Reply) : Option Manager :=
  let enter (task : StreamTask) : Manager := m.updateCapture k ({ · with task })
  if (m.capture k).cancelled then m.cancelStream k
  else match (m.capture k).task, r with
    | .created, .ok => some (enter .reading)
    | .reading, .data chunk => some (enter (if chunk = [] then .ending else .sending chunk))
    | .sending chunk, .ok => some ((m.broadcastChunk k chunk).updateCapture k
        ({ · with task := .reading }))
    | .reading, .raises | .sending _, .raises => some (enter .failing)
    | .ending, .ok | .failing, .ok => some (enter .terminating)
    | .terminating, .ok => if (m.capture k).alive then none else some (m.stopStreamHops k)
    | .stoppingHops (h :: hops), .ok =>
      if m.hopDone h then some (m.streamHops k hops) else none
    | _, _ => none

/-! ## The sender task -/

/-- The `finally` of `_send_subscription`. -/
def finishSender (m : Manager) (q : SubId) : Manager :=
  (m.clearSubscription (m.sub q).socket (some (m.sub q).sessionId) (some q)).1.updateSub q
    ({ · with sender := .done, cancelled := false })

/-- The loop of `_send_subscription`, from `queue.get()` to the next await. -/
def senderLoop (m : Manager) (q : SubId) : Manager :=
  match (m.sub q).queue with
  | [] => m.updateSub q ({ · with sender := .getting })
  | .message msg :: queue => m.updateSub q fun sub => { sub with
      queue, sender := .sending, sent := sub.sent ++ [msg] }
  | .close :: queue => m.updateSub q ({ · with queue, sender := .closing, closed := true })
  | .done :: queue => (m.updateSub q ({ · with queue })).finishSender q

/-- `_send_subscription` goes on. -/
def resumeSender (m : Manager) (q : SubId) (r : Reply) : Option Manager :=
  if (m.sub q).cancelled then
    match (m.sub q).sender with
    | .created => some (m.updateSub q ({ · with sender := .done, cancelled := false }))
    | .done => none
    | _ => some (m.finishSender q)
  else match (m.sub q).sender, r with
    | .created, .ok | .sending, .ok => some (m.senderLoop q)
    | .getting, .ok => if (m.sub q).queue = [] then none else some (m.senderLoop q)
    | .sending, .timeout | .closing, .timeout =>
      some (m.updateSub q ({ · with sender := .timedOut, closed := true }))
    | .timedOut, .timeout => some (m.finishSender q)
    | .sending, .raises | .closing, .ok | .closing, .raises | .timedOut, .ok | .timedOut, .raises =>
      some (m.finishSender q)
    | _, _ => none

end Manager

/-! ## The endpoint -/

structure System where
  mgr : Manager
  handler : Ws → Handler

namespace System

/-- `ws` is suspended at `h`. -/
def become (s : System) (ws : Ws) (h : Handler) : System :=
  { s with handler := Function.update s.handler ws h }

@[simp] theorem become_mgr (s : System) (ws : Ws) (h : Handler) : (s.become ws h).mgr = s.mgr := rfl

@[simp] theorem become_handler (s : System) (ws : Ws) (h : Handler) (ws' : Ws) :
    (s.become ws h).handler ws' = if ws' = ws then h else s.handler ws' := by
  simp only [become, Function.update_apply]

def reply (s : System) (ws : Ws) (e : Event) : System := s.become ws (.replying e)

def joined (names : List Iface) : Text := List.intercalate ", ".toList names

/-- `start_streaming`, once an old capture is out of the way. -/
def claim (s : System) (ws : Ws) (start : CaptureStart) : System :=
  let missing := start.interfaces.filter fun i => (s.mgr.record ws).configs i = none
  if missing ≠ [] then
    s.reply ws (messageEvent "error" "CONFIG_MISSING" ("No config for: ".toList ++ joined missing))
  else match s.mgr.claimInterfaces ws start.interfaces with
    | .error (.inUse conflicts) =>
      s.reply ws (messageEvent "error" "INTERFACE_IN_USE"
        ("Capture interface already in use: ".toList ++ joined conflicts))
    | .error .keyError => s.become ws .raised
    | .ok m => { s with mgr := m }.become ws (.starting start .resolving)

/-- What follows `stop_streaming`. -/
def afterStop (s : System) (ws : Ws) : AfterStop → System
  | .command => s.become ws .idle
  | .start start => s.claim ws start
  | .disconnect => { s with mgr := s.mgr.forget ws }.become ws .gone

/-- The notification at the end of `stop_streaming`, which `start_streaming` turns off. -/
def notify (s : System) (ws : Ws) (e : Event) : AfterStop → System
  | .command => s.reply ws e
  | .disconnect => s.become ws (.leaving e)
  | next => s.afterStop ws next

/-- `stop_streaming` got this far. -/
def stopped (s : System) (ws : Ws) (next : AfterStop) : Manager × StopOutcome → System
  | (m, .unregistered) => { s with mgr := m }.afterStop ws next
  | (m, .readOnly) => { s with mgr := m }.notify ws (messageEvent "error" "SUBSCRIBER_READ_ONLY"
      "A subscriber cannot stop the owner's capture.".toList) next
  | (m, .waiting await) => { s with mgr := m }.become ws (.stopping next await)
  | (m, .stopped) => { s with mgr := m }.notify ws
      (messageEvent "status" "CAPTURE_STOPPED" "Capture stopped.".toList) next

/-- The end of `subscribe`, once an old subscription is out of the way. -/
def attach (s : System) (ws : Ws) (sid : SessionId) : System :=
  let notFound := messageEvent "error" "SESSION_NOT_FOUND"
    ("No running capture session: ".toList ++ sid)
  match s.mgr.sessions sid with
  | none => s.reply ws notFound
  | some owner =>
    if owner ∉ s.mgr.clients then s.reply ws notFound
    else if maxSubscribersPerSession ≤ (s.mgr.record owner).subscribers.length then
      s.reply ws (messageEvent "error" "SUBSCRIBER_LIMIT"
        "Session has reached its subscriber limit.".toList)
    else { s with mgr := s.mgr.attach ws sid owner }.become ws .idle

/-- What follows `_detach_subscriber`. -/
def afterDetach (s : System) (ws : Ws) : AfterDetach → System
  | .subscribe sid => s.attach ws sid
  | .unsubscribe sid => s.reply ws ⟨"status", "UNSUBSCRIBED",
      .obj [(some "session_id".toList, sid.elim .null .ofText)]⟩
  | .disconnect => s.stopped ws .disconnect (s.mgr.stopStreaming ws)

/-- `_detach_subscriber` -/
def detach (s : System) (ws : Ws) (next : AfterDetach) : System :=
  match s.mgr.clearSubscription ws none none with
  | (m, none) => { s with mgr := m }.afterDetach ws next
  | (m, some q) => { s with mgr := m }.become ws (.detaching next q)

/-! ## Starting -/

/-- A capture is running for this client. -/
def running (s : System) (ws : Ws) : Bool :=
  (s.mgr.record ws).capture.any fun k => (s.mgr.capture k).task ≠ .done || (s.mgr.capture k).alive

/-- `start_streaming` -/
def startStreaming (s : System) (ws : Ws) (request : Option CaptureStart) : System :=
  if ws ∉ s.mgr.clients then
    s.reply ws (messageEvent "error" "CLIENT_NOT_FOUND" "WebSocket client not registered.".toList)
  else if s.mgr.subscribedTo ws ≠ none then
    s.reply ws (messageEvent "error" "SUBSCRIBER_READ_ONLY"
      "Unsubscribe before starting a capture.".toList)
  else match request with
    | none => s.reply ws (messageEvent "error" "CAPTURE_CONFIG_INVALID"
        "Invalid capture start configuration.".toList)
    | some start =>
      if s.running ws then
        s.reply ws (messageEvent "error" "CAPTURE_ALREADY_RUNNING"
          "A capture is already running for this client.".toList)
      else if (s.mgr.record ws).capture ≠ none ∨ (s.mgr.record ws).channelTasks ≠ [] then
        s.stopped ws (.start start) (s.mgr.stopStreaming ws)
      else s.claim ws start

/-- The interface's first channel is to be set. -/
def hasFirstChannel (s : System) (ws : Ws) (iface : Iface) : Bool :=
  ((s.mgr.record ws).configs iface).any fun config =>
    config.channels.head?.any fun first => first.freq ≠ 0 && first.width ≠ 0

def filterNext (s : System) (ws : Ws) (start : CaptureStart) : List Iface → System
  | [] => s.become ws (.starting start .spawning)
  | _ :: todo => s.become ws (.starting start (.filtering todo))

/-- The loop that sets the first channels. -/
def tuneNext (s : System) (ws : Ws) (start : CaptureStart) : List Iface → System
  | [] => s.filterNext ws start start.interfaces
  | iface :: todo =>
    if s.hasFirstChannel ws iface then s.become ws (.starting start (.tuning iface todo))
    else s.tuneNext ws start todo

/-- The event of a capture that runs. -/
def startedEvent (m : Manager) (ws : Ws) (start : CaptureStart) (sid : SessionId) : Event :=
  let c := m.record ws
  ⟨"status", "CAPTURE_STARTED",
    .obj
      [(some "message".toList, .ofText ("Started capture on ".toList ++ joined start.interfaces)),
      (some "session_id".toList, .ofText sid),
      (some "interfaces".toList, .arr ((start.interfaces.insertionSort (· ≤ ·)).map .ofText)),
      (some "namespace".toList, c.netns.elim .null .ofText),
      (some "config".toList, c.sessionConfig.getD .null)]⟩

/-- `f"cap_{secrets.token_hex(4)}"` -/
def sessionIdOf (token : Text) : SessionId := "cap_".toList ++ token

/-- `start_streaming` goes on. What can raise there is not caught, except an `OSError` of
`create_subprocess_exec`. -/
def resumeStart (s : System) (ws : Ws) (start : CaptureStart) : StartPhase → Reply → Option System
  | .resolving, .resolved (.error reason) =>
    some ({ s with mgr := s.mgr.releaseInterfaces ws }.reply ws
      (messageEvent "error" "INTERFACE_NOT_AVAILABLE" reason))
  | .resolving, .resolved (.ok netns) =>
    let m := s.mgr.updateClient ws ({ · with netns, framer := {}, sessionEnd := none })
    some ({ s with mgr := m }.tuneNext ws start start.interfaces)
  | .tuning _ todo, .tuned none => some (s.tuneNext ws start todo)
  | .tuning iface todo, .tuned (some error) =>
    some (s.become ws (.starting start (.reporting (messageEvent "error" "CHANNEL_SET_FAILED"
      ("Could not set initial channel for ".toList ++ iface ++ ": ".toList ++ error)) todo)))
  | .reporting _ todo, .ok => some (s.tuneNext ws start todo)
  | .filtering todo, .ok => some (s.filterNext ws start todo)
  | .spawning, .spawned token =>
    let m := s.mgr.startCapture ws start (sessionIdOf token)
    some ({ s with mgr := m }.reply ws (startedEvent m ws start (sessionIdOf token)))
  | .spawning, .osError =>
    some ({ s with mgr := s.mgr.releaseInterfaces ws }.reply ws
      (messageEvent "error" "CAPTURE_START_FAILED" "Failed to start capture.".toList))
  | .reporting .., .raises => none
  | _, .raises => some (s.become ws .raised)
  | _, _ => none

/-! ## Subscribing -/

/-- `subscribe` -/
def subscribe (s : System) (ws : Ws) (request : Except Text SessionId) : System :=
  let notFound (sid : Text) := messageEvent "error" "SESSION_NOT_FOUND"
    ("No running capture session: ".toList ++ sid)
  if ws ∉ s.mgr.clients then s.become ws .idle
  else match request with
    | .error printed => s.reply ws (notFound printed)
    | .ok sid =>
      if s.mgr.sessions sid = none then s.reply ws (notFound sid)
      else if (s.mgr.record ws).sessionId ≠ none then
        s.reply ws (messageEvent "error" "SESSION_IS_OWN"
          "A capture owner cannot subscribe to another capture.".toList)
      else s.detach ws (.subscribe sid)

/-! ## Steps -/

def run (s : System) (ws : Ws) : Command → System
  | .configure configs =>
    let m := configs.foldl (fun m (iface, config) => m.configure ws iface config) s.mgr
    { s with mgr := m }.reply ws
      (messageEvent "config" "CONFIG_APPLIED"
        ("Configured: ".toList ++ joined (configs.map Prod.fst)))
  | .start request => s.startStreaming ws request
  | .stop => s.stopped ws .command (s.mgr.stopStreaming ws)
  | .subscribe request => s.subscribe ws request
  | .unsubscribe =>
    s.detach ws (.unsubscribe (if ws ∈ s.mgr.clients then s.mgr.subscribedTo ws else none))

/-- The endpoint's await returns. -/
def resume (s : System) (ws : Ws) (r : Reply) : Option System :=
  match s.handler ws, r with
  | .accepting, .ok => some ({ s with mgr := s.mgr.connect ws }.become ws .authenticating)
  | .accepting, .raises => some (s.become ws .gone)
  | .replying _, .ok => some (s.become ws .idle)
  | .stopping next await, .ok => (s.mgr.resumeStop ws await).map (s.stopped ws next)
  | .starting start phase, r => s.resumeStart ws start phase r
  | .detaching next q, .ok =>
    if (s.mgr.sub q).sender = .done then some (s.afterDetach ws next) else none
  | .leaving _, .ok => some (s.afterStop ws .disconnect)
  | _, _ => none

def step (s : System) : Act → Option System
  | .connect ws =>
    match s.handler ws with
    | .fresh => some (s.become ws .accepting)
    | _ => none
  | .authenticate ws did =>
    match s.handler ws with
    | .authenticating => some ({ s with mgr := s.mgr.authenticate ws did }.reply ws
        ⟨"status", "AUTH_OK", .obj [(some "did".toList, .ofText did)]⟩)
    | _ => none
  | .command ws c =>
    match s.handler ws with
    | .idle => some (s.run ws c)
    | _ => none
  | .disconnect ws =>
    match s.handler ws with
    | .authenticating | .idle | .raised => some (s.detach ws .disconnect)
    | _ => none
  | .resume ws r => s.resume ws r
  | .stream k r =>
    if k < s.mgr.nextCapture then (s.mgr.resumeStream k r).map fun m =>
      { s with mgr := m } else none
  | .sender q r =>
    if q < s.mgr.nextSub then (s.mgr.resumeSender q r).map fun m => { s with mgr := m } else none
  | .hopEnds h =>
    if h < s.mgr.nextHop then
      some { s with mgr := { s.mgr with hopDone := Function.update s.mgr.hopDone h true } }
    else none
  | .exits k =>
    if k < s.mgr.nextCapture then
      some { s with mgr := s.mgr.updateCapture k ({ · with alive := false }) }
    else none

def initial : System := ⟨.initial, fun _ => .fresh⟩

end System

end WlanpiCore.Streaming
