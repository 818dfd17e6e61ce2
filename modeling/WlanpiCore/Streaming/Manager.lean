import WlanpiCore.Config.Schema
import WlanpiCore.Streaming.Framer
import Mathlib.Data.List.Sort
import Mathlib.Logic.Function.Basic
import Mathlib.Data.List.Lex
import Mathlib.Data.Char

/-!
# The connection manager

The state of `ConnectionManager` and its methods that do not suspend, as functions from state to
state. `System` puts the coroutines together from them.

Two groups of entries of a client record are one field here, because they are assigned together
with no await between: `proc` and `task` are `capture`, which names a `Capture` (the dumpcap process
and the `stream()` task reading it), and `subscribed_to`, `subscription_queue`,
`subscription_task` and `subscription_closing` are `subscription`, which names a `Subscription`. So
a client that is subscribed has a queue, and the branches for one without are left out.

A record stays in `record` after its socket left `clients`: coroutines that looked it up before
still hold it. Sets are lists without duplicates; no method depends on their order.
-/

namespace WlanpiCore.Streaming

/-! ## Data -/

abbrev Ws := Nat

abbrev CaptureId := Nat

abbrev SubId := Nat

/-- A `_hop_channels` task. -/
abbrev HopId := Nat

abbrev SessionId := Text

abbrev Iface := Text

/-- `_SUBSCRIBER_QUEUE_BLOCKS` -/
def subscriberQueueBlocks : Nat := 1024

/-- `_MAX_SUBSCRIBERS_PER_SESSION` -/
def maxSubscribersPerSession : Nat := 4

structure CaptureChannel where
  freq : Nat
  width : Nat
  deriving DecidableEq

structure CaptureInterfaceConfig where
  channels : List CaptureChannel := []
  dwellTime : Nat := 100
  deriving DecidableEq

def CaptureInterfaceConfig.modelDump (config : CaptureInterfaceConfig) : Json :=
  .obj [(some "channels".toList, .arr (config.channels.map fun ch =>
      .obj [(some "freq".toList, .int ch.freq), (some "width".toList, .int ch.width)])),
    (some "dwell_time".toList, .int config.dwellTime)]

/-- `^wlanpi[0-9]{1,3}$`, the whole value. -/
def matchesCaptureInterface (value : Text) : Bool :=
  let digits := value.drop 6
  value.take 6 == "wlanpi".toList && digits.all Char.isDigit &&
    decide (1 ≤ digits.length ∧ digits.length ≤ 3)

def validateCaptureInterface (value : Text) : Option String :=
  (validateInterfaceName value).or
    (if matchesCaptureInterface value then none
    else some "capture interface must use the wlanpiN monitor name")

/-- `_MAX_CAPTURE_INTERFACES` -/
def maxCaptureInterfaces : Nat := 8

/-- A start command that pydantic accepted. -/
structure CaptureStart where
  interfaces : List Iface
  pcapFilter : Text
  nonempty : interfaces ≠ []
  bounded : interfaces.length ≤ maxCaptureInterfaces
  valid : ∀ iface ∈ interfaces, validateCaptureInterface iface = none
  unique : interfaces.Nodup

/-- A start of one interface, with no filter. -/
def CaptureStart.single (iface : Checked validateCaptureInterface) : CaptureStart where
  interfaces := [iface.val]
  pcapFilter := []
  nonempty := List.cons_ne_nil _ _
  bounded := by simp [maxCaptureInterfaces]
  valid := by simpa using iface.property
  unique := List.nodup_singleton _

def wlanpi0 : Checked validateCaptureInterface := ⟨"wlanpi0".toList, by decide⟩

def wlanpi1 : Checked validateCaptureInterface := ⟨"wlanpi1".toList, by decide⟩

/-- What `_event_text` puts into JSON. -/
structure Event where
  event : String
  code : String
  data : Json

def messageEvent (event code : String) (message : Text) : Event :=
  ⟨event, code, .obj [(some "message".toList, .ofText message)]⟩

/-- What a subscriber is sent. -/
inductive Message where
  | event (e : Event)
  | bytes (block : List UInt8)

/-- An item of a subscription's queue. -/
inductive Item where
  | message (m : Message)
  | done
  | close

/-- Where a `_send_subscription` task is suspended. -/
inductive Sender where
  | created
  /-- `queue.get()` -/
  | getting
  /-- sending the last of `sent` -/
  | sending
  /-- `websocket.close` for the item `close` -/
  | closing
  /-- `websocket.close` after a send timed out -/
  | timedOut
  | done
  deriving DecidableEq

structure Subscription where
  socket : Ws
  sessionId : SessionId
  queue : List Item
  closing : Bool := false
  sender : Sender := .created
  /-- `task.cancel()` was called; the task's next step raises `CancelledError`. -/
  cancelled : Bool := false
  /-- What the task began to send to the socket. -/
  sent : List Message := []
  /-- The task began to close the socket. -/
  closed : Bool := false
  /-- The capture listened to, and how many blocks it had framed before. Only statements use
  these two. -/
  source : Option CaptureId
  since : Nat

/-- Where a `stream()` task is suspended. -/
inductive StreamTask where
  | created
  | reading
  | sending (chunk : List UInt8)
  /-- sending `CAPTURE_ENDED` -/
  | ending
  /-- sending `CAPTURE_STREAM_ERROR` -/
  | failing
  | terminating
  | stoppingHops (hops : List HopId)
  | done
  deriving DecidableEq

/-- A dumpcap process and its `stream()` task. -/
structure Capture where
  socket : Ws
  /-- `returncode` is `None`. -/
  alive : Bool := true
  task : StreamTask := .created
  cancelled : Bool := false
  /-- The session it was started with, the blocks framed from it while that ran, and the event that
  ended it. Only statements use these three. -/
  sessionId : SessionId
  framed : List Block := []
  ended : Option Event := none

/-- A client record. -/
structure Client where
  configs : Iface → Option CaptureInterfaceConfig := fun _ => none
  capture : Option CaptureId := none
  channelTasks : List HopId := []
  interfaces : List Iface := []
  did : Option Text := none
  sessionId : Option SessionId := none
  sessionConfig : Option Json := none
  /-- `namespace` -/
  netns : Option Text := none
  subscribers : List Ws := []
  subscription : Option SubId := none
  sessionEnd : Option (String × String) := none
  framer : Framer := {}

structure Manager where
  clients : List Ws
  record : Ws → Client
  interfaceOwners : Iface → Option Ws
  sessions : SessionId → Option Ws
  capture : CaptureId → Capture
  sub : SubId → Subscription
  hopDone : HopId → Bool
  nextCapture : CaptureId
  nextSub : SubId
  nextHop : HopId

namespace Manager

/-- `ConnectionManager()` -/
def initial : Manager where
  clients := []
  record _ := {}
  interfaceOwners _ := none
  sessions _ := none
  capture _ := { socket := 0, sessionId := [] }
  sub _ := { socket := 0, sessionId := [], queue := [], source := none, since := 0 }
  hopDone _ := false
  nextCapture := 0
  nextSub := 0
  nextHop := 0

/-! ## Updates -/

def updateClient (m : Manager) (ws : Ws) (f : Client → Client) : Manager :=
  { m with record := Function.update m.record ws (f (m.record ws)) }

def updateCapture (m : Manager) (k : CaptureId) (f : Capture → Capture) : Manager :=
  { m with capture := Function.update m.capture k (f (m.capture k)) }

def updateSub (m : Manager) (q : SubId) (f : Subscription → Subscription) : Manager :=
  { m with sub := Function.update m.sub q (f (m.sub q)) }

section

variable (m : Manager) (ws : Ws) (f : Client → Client)

@[simp] theorem updateClient_record (ws' : Ws) : (m.updateClient ws f).record ws' =
    if ws' = ws then f (m.record ws) else m.record ws' := by
  simp only [updateClient, Function.update_apply]

@[simp] theorem updateClient_clients : (m.updateClient ws f).clients = m.clients := rfl

@[simp] theorem updateClient_owners :
    (m.updateClient ws f).interfaceOwners = m.interfaceOwners := rfl

@[simp] theorem updateClient_sessions : (m.updateClient ws f).sessions = m.sessions := rfl

@[simp] theorem updateClient_capture : (m.updateClient ws f).capture = m.capture := rfl

@[simp] theorem updateClient_sub : (m.updateClient ws f).sub = m.sub := rfl

@[simp] theorem updateClient_hopDone : (m.updateClient ws f).hopDone = m.hopDone := rfl

@[simp] theorem updateClient_nextCapture :
    (m.updateClient ws f).nextCapture = m.nextCapture := rfl

@[simp] theorem updateClient_nextSub : (m.updateClient ws f).nextSub = m.nextSub := rfl

end

section

variable (m : Manager) (k : CaptureId) (f : Capture → Capture)

@[simp] theorem updateCapture_capture (k' : CaptureId) : (m.updateCapture k f).capture k' =
    if k' = k then f (m.capture k) else m.capture k' := by
  simp only [updateCapture, Function.update_apply]

@[simp] theorem updateCapture_clients : (m.updateCapture k f).clients = m.clients := rfl

@[simp] theorem updateCapture_record : (m.updateCapture k f).record = m.record := rfl

@[simp] theorem updateCapture_owners :
    (m.updateCapture k f).interfaceOwners = m.interfaceOwners := rfl

@[simp] theorem updateCapture_sessions : (m.updateCapture k f).sessions = m.sessions := rfl

@[simp] theorem updateCapture_sub : (m.updateCapture k f).sub = m.sub := rfl

@[simp] theorem updateCapture_nextCapture :
    (m.updateCapture k f).nextCapture = m.nextCapture := rfl

@[simp] theorem updateCapture_nextSub : (m.updateCapture k f).nextSub = m.nextSub := rfl

end

section

variable (m : Manager) (q : SubId) (f : Subscription → Subscription)

@[simp] theorem updateSub_sub (q' : SubId) : (m.updateSub q f).sub q' =
    if q' = q then f (m.sub q) else m.sub q' := by
  simp only [updateSub, Function.update_apply]

@[simp] theorem updateSub_clients : (m.updateSub q f).clients = m.clients := rfl

@[simp] theorem updateSub_record : (m.updateSub q f).record = m.record := rfl

@[simp] theorem updateSub_owners : (m.updateSub q f).interfaceOwners = m.interfaceOwners := rfl

@[simp] theorem updateSub_sessions : (m.updateSub q f).sessions = m.sessions := rfl

@[simp] theorem updateSub_capture : (m.updateSub q f).capture = m.capture := rfl

@[simp] theorem updateSub_nextCapture : (m.updateSub q f).nextCapture = m.nextCapture := rfl

@[simp] theorem updateSub_nextSub : (m.updateSub q f).nextSub = m.nextSub := rfl

end

/-- `client.get("subscribed_to")` -/
def subscribedTo (m : Manager) (ws : Ws) : Option SessionId :=
  (m.record ws).subscription.map fun q => (m.sub q).sessionId

/-! ## Interfaces -/

inductive ClaimError where
  | inUse (conflicts : List Iface)
  /-- `self.clients[websocket]` fails. -/
  | keyError

/-- `_claim_interfaces` -/
def claimInterfaces (m : Manager) (ws : Ws) (interfaces : List Iface) : Except ClaimError Manager :=
  let conflicts := interfaces.filter fun i => (m.interfaceOwners i).any (· ≠ ws)
  if conflicts ≠ [] then .error (.inUse (conflicts.insertionSort (· ≤ ·)))
  else if ws ∉ m.clients then .error .keyError
  else .ok (({ m with
    interfaceOwners := fun i => if i ∈ interfaces then some ws
      else m.interfaceOwners i }).updateClient
      ws ({ · with interfaces }))

/-- `_release_interfaces` -/
def releaseInterfaces (m : Manager) (ws : Ws) : Manager :=
  if ws ∈ m.clients then
    ({ m with interfaceOwners := fun i =>
        if i ∈ (m.record ws).interfaces ∧ m.interfaceOwners i = some ws then none
        else m.interfaceOwners i }).updateClient ws ({ · with interfaces := [] })
  else m

/-! ## Subscriptions -/

/-- `owner_client["subscribers"].discard(websocket)` for the owner of a session. -/
def discardSubscriber (m : Manager) (sessionId : SessionId) (ws : Ws) : Manager :=
  match m.sessions sessionId with
  | none => m
  | some owner =>
    if owner ∈ m.clients then
      m.updateClient owner fun c => { c with subscribers := c.subscribers.erase ws }
    else m

/-- `_clear_subscription`, with the subscription whose task it returns. `current` is the one whose
task calls it: that task is not cancelled. -/
def clearSubscription (m : Manager) (ws : Ws) (expectedSession : Option SessionId)
    (current : Option SubId) : Manager × Option SubId :=
  if ws ∉ m.clients then (m, none)
  else match (m.record ws).subscription with
    | none => (m, none)
    | some q =>
      if expectedSession.any (· ≠ (m.sub q).sessionId) then (m, none)
      else
        let cleared := (m.updateClient ws ({ · with subscription := none })).discardSubscriber
          (m.sub q).sessionId ws
        (if current = some q then cleared else cleared.updateSub q ({ · with cancelled := true }),
          some q)

end Manager

/-- `_close_subscription_queue` -/
def Subscription.closeQueue (q : Subscription) : Subscription :=
  if q.closing then q else { q with closing := true, queue := [.close] }

/-- `queue.put_nowait`; `none` is `QueueFull`. -/
def Subscription.put (q : Subscription) (item : Item) : Option Subscription :=
  if q.queue.length < subscriberQueueBlocks then some { q with queue := q.queue ++ [item] }
    else none

/-- Queue an item, or close the queue of a subscriber that cannot keep up. -/
def Subscription.putOrClose (q : Subscription) (item : Item) : Subscription :=
  (q.put item).getD q.closeQueue

/-- Queue the end of the session. -/
def Subscription.putEnd (q : Subscription) (e : Event) : Subscription :=
  match q.put (.message (.event e)) with
  | none => q.closeQueue
  | some q' => q'.putOrClose .done

namespace Manager

/-- `_end_session` tells one subscriber. -/
def notifyEnd (sessionId : Option SessionId) (e : Event) (m : Manager)
    (subscriber : Ws) : Manager :=
  match (m.record subscriber).subscription with
  | none => m
  | some q =>
    if subscriber ∈ m.clients ∧ some (m.sub q).sessionId = sessionId then
      m.updateSub q (·.putEnd e)
    else m

/-- The event that ends a session. -/
def endEvent (code message : String) (sessionId : SessionId) : Event :=
  ⟨"status", code, .obj [(some "message".toList, .ofText message.toList),
    (some "session_id".toList, .ofText sessionId)]⟩

/-- What `_end_session` clears. -/
def sessionOver (c : Client) : Client :=
  { c with
    sessionId := none
    sessionConfig := none
    netns := none
    sessionEnd := none
    framer := {}
    subscribers := [] }

/-- The session is unregistered. -/
def closeSession (m : Manager) (ws : Ws) (sid : SessionId) (e : Event) : Manager :=
  let closed := { m.updateClient ws sessionOver with
    sessions := Function.update m.sessions sid none }
  match (m.record ws).capture with
  | none => closed
  | some k => closed.updateCapture k ({ · with ended := some e })

/-- `_end_session`, on the record of `ws`. Every subscriber has a queue, so nothing is awaited, and
a client without a session has no subscribers. -/
def endSession (m : Manager) (ws : Ws) (code message : String) : Manager :=
  match (m.record ws).sessionId with
  | none => m.updateClient ws sessionOver
  | some sid =>
    let e := endEvent code message sid
    (m.record ws).subscribers.foldl (notifyEnd (some sid) e) (m.closeSession ws sid e)

/-- `_session_descriptor` -/
def sessionDescriptor (m : Manager) (sid : SessionId) (owner : Ws) : Json :=
  let c : Client := if owner ∈ m.clients then m.record owner else {}
  let text (t : Option Text) : Json := t.elim .null .ofText
  .obj [(some "session_id".toList, .ofText sid), (some "owner".toList, text c.did),
    (some "interfaces".toList, .arr ((c.interfaces.insertionSort (· ≤ ·)).map .ofText)),
    (some "namespace".toList, text c.netns),
    (some "config".toList, c.sessionConfig.getD .null)]

/-- What a new subscription begins with. -/
def opening (m : Manager) (sid : SessionId) (owner : Ws) : List Message :=
  let header := (m.record owner).framer.pcapngHeader
  .event ⟨"status", "SUBSCRIBED", m.sessionDescriptor sid owner⟩ ::
    if header = [] then [] else [.bytes header]

/-- The end of `subscribe`. -/
def attach (m : Manager) (ws : Ws) (sid : SessionId) (owner : Ws) : Manager :=
  let capture := (m.record owner).capture
  let sub : Subscription :=
    { socket := ws
      sessionId := sid
      queue := (m.opening sid owner).map .message
      source := capture
      since := capture.elim 0 fun k => (m.capture k).framed.length }
  let added := { m with sub := Function.update m.sub m.nextSub sub, nextSub := m.nextSub + 1 }
  (added.updateClient ws ({ · with subscription := some m.nextSub })).updateClient owner
    fun c => { c with subscribers := c.subscribers.insert ws }

/-! ## Fan-out -/

/-- `_queue_subscriber_block` for one subscriber of `ws`. -/
def queueBlock (ws : Ws) (block : Block) (m : Manager) (subscriber : Ws) : Manager :=
  let discarded := m.updateClient ws fun c =>
    { c with subscribers := c.subscribers.erase subscriber }
  if subscriber ∉ m.clients ∨ m.subscribedTo subscriber ≠ (m.record ws).sessionId then discarded
  else match (m.record subscriber).subscription with
    | none => m
    | some q =>
      if (m.sub q).closing then discarded
      else match (m.sub q).put (.message (.bytes block)) with
        | some q' => m.updateSub q fun _ => q'
        | none => discarded.updateSub q (·.closeQueue)

/-- `_queue_subscriber_block` -/
def queueSubscriberBlock (ws : Ws) (m : Manager) (block : Block) : Manager :=
  (m.record ws).subscribers.foldl (queueBlock ws block) m

/-- `_broadcast_chunk`, after the owner was sent the chunk. -/
def broadcastChunk (m : Manager) (k : CaptureId) (chunk : List UInt8) : Manager :=
  let ws := (m.capture k).socket
  let (framer, blocks) := pcapngBlocks (m.record ws).framer chunk
  let m := m.updateClient ws ({ · with framer })
  blocks.foldl (fun m block =>
    (queueSubscriberBlock ws m block).updateCapture k fun c =>
      { c with framed := c.framed ++ [block] }) m

/-! ## Sockets and captures -/

/-- The end of `connect`. -/
def connect (m : Manager) (ws : Ws) : Manager :=
  { m with clients := m.clients ++ [ws], record := Function.update m.record ws {} }

def authenticate (m : Manager) (ws : Ws) (did : Text) : Manager :=
  if ws ∈ m.clients then m.updateClient ws ({ · with did := some did }) else m

def isAuthenticated (m : Manager) (ws : Ws) : Bool :=
  ws ∈ m.clients && (m.record ws).did.any (· ≠ [])

/-- `configure` -/
def configure (m : Manager) (ws : Ws) (iface : Iface) (config : CaptureInterfaceConfig) : Manager :=
  if ws ∈ m.clients then
    m.updateClient ws fun c => { c with configs := Function.update c.configs iface (some config) }
  else m

/-- `client["session_config"]` -/
def sessionConfig (c : Client) (start : CaptureStart) : Json :=
  .obj [(some "interfaces".toList, .obj (start.interfaces.map fun i =>
      (some i, (c.configs i).elim (.obj []) CaptureInterfaceConfig.modelDump))),
    (some "pcap_filter".toList, .ofText start.pcapFilter)]

/-- The `_hop_channels` tasks of a new capture, one for each interface with channels. -/
def hopTasks (m : Manager) (ws : Ws) (start : CaptureStart) : List HopId :=
  List.range' m.nextHop
    (start.interfaces.filter fun i => ((m.record ws).configs i).any (·.channels ≠ [])).length

/-- The end of `start_streaming`, once dumpcap runs. -/
def startCapture (m : Manager) (ws : Ws) (start : CaptureStart) (sid : SessionId) : Manager :=
  let hops := m.hopTasks ws start
  let started := { m with
    capture := Function.update m.capture m.nextCapture { socket := ws, sessionId := sid }
    nextCapture := m.nextCapture + 1
    nextHop := m.nextHop + hops.length
    sessions := Function.update m.sessions sid (some ws) }
  started.updateClient ws fun c => { c with
    capture := some m.nextCapture
    channelTasks := hops
    sessionId := some sid
    sessionConfig := some (sessionConfig c start) }

/-- `self.clients.pop(websocket, None)` -/
def forget (m : Manager) (ws : Ws) : Manager := { m with clients := m.clients.erase ws }

end Manager

end WlanpiCore.Streaming
