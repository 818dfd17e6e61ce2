import WlanpiCore.Streaming.System

/-!
# What the manager's methods change

One theorem for each method, with the entries it sets and that the rest is as before; for those
that go through a list of subscribers a relation (`Delivered`, `FannedOut`) that their steps meet.
`StreamStep`, `SenderStep` and `System.Step` are what a task and the service can do in one step;
later proofs take them apart and do not unfold the step functions.
-/

namespace WlanpiCore.Streaming

/-! ## Queues -/

/-- The task is in the loop of `_send_subscription`, before or after an item. -/
def Sender.loops : Sender → Bool
  | .created | .getting | .sending => true
  | _ => false

namespace Subscription

variable (q : Subscription)

/-- Only the queue differs, and a closed one is not opened again. -/
structure Queued (q q' : Subscription) : Prop where
  rest : q' = { q with queue := q'.queue, closing := q'.closing }
  closing : q.closing = true → q'.closing = true

theorem Queued.refl : Queued q q := ⟨rfl, id⟩

variable {q}

theorem Queued.trans {q' q'' : Subscription} (h : Queued q q') (h' : Queued q' q'') :
    Queued q q'' := by
  refine ⟨?_, fun hclosing => h'.closing (h.closing hclosing)⟩
  rw [h'.rest, h.rest]

theorem Queued.socket {q' : Subscription} (h : Queued q q') : q'.socket = q.socket := by
  rw [h.rest]

theorem Queued.sessionId {q' : Subscription} (h : Queued q q') : q'.sessionId = q.sessionId := by
  rw [h.rest]

theorem queued_closeQueue : Queued q q.closeQueue := by
  unfold closeQueue
  split_ifs with hclosing
  · exact .refl q
  · exact ⟨rfl, fun _ => rfl⟩

theorem queued_put {q' : Subscription} {item : Item} (h : q.put item = some q') : Queued q q' := by
  unfold put at h
  split_ifs at h
  cases h
  exact ⟨rfl, id⟩

theorem queued_putOrClose (item : Item) : Queued q (q.putOrClose item) := by
  unfold putOrClose
  cases hput : q.put item with
  | none => exact queued_closeQueue
  | some q' => exact queued_put hput

theorem queued_putEnd (e : Event) : Queued q (q.putEnd e) := by
  unfold putEnd
  cases hput : q.put (.message (.event e)) with
  | none => exact queued_closeQueue
  | some q' => exact (queued_put hput).trans (queued_putOrClose .done)

end Subscription

namespace Manager

/-- Only queues differ. -/
structure Delivered (m m' : Manager) : Prop where
  rest : m' = { m with sub := m'.sub }
  sub : ∀ q, (m.sub q).Queued (m'.sub q)

theorem Delivered.refl (m : Manager) : Delivered m m := ⟨rfl, fun q => .refl (m.sub q)⟩

theorem Delivered.trans {m m' m'' : Manager} (h : Delivered m m') (h' : Delivered m' m'') :
    Delivered m m'' := by
  refine ⟨?_, fun q => (h.sub q).trans (h'.sub q)⟩
  rw [h'.rest, h.rest]

theorem delivered_updateSub {m : Manager} {q : SubId} {f : Subscription → Subscription}
    (h : (m.sub q).Queued (f (m.sub q))) : Delivered m (m.updateSub q f) := by
  refine ⟨rfl, fun q' => ?_⟩
  rw [updateSub_sub]
  split_ifs with hq
  · rw [hq]
    exact h
  · exact .refl _

theorem delivered_notifyEnd (sid : Option SessionId) (e : Event) (m : Manager) (s : Ws) :
    Delivered m (notifyEnd sid e m s) := by
  unfold notifyEnd
  cases (m.record s).subscription with
  | none => exact .refl m
  | some q =>
    dsimp only
    split_ifs
    · exact delivered_updateSub (Subscription.queued_putEnd e)
    · exact .refl m

theorem delivered_notifyEnds (sid : Option SessionId) (e : Event) (m : Manager) (l : List Ws) :
    Delivered m (l.foldl (notifyEnd sid e) m) := by
  induction l generalizing m with
  | nil => exact .refl m
  | cons s l ih => exact (delivered_notifyEnd sid e m s).trans (ih _)

/-! ## Interfaces -/

section

variable (m : Manager) (ws : Ws)

@[simp] theorem releaseInterfaces_record (ws' : Ws) : (m.releaseInterfaces ws).record ws' =
    { m.record ws' with
      interfaces := if ws' = ws ∧ ws ∈ m.clients then [] else (m.record ws').interfaces } := by
  unfold releaseInterfaces
  by_cases hws : ws ∈ m.clients <;> by_cases heq : ws' = ws <;> simp [hws, heq]

theorem releaseInterfaces_owners (i : Iface) :
    (m.releaseInterfaces ws).interfaceOwners i =
      if ws ∈ m.clients ∧ i ∈ (m.record ws).interfaces ∧ m.interfaceOwners i = some ws then none
      else m.interfaceOwners i := by
  unfold releaseInterfaces
  by_cases hws : ws ∈ m.clients <;> simp [hws]

/-- Nothing else differs. -/
theorem releaseInterfaces_rest : m.releaseInterfaces ws = { m with
    record := (m.releaseInterfaces ws).record
    interfaceOwners := (m.releaseInterfaces ws).interfaceOwners } := by
  unfold releaseInterfaces
  split_ifs <;> rfl

@[simp] theorem releaseInterfaces_clients : (m.releaseInterfaces ws).clients = m.clients := by
  rw [releaseInterfaces_rest]

@[simp] theorem releaseInterfaces_sessions : (m.releaseInterfaces ws).sessions = m.sessions := by
  rw [releaseInterfaces_rest]

@[simp] theorem releaseInterfaces_capture : (m.releaseInterfaces ws).capture = m.capture := by
  rw [releaseInterfaces_rest]

@[simp] theorem releaseInterfaces_sub : (m.releaseInterfaces ws).sub = m.sub := by
  rw [releaseInterfaces_rest]

end

/-- What a claim that succeeds leaves. -/
theorem claimInterfaces_ok {m m' : Manager} {ws : Ws} {interfaces : List Iface}
    (h : m.claimInterfaces ws interfaces = .ok m') :
    ws ∈ m.clients ∧ (∀ i ∈ interfaces, ∀ owner, m.interfaceOwners i = some owner → owner = ws) ∧
      m' = ({ m with interfaceOwners := fun i =>
        if i ∈ interfaces then some ws else m.interfaceOwners i }).updateClient ws
          ({ · with interfaces }) := by
  unfold claimInterfaces at h
  dsimp only at h
  split_ifs at h with hconflicts hws
  refine ⟨hws, fun i hi owner howner => ?_, (Except.ok.inj h).symm⟩
  have hfree := List.filter_eq_nil_iff.1 (not_not.1 hconflicts) i hi
  simpa [howner] using hfree

/-! ## Subscriptions -/

@[simp] theorem discardSubscriber_record (m : Manager) (sid : SessionId) (ws ws' : Ws) :
    (m.discardSubscriber sid ws).record ws' =
      { m.record ws' with
        subscribers := if m.sessions sid = some ws' ∧ ws' ∈ m.clients then
          (m.record ws').subscribers.erase ws else (m.record ws').subscribers } := by
  unfold discardSubscriber
  cases m.sessions sid with
  | none => simp
  | some owner =>
    by_cases heq : ws' = owner
    · subst heq
      by_cases hclient : ws' ∈ m.clients <;> simp [hclient]
    · by_cases hclient : owner ∈ m.clients <;> simp [hclient, heq, Ne.symm heq]

/-- A socket's subscription is cleared. -/
def dropSubscription (m : Manager) (ws : Ws) (q : SubId) : Manager :=
  (m.updateClient ws ({ · with subscription := none })).discardSubscriber (m.sub q).sessionId ws

section

variable (m : Manager) (ws : Ws) (q : SubId)

@[simp] theorem dropSubscription_record (ws' : Ws) : (m.dropSubscription ws q).record ws' =
    { m.record ws' with
      subscription := if ws' = ws then none else (m.record ws').subscription
      subscribers := if m.sessions (m.sub q).sessionId = some ws' ∧ ws' ∈ m.clients then
        (m.record ws').subscribers.erase ws else (m.record ws').subscribers } := by
  by_cases heq : ws' = ws <;> simp [dropSubscription, heq]

theorem dropSubscription_rest : m.dropSubscription ws q =
    { m with record := (m.dropSubscription ws q).record } := by
  unfold dropSubscription discardSubscriber
  split
  · rfl
  · split_ifs <;> rfl

end

/-- What clearing does: nothing, or the subscription is dropped and its task cancelled, unless it
is the caller. -/
theorem clearSubscription_cases (m : Manager) (ws : Ws) (expected : Option SessionId)
    (current : Option SubId) :
    (m.clearSubscription ws expected current = (m, none) ∧
      (ws ∈ m.clients → ∀ q, (m.record ws).subscription = some q →
        ∃ sid, expected = some sid ∧ sid ≠ (m.sub q).sessionId)) ∨
    ∃ q, ws ∈ m.clients ∧ (m.record ws).subscription = some q ∧
      m.clearSubscription ws expected current =
        (if current = some q then m.dropSubscription ws q
          else (m.dropSubscription ws q).updateSub q ({ · with cancelled := true }), some q) := by
  unfold clearSubscription
  by_cases hws : ws ∈ m.clients
  · rw [if_neg (not_not.2 hws)]
    cases hq : (m.record ws).subscription with
    | none => exact Or.inl ⟨rfl, by simp⟩
    | some q =>
      dsimp only
      split_ifs with hexpected hcurrent
      · refine Or.inl ⟨rfl, fun _ q' hq' => ?_⟩
        cases hq'
        simpa [Option.any_eq_true] using hexpected
      · exact Or.inr ⟨q, hws, rfl, by simp [dropSubscription, hcurrent]⟩
      · exact Or.inr ⟨q, hws, rfl, by simp [dropSubscription, hcurrent]⟩
  · rw [if_pos hws]
    exact Or.inl ⟨rfl, fun h => absurd h hws⟩

/-! ## The end of a session -/

section

variable (m : Manager) (ws : Ws)

@[simp] theorem closeSession_record (sid : SessionId) (e : Event) (ws' : Ws) :
    (m.closeSession ws sid e).record ws' =
      if ws' = ws then sessionOver (m.record ws) else m.record ws' := by
  unfold closeSession
  rw [← updateClient_record]
  cases (m.record ws).capture <;> rfl

theorem closeSession_rest (sid : SessionId) (e : Event) : m.closeSession ws sid e = { m with
    record := (m.closeSession ws sid e).record
    sessions := Function.update m.sessions sid none
    capture := (m.closeSession ws sid e).capture } := by
  unfold closeSession
  cases (m.record ws).capture <;> rfl

/-- Of a capture only the event that ended it is set. -/
theorem closeSession_capture (sid : SessionId) (e : Event) (k : CaptureId) :
    (m.closeSession ws sid e).capture k = { m.capture k with
      ended := if (m.record ws).capture = some k then some e else (m.capture k).ended } := by
  unfold closeSession
  cases hcapture : (m.record ws).capture with
  | none => rfl
  | some k' =>
    by_cases hk : k = k'
    · simp [hk]
    · simp [hk, Ne.symm hk]

variable (code message : String)

theorem endSession_none (h : (m.record ws).sessionId = none) :
    m.endSession ws code message = m.updateClient ws sessionOver := by
  unfold endSession
  rw [h]

theorem endSession_some {sid : SessionId} (h : (m.record ws).sessionId = some sid) :
    Delivered (m.closeSession ws sid (endEvent code message sid))
      (m.endSession ws code message) := by
  unfold endSession
  rw [h]
  exact delivered_notifyEnds _ _ _ _

@[simp] theorem endSession_record (ws' : Ws) : (m.endSession ws code message).record ws' =
    if ws' = ws then sessionOver (m.record ws) else m.record ws' := by
  cases hsid : (m.record ws).sessionId with
  | none => rw [endSession_none m ws code message hsid, updateClient_record]
  | some sid => rw [(endSession_some m ws code message hsid).rest, ← closeSession_record]

@[simp] theorem endSession_clients : (m.endSession ws code message).clients = m.clients := by
  cases hsid : (m.record ws).sessionId with
  | none => rw [endSession_none m ws code message hsid, updateClient_clients]
  | some sid => rw [(endSession_some m ws code message hsid).rest, closeSession_rest]

@[simp] theorem endSession_owners :
    (m.endSession ws code message).interfaceOwners = m.interfaceOwners := by
  cases hsid : (m.record ws).sessionId with
  | none => rw [endSession_none m ws code message hsid, updateClient_owners]
  | some sid => rw [(endSession_some m ws code message hsid).rest, closeSession_rest]

theorem endSession_sub (q : SubId) :
    (m.sub q).Queued ((m.endSession ws code message).sub q) := by
  cases hsid : (m.record ws).sessionId with
  | none => rw [endSession_none m ws code message hsid, updateClient_sub]; exact .refl _
  | some sid =>
    have hqueued := (endSession_some m ws code message hsid).sub q
    rwa [closeSession_rest] at hqueued

theorem endSession_sessions : (m.endSession ws code message).sessions =
    match (m.record ws).sessionId with
    | none => m.sessions
    | some sid => Function.update m.sessions sid none := by
  cases hsid : (m.record ws).sessionId with
  | none => rw [endSession_none m ws code message hsid, updateClient_sessions]
  | some sid => rw [(endSession_some m ws code message hsid).rest, closeSession_rest]

theorem endSession_capture (k : CaptureId) : ∃ ended,
    (m.endSession ws code message).capture k = { m.capture k with ended } := by
  cases hsid : (m.record ws).sessionId with
  | none => exact ⟨(m.capture k).ended, by rw [endSession_none m ws code message hsid]; rfl⟩
  | some sid =>
    rw [(endSession_some m ws code message hsid).rest]
    exact ⟨_, closeSession_capture m ws sid _ k⟩

/-- Nothing else differs. -/
theorem endSession_rest : m.endSession ws code message = { m with
    record := (m.endSession ws code message).record
    sessions := (m.endSession ws code message).sessions
    capture := (m.endSession ws code message).capture
    sub := (m.endSession ws code message).sub } := by
  cases hsid : (m.record ws).sessionId with
  | none => rw [endSession_none m ws code message hsid]; rfl
  | some sid => rw [(endSession_some m ws code message hsid).rest, closeSession_rest]

end

/-! ## Fan-out -/

/-- `m'` is `m` after blocks of `ws` were queued. -/
structure FannedOut (ws : Ws) (m m' : Manager) : Prop where
  rest : m' = { m with record := m'.record, sub := m'.sub }
  record : ∀ ws', m'.record ws' = { m.record ws' with subscribers := (m'.record ws').subscribers }
  others : ∀ ws' ≠ ws, m'.record ws' = m.record ws'
  sub : ∀ q, (m.sub q).Queued (m'.sub q)

theorem FannedOut.refl (ws : Ws) (m : Manager) : FannedOut ws m m :=
  ⟨rfl, fun _ => rfl, fun _ _ => rfl, fun _ => .refl _⟩

theorem FannedOut.trans {ws : Ws} {m m' m'' : Manager} (h : FannedOut ws m m')
    (h' : FannedOut ws m' m'') : FannedOut ws m m'' := by
  refine ⟨?_, fun ws' => ?_, fun ws' hne => (h'.others ws' hne).trans (h.others ws' hne),
    fun q => (h.sub q).trans (h'.sub q)⟩
  · rw [h'.rest, h.rest]
  · rw [h'.record, h.record]

theorem fannedOut_discard (ws : Ws) (m : Manager) (s : Ws) : FannedOut ws m
    (m.updateClient ws fun c => { c with subscribers := c.subscribers.erase s }) := by
  refine ⟨rfl, fun ws' => ?_, fun ws' hne => ?_, fun q => .refl _⟩
  · by_cases heq : ws' = ws <;> simp [heq]
  · simp [hne]

theorem fannedOut_updateSub {ws : Ws} {m : Manager} {q : SubId} {f : Subscription → Subscription}
    (h : (m.sub q).Queued (f (m.sub q))) : FannedOut ws m (m.updateSub q f) :=
  ⟨rfl, fun _ => rfl, fun _ _ => rfl, (delivered_updateSub h).sub⟩

theorem fannedOut_queueBlock (ws : Ws) (block : Block) (m : Manager) (s : Ws) :
    FannedOut ws m (queueBlock ws block m s) := by
  have hdiscard := fannedOut_discard ws m s
  unfold queueBlock
  dsimp only
  split_ifs
  · exact hdiscard
  cases (m.record s).subscription with
  | none => exact .refl ws m
  | some q =>
    dsimp only
    split_ifs
    · exact hdiscard
    cases hput : (m.sub q).put (.message (.bytes block)) with
    | some q' => exact fannedOut_updateSub (Subscription.queued_put hput)
    | none => exact hdiscard.trans (fannedOut_updateSub Subscription.queued_closeQueue)

theorem fannedOut_queueSubscriberBlock (ws : Ws) (m : Manager) (block : Block) :
    FannedOut ws m (queueSubscriberBlock ws m block) := by
  unfold queueSubscriberBlock
  generalize (m.record ws).subscribers = l
  induction l generalizing m with
  | nil => exact .refl ws m
  | cons s l ih => exact (fannedOut_queueBlock ws block m s).trans (ih _)

theorem FannedOut.capture {ws : Ws} {m m' : Manager} (h : FannedOut ws m m') :
    m'.capture = m.capture := by
  rw [h.rest]

/-- One block of `_broadcast_chunk`. -/
def broadcastBlock (ws : Ws) (k : CaptureId) (m : Manager) (block : Block) : Manager :=
  (queueSubscriberBlock ws m block).updateCapture k fun c =>
    { c with framed := c.framed ++ [block] }

theorem broadcastBlocks_capture (ws : Ws) (k : CaptureId) (blocks : List Block) (m : Manager)
    (k' : CaptureId) : (blocks.foldl (broadcastBlock ws k) m).capture k' = { m.capture k' with
      framed := if k' = k then (m.capture k').framed ++ blocks else (m.capture k').framed } := by
  induction blocks generalizing m with
  | nil => simp
  | cons block blocks ih =>
    rw [List.foldl_cons, ih]
    unfold broadcastBlock
    rw [updateCapture_capture, (fannedOut_queueSubscriberBlock ws m block).capture]
    by_cases heq : k' = k
    · simp [heq]
    · simp [heq]

theorem broadcastChunk_capture (m : Manager) (k : CaptureId) (chunk : List UInt8)
    (k' : CaptureId) : (m.broadcastChunk k chunk).capture k' = { m.capture k' with
      framed := if k' = k then (m.capture k').framed ++
        (pcapngBlocks (m.record (m.capture k).socket).framer chunk).2
          else (m.capture k').framed } :=
  broadcastBlocks_capture _ k _ _ k'

/-! ## New subscriptions, captures and sockets -/

@[simp] theorem attach_record (m : Manager) (ws : Ws) (sid : SessionId) (owner ws' : Ws) :
    (m.attach ws sid owner).record ws' = { m.record ws' with
      subscription := if ws' = ws then some m.nextSub else (m.record ws').subscription
      subscribers := if ws' = owner then (m.record ws').subscribers.insert ws
        else (m.record ws').subscribers } := by
  unfold attach
  by_cases hws : ws' = ws <;> by_cases howner : ws' = owner
  · subst hws howner
    simp
  · subst hws
    simp [howner]
  · subst howner
    simp [hws]
  · simp [hws, howner]

@[simp] theorem startCapture_record (m : Manager) (ws : Ws) (start : CaptureStart) (sid : SessionId)
    (ws' : Ws) : (m.startCapture ws start sid).record ws' =
      if ws' = ws then
        { m.record ws with
          capture := some m.nextCapture
          channelTasks := m.hopTasks ws start
          sessionId := some sid
          sessionConfig := some (sessionConfig (m.record ws) start) }
      else m.record ws' := by
  unfold startCapture
  by_cases heq : ws' = ws <;> simp [heq]

@[simp] theorem connect_record (m : Manager) (ws ws' : Ws) :
    (m.connect ws).record ws' = if ws' = ws then {} else m.record ws' := by
  simp only [connect, Function.update_apply]

/-! ## Stopping -/

/-- What `stop_streaming` can do when it goes on. -/
theorem resumeStop_cases {m : Manager} {ws : Ws} {await : StopAwait} {p : Manager × StopOutcome}
    (h : m.resumeStop ws await = some p) :
    (∃ k, await = .task k ∧ (m.capture k).task = .done ∧ p = (m, .waiting (.process k))) ∨
    (∃ k, await = .process k ∧ (m.capture k).alive = false ∧ p = m.stopHops ws) ∨
    ∃ hop hops, await = .hops (hop :: hops) ∧ m.hopDone hop = true ∧ p = m.awaitHops ws hops := by
  cases await with
  | task k =>
    simp only [resumeStop, Option.ite_none_right_eq_some, Option.some.injEq] at h
    exact Or.inl ⟨k, rfl, h.1, h.2.symm⟩
  | process k =>
    simp only [resumeStop, Option.ite_none_left_eq_some, Option.some.injEq] at h
    exact Or.inr (Or.inl ⟨k, rfl, by simpa using h.1, h.2.symm⟩)
  | hops hops =>
    cases hops with
    | nil => cases h
    | cons hop hops =>
      simp only [resumeStop, Option.ite_none_right_eq_some, Option.some.injEq] at h
      exact Or.inr (Or.inr ⟨hop, hops, rfl, h.1, h.2.symm⟩)

/-! ## The stream task -/

theorem updateCapture_congr {m : Manager} {k : CaptureId} {f g : Capture → Capture}
    (h : f (m.capture k) = g (m.capture k)) : m.updateCapture k f = m.updateCapture k g := by
  unfold updateCapture
  rw [h]

theorem updateCapture_eq_self {m : Manager} {k : CaptureId} {f : Capture → Capture}
    (h : f (m.capture k) = m.capture k) : m.updateCapture k f = m := by
  unfold updateCapture
  rw [h, Function.update_eq_self]

/-- What `stream()` can do when it goes on. -/
inductive StreamStep (m : Manager) (k : CaptureId) : Manager → Prop where
  | enter (task : StreamTask) (hrunning : (m.capture k).task ≠ .done) (htask : task ≠ .done)
      (hhops : ∀ hops, task ≠ .stoppingHops hops) :
    StreamStep m k (m.updateCapture k ({ · with task, cancelled := false }))
  | broadcast (chunk : List UInt8) (htask : (m.capture k).task = .sending chunk) :
    StreamStep m k ((m.broadcastChunk k chunk).updateCapture k ({ · with task := .reading }))
  /-- It was cancelled before its `try`, or in its `finally`. -/
  | die (hcancelled : (m.capture k).cancelled = true) (hrunning : (m.capture k).task ≠ .done) :
    StreamStep m k (m.updateCapture k ({ · with task := .done, cancelled := false }))
  | reaped (htask : (m.capture k).task = .terminating) (halive : (m.capture k).alive = false) :
    StreamStep m k (m.stopStreamHops k)
  | hop (hop : HopId) (hops : List HopId) (htask : (m.capture k).task =
    .stoppingHops (hop :: hops)) :
    StreamStep m k ((m.updateCapture k ({ · with cancelled := false })).streamHops k hops)

theorem cancelStream_cases {m m' : Manager} {k : CaptureId}
    (hcancelled : (m.capture k).cancelled = true) (h : m.cancelStream k = some m') :
    StreamStep m k m' := by
  have henter (task : StreamTask) :
      (m.updateCapture k ({ · with cancelled := false })).updateCapture k ({ · with task }) =
        m.updateCapture k ({ · with task, cancelled := false }) := by
    simp [updateCapture]
  unfold cancelStream at h
  simp only [updateCapture_capture, if_true] at h
  cases htask : (m.capture k).task <;> rw [htask] at h <;>
    simp only [Option.some.injEq, henter] at h
  case created | terminating =>
    subst h
    exact .die hcancelled (by simp [htask])
  case reading | sending | ending | failing =>
    subst h
    exact .enter _ (by simp [htask]) (by simp) (by simp)
  case stoppingHops hops =>
    cases hops with
    | nil => cases h
    | cons hop hops =>
      dsimp only at h
      split_ifs at h
      cases h
      exact .hop hop hops htask
  case done => cases h

theorem resumeStream_cases {m m' : Manager} {k : CaptureId} {r : Reply}
    (h : m.resumeStream k r = some m') : StreamStep m k m' := by
  unfold resumeStream at h
  dsimp only at h
  by_cases hcancelled : (m.capture k).cancelled = true
  · rw [if_pos hcancelled] at h
    exact cancelStream_cases hcancelled h
  rw [if_neg hcancelled] at h
  have henter (task : StreamTask) : m.updateCapture k ({ · with task }) =
      m.updateCapture k ({ · with task, cancelled := false }) := by
    apply updateCapture_congr
    simp [Bool.eq_false_iff.2 hcancelled]
  have hself : m.updateCapture k ({ · with cancelled := false }) = m := by
    apply updateCapture_eq_self
    simp [← Bool.eq_false_iff.2 hcancelled]
  cases htask : (m.capture k).task <;> rw [htask] at h
  case created | ending | failing =>
    cases r <;> cases h
    rw [henter]
    exact .enter _ (by simp [htask]) (by simp) (by simp)
  case reading =>
    cases r <;> cases h
    · rw [henter]
      exact .enter _ (by simp [htask]) (by simp) (by simp)
    · rw [henter]
      refine .enter _ (by simp [htask]) ?_ fun hops => ?_
      · split_ifs <;> simp
      · split_ifs <;> simp
  case sending chunk =>
    cases r <;> cases h
    · exact .broadcast chunk htask
    · rw [henter]
      exact .enter _ (by simp [htask]) (by simp) (by simp)
  case terminating =>
    cases r <;> simp only [reduceCtorEq, Option.ite_none_left_eq_some, Option.some.injEq] at h
    obtain ⟨halive, rfl⟩ := h
    exact .reaped htask (by simpa using halive)
  case stoppingHops hops =>
    cases hops with
    | nil => cases h
    | cons hop hops =>
      cases r <;> simp only [reduceCtorEq, Option.ite_none_right_eq_some, Option.some.injEq] at h
      obtain ⟨-, rfl⟩ := h
      have hstep := StreamStep.hop (m := m) hop hops htask
      rwa [hself] at hstep
  case done => cases h

/-! ## The sender task -/

/-- What `_send_subscription` can do when it goes on. -/
inductive SenderStep (m : Manager) (q : SubId) : Manager → Prop where
  | wait (hloops : (m.sub q).sender.loops = true) (hqueue : (m.sub q).queue = []) :
    SenderStep m q (m.updateSub q ({ · with sender := .getting }))
  | send (msg : Message) (queue : List Item) (hloops : (m.sub q).sender.loops = true)
      (hqueue : (m.sub q).queue = .message msg :: queue) :
    SenderStep m q (m.updateSub q fun sub => { sub with
      queue, sender := .sending, sent := sub.sent ++ [msg] })
  | close (queue : List Item) (hloops : (m.sub q).sender.loops = true)
      (hqueue : (m.sub q).queue = .close :: queue) :
    SenderStep m q (m.updateSub q ({ · with queue, sender := .closing, closed := true }))
  | complete (queue : List Item) (hloops : (m.sub q).sender.loops = true)
      (hqueue : (m.sub q).queue = .done :: queue) :
    SenderStep m q ((m.updateSub q ({ · with queue })).finishSender q)
  | timeOut (hsending : (m.sub q).sender = .sending ∨ (m.sub q).sender = .closing) :
    SenderStep m q (m.updateSub q ({ · with sender := .timedOut, closed := true }))
  /-- It was cancelled, or the socket failed or is closed. -/
  | finish (hrunning : (m.sub q).sender ≠ .done) : SenderStep m q (m.finishSender q)
  /-- It was cancelled before its `try`. -/
  | never (hcreated : (m.sub q).sender = .created) (hcancelled : (m.sub q).cancelled = true) :
    SenderStep m q (m.updateSub q ({ · with sender := .done, cancelled := false }))

theorem senderLoop_cases {m : Manager} {q : SubId} (hloops : (m.sub q).sender.loops = true) :
    SenderStep m q (m.senderLoop q) := by
  unfold senderLoop
  cases hqueue : (m.sub q).queue with
  | nil => exact .wait hloops hqueue
  | cons item queue =>
    cases item with
    | message msg => exact .send msg queue hloops hqueue
    | done => exact .complete queue hloops hqueue
    | close => exact .close queue hloops hqueue

theorem resumeSender_cases {m m' : Manager} {q : SubId} {r : Reply}
    (h : m.resumeSender q r = some m') : SenderStep m q m' := by
  unfold resumeSender at h
  by_cases hcancelled : (m.sub q).cancelled = true
  · rw [if_pos hcancelled] at h
    cases hsender : (m.sub q).sender <;> rw [hsender] at h
    case created =>
      cases h
      exact .never hsender hcancelled
    case done => cases h
    all_goals
      cases h
      exact .finish (by simp [hsender])
  rw [if_neg hcancelled] at h
  cases hsender : (m.sub q).sender <;> rw [hsender] at h
  case created =>
    cases r <;> cases h
    exact senderLoop_cases (by simp [hsender, Sender.loops])
  case getting =>
    cases r <;> simp only [reduceCtorEq, Option.ite_none_left_eq_some, Option.some.injEq] at h
    obtain ⟨-, rfl⟩ := h
    exact senderLoop_cases (by simp [hsender, Sender.loops])
  case sending =>
    cases r <;> cases h
    · exact senderLoop_cases (by simp [hsender, Sender.loops])
    · exact .finish (by simp [hsender])
    · exact .timeOut (Or.inl hsender)
  case closing =>
    cases r <;> cases h
    · exact .finish (by simp [hsender])
    · exact .finish (by simp [hsender])
    · exact .timeOut (Or.inr hsender)
  case timedOut => cases r <;> cases h <;> exact .finish (by simp [hsender])
  case done => cases h

end Manager

/-! ## Steps -/

namespace System

/-- What the service can do. -/
inductive Step (s : System) : Act → System → Prop where
  | connect (ws : Ws) (h : s.handler ws = .fresh) : Step s (.connect ws) (s.become ws .accepting)
  | authenticate (ws : Ws) (did : Text) (h : s.handler ws = .authenticating) :
    Step s (.authenticate ws did) ({ s with mgr := s.mgr.authenticate ws did }.reply ws
      ⟨"status", "AUTH_OK", .obj [(some "did".toList, .ofText did)]⟩)
  | command (ws : Ws) (c : Command) (h : s.handler ws = .idle) : Step s (.command ws c) (s.run ws c)
  | disconnect (ws : Ws)
    (h : s.handler ws = .authenticating ∨ s.handler ws = .idle ∨ s.handler ws = .raised) :
    Step s (.disconnect ws) (s.detach ws .disconnect)
  | accepted (ws : Ws) (h : s.handler ws = .accepting) :
    Step s (.resume ws .ok) ({ s with mgr := s.mgr.connect ws }.become ws .authenticating)
  | refused (ws : Ws) (h : s.handler ws = .accepting) :
    Step s (.resume ws .raises) (s.become ws .gone)
  | replied (ws : Ws) (e : Event) (h : s.handler ws = .replying e) :
    Step s (.resume ws .ok) (s.become ws .idle)
  | stopping (ws : Ws) (next : AfterStop) (await : StopAwait) (p : Manager × StopOutcome)
    (h : s.handler ws = .stopping next await) (hp : s.mgr.resumeStop ws await = some p) :
    Step s (.resume ws .ok) (s.stopped ws next p)
  | starting (ws : Ws) (start : CaptureStart) (phase : StartPhase) (r : Reply) (t : System)
    (h : s.handler ws = .starting start phase) (ht : s.resumeStart ws start phase r = some t) :
    Step s (.resume ws r) t
  | detached (ws : Ws) (next : AfterDetach) (q : SubId) (h : s.handler ws = .detaching next q)
    (hdone : (s.mgr.sub q).sender = .done) : Step s (.resume ws .ok) (s.afterDetach ws next)
  | left (ws : Ws) (e : Event) (h : s.handler ws = .leaving e) :
    Step s (.resume ws .ok) (s.afterStop ws .disconnect)
  | stream (k : CaptureId) (r : Reply) (m : Manager) (hk : k < s.mgr.nextCapture)
    (hm : s.mgr.resumeStream k r = some m) : Step s (.stream k r) { s with mgr := m }
  | sender (q : SubId) (r : Reply) (m : Manager) (hq : q < s.mgr.nextSub)
    (hm : s.mgr.resumeSender q r = some m) : Step s (.sender q r) { s with mgr := m }
  | hopEnds (hop : HopId) : Step s (.hopEnds hop)
      { s with mgr := { s.mgr with hopDone := Function.update s.mgr.hopDone hop true } }
  | exits (k : CaptureId) (hk : k < s.mgr.nextCapture) : Step s (.exits k)
      { s with mgr := s.mgr.updateCapture k ({ · with alive := false }) }

theorem resume_cases {s t : System} {ws : Ws} {r : Reply} (h : s.resume ws r = some t) :
    Step s (.resume ws r) t := by
  unfold resume at h
  cases hhandler : s.handler ws <;> rw [hhandler] at h
  case starting start phase => exact .starting ws start phase r t hhandler h
  case accepting =>
    cases r <;> cases h
    · exact .accepted ws hhandler
    · exact .refused ws hhandler
  case replying e =>
    cases r <;> cases h
    exact .replied ws e hhandler
  case stopping next await =>
    cases r <;> simp only [reduceCtorEq, Option.map_eq_some_iff] at h
    obtain ⟨p, hp, rfl⟩ := h
    exact .stopping ws next await p hhandler hp
  case detaching next q =>
    cases r <;> simp only [reduceCtorEq, Option.ite_none_right_eq_some, Option.some.injEq] at h
    obtain ⟨hdone, rfl⟩ := h
    exact .detached ws next q hhandler hdone
  case leaving e =>
    cases r <;> cases h
    exact .left ws e hhandler
  all_goals cases r <;> cases h

theorem step_cases {s t : System} {a : Act} (h : s.step a = some t) : Step s a t := by
  cases a with
  | connect ws =>
    simp only [step] at h
    cases hhandler : s.handler ws <;> rw [hhandler] at h <;> cases h
    exact .connect ws hhandler
  | authenticate ws did =>
    simp only [step] at h
    cases hhandler : s.handler ws <;> rw [hhandler] at h <;> cases h
    exact .authenticate ws did hhandler
  | command ws c =>
    simp only [step] at h
    cases hhandler : s.handler ws <;> rw [hhandler] at h <;> cases h
    exact .command ws c hhandler
  | disconnect ws =>
    simp only [step] at h
    cases hhandler : s.handler ws <;> rw [hhandler] at h <;> cases h <;>
      exact .disconnect ws (by simp [hhandler])
  | resume ws r => exact resume_cases h
  | stream k r =>
    simp only [step, Option.ite_none_right_eq_some, Option.map_eq_some_iff] at h
    obtain ⟨hk, m, hm, rfl⟩ := h
    exact .stream k r m hk hm
  | sender q r =>
    simp only [step, Option.ite_none_right_eq_some, Option.map_eq_some_iff] at h
    obtain ⟨hq, m, hm, rfl⟩ := h
    exact .sender q r m hq hm
  | hopEnds hop =>
    simp only [step, Option.ite_none_right_eq_some, Option.some.injEq] at h
    obtain ⟨-, rfl⟩ := h
    exact .hopEnds hop
  | exits k =>
    simp only [step, Option.ite_none_right_eq_some, Option.some.injEq] at h
    obtain ⟨hk, rfl⟩ := h
    exact .exits k hk

end System

end WlanpiCore.Streaming
