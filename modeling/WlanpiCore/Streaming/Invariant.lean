import WlanpiCore.Streaming.Ownership

/-!
# The invariant of the service

**`System.ownership`**: in every run in which no session id is drawn that is still in use, the
interfaces, the sessions and the subscribers that the manager records agree (`Manager.Owned`).

`Good` is what the manager keeps, `Handler.Sound` what an endpoint coroutine that is suspended has
found out and relies on when it goes on. A step of one coroutine changes the records of its own
socket; `Seen` says that what it does is nothing to the coroutine of another one, and `Calmer` what
the tasks may do to a socket behind its coroutine's back.

Session ids are drawn at random and not looked up: `System.ownership_collision` is a run in which
two captures draw the same one.
-/

namespace WlanpiCore.Streaming

namespace Manager

/-! ## Captures and subscriptions -/

/-- Records, captures and subscriptions name each other, and a stream task that is not done is the
one of its socket. -/
structure Linked (m : Manager) : Prop where
  nodup : m.clients.Nodup
  captures : ∀ ws k, (m.record ws).capture = some k →
    k < m.nextCapture ∧ (m.capture k).socket = ws
  streams : ∀ k < m.nextCapture, (m.capture k).task ≠ .done →
    (m.capture k).socket ∈ m.clients ∧ (m.record (m.capture k).socket).capture = some k
  subscriptions : ∀ ws q, (m.record ws).subscription = some q →
    q < m.nextSub ∧ (m.sub q).socket = ws

/-- Nothing that `Linked` is about has changed, except that tasks may be done and subscriptions
cleared. -/
structure SameLinks (m m' : Manager) : Prop where
  clients : m'.clients = m.clients
  next : m'.nextCapture = m.nextCapture ∧ m'.nextSub = m.nextSub
  capture : ∀ ws, (m'.record ws).capture = (m.record ws).capture
  subscription : ∀ ws q, (m'.record ws).subscription = some q → (m.record ws).subscription = some q
  task : ∀ k, (m'.capture k).socket = (m.capture k).socket ∧
    ((m.capture k).task = .done → (m'.capture k).task = .done)
  sub : ∀ q, (m'.sub q).socket = (m.sub q).socket

theorem Linked.same {m m' : Manager} (hm : Linked m) (h : SameLinks m m') : Linked m' where
  nodup := h.clients ▸ hm.nodup
  captures ws k hk := by
    rw [h.next.1, (h.task k).1]
    exact hm.captures ws k (h.capture ws ▸ hk)
  streams k hk hrunning := by
    rw [(h.task k).1, h.clients, h.capture]
    exact hm.streams k (h.next.1 ▸ hk) fun hdone => hrunning ((h.task k).2 hdone)
  subscriptions ws q hq := by
    rw [h.next.2, h.sub]
    exact hm.subscriptions ws q (h.subscription ws q hq)

/-- The manager's part of the invariant. -/
structure Good (m : Manager) : Prop where
  interfaces : InterfacesAgree m
  sessions : SessionsAgree m
  linked : Linked m

/-- What the coroutines of `ws` rely on has not changed. -/
structure Seen (m m' : Manager) (ws : Ws) : Prop where
  client : ws ∈ m'.clients ↔ ws ∈ m.clients
  record : (m'.record ws).capture = (m.record ws).capture ∧
    (m'.record ws).interfaces = (m.record ws).interfaces ∧
    (m'.record ws).sessionId = (m.record ws).sessionId ∧
    (m'.record ws).subscription = (m.record ws).subscription
  done : ∀ k, (m.record ws).capture = some k → (m.capture k).task = .done →
    (m'.capture k).task = .done

theorem Seen.refl (m : Manager) (ws : Ws) : Seen m m ws :=
  ⟨Iff.rfl, ⟨rfl, rfl, rfl, rfl⟩, fun _ _ => id⟩

theorem Seen.trans {m m' m'' : Manager} {ws : Ws} (h : Seen m m' ws) (h' : Seen m' m'' ws) :
    Seen m m'' ws where
  client := h'.client.trans h.client
  record := ⟨h'.record.1.trans h.record.1, h'.record.2.1.trans h.record.2.1,
    h'.record.2.2.1.trans h.record.2.2.1, h'.record.2.2.2.trans h.record.2.2.2⟩
  done k hk hdone := h'.done k (h.record.1 ▸ hk) (h.done k hk hdone)

/-! ## The manager's methods -/

namespace Good

variable {m : Manager}

theorem updateClient (h : Good m) (ws : Ws) (f : Client → Client)
    (hf : ∀ c, (f c).interfaces = c.interfaces ∧ (f c).sessionId = c.sessionId ∧
      (f c).subscription = c.subscription ∧ (f c).subscribers = c.subscribers ∧
      (f c).capture = c.capture) : Good (m.updateClient ws f) where
  interfaces := h.interfaces.same rfl rfl fun ws' => by
    rw [updateClient_record]
    split_ifs with heq
    · rw [(hf _).1, heq]
    · rfl
  sessions := h.sessions.updateClient fun c => ⟨(hf c).2.1, (hf c).2.2.1, (hf c).2.2.2.1⟩
  linked := by
    refine h.linked.same ⟨rfl, ⟨rfl, rfl⟩, fun ws' => ?_, fun ws' q => ?_, fun _ => ⟨rfl, id⟩,
      fun _ => rfl⟩
    · rw [updateClient_record]
      split_ifs with heq
      · rw [(hf _).2.2.2.2, heq]
      · rfl
    · rw [updateClient_record]
      split_ifs with heq
      · rw [(hf _).2.2.1, heq]
        exact id
      · exact id

theorem updateCapture (h : Good m) {k : CaptureId} {f : Capture → Capture}
    (hf : (f (m.capture k)).socket = (m.capture k).socket ∧
      ((m.capture k).task = .done → (f (m.capture k)).task = .done)) :
    Good (m.updateCapture k f) where
  interfaces := h.interfaces.same rfl rfl fun _ => rfl
  sessions := h.sessions.same ⟨rfl, rfl, fun _ => ⟨rfl, rfl, rfl⟩, fun _ => ⟨rfl, id⟩⟩
  linked := by
    refine h.linked.same ⟨rfl, ⟨rfl, rfl⟩, fun _ => rfl, fun _ _ => id, fun k' => ?_, fun _ => rfl⟩
    rw [updateCapture_capture]
    split_ifs with heq
    · rw [heq]
      exact hf
    · exact ⟨rfl, id⟩

theorem updateSub (h : Good m) {q : SubId} {f : Subscription → Subscription}
    (hf : ∀ sub, (f sub).socket = sub.socket ∧ (f sub).sessionId = sub.sessionId ∧
      (f sub).closing = sub.closing) : Good (m.updateSub q f) where
  interfaces := h.interfaces.same rfl rfl fun _ => rfl
  sessions := h.sessions.updateSub (hf _).2.1 (by rw [(hf _).2.2]; exact id)
  linked := by
    refine h.linked.same ⟨rfl, ⟨rfl, rfl⟩, fun _ => rfl, fun _ _ => id, fun _ => ⟨rfl, id⟩,
      fun q' => ?_⟩
    rw [updateSub_sub]
    split_ifs with heq
    · rw [heq]
      exact (hf _).1
    · rfl

theorem releaseInterfaces (h : Good m) (ws : Ws) : Good (m.releaseInterfaces ws) where
  interfaces := h.interfaces.release ws
  sessions := h.sessions.same ⟨by simp, by simp, by simp, by simp⟩
  linked := h.linked.same ⟨by simp, by rw [releaseInterfaces_rest]; exact ⟨rfl, rfl⟩, by simp,
    by simp, by simp, by simp⟩

theorem endSession (h : Good m) {ws : Ws} (hws : ws ∈ m.clients) (code message : String) :
    Good (m.endSession ws code message) where
  interfaces := h.interfaces.same (by simp) (by simp) fun ws' => by
    rw [endSession_record]
    split_ifs with heq
    · rw [heq]
      rfl
    · rfl
  sessions := h.sessions.endSession hws code message
  linked := by
    refine h.linked.same ⟨by simp, by rw [endSession_rest]; exact ⟨rfl, rfl⟩, fun ws' => ?_,
      fun ws' q => ?_, fun k => ?_, fun q => (m.endSession_sub ws code message q).socket⟩
    · rw [endSession_record]
      split_ifs with heq
      · rw [heq]
        rfl
      · rfl
    · rw [endSession_record]
      split_ifs with heq
      · rw [heq]
        exact id
      · exact id
    · obtain ⟨ended, hended⟩ := m.endSession_capture ws code message k
      rw [hended]
      exact ⟨rfl, id⟩

theorem clearSubscription (h : Good m) (ws : Ws) (expected : Option SessionId)
    (current : Option SubId) : Good (m.clearSubscription ws expected current).1 := by
  have hsessions := h.sessions.clearSubscription ws expected current
  rcases m.clearSubscription_cases ws expected current with ⟨hnone, -⟩ | ⟨q, -, hq, hsome⟩
  · rw [hnone]
    exact h
  have hdropped : Good (m.dropSubscription ws q) := by
    have hrest := m.dropSubscription_rest ws q
    refine ⟨h.interfaces.same ?_ ?_ (by simp), h.sessions.dropSubscription hq,
      h.linked.same ⟨?_, ?_, by simp, fun ws' q' => ?_, fun k => ?_, fun q' => ?_⟩⟩
    · rw [hrest]
    · rw [hrest]
    · rw [hrest]
    · rw [hrest]
      exact ⟨rfl, rfl⟩
    · rw [dropSubscription_record]
      dsimp only
      split_ifs
      · rintro ⟨⟩
      · exact id
    · rw [hrest]
      exact ⟨rfl, id⟩
    · rw [hrest]
  rw [hsome]
  dsimp only
  split_ifs
  · exact hdropped
  · exact hdropped.updateSub fun sub => ⟨rfl, rfl, rfl⟩

theorem fannedOut {ws : Ws} {m' : Manager} (h : Good m) (hm : FannedOut ws m m')
    (hsessions : SessionsAgree m') : Good m' := by
  have hrest := hm.rest
  refine ⟨h.interfaces.same ?_ ?_ fun ws' => ?_, hsessions,
    h.linked.same ⟨?_, ?_, fun ws' => ?_, fun ws' q => ?_, fun k => ?_, fun q => (hm.sub q).socket⟩⟩
  · rw [hrest]
  · rw [hrest]
  · rw [hm.record]
  · rw [hrest]
  · rw [hrest]
    exact ⟨rfl, rfl⟩
  · rw [hm.record]
  · rw [hm.record]
    exact id
  · rw [hrest]
    exact ⟨rfl, id⟩

theorem queueSubscriberBlock (h : Good m) (ws : Ws) (block : Block) :
    Good (queueSubscriberBlock ws m block) :=
  h.fannedOut (fannedOut_queueSubscriberBlock ws m block) (h.sessions.queueSubscriberBlock ws block)

theorem broadcastChunk (h : Good m) (k : CaptureId) (chunk : List UInt8) :
    Good (m.broadcastChunk k chunk) := by
  unfold Manager.broadcastChunk
  dsimp only
  have hm : Good (m.updateClient (m.capture k).socket
      ({ · with framer := (pcapngBlocks (m.record (m.capture k).socket).framer chunk).1 })) :=
    h.updateClient _ _ fun c => ⟨rfl, rfl, rfl, rfl, rfl⟩
  generalize m.updateClient (m.capture k).socket _ = m' at hm
  generalize (pcapngBlocks _ chunk).2 = blocks
  induction blocks generalizing m' with
  | nil => exact hm
  | cons block blocks ih =>
    exact ih _ ((hm.queueSubscriberBlock _ block).updateCapture ⟨rfl, id⟩)

/-- A capture whose task is done may be forgotten. -/
theorem forgetCapture (h : Good m) (ws : Ws) (f : Client → Client)
    (hf : ∀ c, (f c).interfaces = c.interfaces ∧ (f c).sessionId = c.sessionId ∧
      (f c).subscription = c.subscription ∧ (f c).subscribers = c.subscribers)
    (hcapture : ∀ k, (f (m.record ws)).capture = some k → (m.record ws).capture = some k)
    (hdone : ∀ k, (m.record ws).capture = some k → (m.capture k).task = .done) :
    Good (m.updateClient ws f) where
  interfaces := h.interfaces.same rfl rfl fun ws' => by
    rw [updateClient_record]
    split_ifs with heq
    · rw [(hf _).1, heq]
    · rfl
  sessions := h.sessions.updateClient fun c => ⟨(hf c).2.1, (hf c).2.2.1, (hf c).2.2.2⟩
  linked := by
    refine ⟨h.linked.nodup, fun ws' k hk => ?_, fun k hk hrunning => ?_, fun ws' q hq => ?_⟩
    · rw [updateClient_record] at hk
      split_ifs at hk with heq
      · rw [heq]
        exact h.linked.captures ws k (hcapture k hk)
      · exact h.linked.captures ws' k hk
    · obtain ⟨hclient, hcurrent⟩ := h.linked.streams k hk hrunning
      refine ⟨hclient, ?_⟩
      rw [updateClient_capture, updateClient_record, if_neg]
      · exact hcurrent
      · intro heq
        rw [heq] at hcurrent
        exact hrunning (hdone k hcurrent)
    · rw [updateClient_record] at hq
      split_ifs at hq with heq
      · rw [heq]
        exact h.linked.subscriptions ws q ((hf _).2.2.1 ▸ hq)
      · exact h.linked.subscriptions ws' q hq

theorem claimInterfaces {m' : Manager} {ws : Ws} {interfaces : List Iface} (h : Good m)
    (hnone : (m.record ws).interfaces = []) (hclaim : m.claimInterfaces ws interfaces = .ok m') :
    Good m' := by
  have hinterfaces := h.interfaces.claim hnone hclaim
  obtain ⟨-, -, rfl⟩ := claimInterfaces_ok hclaim
  refine ⟨hinterfaces, h.sessions.same ⟨rfl, rfl, fun ws' => ?_, fun _ => ⟨rfl, id⟩⟩,
    h.linked.same ⟨rfl, ⟨rfl, rfl⟩, fun ws' => ?_, fun ws' q => ?_, fun _ =>
      ⟨rfl, id⟩, fun _ => rfl⟩⟩
  all_goals
    rw [updateClient_record]
    split_ifs with heq
  · rw [heq]
    exact ⟨rfl, rfl, rfl⟩
  · exact ⟨rfl, rfl, rfl⟩
  · rw [heq]
  · rfl
  · rw [heq]
    exact id
  · exact id

theorem attach (h : Good m) {ws : Ws} {sid : SessionId} {owner : Ws} (hws : ws ∈ m.clients)
    (hfree : (m.record ws).subscription = none) (hsession : (m.record ws).sessionId = none)
    (howner : m.sessions sid = some owner)
    (hroom : (m.record owner).subscribers.length < maxSubscribersPerSession) :
    Good (m.attach ws sid owner) where
  interfaces := h.interfaces.same rfl rfl (by simp)
  sessions := h.sessions.attach hws hfree hsession howner hroom
    fun ws q hq => (h.linked.subscriptions ws q hq).1
  linked := by
    refine ⟨h.linked.nodup, fun ws' k hk => ?_, fun k hk hrunning => ?_, fun ws' q hq => ?_⟩
    · rw [attach_record] at hk
      exact h.linked.captures ws' k hk
    · rw [attach_record]
      exact h.linked.streams k hk hrunning
    · have hnext : (m.attach ws sid owner).nextSub = m.nextSub + 1 := rfl
      have hsub : (m.attach ws sid owner).sub q =
          if q = m.nextSub then (m.attach ws sid owner).sub m.nextSub else m.sub q := by
        split_ifs with heq
        · rw [heq]
        · simp [Manager.attach, heq]
      rw [attach_record] at hq
      dsimp only at hq
      rw [hnext, hsub]
      split_ifs at hq with heq
      · cases hq
        simp [Manager.attach, heq]
      · obtain ⟨hlt, hsocket⟩ := h.linked.subscriptions ws' q hq
        rw [if_neg hlt.ne]
        exact ⟨hlt.trans (Nat.lt_succ_self _), hsocket⟩

theorem startCapture (h : Good m) {ws : Ws} (start : CaptureStart) {sid : SessionId}
    (hws : ws ∈ m.clients) (hcapture : (m.record ws).capture = none)
    (hsession : (m.record ws).sessionId = none) (hfree : (m.record ws).subscription = none)
    (hfresh : m.sessions sid = none) (hunheard : ∀ s ∈ m.clients, m.subscribedTo s ≠ some sid) :
    Good (m.startCapture ws start sid) where
  interfaces := h.interfaces.same rfl rfl fun ws' => by
    rw [startCapture_record]
    split_ifs with heq
    · rw [heq]
    · rfl
  sessions := h.sessions.startCapture hws hsession hfree hfresh hunheard
  linked := by
    have hnext : (m.startCapture ws start sid).nextCapture = m.nextCapture + 1 := rfl
    have hcaptures (k : CaptureId) : (m.startCapture ws start sid).capture k =
        if k = m.nextCapture then { socket := ws, sessionId := sid } else m.capture k := by
      simp only [Manager.startCapture, updateClient_capture, Function.update_apply]
    refine ⟨h.linked.nodup, fun ws' k hk => ?_, fun k hk hrunning => ?_, fun ws' q hq => ?_⟩
    · rw [startCapture_record] at hk
      rw [hnext, hcaptures]
      split_ifs at hk with heq
      · cases hk
        simp [heq]
      · obtain ⟨hlt, hsocket⟩ := h.linked.captures ws' k hk
        rw [if_neg hlt.ne]
        exact ⟨hlt.trans (Nat.lt_succ_self _), hsocket⟩
    · rw [hcaptures] at hrunning ⊢
      rw [startCapture_record]
      split_ifs at hrunning ⊢ with heq hsame hsame
      · exact ⟨hws, by rw [heq]⟩
      · exact absurd rfl hsame
      · -- No task of the socket was running before.
        have hlt := lt_of_le_of_ne (Nat.lt_succ_iff.1 hk) heq
        have hcurrent := (h.linked.streams k hlt hrunning).2
        rw [hsame, hcapture] at hcurrent
        cases hcurrent
      · exact h.linked.streams k (lt_of_le_of_ne (Nat.lt_succ_iff.1 hk) heq) hrunning
    · rw [startCapture_record] at hq
      split_ifs at hq with heq
      · rw [heq]
        exact h.linked.subscriptions ws q hq
      · exact h.linked.subscriptions ws' q hq

theorem connect (h : Good m) {ws : Ws} (hws : ws ∉ m.clients) : Good (m.connect ws) := by
  have hclients (ws' : Ws) : ws' ∈ (m.connect ws).clients ↔ ws' ∈ m.clients ∨ ws' = ws := by
    simp [Manager.connect]
  refine ⟨fun i ws' => ?_, h.sessions.connect hws, ⟨?_, fun ws' k hk => ?_, fun k hk hrunning => ?_,
    fun ws' q hq => ?_⟩⟩
  · have hagree := h.interfaces i ws'
    rw [hclients, connect_record]
    by_cases heq : ws' = ws
    · subst heq
      simp only [hws, false_and, iff_false] at hagree
      simp only [if_true, List.not_mem_nil, and_false, iff_false]
      exact hagree
    · rw [if_neg heq, or_iff_left heq]
      exact hagree
  · exact List.nodup_append.2 ⟨h.linked.nodup, List.nodup_singleton ws, by
      rintro a ha b hb rfl
      rw [List.mem_singleton] at hb
      exact hws (hb ▸ ha)⟩
  · rw [connect_record] at hk
    split_ifs at hk
    exact h.linked.captures ws' k hk
  · obtain ⟨hclient, hcurrent⟩ := h.linked.streams k hk hrunning
    refine ⟨(hclients _).2 (Or.inl hclient), ?_⟩
    rw [connect_record, if_neg]
    · exact hcurrent
    · exact fun heq : (m.capture k).socket = ws => hws (heq ▸ hclient)
  · rw [connect_record] at hq
    split_ifs at hq
    exact h.linked.subscriptions ws' q hq

theorem forget (h : Good m) {ws : Ws} (hinterfaces : (m.record ws).interfaces = [])
    (hcapture : (m.record ws).capture = none) (hsession : (m.record ws).sessionId = none)
    (hfree : (m.record ws).subscription = none) : Good (m.forget ws) := by
  have hclients (ws' : Ws) : ws' ∈ (m.forget ws).clients ↔ ws' ≠ ws ∧ ws' ∈ m.clients :=
    h.linked.nodup.mem_erase_iff
  refine ⟨fun i ws' => ?_, h.sessions.forget h.linked.nodup hsession hfree,
    ⟨h.linked.nodup.erase ws, h.linked.captures, fun k hk hrunning => ?_, h.linked.subscriptions⟩⟩
  · have hagree := h.interfaces i ws'
    rw [hclients]
    refine ⟨fun howner => ⟨⟨?_, (hagree.1 howner).1⟩, (hagree.1 howner).2⟩,
      fun hmem => hagree.2 ⟨hmem.1.2, hmem.2⟩⟩
    rintro rfl
    have hmem := (hagree.1 howner).2
    rw [hinterfaces] at hmem
    cases hmem
  · obtain ⟨hclient, hcurrent⟩ := h.linked.streams k hk hrunning
    refine ⟨(hclients _).2 ⟨fun heq : (m.capture k).socket = ws => ?_, hclient⟩, hcurrent⟩
    rw [heq, hcapture] at hcurrent
    cases hcurrent

end Good

/-! ## What other sockets see -/

section

variable (m : Manager) {ws ws' : Ws}

theorem seen_updateClient (f : Client → Client) (hne : ws' ≠ ws) :
    Seen m (m.updateClient ws f) ws' := by
  refine ⟨Iff.rfl, ?_, fun _ _ => id⟩
  rw [updateClient_record, if_neg hne]
  exact ⟨rfl, rfl, rfl, rfl⟩

theorem seen_updateCapture {k : CaptureId} {f : Capture → Capture}
    (hf : (m.capture k).task = .done → (f (m.capture k)).task = .done) :
    Seen m (m.updateCapture k f) ws := by
  refine ⟨Iff.rfl, ⟨rfl, rfl, rfl, rfl⟩, fun k' _ => ?_⟩
  rw [updateCapture_capture]
  split_ifs with heq
  · rw [heq]
    exact hf
  · exact id

theorem seen_updateSub (q : SubId) (f : Subscription → Subscription) : Seen m
    (m.updateSub q f) ws :=
  ⟨Iff.rfl, ⟨rfl, rfl, rfl, rfl⟩, fun _ _ => id⟩

theorem seen_releaseInterfaces (hne : ws' ≠ ws) : Seen m (m.releaseInterfaces ws) ws' := by
  refine ⟨by simp, ?_, by simp⟩
  simp [hne]

theorem seen_endSession (hne : ws' ≠ ws) (code message : String) :
    Seen m (m.endSession ws code message) ws' := by
  refine ⟨by simp, ?_, fun k _ => ?_⟩
  · rw [endSession_record, if_neg hne]
    exact ⟨rfl, rfl, rfl, rfl⟩
  · obtain ⟨ended, hended⟩ := m.endSession_capture ws code message k
    rw [hended]
    exact id

theorem seen_clearSubscription (hne : ws' ≠ ws) (expected : Option SessionId)
    (current : Option SubId) : Seen m (m.clearSubscription ws expected current).1 ws' := by
  rcases m.clearSubscription_cases ws expected current with ⟨hnone, -⟩ | ⟨q, -, -, hsome⟩
  · rw [hnone]
    exact .refl m ws'
  have hdropped : Seen m (m.dropSubscription ws q) ws' := by
    refine ⟨?_, by simp [hne], ?_⟩ <;> rw [dropSubscription_rest]
    exact fun _ _ => id
  rw [hsome]
  dsimp only
  split_ifs
  · exact hdropped
  · exact hdropped.trans (seen_updateSub _ _ _)

theorem FannedOut.seen {m m' : Manager} (h : FannedOut ws m m') (ws' : Ws) : Seen m m' ws' := by
  have hrest := h.rest
  refine ⟨by rw [hrest], ?_, fun k _ => ?_⟩
  · rw [h.record]
    exact ⟨rfl, rfl, rfl, rfl⟩
  · rw [hrest]
    exact id

theorem seen_broadcastChunk (k : CaptureId) (chunk : List UInt8) :
    Seen m (m.broadcastChunk k chunk) ws := by
  unfold broadcastChunk
  dsimp only
  have hm : Seen m (m.updateClient (m.capture k).socket
      ({ · with framer := (pcapngBlocks (m.record (m.capture k).socket).framer chunk).1 })) ws := by
    refine ⟨Iff.rfl, ?_, fun _ _ => id⟩
    rw [updateClient_record]
    split_ifs with heq
    · rw [heq]
      exact ⟨rfl, rfl, rfl, rfl⟩
    · exact ⟨rfl, rfl, rfl, rfl⟩
  generalize m.updateClient (m.capture k).socket _ = m' at hm
  generalize (pcapngBlocks _ chunk).2 = blocks
  induction blocks generalizing m' with
  | nil => exact hm
  | cons block blocks ih =>
    refine ih _ (hm.trans ?_)
    exact ((fannedOut_queueSubscriberBlock _ m' block).seen ws).trans
      (seen_updateCapture _ id)

theorem seen_claimInterfaces {m m' : Manager} {interfaces : List Iface} (hne : ws' ≠ ws)
    (h : m.claimInterfaces ws interfaces = .ok m') : Seen m m' ws' := by
  obtain ⟨-, -, rfl⟩ := claimInterfaces_ok h
  refine ⟨Iff.rfl, ?_, fun _ _ => id⟩
  rw [updateClient_record, if_neg hne]
  exact ⟨rfl, rfl, rfl, rfl⟩

theorem seen_attach (hne : ws' ≠ ws) (sid : SessionId) (owner : Ws) :
    Seen m (m.attach ws sid owner) ws' := by
  refine ⟨Iff.rfl, ?_, fun _ _ => id⟩
  simp [hne]

theorem seen_startCapture (hm : Linked m) (hne : ws' ≠ ws) (start : CaptureStart)
    (sid : SessionId) :
    Seen m (m.startCapture ws start sid) ws' := by
  refine ⟨Iff.rfl, ?_, fun k hk => ?_⟩
  · rw [startCapture_record, if_neg hne]
    exact ⟨rfl, rfl, rfl, rfl⟩
  · have hlt := (hm.captures ws' k hk).1
    simp only [startCapture, updateClient_capture]
    rw [Function.update_of_ne hlt.ne]
    exact id

theorem seen_connect (hne : ws' ≠ ws) : Seen m (m.connect ws) ws' := by
  refine ⟨by simp [connect, hne], ?_, fun _ _ => id⟩
  rw [connect_record, if_neg hne]
  exact ⟨rfl, rfl, rfl, rfl⟩

theorem seen_forget (hne : ws' ≠ ws) : Seen m (m.forget ws) ws' :=
  ⟨List.mem_erase_of_ne hne, ⟨rfl, rfl, rfl, rfl⟩, fun _ _ => id⟩

end

end Manager

/-! ## What each coroutine relies on -/

/-- A client that has nothing, and may begin. -/
structure Client.Stopped (c : Client) : Prop where
  capture : c.capture = none
  interfaces : c.interfaces = []
  sessionId : c.sessionId = none
  subscription : c.subscription = none

/-- A client without a capture has no interfaces and no session. -/
def Client.Settled (c : Client) : Prop := c.capture = none → c.interfaces = [] ∧ c.sessionId = none

def StopAwait.Sound (m : Manager) (ws : Ws) : StopAwait → Prop
  | .task k => ∀ k', (m.record ws).capture = some k' → k' = k
  | .process _ | .hops _ => ∀ k', (m.record ws).capture = some k' → (m.capture k').task = .done

def AfterDetach.Sound (c : Client) : AfterDetach → Prop
  | .subscribe _ => c.sessionId = none ∧ c.Settled
  | .unsubscribe _ => c.Settled
  | .disconnect => True

def Handler.Sound (m : Manager) (ws : Ws) : Handler → Prop
  | .fresh | .accepting | .gone => ws ∉ m.clients
  | .authenticating | .idle | .replying _ => ws ∈ m.clients ∧ (m.record ws).Settled
  | .stopping _ await => ws ∈ m.clients ∧ (m.record ws).subscription = none ∧ await.Sound m ws
  | .starting _ _ => ws ∈ m.clients ∧ (m.record ws).capture = none ∧
      (m.record ws).sessionId = none ∧ (m.record ws).subscription = none
  | .detaching next _ =>
    ws ∈ m.clients ∧ (m.record ws).subscription = none ∧ next.Sound (m.record ws)
  | .leaving _ => ws ∈ m.clients ∧ (m.record ws).Stopped
  | .raised => ws ∈ m.clients

/-- What the coroutines of `ws` rely on has not changed, except that its subscription may be cleared
and its capture over. -/
structure Manager.Calmer (m m' : Manager) (ws : Ws) : Prop where
  client : ws ∈ m'.clients ↔ ws ∈ m.clients
  subscription : (m.record ws).subscription = none → (m'.record ws).subscription = none
  record : ((m'.record ws).capture = (m.record ws).capture ∧
      (m'.record ws).interfaces = (m.record ws).interfaces ∧
      (m'.record ws).sessionId = (m.record ws).sessionId) ∨
    (m'.record ws).capture = none ∧ (m'.record ws).interfaces = [] ∧
      (m'.record ws).sessionId = none
  done : ∀ k, (m.record ws).capture = some k → (m.capture k).task = .done →
    (m'.capture k).task = .done

theorem Manager.Seen.calmer {m m' : Manager} {ws : Ws} (h : m.Seen m' ws) : m.Calmer m' ws :=
  ⟨h.client, fun hnone => h.record.2.2.2.trans hnone,
    Or.inl ⟨h.record.1, h.record.2.1, h.record.2.2.1⟩, h.done⟩

theorem Handler.Sound.calmer {m m' : Manager} {ws : Ws} {h : Handler} (hs : h.Sound m ws)
    (hm : m.Calmer m' ws) : h.Sound m' ws := by
  obtain ⟨hclient, hsubscription, hrecord, hdone⟩ := hm
  have hsettled (hset : (m.record ws).Settled) : (m'.record ws).Settled := by
    rcases hrecord with ⟨hcapture, hinterfaces, hsession⟩ | ⟨-, hrest⟩
    · unfold Client.Settled
      rw [hcapture, hinterfaces, hsession]
      exact hset
    · exact fun _ => hrest
  have hcapture (k : CaptureId) (hk : (m'.record ws).capture = some k) :
      (m.record ws).capture = some k := by
    rcases hrecord with ⟨hcapture, -⟩ | ⟨hnone, -⟩
    · exact hcapture ▸ hk
    · rw [hnone] at hk
      cases hk
  have hnone (hk : (m.record ws).capture = none) : (m'.record ws).capture = none :=
    hrecord.elim (fun hsame => hsame.1.trans hk) And.left
  have hsession (hsid : (m.record ws).sessionId = none) : (m'.record ws).sessionId = none :=
    hrecord.elim (fun hsame => hsame.2.2.trans hsid) fun hover => hover.2.2
  have hinterfaces (hi : (m.record ws).interfaces = []) : (m'.record ws).interfaces = [] :=
    hrecord.elim (fun hsame => hsame.2.1.trans hi) fun hover => hover.2.1
  cases h with
  | fresh => exact fun hin => hs (hclient.1 hin)
  | accepting => exact fun hin => hs (hclient.1 hin)
  | gone => exact fun hin => hs (hclient.1 hin)
  | authenticating => exact ⟨hclient.2 hs.1, hsettled hs.2⟩
  | idle => exact ⟨hclient.2 hs.1, hsettled hs.2⟩
  | replying e => exact ⟨hclient.2 hs.1, hsettled hs.2⟩
  | stopping next await =>
    refine ⟨hclient.2 hs.1, hsubscription hs.2.1, ?_⟩
    cases await with
    | task k => exact fun k' hk' => hs.2.2 k' (hcapture k' hk')
    | process k => exact fun k' hk' => hdone k' (hcapture k' hk') (hs.2.2 k' (hcapture k' hk'))
    | hops hops => exact fun k' hk' => hdone k' (hcapture k' hk') (hs.2.2 k' (hcapture k' hk'))
  | starting start phase =>
    exact ⟨hclient.2 hs.1, hnone hs.2.1, hsession hs.2.2.1, hsubscription hs.2.2.2⟩
  | detaching next q =>
    refine ⟨hclient.2 hs.1, hsubscription hs.2.1, ?_⟩
    cases next with
    | subscribe sid => exact ⟨hsession hs.2.2.1, hsettled hs.2.2.2⟩
    | unsubscribe sid => exact hsettled hs.2.2
    | disconnect => trivial
  | leaving e =>
    exact ⟨hclient.2 hs.1, hnone hs.2.capture, hinterfaces hs.2.interfaces,
      hsession hs.2.sessionId, hsubscription hs.2.subscription⟩
  | raised => exact hclient.2 hs

namespace System

structure Inv (s : System) : Prop where
  good : s.mgr.Good
  sound : ∀ ws, (s.handler ws).Sound s.mgr ws

/-- The invariant while `ws` runs. -/
structure Pending (s : System) (ws : Ws) : Prop where
  good : s.mgr.Good
  others : ∀ ws' ≠ ws, (s.handler ws').Sound s.mgr ws'

theorem Inv.pending {s : System} (h : s.Inv) (ws : Ws) : s.Pending ws :=
  ⟨h.good, fun ws' _ => h.sound ws'⟩

namespace Pending

variable {s : System} {ws : Ws}

/-- The coroutine suspends. -/
theorem become (h : s.Pending ws) {handler : Handler} (hs : handler.Sound s.mgr ws) :
    (s.become ws handler).Inv := by
  refine ⟨h.good, fun ws' => ?_⟩
  rw [become_mgr, become_handler]
  split_ifs with heq
  · rw [heq]
    exact hs
  · exact h.others ws' heq

/-- The coroutine changes the manager. -/
theorem withMgr (h : s.Pending ws) {m : Manager} (hgood : m.Good)
    (hseen : ∀ ws' ≠ ws, s.mgr.Seen m ws') : { s with mgr := m }.Pending ws :=
  ⟨hgood, fun ws' hne => (h.others ws' hne).calmer (hseen ws' hne).calmer⟩

theorem reply (h : s.Pending ws) {e : Event} (hws : ws ∈ s.mgr.clients)
    (hsettled : (s.mgr.record ws).Settled) : (s.reply ws e).Inv := h.become ⟨hws, hsettled⟩

theorem claim (h : s.Pending ws) {start : CaptureStart} (hws : ws ∈ s.mgr.clients)
    (hstopped : (s.mgr.record ws).Stopped) : (s.claim ws start).Inv := by
  have hsettled : (s.mgr.record ws).Settled := fun _ => ⟨hstopped.interfaces, hstopped.sessionId⟩
  unfold System.claim
  dsimp only
  split_ifs
  · exact h.reply hws hsettled
  cases hclaim : s.mgr.claimInterfaces ws start.interfaces with
  | error e =>
    cases e with
    | inUse conflicts => exact h.reply hws hsettled
    | keyError => exact h.become hws
  | ok m =>
    have hm := h.withMgr (h.good.claimInterfaces hstopped.interfaces hclaim)
      fun ws' hne => Manager.seen_claimInterfaces hne hclaim
    refine hm.become ?_
    obtain ⟨-, -, rfl⟩ := Manager.claimInterfaces_ok hclaim
    simpa [Handler.Sound, hws] using ⟨hstopped.capture, hstopped.sessionId, hstopped.subscription⟩

theorem afterStop (h : s.Pending ws) (next : AfterStop) (hws : ws ∈ s.mgr.clients)
    (hstopped : (s.mgr.record ws).Stopped) : (s.afterStop ws next).Inv := by
  cases next with
  | command => exact h.become ⟨hws, fun _ => ⟨hstopped.interfaces, hstopped.sessionId⟩⟩
  | start start => exact h.claim hws hstopped
  | disconnect =>
    refine (h.withMgr (h.good.forget hstopped.interfaces hstopped.capture hstopped.sessionId
      hstopped.subscription) fun ws' hne => Manager.seen_forget _ hne).become ?_
    exact fun hin => (h.good.linked.nodup.mem_erase_iff.1 hin).1 rfl

theorem notify (h : s.Pending ws) (e : Event) (next : AfterStop) (hws : ws ∈ s.mgr.clients)
    (hstopped : (s.mgr.record ws).Stopped) : (s.notify ws e next).Inv := by
  cases next with
  | command => exact h.reply hws fun _ => ⟨hstopped.interfaces, hstopped.sessionId⟩
  | start start => exact h.claim hws hstopped
  | disconnect => exact h.become ⟨hws, hstopped⟩

/-- `stop_streaming` leaves a client that has nothing. -/
theorem finishStop (h : s.Pending ws) (hws : ws ∈ s.mgr.clients)
    (hfree : (s.mgr.record ws).subscription = none)
    (hdone : ∀ k, (s.mgr.record ws).capture = some k → (s.mgr.capture k).task = .done) :
    { s with mgr := s.mgr.finishStop ws }.Pending ws ∧ ws ∈ (s.mgr.finishStop ws).clients ∧
      ((s.mgr.finishStop ws).record ws).Stopped := by
  unfold Manager.finishStop
  have hreleased := h.good.releaseInterfaces ws
  set m₁ := s.mgr.releaseInterfaces ws with hm₁
  have hws₁ : ws ∈ m₁.clients := by simpa [hm₁] using hws
  have hended := hreleased.endSession hws₁ "CAPTURE_STOPPED" "Capture stopped."
  set m₂ := m₁.endSession ws "CAPTURE_STOPPED" "Capture stopped." with hm₂
  have hrecord : m₂.record ws = Manager.sessionOver (m₁.record ws) := by simp [hm₂]
  have hdone₂ (k : CaptureId) (hk : (m₂.record ws).capture = some k) : (m₂.capture k).task =
    .done := by
    have hk' : (s.mgr.record ws).capture = some k := by
      rw [hrecord] at hk
      simpa [hm₁, Manager.sessionOver] using hk
    obtain ⟨ended, hended⟩ := m₁.endSession_capture ws "CAPTURE_STOPPED" "Capture stopped." k
    rw [hm₂, hended]
    simpa [hm₁] using hdone k hk'
  refine ⟨h.withMgr
    (hended.forgetCapture ws _ (fun c => ⟨rfl, rfl, rfl, rfl⟩) (fun k hk => ?_) hdone₂)
    fun ws' hne => ?_, ?_, ?_⟩
  · cases hk
  · exact ((Manager.seen_releaseInterfaces _ hne).trans
      (Manager.seen_endSession _ hne _ _)).trans (Manager.seen_updateClient _ _ hne)
  · simpa [hm₂] using hws₁
  · rw [Manager.updateClient_record, if_pos rfl, hrecord]
    exact ⟨rfl, by simp [Manager.sessionOver, hm₁, hws], rfl, by
      simpa [Manager.sessionOver, hm₁] using hfree⟩

theorem awaitHops (h : s.Pending ws) (next : AfterStop) (hops : List HopId)
    (hws : ws ∈ s.mgr.clients) (hfree : (s.mgr.record ws).subscription = none)
    (hdone : ∀ k, (s.mgr.record ws).capture = some k → (s.mgr.capture k).task = .done) :
    (s.stopped ws next (s.mgr.awaitHops ws hops)).Inv := by
  unfold Manager.awaitHops
  split_ifs
  · obtain ⟨hpending, hclient, hstopped⟩ := h.finishStop hws hfree hdone
    exact hpending.notify _ next hclient hstopped
  · exact h.become ⟨hws, hfree, hdone⟩

theorem stopHops (h : s.Pending ws) (next : AfterStop) (hws : ws ∈ s.mgr.clients)
    (hfree : (s.mgr.record ws).subscription = none)
    (hdone : ∀ k, (s.mgr.record ws).capture = some k → (s.mgr.capture k).task = .done) :
    (s.stopped ws next (s.mgr.stopHops ws)).Inv := by
  have hm := h.withMgr (h.good.updateClient ws ({ · with channelTasks := [] })
    fun c => ⟨rfl, rfl, rfl, rfl, rfl⟩) fun ws' hne => Manager.seen_updateClient _ _ hne
  refine hm.awaitHops next _ hws ?_ ?_
  · simpa using hfree
  · simpa using hdone

/-- `stop_streaming` is called: by a socket that is not subscribed, or as its `stop` command. -/
theorem stopStreaming (h : s.Pending ws) (next : AfterStop) (hws : ws ∈ s.mgr.clients)
    (hcaller : (s.mgr.record ws).subscription = none ∨
      next = .command ∧ (s.mgr.record ws).Settled) :
    (s.stopped ws next (s.mgr.stopStreaming ws)).Inv := by
  unfold Manager.stopStreaming
  rw [if_neg (not_not.2 hws)]
  split_ifs with hsubscribed
  · -- Only the command can be refused.
    rcases hcaller with hfree | ⟨rfl, hsettled⟩
    · simp [Manager.subscribedTo, hfree] at hsubscribed
    · exact h.reply hws hsettled
  have hfree : (s.mgr.record ws).subscription = none := by
    simpa [Manager.subscribedTo] using hsubscribed
  dsimp only
  have hm := h.withMgr (h.good.updateClient ws (fun c => { c with
      sessionEnd := if c.sessionId ≠ none then some ("CAPTURE_STOPPED", "Capture stopped.")
        else c.sessionEnd }) fun c => ⟨rfl, rfl, rfl, rfl, rfl⟩)
    fun ws' hne => Manager.seen_updateClient _ _ hne
  have hrecord : ((s.mgr.updateClient ws fun c => { c with
      sessionEnd := if c.sessionId ≠ none then some ("CAPTURE_STOPPED", "Capture stopped.")
        else c.sessionEnd }).record ws).capture = (s.mgr.record ws).capture := by simp
  rw [hrecord]
  cases hcapture : (s.mgr.record ws).capture with
  | none =>
    refine hm.stopHops next hws (by simpa using hfree) fun k hk => ?_
    rw [hrecord, hcapture] at hk
    cases hk
  | some k =>
    refine (hm.withMgr (hm.good.updateCapture (k := k) (f := ({ · with cancelled := true }))
      ⟨rfl, id⟩) fun ws' _ => Manager.seen_updateCapture _ id).become ?_
    refine ⟨hws, by simpa using hfree, fun k' hk' => ?_⟩
    rw [Manager.updateCapture_record, hrecord, hcapture] at hk'
    exact (Option.some.inj hk').symm

theorem resumeStop (h : s.Pending ws) {next : AfterStop} {await : StopAwait}
    {p : Manager × StopOutcome} (hs : (Handler.stopping next await).Sound s.mgr ws)
    (hp : s.mgr.resumeStop ws await = some p) : (s.stopped ws next p).Inv := by
  obtain ⟨hws, hfree, hawait⟩ := hs
  rcases Manager.resumeStop_cases hp with ⟨k, rfl, hdone, rfl⟩ | ⟨k, rfl, -, rfl⟩ |
    ⟨hop, hops, rfl, -, rfl⟩
  · exact h.become ⟨hws, hfree, fun k' hk' => hawait k' hk' ▸ hdone⟩
  · exact h.stopHops next hws hfree hawait
  · exact h.awaitHops next hops hws hfree hawait

theorem attach (h : s.Pending ws) (sid : SessionId) (hws : ws ∈ s.mgr.clients)
    (hfree : (s.mgr.record ws).subscription = none) (hsession : (s.mgr.record ws).sessionId = none)
    (hsettled : (s.mgr.record ws).Settled) : (s.attach ws sid).Inv := by
  unfold System.attach
  dsimp only
  cases howner : s.mgr.sessions sid with
  | none => exact h.reply hws hsettled
  | some owner =>
    dsimp only
    rw [if_neg (not_not.2 ((h.good.sessions.sessions sid owner).1 howner).1)]
    split_ifs with hfull
    · exact h.reply hws hsettled
    · have hm := h.withMgr (h.good.attach hws hfree hsession howner (not_le.1 hfull))
        fun ws' hne => Manager.seen_attach _ hne sid owner
      have hidle : Handler.Sound (s.mgr.attach ws sid owner) ws .idle := by
        refine ⟨hws, ?_⟩
        simpa [Client.Settled] using hsettled
      exact hm.become hidle

theorem afterDetach (h : s.Pending ws) {next : AfterDetach} (hws : ws ∈ s.mgr.clients)
    (hfree : (s.mgr.record ws).subscription = none) (hnext : next.Sound (s.mgr.record ws)) :
    (s.afterDetach ws next).Inv := by
  cases next with
  | subscribe sid => exact h.attach sid hws hfree hnext.1 hnext.2
  | unsubscribe sid => exact h.reply hws hnext
  | disconnect => exact h.stopStreaming .disconnect hws (Or.inl hfree)

theorem detach (h : s.Pending ws) {next : AfterDetach} (hws : ws ∈ s.mgr.clients)
    (hnext : next.Sound (s.mgr.record ws)) : (s.detach ws next).Inv := by
  unfold System.detach
  rcases s.mgr.clearSubscription_cases ws none none with ⟨hclear, hnone⟩ | ⟨q, -, -, hclear⟩
  · rw [hclear]
    have hfree : (s.mgr.record ws).subscription = none := by
      by_contra hsome
      obtain ⟨q, hq⟩ := Option.ne_none_iff_exists'.1 hsome
      obtain ⟨sid, hsid, -⟩ := hnone hws q hq
      cases hsid
    exact h.afterDetach hws hfree hnext
  · have hm := h.withMgr (h.good.clearSubscription ws none none)
      fun ws' hne => Manager.seen_clearSubscription _ hne none none
    rw [hclear] at hm ⊢
    have hrecord := s.mgr.dropSubscription_record ws q ws
    have hclients : (s.mgr.dropSubscription ws q).clients = s.mgr.clients := by
      rw [Manager.dropSubscription_rest]
    refine hm.become ⟨?_, ?_, ?_⟩
    · simpa [hclients] using hws
    · simp
    · cases next with
      | subscribe sid => simpa [hrecord, AfterDetach.Sound, Client.Settled] using hnext
      | unsubscribe sid => simpa [hrecord, AfterDetach.Sound, Client.Settled] using hnext
      | disconnect => trivial

theorem startStreaming (h : s.Pending ws) (request : Option CaptureStart) (hws : ws ∈ s.mgr.clients)
    (hsettled : (s.mgr.record ws).Settled) : (s.startStreaming ws request).Inv := by
  unfold System.startStreaming
  rw [if_neg (not_not.2 hws)]
  by_cases hfree : (s.mgr.record ws).subscription = none
  · have hunsubscribed : s.mgr.subscribedTo ws = none := by simp [Manager.subscribedTo, hfree]
    rw [if_neg (not_not.2 hunsubscribed)]
    cases request with
    | none => exact h.reply hws hsettled
    | some start =>
      dsimp only
      split_ifs with hrunning hleft
      · exact h.reply hws hsettled
      · exact h.stopStreaming (.start start) hws (Or.inl hfree)
      · have hcapture : (s.mgr.record ws).capture = none := by
          by_contra hcapture
          exact hleft (Or.inl hcapture)
        obtain ⟨hinterfaces, hsession⟩ := hsettled hcapture
        exact h.claim hws ⟨hcapture, hinterfaces, hsession, hfree⟩
  · have hsubscribed : s.mgr.subscribedTo ws ≠ none := by simpa [Manager.subscribedTo] using hfree
    rw [if_pos hsubscribed]
    exact h.reply hws hsettled

theorem subscribe (h : s.Pending ws) (request : Except Text SessionId) (hws : ws ∈ s.mgr.clients)
    (hsettled : (s.mgr.record ws).Settled) : (s.subscribe ws request).Inv := by
  unfold System.subscribe
  dsimp only
  rw [if_neg (not_not.2 hws)]
  cases request with
  | error printed => exact h.reply hws hsettled
  | ok sid =>
    dsimp only
    split_ifs with hnone hown
    · exact h.reply hws hsettled
    · exact h.reply hws hsettled
    · exact h.detach hws ⟨not_not.1 hown, hsettled⟩

/-- A start that goes on tuning. -/
theorem starting (h : s.Pending ws) {start : CaptureStart} {phase phase' : StartPhase}
    (hs : (Handler.starting start phase).Sound s.mgr ws) :
    (s.become ws (.starting start phase')).Inv :=
  h.become hs

theorem filterNext (h : s.Pending ws) {start : CaptureStart} {phase : StartPhase}
    (hs : (Handler.starting start phase).Sound s.mgr ws) (todo : List Iface) :
    (s.filterNext ws start todo).Inv := by
  cases todo <;> exact h.starting hs

theorem tuneNext (h : s.Pending ws) {start : CaptureStart} {phase : StartPhase}
    (hs : (Handler.starting start phase).Sound s.mgr ws) (todo : List Iface) :
    (s.tuneNext ws start todo).Inv := by
  induction todo with
  | nil => exact h.filterNext hs _
  | cons iface todo ih =>
    unfold System.tuneNext
    split_ifs
    · exact h.starting hs
    · exact ih

/-- A start that failed gives its interfaces back. -/
theorem failStart (h : s.Pending ws) {start : CaptureStart} {phase : StartPhase} (e : Event)
    (hs : (Handler.starting start phase).Sound s.mgr ws) :
    ({ s with mgr := s.mgr.releaseInterfaces ws }.reply ws e).Inv := by
  obtain ⟨hws, -, hsession, -⟩ := hs
  refine (h.withMgr (h.good.releaseInterfaces ws)
    fun ws' hne => Manager.seen_releaseInterfaces _ hne).reply ?_ ?_
  · simpa using hws
  · simp [Client.Settled, hws, hsession]

end Pending

/-- The session id that the step draws is not in use. -/
def freshSession (s : System) : Act → Bool
  | .resume ws (.spawned token) =>
    match s.handler ws with
    | .starting _ .spawning =>
      (s.mgr.sessions (sessionIdOf token)).isNone &&
        s.mgr.clients.all fun ws => s.mgr.subscribedTo ws ≠ some (sessionIdOf token)
    | _ => true
  | _ => true

/-! ## Tasks -/

theorem finishStream_good {m : Manager} {k : CaptureId} (h : m.Good)
    (hws : (m.capture k).socket ∈ m.clients)
    (hcurrent : (m.record (m.capture k).socket).capture = some k) :
    (m.finishStream k).Good ∧ (∀ ws' ≠ (m.capture k).socket, m.Seen (m.finishStream k) ws') ∧
      m.Calmer (m.finishStream k) (m.capture k).socket := by
  unfold Manager.finishStream
  dsimp only
  have hreleased := h.releaseInterfaces (m.capture k).socket
  generalize hws' : (m.capture k).socket = ws at *
  generalize hreason : ((m.releaseInterfaces ws).record ws).sessionEnd.getD
    ("CAPTURE_ENDED", "Capture ended.") = reason
  obtain ⟨code, message⟩ := reason
  dsimp only
  set m₁ := m.releaseInterfaces ws with hm₁
  have hws₁ : ws ∈ m₁.clients := by simpa [hm₁] using hws
  have hended := hreleased.endSession hws₁ code message
  set m₂ := m₁.endSession ws code message with hm₂
  have hrecord : m₂.record ws = Manager.sessionOver (m₁.record ws) := by simp [hm₂]
  have hcapture : (m₂.record ws).capture = some k := by
    rw [hrecord]
    simpa [Manager.sessionOver, hm₁] using hcurrent
  have hdone (k' : CaptureId) (hk' : (m.capture k').task = .done) : (m₂.capture k').task =
    .done := by
    obtain ⟨ended, hended⟩ := m₁.endSession_capture ws code message k'
    rw [hm₂, hended]
    simpa [hm₁] using hk'
  have hover : (m₂.updateCapture k ({ · with task := .done })).Good :=
    hended.updateCapture ⟨rfl, fun _ => rfl⟩
  refine ⟨hover.forgetCapture ws (fun c => { c with
      capture := if c.capture = some k then none else c.capture }) (fun c => ⟨rfl, rfl, rfl, rfl⟩)
    (fun k' hk' => ?_) (fun k' hk' => ?_), fun ws' hne => ?_, ?_⟩
  · dsimp only at hk'
    split_ifs at hk'
    exact hk'
  · rw [Manager.updateCapture_record, hcapture] at hk'
    cases hk'
    simp
  · refine ((Manager.seen_releaseInterfaces _ hne).trans
      (Manager.seen_endSession _ hne code message)).trans
        ((Manager.seen_updateClient _ _ hne).trans (Manager.seen_updateCapture _ fun _ => rfl))
  · refine ⟨by simp [hm₂, hm₁], fun hnone => ?_, Or.inr ?_, fun k' _ hk' => ?_⟩
    · rw [Manager.updateCapture_record, Manager.updateClient_record, if_pos rfl, hrecord]
      simpa [Manager.sessionOver, hm₁] using hnone
    · rw [Manager.updateCapture_record, Manager.updateClient_record, if_pos rfl]
      dsimp only
      rw [hcapture, if_pos rfl, hrecord]
      exact ⟨rfl, by simp [Manager.sessionOver, hm₁, hws], rfl⟩
    · rw [Manager.updateCapture_capture, Manager.updateClient_capture]
      split_ifs
      · rfl
      · exact hdone k' hk'

variable {s : System}

theorem Inv.withMgr (h : s.Inv) {m : Manager} (hgood : m.Good) (hcalmer : ∀ ws, s.mgr.Calmer m ws) :
    { s with mgr := m }.Inv :=
  ⟨hgood, fun ws => (h.sound ws).calmer (hcalmer ws)⟩

/-- Entries of a record that the invariant does not mention. -/
theorem Inv.updateClient (h : s.Inv) {ws : Ws} {f : Client → Client}
    (hf : ∀ c, (f c).interfaces = c.interfaces ∧ (f c).sessionId = c.sessionId ∧
      (f c).subscription = c.subscription ∧ (f c).subscribers = c.subscribers ∧
      (f c).capture = c.capture) : { s with mgr := s.mgr.updateClient ws f }.Inv := by
  refine h.withMgr (h.good.updateClient ws f hf) fun ws' =>
    Manager.Seen.calmer ⟨Iff.rfl, ?_, fun _ _ => id⟩
  rw [Manager.updateClient_record]
  split_ifs with heq
  · rw [heq]
    exact ⟨(hf _).2.2.2.2, (hf _).1, (hf _).2.1, (hf _).2.2.1⟩
  · exact ⟨rfl, rfl, rfl, rfl⟩

theorem Inv.streamHops (h : s.Inv) {k : CaptureId} (hops : List HopId) (hk : k < s.mgr.nextCapture)
    (hrunning : (s.mgr.capture k).task ≠ .done) :
    { s with mgr := s.mgr.streamHops k hops }.Inv := by
  obtain ⟨hws, hcurrent⟩ := h.good.linked.streams k hk hrunning
  unfold Manager.streamHops
  split_ifs
  · obtain ⟨hgood, hseen, hcalmer⟩ := finishStream_good h.good hws hcurrent
    refine h.withMgr hgood fun ws => ?_
    by_cases heq : ws = (s.mgr.capture k).socket
    · rw [heq]
      exact hcalmer
    · exact (hseen ws heq).calmer
  · have htask : (s.mgr.capture k).task = .done → StreamTask.stoppingHops hops = .done :=
      fun hdone => absurd hdone hrunning
    exact h.withMgr (h.good.updateCapture ⟨rfl, htask⟩)
      fun ws => (Manager.seen_updateCapture _ htask).calmer

theorem Inv.stream (h : s.Inv) {k : CaptureId} {r : Reply} {m : Manager}
    (hk : k < s.mgr.nextCapture) (hstep : s.mgr.resumeStream k r = some m) :
    { s with mgr := m }.Inv := by
  have hset {f : Capture → Capture} (hsocket : (f (s.mgr.capture k)).socket =
    (s.mgr.capture k).socket)
      (hdone : (s.mgr.capture k).task = .done → (f (s.mgr.capture k)).task = .done) :
      { s with mgr := s.mgr.updateCapture k f }.Inv :=
    h.withMgr (h.good.updateCapture ⟨hsocket, hdone⟩)
      fun ws => (Manager.seen_updateCapture _ hdone).calmer
  cases Manager.resumeStream_cases hstep with
  | enter task hrunning => exact hset rfl fun hdone => absurd hdone hrunning
  | broadcast chunk htask =>
    have hcapture := s.mgr.broadcastChunk_capture k chunk k
    have hdone : ((s.mgr.broadcastChunk k chunk).capture k).task = .done →
        StreamTask.reading = .done := by
      rw [hcapture, htask]
      rintro ⟨⟩
    exact h.withMgr ((h.good.broadcastChunk k chunk).updateCapture ⟨rfl, hdone⟩)
      fun ws => ((Manager.seen_broadcastChunk _ k chunk).trans
        (Manager.seen_updateCapture _ hdone)).calmer
  | die hcancelled hrunning => exact hset rfl fun _ => rfl
  | reaped htask halive =>
    have hcleared : System.Inv ⟨s.mgr.updateClient (s.mgr.capture k).socket
        ({ · with channelTasks := [] }), s.handler⟩ := h.updateClient fun c =>
          ⟨rfl, rfl, rfl, rfl, rfl⟩
    exact hcleared.streamHops (s.mgr.record (s.mgr.capture k).socket).channelTasks hk
      (by simp [htask])
  | hop hop hops htask =>
    have hcleared : { s with mgr := s.mgr.updateCapture k ({ · with cancelled := false }) }.Inv :=
      hset rfl id
    exact hcleared.streamHops hops hk (by simp [htask])

theorem calmer_clearSubscription (m : Manager) (ws : Ws) (expected : Option SessionId)
    (current : Option SubId) (ws' : Ws) :
    m.Calmer (m.clearSubscription ws expected current).1 ws' := by
  by_cases hne : ws' ≠ ws
  · exact (Manager.seen_clearSubscription m hne expected current).calmer
  obtain rfl : ws' = ws := not_not.1 hne
  rcases m.clearSubscription_cases ws' expected current with ⟨hnone, -⟩ | ⟨q, -, -, hsome⟩
  · rw [hnone]
    exact (Manager.Seen.refl m ws').calmer
  have hdropped : m.Calmer (m.dropSubscription ws' q) ws' := by
    refine ⟨?_, by simp, Or.inl (by simp), ?_⟩ <;> rw [Manager.dropSubscription_rest]
    exact fun _ _ => id
  rw [hsome]
  dsimp only
  split_ifs
  · exact hdropped
  · exact ⟨hdropped.client, hdropped.subscription, hdropped.record, hdropped.done⟩

theorem Inv.updateSub (h : s.Inv) {q : SubId} {f : Subscription → Subscription}
    (hf : ∀ sub, (f sub).socket = sub.socket ∧ (f sub).sessionId = sub.sessionId ∧
      (f sub).closing = sub.closing) : System.Inv ⟨s.mgr.updateSub q f, s.handler⟩ :=
  h.withMgr (h.good.updateSub hf) fun _ => (Manager.seen_updateSub _ q f).calmer

theorem Inv.finishSender (h : s.Inv) (q : SubId) :
    System.Inv ⟨s.mgr.finishSender q, s.handler⟩ := by
  have hcleared : System.Inv ⟨(s.mgr.clearSubscription (s.mgr.sub q).socket
      (some (s.mgr.sub q).sessionId) (some q)).1, s.handler⟩ :=
    h.withMgr (h.good.clearSubscription _ _ _) (calmer_clearSubscription _ _ _ _)
  exact hcleared.updateSub fun sub => ⟨rfl, rfl, rfl⟩

theorem Inv.sender (h : s.Inv) {q : SubId} {r : Reply} {m : Manager}
    (hstep : s.mgr.resumeSender q r = some m) : System.Inv ⟨m, s.handler⟩ := by
  cases Manager.resumeSender_cases hstep with
  | complete queue =>
    have hread : System.Inv ⟨s.mgr.updateSub q ({ · with queue }), s.handler⟩ :=
      h.updateSub fun sub => ⟨rfl, rfl, rfl⟩
    exact hread.finishSender q
  | finish => exact h.finishSender q
  | _ => exact h.updateSub fun sub => ⟨rfl, rfl, rfl⟩

/-! ## Steps -/

theorem Inv.start (h : s.Inv) {ws : Ws} {start : CaptureStart} {phase : StartPhase} {r : Reply}
    {t : System} (hhandler : s.handler ws = .starting start phase)
    (hfresh : s.freshSession (.resume ws r) = true)
    (hstep : s.resumeStart ws start phase r = some t) : t.Inv := by
  have hsound := h.sound ws
  rw [hhandler] at hsound
  have hp := h.pending ws
  have hraised : (s.become ws .raised).Inv := hp.become hsound.1
  cases phase with
  | resolving =>
    cases r with
    | resolved netns =>
      cases netns with
      | error reason =>
        cases hstep
        exact hp.failStart _ hsound
      | ok netns =>
        cases hstep
        have hset := hp.withMgr (h.good.updateClient ws
          ({ · with netns, framer := {}, sessionEnd := none })
          fun c => ⟨rfl, rfl, rfl, rfl, rfl⟩) fun ws' hne => Manager.seen_updateClient _ _ hne
        have hstarting : (Handler.starting start .resolving).Sound (s.mgr.updateClient ws
            ({ · with netns, framer := {}, sessionEnd := none })) ws := by
          simpa [Handler.Sound] using hsound
        exact hset.tuneNext hstarting _
    | raises =>
      cases hstep
      exact hraised
    | _ => cases hstep
  | tuning iface todo =>
    cases r with
    | tuned error =>
      cases error with
      | none =>
        cases hstep
        exact hp.tuneNext hsound todo
      | some error =>
        cases hstep
        exact hp.starting hsound
    | raises =>
      cases hstep
      exact hraised
    | _ => cases hstep
  | reporting e todo =>
    cases r with
    | ok =>
      cases hstep
      exact hp.tuneNext hsound todo
    | _ => cases hstep
  | filtering todo =>
    cases r with
    | ok =>
      cases hstep
      exact hp.filterNext hsound todo
    | raises =>
      cases hstep
      exact hraised
    | _ => cases hstep
  | spawning =>
    cases r with
    | spawned token =>
      cases hstep
      obtain ⟨hws, hcapture, hsession, hfree⟩ := hsound
      simp only [freshSession, hhandler, Bool.and_eq_true, Option.isNone_iff_eq_none,
        List.all_eq_true, decide_eq_true_eq] at hfresh
      have hstarted := hp.withMgr (h.good.startCapture start hws hcapture hsession hfree
        hfresh.1 hfresh.2)
        fun ws' hne => Manager.seen_startCapture _ h.good.linked hne start (sessionIdOf token)
      exact hstarted.reply hws (by simp [Client.Settled])
    | osError =>
      cases hstep
      exact hp.failStart _ hsound
    | raises =>
      cases hstep
      exact hraised
    | _ => cases hstep

theorem Inv.configure (h : s.Inv) (ws : Ws) (configs : List (Iface × CaptureInterfaceConfig)) :
    System.Inv ⟨configs.foldl (fun m (iface, config) => m.configure ws iface config) s.mgr,
      s.handler⟩ := by
  induction configs generalizing s with
  | nil => exact h
  | cons c configs ih =>
    refine @ih ⟨s.mgr.configure ws c.1 c.2, s.handler⟩ ?_
    unfold Manager.configure
    split_ifs
    · exact h.updateClient fun c => ⟨rfl, rfl, rfl, rfl, rfl⟩
    · exact h

theorem Inv.run (h : s.Inv) {ws : Ws} (hidle : s.handler ws = .idle) (c : Command) :
    (s.run ws c).Inv := by
  have hsound := h.sound ws
  rw [hidle] at hsound
  obtain ⟨hws, hsettled⟩ := hsound
  have hp := h.pending ws
  cases c with
  | configure configs =>
    have hconfigured := h.configure ws configs
    have hsound := hconfigured.sound ws
    rw [hidle] at hsound
    exact (hconfigured.pending ws).reply hsound.1 hsound.2
  | start request => exact hp.startStreaming request hws hsettled
  | stop => exact hp.stopStreaming .command hws (Or.inr ⟨rfl, hsettled⟩)
  | subscribe request => exact hp.subscribe request hws hsettled
  | unsubscribe => exact hp.detach hws hsettled

/-- Every step keeps the invariant, provided a drawn session id is not in use. -/
theorem Inv.step (h : s.Inv) {a : Act} {t : System} (hfresh : s.freshSession a = true)
    (hstep : s.step a = some t) : t.Inv := by
  have hp := h.pending
  cases step_cases hstep with
  | connect ws hhandler =>
    have hsound := h.sound ws
    rw [hhandler] at hsound
    exact (hp ws).become hsound
  | authenticate ws did hhandler =>
    have hset : System.Inv ⟨s.mgr.authenticate ws did, s.handler⟩ := by
      unfold Manager.authenticate
      split_ifs
      · exact h.updateClient fun c => ⟨rfl, rfl, rfl, rfl, rfl⟩
      · exact h
    have hsound := hset.sound ws
    rw [hhandler] at hsound
    exact (hset.pending ws).reply hsound.1 hsound.2
  | command ws c hhandler => exact h.run hhandler c
  | disconnect ws hhandler =>
    have hsound := h.sound ws
    have hws : ws ∈ s.mgr.clients := by
      rcases hhandler with hhandler | hhandler | hhandler <;> rw [hhandler] at hsound
      · exact hsound.1
      · exact hsound.1
      · exact hsound
    exact (hp ws).detach hws trivial
  | accepted ws hhandler =>
    have hsound := h.sound ws
    rw [hhandler] at hsound
    refine ((hp ws).withMgr (h.good.connect hsound)
      fun ws' hne => Manager.seen_connect _ hne).become ⟨?_, ?_⟩
    · simp [Manager.connect]
    · simp [Client.Settled]
  | refused ws hhandler =>
    have hsound := h.sound ws
    rw [hhandler] at hsound
    exact (hp ws).become hsound
  | replied ws e hhandler =>
    have hsound := h.sound ws
    rw [hhandler] at hsound
    exact (hp ws).become hsound
  | stopping ws next await p hhandler hresume =>
    have hsound := h.sound ws
    rw [hhandler] at hsound
    exact (hp ws).resumeStop hsound hresume
  | starting ws start phase r t hhandler ht => exact h.start hhandler hfresh ht
  | detached ws next q hhandler hdone =>
    have hsound := h.sound ws
    rw [hhandler] at hsound
    exact (hp ws).afterDetach hsound.1 hsound.2.1 hsound.2.2
  | left ws e hhandler =>
    have hsound := h.sound ws
    rw [hhandler] at hsound
    exact (hp ws).afterStop .disconnect hsound.1 hsound.2
  | stream k r m hk hm => exact h.stream hk hm
  | sender q r m hq hm => exact h.sender hm
  | hopEnds hop =>
    have hsame : Manager.Good { s.mgr with hopDone := Function.update s.mgr.hopDone hop true } :=
      ⟨h.good.interfaces.same rfl rfl fun _ => rfl,
        h.good.sessions.same ⟨rfl, rfl, fun _ => ⟨rfl, rfl, rfl⟩, fun _ => ⟨rfl, id⟩⟩,
        h.good.linked.same ⟨rfl, ⟨rfl, rfl⟩, fun _ => rfl, fun _ _ => id, fun _ => ⟨rfl, id⟩,
          fun _ => rfl⟩⟩
    exact h.withMgr hsame fun ws =>
      Manager.Seen.calmer ⟨Iff.rfl, ⟨rfl, rfl, rfl, rfl⟩, fun _ _ => id⟩
  | exits k hk =>
    exact h.withMgr (h.good.updateCapture ⟨rfl, id⟩)
      fun ws => (Manager.seen_updateCapture _ id).calmer

theorem inv_initial : System.initial.Inv := by
  have hinterfaces : Manager.initial.InterfacesAgree := by
    intro i ws
    simp [Manager.initial]
  have hholds (ws : Ws) (sid : SessionId) : ¬Manager.initial.Holds ws sid := by
    simp [Manager.Holds, Manager.initial]
  have hsessions : Manager.initial.SessionsAgree := by
    refine ⟨?_, ?_, ?_, fun sid holders _ hall => ?_, ?_, ?_, ?_⟩
    · simp [Manager.initial]
    · simp [Manager.initial]
    · simp [Manager.initial]
    · cases holders with
      | nil => exact Nat.zero_le _
      | cons s holders => exact absurd (hall s List.mem_cons_self) (hholds s sid)
    · simp [Manager.initial]
    · simp [Manager.initial]
    · exact fun sid ws s _ hs => absurd hs (hholds s sid)
  have hlinked : Manager.initial.Linked := by
    refine ⟨List.nodup_nil, ?_, fun k hk => absurd hk (Nat.not_lt_zero k), ?_⟩
    · simp [Manager.initial]
    · simp [Manager.initial]
  exact ⟨⟨hinterfaces, hsessions, hlinked⟩, fun _ => List.not_mem_nil⟩

end System

/-! ## Ownership -/

/-- Who owns what, as the five records of the manager tell it. -/
structure Manager.Owned (m : Manager) : Prop where
  interfaces : ∀ i ws, m.interfaceOwners i = some ws ↔ ws ∈ m.clients ∧ i ∈ (m.record ws).interfaces
  sessions : ∀ sid ws,
    m.sessions sid = some ws ↔ ws ∈ m.clients ∧ (m.record ws).sessionId = some sid
  apart : ∀ ws, ¬((m.record ws).sessionId ≠ none ∧ m.subscribedTo ws ≠ none)
  members : ∀ ws, ∀ s ∈ (m.record ws).subscribers, ∃ sid,
    (m.record ws).sessionId = some sid ∧ m.subscribedTo s = some sid
  bounded : ∀ sid (holders : List Ws), holders.Nodup → (∀ s ∈ holders, m.Holds s sid) →
    holders.length ≤ maxSubscribersPerSession

theorem Manager.Good.owned {m : Manager} (h : m.Good) : m.Owned where
  interfaces := h.interfaces
  sessions := h.sessions.sessions
  apart ws := by
    rintro ⟨hsession, hsubscribed⟩
    exact hsubscribed (by simp [subscribedTo, h.sessions.apart ws hsession])
  members ws s hs := (h.sessions.members ws s hs).2.2
  bounded := h.sessions.bounded

namespace System

/-- In every run whose session ids were not in use when they were drawn, the records agree. -/
theorem ownership {s : System}
    (h : Run step (fun s a => s.freshSession a = true) initial s) : s.mgr.Owned := by
  have hinv : s.Inv := h.invariant inv_initial fun s a t hs hfresh hstep => hs.step hfresh hstep
  exact hinv.good.owned

/-- One socket starts a capture, from its connection on. -/
def startActs (ws : Ws) (iface : Checked validateCaptureInterface) (did token : Text) : List Act :=
  [.connect ws, .resume ws .ok, .authenticate ws did, .resume ws .ok,
    .command ws (.configure [(iface.val, {})]), .resume ws .ok,
    .command ws (.start (some (.single iface))),
    .resume ws (.resolved (.ok none)), .resume ws .ok, .resume ws (.spawned token)]

/-- A capture on which another socket listens. -/
theorem ownership_subscribed : ∃ s : System,
    s.mgr.sessions "cap_00000000".toList = some 0 ∧ (s.mgr.record 0).subscribers = [1] ∧
      s.mgr.Owned := by
  have hexec : (exec (guarded step freshSession) initial
      (startActs 0 wlanpi0 "a".toList "00000000".toList ++
        [.connect 1, .resume 1 .ok, .authenticate 1 "b".toList, .resume 1 .ok,
          .command 1 (.subscribe (.ok "cap_00000000".toList))])).any
      (fun s => s.mgr.sessions "cap_00000000".toList == some 0 &&
        (s.mgr.record 0).subscribers == [1]) = true := by
    decide +kernel
  obtain ⟨s, hs, hstate⟩ := (Option.any_eq_true _ _).1 hexec
  simp only [Bool.and_eq_true, beq_iff_eq] at hstate
  exact ⟨s, hstate.1, hstate.2, ownership (Run.of_guarded (Reaches.of_exec hs))⟩

/-- Two captures that drew one session id. -/
theorem ownership_collision : ¬∀ s : System, Reaches step initial s → s.mgr.Owned := by
  intro h
  have hexec : (exec step initial
      (startActs 0 wlanpi0 "a".toList "00000000".toList ++
        startActs 1 wlanpi1 "b".toList "00000000".toList)).any
      (fun s => s.mgr.sessions "cap_00000000".toList == some 1 && decide (0 ∈ s.mgr.clients) &&
        (s.mgr.record 0).sessionId == some "cap_00000000".toList) = true := by
    decide +kernel
  obtain ⟨s, hs, hstate⟩ := (Option.any_eq_true _ _).1 hexec
  simp only [Bool.and_eq_true, beq_iff_eq, decide_eq_true_eq] at hstate
  obtain ⟨⟨hsecond, hclient⟩, hfirst⟩ := hstate
  have howner := ((h s (Reaches.of_exec hs)).sessions _ 0).2 ⟨hclient, hfirst⟩
  rw [hsecond] at howner
  cases howner

end System

end WlanpiCore.Streaming
