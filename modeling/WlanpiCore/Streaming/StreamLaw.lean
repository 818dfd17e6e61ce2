import WlanpiCore.Streaming.Teardown

/-!
# The stream law

**`System.stream_law`**: in every run in which no session id is drawn that is still in use, a
subscriber was sent a prefix of what its capture owes it, and while it has the subscription and
keeps up nothing is missing; only its own sender task and endpoint end the subscription, and nothing
is sent after that.

With session ids that collide a subscriber is sent the blocks of two captures
(`System.stream_law_collision`).
-/

namespace WlanpiCore.Streaming

namespace System

open Manager (Unmoved due)

variable {s t : System}

theorem Alone.effect_connect (h : s.Alone) {a : Act} {ws : Ws} (hws : ws ∉ s.mgr.clients)
    (hhandler : s.handler ws = .accepting) :
    Effect s a ({ s with mgr := s.mgr.connect ws }.become ws .authenticating) := by
  have hstands (q : SubId) (hs : s.mgr.Stands q) : (s.mgr.connect ws).Stands q := by
    unfold Manager.Stands
    rw [Manager.connect_record]
    refine ⟨List.mem_append_left _ hs.1, ?_⟩
    rw [if_neg]
    · exact hs.2
    · intro heq
      exact hws (heq ▸ hs.1)
  refine ⟨fun q hq hrunning => ?_, fun ha q hq hs => ?_, fun q _ hs => Or.inl (hstands q hs),
    fun q _ => Or.inl rfl⟩
  · refine (h q hq hrunning).imp (hstands q) fun ⟨hc, next, hnext⟩ => ⟨hc, next, ?_⟩
    rw [become_handler, if_neg]
    · exact hnext
    · intro heq
      rw [show (s.mgr.sub q).socket = ws from heq, hhandler] at hnext
      cases hnext
  · refine ha q hq ?_
    obtain ⟨hclient, hsubscription⟩ := hs
    rw [become_mgr, Manager.connect_record] at hsubscription
    split_ifs at hsubscription with heq
    refine ⟨?_, hsubscription⟩
    rcases List.mem_append.1 hclient with hclient | hclient
    · exact hclient
    · exact absurd (List.mem_singleton.1 hclient) heq

theorem Alone.effect_forget (h : s.Alone) {a : Act} {ws : Ws} {e : Event}
    (hhandler : s.handler ws = .leaving e) (hfree : (s.mgr.record ws).subscription = none) :
    Effect s a (s.afterStop ws .disconnect) := by
  have hstands (q : SubId) (hs : s.mgr.Stands q) : (s.mgr.forget ws).Stands q := by
    refine ⟨(List.mem_erase_of_ne ?_).2 hs.1, hs.2⟩
    intro heq
    have hsome := hs.2
    rw [show (s.mgr.sub q).socket = ws from heq, hfree] at hsome
    cases hsome
  refine ⟨fun q hq hrunning => ?_, fun ha q hq hs => ?_, fun q _ hs => Or.inl (hstands q hs),
    fun q _ => Or.inl rfl⟩
  · refine (h q hq hrunning).imp (hstands q) fun ⟨hc, next, hnext⟩ => ⟨hc, next, ?_⟩
    show (System.become _ ws .gone).handler (s.mgr.sub q).socket = _
    rw [become_handler, if_neg]
    · exact hnext
    · intro heq
      rw [heq, hhandler] at hnext
      cases hnext
  · exact ha q hq ⟨List.mem_of_mem_erase hs.1, hs.2⟩

theorem Alone.effect_run (h : s.Alone) (hinv : s.Inv) {ws : Ws} (hhandler : s.handler ws = .idle)
    (c : Command) : Effect s (.command ws c) (s.run ws c) := by
  have hsound := hinv.sound ws
  rw [hhandler] at hsound
  have hidle (next : AfterDetach) (q : SubId) (hq : s.handler ws = .detaching next q) :
      (s.mgr.sub q).sender = .done := by
    cases hhandler.symm.trans hq
  have hown {t : System} (ht : Own ws s t) : Effect s (.command ws c) t := h.effect_own ht hidle
  have hdetach (next : AfterDetach) : Effect s (.command ws c) (s.detach ws next) :=
    h.effect_detach hinv.good next hsound.1 hidle (Or.inl ⟨c, rfl⟩)
  cases c with
  | configure configs =>
    exact hown (.become (s.mgr.unmoved_configures ws configs) _)
  | start request => exact hown (.startStreaming s request)
  | stop => exact hown (.stopStreaming s .command)
  | subscribe request =>
    show Effect s _ (s.subscribe ws request)
    unfold System.subscribe
    dsimp only
    rw [if_neg (not_not.2 hsound.1)]
    cases request with
    | error printed => exact hown (.stay s _)
    | ok sid =>
      dsimp only
      split_ifs
      · exact hown (.stay s _)
      · exact hown (.stay s _)
      · exact hdetach _
  | unsubscribe => exact hdetach _

/-- Every step, whatever session id it draws. -/
theorem Alone.effect (h : s.Alone) (hinv : s.Inv) (hs : s.mgr.Streams) {a : Act}
    (hstep : s.step a = some t) : Effect s a t := by
  have hbusy {ws : Ws} {handler : Handler} (hhandler : s.handler ws = handler)
      (hne : ∀ next q, handler ≠ .detaching next q) (next : AfterDetach) (q : SubId)
      (hq : s.handler ws = .detaching next q) : (s.mgr.sub q).sender = .done :=
    absurd (hhandler.symm.trans hq) (hne next q)
  cases step_cases hstep with
  | connect ws hhandler => exact h.effect_own (.stay s _) (hbusy hhandler (by simp))
  | authenticate ws did hhandler =>
    have hset : Unmoved s.mgr (s.mgr.authenticate ws did) := by
      unfold Manager.authenticate
      split_ifs
      · exact s.mgr.unmoved_updateClient ws rfl
      · exact .refl _
    exact h.effect_own (.become hset _) (hbusy hhandler (by simp))
  | command ws c hhandler => exact h.effect_run hinv hhandler c
  | disconnect ws hhandler =>
    have hsound := hinv.sound ws
    rcases hhandler with hhandler | hhandler | hhandler
    · rw [hhandler] at hsound
      exact h.effect_detach hinv.good _ hsound.1 (hbusy hhandler (by simp)) (Or.inr rfl)
    · rw [hhandler] at hsound
      exact h.effect_detach hinv.good _ hsound.1 (hbusy hhandler (by simp)) (Or.inr rfl)
    · rw [hhandler] at hsound
      exact h.effect_detach hinv.good _ hsound (hbusy hhandler (by simp)) (Or.inr rfl)
  | accepted ws hhandler =>
    have hsound := hinv.sound ws
    rw [hhandler] at hsound
    exact h.effect_connect hsound hhandler
  | refused ws hhandler => exact h.effect_own (.stay s _) (hbusy hhandler (by simp))
  | replied ws e hhandler => exact h.effect_own (.stay s _) (hbusy hhandler (by simp))
  | stopping ws next await p hhandler hresume =>
    refine h.effect_own (.stopped s next ?_ ?_) (hbusy hhandler (by simp))
    · rcases Manager.resumeStop_cases hresume with ⟨k, rfl, -, rfl⟩ | ⟨k, rfl, -, rfl⟩ |
        ⟨hop, hops, rfl, -, rfl⟩
      · exact .refl _
      · exact s.mgr.unmoved_stopHops ws
      · exact s.mgr.unmoved_awaitHops ws hops
    · intro hgone
      rcases Manager.resumeStop_cases hresume with ⟨k, rfl, -, rfl⟩ | ⟨k, rfl, -, rfl⟩ |
        ⟨hop, hops, rfl, -, rfl⟩
      · cases hgone
      · unfold Manager.stopHops Manager.awaitHops at hgone
        split_ifs at hgone
      · unfold Manager.awaitHops at hgone
        split_ifs at hgone
  | starting ws start phase r t hhandler ht =>
    exact h.effect_own (.resumeStart ht) (hbusy hhandler (by simp))
  | detached ws next q hhandler hdone =>
    have hsound := hinv.sound ws
    rw [hhandler] at hsound
    refine h.effect_afterDetach next hsound.1 hsound.2.1 fun next' q' hq' => ?_
    cases hhandler.symm.trans hq'
    exact hdone
  | left ws e hhandler =>
    have hsound := hinv.sound ws
    rw [hhandler] at hsound
    exact h.effect_forget hhandler hsound.2.subscription
  | stream k r m hk hm =>
      exact h.effect_mgr (Manager.unmoved_stream (Manager.resumeStream_cases hm))
  | sender q r m hq hm => exact h.effect_sender hinv hs hq hm
  | hopEnds hop => exact h.effect_mgr ⟨rfl, rfl, fun _ => rfl, fun _ => ⟨rfl, rfl, rfl, rfl⟩⟩
  | exits k hk => exact h.effect_mgr (s.mgr.unmoved_updateCapture k _)

/-! ## Runs -/

/-- Subscription `q` listens to capture `k`. -/
structure Served (s : System) (q : SubId) (k : CaptureId) (data : Json) : Prop where
  source : (s.mgr.sub q).source = some k
  session : (s.mgr.capture k).sessionId = (s.mgr.sub q).sessionId
  since : (s.mgr.sub q).since ≤ (s.mgr.capture k).framed.length
  descriptor : ∃ m owner, data = Manager.sessionDescriptor m (s.mgr.sub q).sessionId owner
  /-- It was sent what it is due, up to some message. -/
  sent : (s.mgr.sub q).sent <+: due data (s.mgr.capture k) (s.mgr.sub q).since
  /-- While the subscription is there and its queue was not closed, the rest is in the queue, -/
  whole : s.mgr.Stands q → (s.mgr.sub q).closing = false → ∃ waiting,
    (s.mgr.sub q).queue = waiting.map .message ++ ending (s.mgr.capture k).ended.isSome ∧
      (s.mgr.sub q).sent ++ waiting = due data (s.mgr.capture k) (s.mgr.sub q).since
  /-- and a task will send it. -/
  attended : s.mgr.Stands q → (s.mgr.sub q).sender ≠ .done ∧ (s.mgr.sub q).cancelled = false
  /-- If the queue was closed, the socket is closed next. -/
  evicted : (s.mgr.sub q).closing = true → (s.mgr.sub q).sender.loops = true →
    (s.mgr.sub q).queue.head? = some .close

/-- In every run whose session ids were not in use when they were drawn. -/
theorem stream_law {s : System} (h : Run step (fun s a => s.freshSession a = true) initial s)
    {q : SubId} (hq : q < s.mgr.nextSub) : (∃ k data, s.Served q k data) ∧
      ∀ a t, s.step a = some t →
        -- Nothing is sent once the subscription is over or the socket is closed.
        ((t.mgr.sub q).sent = (s.mgr.sub q).sent ∨
          s.mgr.Stands q ∧ (s.mgr.sub q).closing = false ∧ (s.mgr.sub q).closed = false) ∧
        -- Only its own task and endpoint end it.
        (s.mgr.Stands q → t.mgr.Stands q ∨ (∃ r, a = .sender q r) ∨
          (∃ c, a = .command (s.mgr.sub q).socket c) ∨ a = .disconnect (s.mgr.sub q).socket) := by
  have hall : (s.Inv ∧ s.mgr.Streams) ∧ s.Alone ∧ s.Attended := by
    refine h.invariant (I := fun s => (s.Inv ∧ s.mgr.Streams) ∧ s.Alone ∧ s.Attended) ?_ ?_
    · exact ⟨⟨inv_initial, streams_initial⟩, fun q hq => absurd hq (Nat.not_lt_zero q),
        fun q hq => absurd hq (Nat.not_lt_zero q)⟩
    · intro s a t hs hfresh hstep
      obtain ⟨⟨hinv, hstreams⟩, halone, hattended⟩ := hs
      have heffect := halone.effect hinv hstreams hstep
      exact ⟨⟨hinv.step hfresh hstep, hinv.streams hstreams hfresh hstep⟩, heffect.alone,
        heffect.attended hattended⟩
  obtain ⟨⟨hinv, hstreams⟩, halone, hattended⟩ := hall
  obtain ⟨k, data, hf⟩ := hstreams.follow.follows q hq
  refine ⟨⟨k, data, hf.source, hf.session, hf.since, hf.descriptor, ?_, hf.standing, hattended q hq,
    hf.lawful.closing⟩, fun a t hstep => ?_⟩
  · exact (List.prefix_append _ _).trans hf.lawful.sent
  · have heffect := halone.effect hinv hstreams hstep
    exact ⟨heffect.sent q hq, heffect.stands q hq⟩

/-- Two sockets capture under one session id, and a third subscribes to the first of them, gives
that up and subscribes again. -/
def collisionActs : List Act :=
  startActs 0 wlanpi0 "a".toList "00000000".toList ++
  [.connect 1, .resume 1 .ok, .authenticate 1 "b".toList, .resume 1 .ok,
    .command 1 (.subscribe (.ok "cap_00000000".toList))] ++
  startActs 2 wlanpi1 "c".toList "00000000".toList ++
  [.command 1 .unsubscribe, .sender 0 .ok, .resume 1 .ok, .resume 1 .ok,
    .command 1 (.subscribe (.ok "cap_00000000".toList))]

/-- Dumpcap writes a Section Header Block, and it is sent to the subscriber. -/
def blockActs (k : CaptureId) (q : SubId) : List Act :=
  [.stream k .ok,
    .stream k (.data [0x0a, 0x0d, 0x0d, 0x0a, 16, 0, 0, 0, 0x4d, 0x3c, 0x2b, 0x1a, 16, 0, 0, 0]),
    .stream k .ok, .sender q .ok, .sender q .ok]

/-- The second subscription is sent a block of the capture that the first was to. -/
theorem stream_law_collision : ¬∀ s : System, Reaches step initial s → ∀ q < s.mgr.nextSub,
    ∃ k data, (s.mgr.sub q).source = some k ∧
      (s.mgr.sub q).sent <+: due data (s.mgr.capture k) (s.mgr.sub q).since := by
  intro h
  have hexec : (exec step initial (collisionActs ++ blockActs 0 1)).any (fun s =>
      s.mgr.nextSub == 2 && (s.mgr.sub 1).source == some 1 && (s.mgr.sub 1).sent.length == 2 &&
        (s.mgr.capture 1).framed == [] && (s.mgr.capture 1).ended.isNone) = true := by
    decide +kernel
  obtain ⟨s, hs, hstate⟩ := (Option.any_eq_true _ _).1 hexec
  simp only [Bool.and_eq_true, beq_iff_eq, Option.isNone_iff_eq_none] at hstate
  obtain ⟨⟨⟨⟨hnext, hsource⟩, hsent⟩, hframed⟩, hended⟩ := hstate
  obtain ⟨k, data, hk, hprefix⟩ := h s (Reaches.of_exec hs) 1 (by rw [hnext]; exact Nat.one_lt_two)
  rw [hsource] at hk
  cases hk
  have hlength := hprefix.length_le
  have hreplay : replay [] = [] := rfl
  simp [due, Manager.headerOf, hframed, hended, hreplay, hsent] at hlength

/-- A subscriber that was sent the block of a capture. -/
theorem stream_law_block : ∃ s : System, (s.mgr.sub 0).sent.length = 2 ∧
    ∃ k data, s.Served 0 k data := by
  have hexec : (exec (guarded step freshSession) initial
      (startActs 0 wlanpi0 "a".toList "00000000".toList ++
        [.connect 1, .resume 1 .ok, .authenticate 1 "b".toList, .resume 1 .ok,
          .command 1 (.subscribe (.ok "cap_00000000".toList))] ++ blockActs 0 0)).any
      (fun s => (s.mgr.sub 0).sent.length == 2 && s.mgr.nextSub == 1) = true := by
    decide +kernel
  obtain ⟨s, hs, hstate⟩ := (Option.any_eq_true _ _).1 hexec
  simp only [Bool.and_eq_true, beq_iff_eq] at hstate
  obtain ⟨hsent, hnext⟩ := hstate
  exact ⟨s, hsent, 
    (stream_law (Run.of_guarded (Reaches.of_exec hs)) (by rw [hnext]; exact Nat.one_pos)).1⟩

end System

end WlanpiCore.Streaming
