import WlanpiCore.Streaming.StreamSteps

/-!
# Teardown

A sender task that is not done has the subscription of its socket, or was cancelled and is awaited
by the endpoint that cleared it (`System.Alone`). So no task of an earlier subscription is left when
a socket subscribes again, and what it does at its end is nothing to the new one.
-/

namespace WlanpiCore.Streaming

namespace Manager

/-- No subscription is made or cleared, and no sender task goes on. -/
structure Unmoved (m m' : Manager) : Prop where
  next : m'.nextSub = m.nextSub
  clients : m'.clients = m.clients
  subscription : ∀ ws, (m'.record ws).subscription = (m.record ws).subscription
  sub : ∀ q, (m'.sub q).socket = (m.sub q).socket ∧ (m'.sub q).sender = (m.sub q).sender ∧
    (m'.sub q).cancelled = (m.sub q).cancelled ∧ (m'.sub q).sent = (m.sub q).sent

namespace Unmoved

variable {m m' m'' : Manager}

theorem refl (m : Manager) : Unmoved m m := ⟨rfl, rfl, fun _ => rfl, fun _ => ⟨rfl, rfl, rfl, rfl⟩⟩

theorem trans (h : Unmoved m m') (h' : Unmoved m' m'') : Unmoved m m'' where
  next := h'.next.trans h.next
  clients := h'.clients.trans h.clients
  subscription ws := (h'.subscription ws).trans (h.subscription ws)
  sub q := ⟨(h'.sub q).1.trans (h.sub q).1, (h'.sub q).2.1.trans (h.sub q).2.1,
    (h'.sub q).2.2.1.trans (h.sub q).2.2.1, (h'.sub q).2.2.2.trans (h.sub q).2.2.2⟩

theorem stands (h : Unmoved m m') (q : SubId) : m'.Stands q ↔ m.Stands q := by
  unfold Stands
  rw [(h.sub q).1, h.clients, h.subscription]

end Unmoved

section

variable (m : Manager) (ws : Ws)

theorem unmoved_updateClient {f : Client → Client}
    (hf : (f (m.record ws)).subscription = (m.record ws).subscription) :
    Unmoved m (m.updateClient ws f) := by
  refine ⟨rfl, rfl, fun ws' => ?_, fun _ => ⟨rfl, rfl, rfl, rfl⟩⟩
  rw [updateClient_record]
  split_ifs with heq
  · rw [heq, hf]
  · rfl

theorem unmoved_updateCapture (k : CaptureId) (f : Capture → Capture) :
    Unmoved m (m.updateCapture k f) :=
  ⟨rfl, rfl, fun _ => rfl, fun _ => ⟨rfl, rfl, rfl, rfl⟩⟩

theorem unmoved_queued {sub sub' : Subscription} (h : sub.Queued sub') :
    sub'.socket = sub.socket ∧ sub'.sender = sub.sender ∧ sub'.cancelled = sub.cancelled ∧
      sub'.sent = sub.sent := by
  rw [h.rest]
  exact ⟨rfl, rfl, rfl, rfl⟩

theorem unmoved_releaseInterfaces : Unmoved m (m.releaseInterfaces ws) := by
  have hrest := m.releaseInterfaces_rest ws
  refine ⟨?_, ?_, fun ws' => ?_, fun q => ?_⟩
  · rw [hrest]
  · rw [hrest]
  · rw [releaseInterfaces_record]
  · rw [hrest]
    exact ⟨rfl, rfl, rfl, rfl⟩

theorem unmoved_endSession (code message : String) : Unmoved m (m.endSession ws code message) := by
  have hrest := m.endSession_rest ws code message
  refine ⟨?_, ?_, fun ws' => ?_, fun q => unmoved_queued (m.endSession_sub ws code message q)⟩
  · rw [hrest]
  · rw [hrest]
  · rw [endSession_record]
    split_ifs with heq
    · rw [heq]
      rfl
    · rfl

theorem unmoved_finishStop : Unmoved m (m.finishStop ws) :=
  ((m.unmoved_releaseInterfaces ws).trans (unmoved_endSession _ ws _ _)).trans
    (unmoved_updateClient _ ws rfl)

theorem unmoved_awaitHops (hops : List HopId) : Unmoved m (m.awaitHops ws hops).1 := by
  unfold awaitHops
  split_ifs
  · exact m.unmoved_finishStop ws
  · exact .refl m

theorem unmoved_stopHops : Unmoved m (m.stopHops ws).1 :=
  (m.unmoved_updateClient ws (f := ({ · with channelTasks := [] })) rfl).trans
    (unmoved_awaitHops _ ws _)

theorem unmoved_stopStreaming : Unmoved m (m.stopStreaming ws).1 := by
  unfold stopStreaming
  by_cases hws : ws ∉ m.clients
  · rw [if_pos hws]
    exact .refl m
  by_cases hsubscribed : m.subscribedTo ws ≠ none
  · rw [if_neg hws, if_pos hsubscribed]
    exact .refl m
  rw [if_neg hws, if_neg hsubscribed]
  set m₁ := m.updateClient ws fun c => { c with
    sessionEnd := if c.sessionId ≠ none then some ("CAPTURE_STOPPED", "Capture stopped.")
      else c.sessionEnd } with hm₁
  have h₁ : Unmoved m m₁ := m.unmoved_updateClient ws rfl
  dsimp only
  cases (m₁.record ws).capture with
  | none => exact h₁.trans (m₁.unmoved_stopHops ws)
  | some k => exact h₁.trans (m₁.unmoved_updateCapture k ({ · with cancelled := true }))

/-- Only a socket that is not a client any more is refused so. -/
theorem stopStreaming_unregistered (h : (m.stopStreaming ws).2 = .unregistered) :
    ws ∉ (m.stopStreaming ws).1.clients := by
  rw [(m.unmoved_stopStreaming ws).clients]
  unfold stopStreaming at h
  by_contra hws
  rw [if_neg (not_not.2 hws)] at h
  split_ifs at h
  dsimp only at h
  split at h
  · unfold stopHops awaitHops at h
    split_ifs at h
  · cases h

theorem unmoved_claimInterfaces {m m' : Manager} {ws : Ws} {interfaces : List Iface}
    (h : m.claimInterfaces ws interfaces = .ok m') : Unmoved m m' := by
  obtain ⟨-, -, rfl⟩ := claimInterfaces_ok h
  refine ⟨rfl, rfl, fun ws' => ?_, fun _ => ⟨rfl, rfl, rfl, rfl⟩⟩
  rw [updateClient_record]
  split_ifs with heq
  · rw [heq]
  · rfl

theorem unmoved_startCapture (start : CaptureStart) (sid : SessionId) :
    Unmoved m (m.startCapture ws start sid) := by
  refine ⟨rfl, rfl, fun ws' => ?_, fun _ => ⟨rfl, rfl, rfl, rfl⟩⟩
  rw [startCapture_record]
  split_ifs with heq
  · rw [heq]
  · rfl

theorem unmoved_broadcastBlocks (k : CaptureId) (blocks : List Block) :
    Unmoved m (blocks.foldl (broadcastBlock ws k) m) := by
  induction blocks generalizing m with
  | nil => exact .refl m
  | cons block blocks ih =>
    have hfanned := fannedOut_queueSubscriberBlock ws m block
    have hqueued : Unmoved m (queueSubscriberBlock ws m block) := by
      refine ⟨?_, ?_, fun ws' => ?_, fun q => unmoved_queued (hfanned.sub q)⟩
      · rw [hfanned.rest]
      · rw [hfanned.rest]
      · rw [hfanned.record]
    exact (hqueued.trans (unmoved_updateCapture _ k _)).trans (ih _)

theorem unmoved_broadcastChunk (k : CaptureId) (chunk : List UInt8) :
    Unmoved m (m.broadcastChunk k chunk) := by
  set ws := (m.capture k).socket
  have hframer : Unmoved m (m.updateClient ws
      ({ · with framer := (pcapngBlocks (m.record ws).framer chunk).1 })) :=
    m.unmoved_updateClient ws rfl
  exact hframer.trans (unmoved_broadcastBlocks _ ws k _)

theorem unmoved_finishStream (k : CaptureId) : Unmoved m (m.finishStream k) := by
  unfold finishStream
  dsimp only
  generalize ((m.releaseInterfaces _).record _).sessionEnd.getD _ = e
  exact (((m.unmoved_releaseInterfaces _).trans (unmoved_endSession _ _ e.1 e.2)).trans
    (unmoved_updateClient _ _ rfl)).trans (unmoved_updateCapture _ k _)

theorem unmoved_streamHops (k : CaptureId) (hops : List HopId) : Unmoved m
    (m.streamHops k hops) := by
  unfold streamHops
  split_ifs
  · exact m.unmoved_finishStream k
  · exact m.unmoved_updateCapture k _

theorem unmoved_stream {m m' : Manager} {k : CaptureId} (h : StreamStep m k m') : Unmoved m m' := by
  cases h with
  | enter task hrunning => exact m.unmoved_updateCapture k _
  | broadcast chunk htask =>
    exact (m.unmoved_broadcastChunk k chunk).trans (unmoved_updateCapture _ k _)
  | die hcancelled hrunning => exact m.unmoved_updateCapture k _
  | reaped htask halive =>
    have hset : Unmoved m (m.updateClient (m.capture k).socket ({ · with channelTasks := [] })) :=
      m.unmoved_updateClient _ rfl
    exact hset.trans (unmoved_streamHops _ k _)
  | hop hop hops htask => exact (m.unmoved_updateCapture k _).trans (unmoved_streamHops _ k hops)

theorem unmoved_configure (iface : Iface) (config : CaptureInterfaceConfig) :
    Unmoved m (m.configure ws iface config) := by
  unfold configure
  split_ifs
  · exact m.unmoved_updateClient ws rfl
  · exact .refl m

theorem unmoved_configures (configs : List (Iface × CaptureInterfaceConfig)) :
    Unmoved m (configs.foldl (fun m (iface, config) => m.configure ws iface config) m) := by
  induction configs generalizing m with
  | nil => exact .refl m
  | cons c configs ih => exact (m.unmoved_configure ws c.1 c.2).trans (ih _)

end

end Manager

namespace System

open Manager (Unmoved)

/-- The endpoint of `ws` went on, and left the subscriptions as they were. -/
structure Own (ws : Ws) (s t : System) : Prop where
  mgr : Unmoved s.mgr t.mgr
  handler : ∀ ws' ≠ ws, t.handler ws' = s.handler ws'

namespace Own

variable {s : System} {ws : Ws}

theorem become {m : Manager} (h : Unmoved s.mgr m) (handler : Handler) :
    Own ws s ({ s with mgr := m }.become ws handler) :=
  ⟨h, fun ws' hne => by rw [become_handler, if_neg hne]⟩

theorem stay (s : System) (handler : Handler) : Own ws s (s.become ws handler) :=
  ⟨.refl _, fun ws' hne => by rw [become_handler, if_neg hne]⟩

theorem after {m : Manager} {t : System} (h : Unmoved s.mgr m) (ht : Own ws { s with mgr := m } t) :
    Own ws s t :=
  ⟨h.trans ht.mgr, ht.handler⟩

theorem claim (s : System) (start : CaptureStart) : Own ws s (s.claim ws start) := by
  unfold System.claim
  dsimp only
  split_ifs
  · exact .stay s _
  cases hclaim : s.mgr.claimInterfaces ws start.interfaces with
  | error e => cases e <;> exact .stay s _
  | ok m => exact .become (Manager.unmoved_claimInterfaces hclaim) _

theorem notify (s : System) (e : Event) (next : AfterStop) : Own ws s (s.notify ws e next) := by
  cases next with
  | command => exact .stay s _
  | start start => exact .claim s start
  | disconnect => exact .stay s _

theorem stopped (s : System) (next : AfterStop) {p : Manager × StopOutcome}
    (h : Unmoved s.mgr p.1) (hgone : p.2 = .unregistered → ws ∉ p.1.clients) :
    Own ws s (s.stopped ws next p) := by
  obtain ⟨m, outcome⟩ := p
  cases outcome with
  | unregistered =>
    refine .after h ?_
    cases next with
    | command => exact .stay _ _
    | start start => exact .claim _ start
    | disconnect =>
      have hforget : Unmoved m (m.forget ws) :=
        ⟨rfl, List.erase_of_not_mem (hgone rfl), fun _ => rfl, fun _ => ⟨rfl, rfl, rfl, rfl⟩⟩
      exact .become (s := { s with mgr := m }) hforget _
  | readOnly => exact .after h (.notify _ _ next)
  | waiting await => exact .become h _
  | stopped => exact .after h (.notify _ _ next)

theorem stopStreaming (s : System) (next : AfterStop) :
    Own ws s (s.stopped ws next (s.mgr.stopStreaming ws)) :=
  .stopped s next (s.mgr.unmoved_stopStreaming ws) (s.mgr.stopStreaming_unregistered ws)

theorem startStreaming (s : System) (request : Option CaptureStart) :
    Own ws s (s.startStreaming ws request) := by
  unfold System.startStreaming
  by_cases hws : ws ∉ s.mgr.clients
  · rw [if_pos hws]
    exact .stay s _
  by_cases hsubscribed : s.mgr.subscribedTo ws ≠ none
  · rw [if_neg hws, if_pos hsubscribed]
    exact .stay s _
  rw [if_neg hws, if_neg hsubscribed]
  cases request with
  | none => exact .stay s _
  | some start =>
    dsimp only
    split_ifs
    · exact .stay s _
    · exact .stopStreaming s _
    · exact .claim s start

theorem filterNext (s : System) (start : CaptureStart) (todo : List Iface) :
    Own ws s (s.filterNext ws start todo) := by
  cases todo <;> exact .stay s _

theorem tuneNext (s : System) (start : CaptureStart) (todo : List Iface) :
    Own ws s (s.tuneNext ws start todo) := by
  induction todo with
  | nil => exact .filterNext s start _
  | cons iface todo ih =>
    unfold System.tuneNext
    split_ifs
    · exact .stay s _
    · exact ih

theorem resumeStart {s t : System} {start : CaptureStart} {phase : StartPhase} {r : Reply}
    (h : s.resumeStart ws start phase r = some t) : Own ws s t := by
  cases phase with
  | resolving =>
    cases r with
    | resolved netns =>
      cases netns with
      | error reason =>
        cases h
        exact .become (s.mgr.unmoved_releaseInterfaces ws) _
      | ok netns =>
        cases h
        exact .after (s.mgr.unmoved_updateClient ws rfl) (.tuneNext _ start _)
    | raises =>
      cases h
      exact .stay s _
    | _ => cases h
  | tuning iface todo =>
    cases r with
    | tuned error =>
      cases error with
      | none =>
        cases h
        exact .tuneNext s start todo
      | some error =>
        cases h
        exact .stay s _
    | raises =>
      cases h
      exact .stay s _
    | _ => cases h
  | reporting e todo =>
    cases r with
    | ok =>
      cases h
      exact .tuneNext s start todo
    | _ => cases h
  | filtering todo =>
    cases r with
    | ok =>
      cases h
      exact .filterNext s start todo
    | raises =>
      cases h
      exact .stay s _
    | _ => cases h
  | spawning =>
    cases r with
    | spawned token =>
      cases h
      exact .become (s.mgr.unmoved_startCapture ws start _) _
    | osError =>
      cases h
      exact .become (s.mgr.unmoved_releaseInterfaces ws) _
    | raises =>
      cases h
      exact .stay s _
    | _ => cases h

end Own

/-! ## The sender tasks of a socket -/

/-- A sender task has the subscription of its socket, or the endpoint awaits its end. -/
def Alone (s : System) : Prop := ∀ q < s.mgr.nextSub, (s.mgr.sub q).sender ≠ .done →
  s.mgr.Stands q ∨
    (s.mgr.sub q).cancelled = true ∧ ∃ next, s.handler (s.mgr.sub q).socket = .detaching next q

/-- A subscription that stands has a task that goes on. -/
def Attended (s : System) : Prop := ∀ q < s.mgr.nextSub, s.mgr.Stands q →
  (s.mgr.sub q).sender ≠ .done ∧ (s.mgr.sub q).cancelled = false

variable {s t : System} {ws : Ws}

theorem Alone.own (h : s.Alone) (ht : Own ws s t)
    (hidle : ∀ next q, s.handler ws = .detaching next q → (s.mgr.sub q).sender = .done) :
      t.Alone := by
  intro q hq hrunning
  obtain ⟨hsocket, hsender, hcancelled, -⟩ := ht.mgr.sub q
  rw [ht.mgr.next] at hq
  rw [hsender] at hrunning
  rw [ht.mgr.stands, hsocket, hcancelled]
  refine (h q hq hrunning).imp_right fun ⟨hc, next, hnext⟩ => ⟨hc, next, ?_⟩
  rw [ht.handler]
  · exact hnext
  · intro heq
    rw [heq] at hnext
    exact hrunning (hidle next q hnext)

/-- What a step does to the subscriptions that stand, and to what is sent. -/
structure Effect (s : System) (a : Act) (t : System) : Prop where
  alone : t.Alone
  attended : s.Attended → t.Attended
  stands : ∀ q < s.mgr.nextSub, s.mgr.Stands q → t.mgr.Stands q ∨ (∃ r, a = .sender q r) ∨
    (∃ c, a = .command (s.mgr.sub q).socket c) ∨ a = .disconnect (s.mgr.sub q).socket
  sent : ∀ q < s.mgr.nextSub, (t.mgr.sub q).sent = (s.mgr.sub q).sent ∨
    s.mgr.Stands q ∧ (s.mgr.sub q).closing = false ∧ (s.mgr.sub q).closed = false

theorem Attended.unmoved (h : s.Attended) (hm : Unmoved s.mgr t.mgr) : t.Attended := by
  intro q hq hstands
  obtain ⟨-, hsender, hcancelled, -⟩ := hm.sub q
  rw [hsender, hcancelled]
  exact h q (hm.next ▸ hq) ((hm.stands q).1 hstands)

theorem Alone.effect_own (h : s.Alone) {a : Act} (ht : Own ws s t)
    (hidle : ∀ next q, s.handler ws = .detaching next q → (s.mgr.sub q).sender = .done) :
    Effect s a t :=
  ⟨h.own ht hidle, fun ha => ha.unmoved ht.mgr, fun q _ hstands =>
    Or.inl ((ht.mgr.stands q).2 hstands),
    fun q _ => Or.inl (ht.mgr.sub q).2.2.2⟩

theorem Alone.effect_mgr (h : s.Alone) {a : Act} {m : Manager} (hm : Unmoved s.mgr m) :
    Effect s a { s with mgr := m } := by
  refine ⟨fun q hq hrunning => ?_, fun ha => ha.unmoved hm,
    fun q _ hstands => Or.inl ((hm.stands q).2 hstands), fun q _ => Or.inl (hm.sub q).2.2.2⟩
  obtain ⟨hsocket, hsender, hcancelled, -⟩ := hm.sub q
  rw [hm.next] at hq
  rw [hsender] at hrunning
  rw [hm.stands, hsocket, hcancelled]
  exact h q hq hrunning

theorem Alone.effect_attach (h : s.Alone) {a : Act} {ws : Ws} {sid : SessionId}
    (hws : ws ∈ s.mgr.clients) (hfree : (s.mgr.record ws).subscription = none)
    (hidle : ∀ next q, s.handler ws = .detaching next q → (s.mgr.sub q).sender = .done) :
    Effect s a (s.attach ws sid) := by
  have hreply (e : Event) : Effect s a (s.reply ws e) := h.effect_own (.stay s _) hidle
  unfold System.attach
  dsimp only
  cases s.mgr.sessions sid with
  | none => exact hreply _
  | some owner =>
    dsimp only
    by_cases howner : owner ∉ s.mgr.clients
    · rw [if_pos howner]
      exact hreply _
    rw [if_neg howner]
    split_ifs
    · exact hreply _
    have hsub (q : SubId) (hq : q < s.mgr.nextSub) :
        (s.mgr.attach ws sid owner).sub q = s.mgr.sub q := by
      simp [Manager.attach, hq.ne]
    have hstands (q : SubId) (hq : q < s.mgr.nextSub) (hs : s.mgr.Stands q) :
        (s.mgr.attach ws sid owner).Stands q := by
      obtain ⟨hclient, hsubscription⟩ := hs
      unfold Manager.Stands
      rw [hsub q hq, Manager.attach_record]
      refine ⟨hclient, ?_⟩
      dsimp only
      rw [if_neg]
      · exact hsubscription
      · intro heq
        rw [heq, hfree] at hsubscription
        cases hsubscription
    refine ⟨fun q hq hrunning => ?_, fun ha q hq hs => ?_, fun q hq hs => Or.inl (hstands q hq hs),
      fun q hq => Or.inl (congrArg Subscription.sent (hsub q hq))⟩
    all_goals
      rw [become_mgr] at *
      dsimp only at *
      by_cases hnew : q = s.mgr.nextSub
    · subst hnew
      left
      have hsocket : ((s.mgr.attach ws sid owner).sub s.mgr.nextSub).socket = ws := by
        simp [Manager.attach]
      unfold Manager.Stands
      rw [hsocket, Manager.attach_record]
      exact ⟨hws, if_pos rfl⟩
    · have hlt : q < s.mgr.nextSub := lt_of_le_of_ne (Nat.lt_succ_iff.1 hq) hnew
      rw [hsub q hlt] at hrunning ⊢
      rcases h q hlt hrunning with hs | ⟨hc, next, hnext⟩
      · exact Or.inl (hstands q hlt hs)
      · refine Or.inr ⟨hc, next, ?_⟩
        rw [become_handler, if_neg]
        · exact hnext
        · intro heq
          rw [heq] at hnext
          exact hrunning (hidle next q hnext)
    · subst hnew
      simp [Manager.attach]
    · have hlt : q < s.mgr.nextSub := lt_of_le_of_ne (Nat.lt_succ_iff.1 hq) hnew
      obtain ⟨hclient, hsubscription⟩ := hs
      rw [hsub q hlt] at hclient hsubscription ⊢
      rw [Manager.attach_record] at hsubscription
      dsimp only at hsubscription
      split_ifs at hsubscription
      · exact absurd (Option.some.inj hsubscription).symm hnew
      · exact ha q hlt ⟨hclient, hsubscription⟩

theorem Alone.effect_afterDetach (h : s.Alone) {a : Act} {ws : Ws} (next : AfterDetach)
    (hws : ws ∈ s.mgr.clients) (hfree : (s.mgr.record ws).subscription = none)
    (hidle : ∀ next q, s.handler ws = .detaching next q → (s.mgr.sub q).sender = .done) :
    Effect s a (s.afterDetach ws next) := by
  cases next with
  | subscribe sid => exact h.effect_attach hws hfree hidle
  | unsubscribe sid => exact h.effect_own (.stay s _) hidle
  | disconnect => exact h.effect_own (.stopStreaming s _) hidle

/-- The endpoint clears its subscription, and awaits the task. -/
theorem Alone.effect_detach (h : s.Alone) (hgood : s.mgr.Good) {a : Act} {ws : Ws}
    (next : AfterDetach)
    (hws : ws ∈ s.mgr.clients)
    (hidle : ∀ next q, s.handler ws = .detaching next q → (s.mgr.sub q).sender = .done)
    (hact : (∃ c, a = .command ws c) ∨ a = .disconnect ws) : Effect s a (s.detach ws next) := by
  unfold System.detach
  rcases s.mgr.clearSubscription_cases ws none none with ⟨hclear, hnone⟩ | ⟨q₀, -, hq₀, hclear⟩
  · rw [hclear]
    refine h.effect_afterDetach next hws ?_ hidle
    by_contra hsome
    obtain ⟨q, hq⟩ := Option.ne_none_iff_exists'.1 hsome
    obtain ⟨sid, hsid, -⟩ := hnone hws q hq
    cases hsid
  rw [hclear, if_neg (Option.some_ne_none q₀).symm]
  dsimp only
  set m := (s.mgr.dropSubscription ws q₀).updateSub q₀ ({ · with cancelled := true }) with hm
  have hsocket₀ := (hgood.linked.subscriptions ws q₀ hq₀).2
  have hdropped : (s.mgr.dropSubscription ws q₀).sub = s.mgr.sub := by
    rw [Manager.dropSubscription_rest]
  have hclients : m.clients = s.mgr.clients := by
    rw [hm, Manager.updateSub_clients, Manager.dropSubscription_rest]
  have hnext : m.nextSub = s.mgr.nextSub := by
    rw [hm, Manager.updateSub_nextSub, Manager.dropSubscription_rest]
  have hsub (q : SubId) (hne : q ≠ q₀) : m.sub q = s.mgr.sub q := by
    rw [hm, Manager.updateSub_sub, if_neg hne, hdropped]
  have hsub₀ : m.sub q₀ = { s.mgr.sub q₀ with cancelled := true } := by
    rw [hm, Manager.updateSub_sub, if_pos rfl, hdropped]
  have hsame (q : SubId) : (m.sub q).socket = (s.mgr.sub q).socket ∧
      (m.sub q).sender = (s.mgr.sub q).sender ∧ (m.sub q).sent = (s.mgr.sub q).sent := by
    by_cases heq : q = q₀
    · rw [heq, hsub₀]
      exact ⟨rfl, rfl, rfl⟩
    · rw [hsub q heq]
      exact ⟨rfl, rfl, rfl⟩
  have hstands (q : SubId) (hs : s.mgr.Stands q) (hne : (s.mgr.sub q).socket ≠ ws) :
    m.Stands q := by
    unfold Manager.Stands
    rw [(hsame q).1, hclients, hm, Manager.updateSub_record, Manager.dropSubscription_record]
    refine ⟨hs.1, ?_⟩
    dsimp only
    rw [if_neg hne]
    exact hs.2
  refine ⟨fun q hq hrunning => ?_, fun ha q hq hs => ?_, fun q hq hs => ?_,
    fun q _ => Or.inl (hsame q).2.2⟩
  · rw [become_mgr] at hq hrunning ⊢
    dsimp only at hq hrunning ⊢
    rw [hnext] at hq
    rw [(hsame q).2.1] at hrunning
    rw [(hsame q).1]
    by_cases heq : q = q₀
    · subst heq
      refine Or.inr ⟨by rw [hsub₀], next, ?_⟩
      rw [become_handler, if_pos hsocket₀]
    · rw [hsub q heq]
      rcases h q hq hrunning with hs | ⟨hc, next', hnext'⟩
      · refine Or.inl (hstands q hs fun hsocket => heq ?_)
        have hsome := hs.2
        rw [hsocket, hq₀] at hsome
        exact (Option.some.inj hsome).symm
      · refine Or.inr ⟨hc, next', ?_⟩
        rw [become_handler, if_neg]
        · exact hnext'
        · intro hsocket
          rw [hsocket] at hnext'
          exact hrunning (hidle next' q hnext')
  · rw [become_mgr] at hq hs ⊢
    dsimp only at hq hs ⊢
    obtain ⟨hclient, hsubscription⟩ := hs
    rw [(hsame q).1, hclients] at hclient
    rw [(hsame q).1, hm, Manager.updateSub_record, Manager.dropSubscription_record] at hsubscription
    dsimp only at hsubscription
    split_ifs at hsubscription with hsocket
    have hne : q ≠ q₀ := by
      rintro rfl
      exact hsocket hsocket₀
    rw [hsub q hne]
    exact ha q (hnext ▸ hq) ⟨hclient, hsubscription⟩
  · by_cases hsocket : (s.mgr.sub q).socket = ws
    · rw [hsocket]
      exact Or.inr (Or.inr hact)
    · exact Or.inl (hstands q hs hsocket)

/-! ## The sender task -/

theorem resumeSender_cancelled {m m' : Manager} {q : SubId} {r : Reply}
    (hcancelled : (m.sub q).cancelled = true) (h : m.resumeSender q r = some m') :
    m' = m.finishSender q ∨
      m' = m.updateSub q ({ · with sender := .done, cancelled := false }) := by
  unfold Manager.resumeSender at h
  rw [if_pos hcancelled] at h
  cases hsender : (m.sub q).sender <;> rw [hsender] at h <;> cases h
  case created => exact Or.inr rfl
  all_goals exact Or.inl rfl

/-- A task that ends has no effect on other subscriptions. -/
theorem Alone.finishSender (h : s.Alone) (hinv : s.Inv) {q : SubId} (hq : q < s.mgr.nextSub)
    (hrunning : (s.mgr.sub q).sender ≠ .done) :
    System.Alone { s with mgr := s.mgr.finishSender q } ∧
      (s.Attended → System.Attended { s with mgr := s.mgr.finishSender q }) ∧
      (∀ q' ≠ q, s.mgr.Stands q' → (s.mgr.finishSender q).Stands q') ∧
      ∀ q', ((s.mgr.finishSender q).sub q').sent = (s.mgr.sub q').sent := by
  -- What its socket has is this subscription, or nothing.
  have hown (q' : SubId) (hq' : (s.mgr.record (s.mgr.sub q).socket).subscription = some q') :
    q' = q := by
    rcases h q hq hrunning with hs | ⟨-, next, hnext⟩
    · exact Option.some.inj (hq'.symm.trans hs.2)
    · have hsound := hinv.sound (s.mgr.sub q).socket
      rw [hnext] at hsound
      cases hq'.symm.trans hsound.2.1
  set ws := (s.mgr.sub q).socket with hws
  set m := s.mgr.finishSender q with hm
  have hfinish : ∃ dropped : Manager, (dropped = s.mgr ∨ dropped = s.mgr.dropSubscription ws q) ∧
      m = dropped.updateSub q ({ · with sender := .done, cancelled := false }) := by
    rcases s.mgr.clearSubscription_cases ws (some (s.mgr.sub q).sessionId) (some q) with
      ⟨hclear, -⟩ | ⟨q', -, hq', hclear⟩
    · refine ⟨_, Or.inl rfl, ?_⟩
      rw [hm, Manager.finishSender, ← hws, hclear]
    · obtain rfl := hown q' hq'
      refine ⟨_, Or.inr rfl, ?_⟩
      rw [hm, Manager.finishSender, ← hws, hclear, if_pos rfl]
  obtain ⟨dropped, hdropped, hfinish⟩ := hfinish
  have hrest : dropped.sub = s.mgr.sub ∧ dropped.clients = s.mgr.clients ∧
      dropped.nextSub = s.mgr.nextSub ∧
      ∀ ws' ≠ ws, (dropped.record ws').subscription = (s.mgr.record ws').subscription := by
    rcases hdropped with rfl | rfl
    · exact ⟨rfl, rfl, rfl, fun _ _ => rfl⟩
    · have hrest := s.mgr.dropSubscription_rest ws q
      refine ⟨?_, ?_, ?_, fun ws' hne => ?_⟩
      · rw [hrest]
      · rw [hrest]
      · rw [hrest]
      · rw [Manager.dropSubscription_record]
        exact if_neg hne
  obtain ⟨hsubs, hclients, hnext, hsubscription⟩ := hrest
  have hsub (q' : SubId) (hne : q' ≠ q) : m.sub q' = s.mgr.sub q' := by
    rw [hfinish, Manager.updateSub_sub, if_neg hne, hsubs]
  have hsub₀ : m.sub q = { s.mgr.sub q with sender := .done, cancelled := false } := by
    rw [hfinish, Manager.updateSub_sub, if_pos rfl, hsubs]
  have hstands (q' : SubId) (hne : q' ≠ q) (hs : s.mgr.Stands q') : m.Stands q' := by
    unfold Manager.Stands
    rw [hsub q' hne, hfinish, Manager.updateSub_clients, Manager.updateSub_record, hclients,
      hsubscription]
    · exact hs
    · intro heq
      have hsome := hs.2
      rw [heq] at hsome
      exact hne (hown q' hsome)
  have hnext' : m.nextSub = s.mgr.nextSub := by
    rw [hfinish, Manager.updateSub_nextSub, hnext]
  refine ⟨fun q' hq' hrunning' => ?_, fun ha q' hq' hs => ?_, hstands, fun q' => ?_⟩
  · dsimp only at hq' hrunning' ⊢
    have hne : q' ≠ q := by
      rintro rfl
      rw [hsub₀] at hrunning'
      exact hrunning' rfl
    rw [hnext'] at hq'
    rw [hsub q' hne] at hrunning' ⊢
    exact (h q' hq' hrunning').imp_left (hstands q' hne)
  · dsimp only at hq' hs ⊢
    have hne : q' ≠ q := by
      rintro rfl
      exact s.mgr.not_stands_finishSender q' hs
    rw [hsub q' hne]
    exact ha q' (hnext' ▸ hq') ((s.mgr.mute_finishSender q).stands q' hs)
  · by_cases heq : q' = q
    · rw [heq, hsub₀]
    · rw [hsub q' heq]

theorem Alone.effect_updateSub (h : s.Alone) {a : Act} {q : SubId} {f : Subscription → Subscription}
    (hsocket : (f (s.mgr.sub q)).socket = (s.mgr.sub q).socket)
    (halone : (f (s.mgr.sub q)).sender = .done ∨ s.mgr.Stands q)
    (hattended : s.mgr.Stands q → (s.mgr.sub q).sender ≠ .done ∧ (s.mgr.sub q).cancelled = false →
      (f (s.mgr.sub q)).sender ≠ .done ∧ (f (s.mgr.sub q)).cancelled = false)
    (hsent : (f (s.mgr.sub q)).sent = (s.mgr.sub q).sent ∨
      s.mgr.Stands q ∧ (s.mgr.sub q).closing = false ∧ (s.mgr.sub q).closed = false) :
    Effect s a { s with mgr := s.mgr.updateSub q f } := by
  have hstands (q' : SubId) : (s.mgr.updateSub q f).Stands q' ↔ s.mgr.Stands q' := by
    unfold Manager.Stands
    rw [Manager.updateSub_sub]
    split_ifs with heq
    · rw [heq, hsocket]
      exact Iff.rfl
    · exact Iff.rfl
  refine ⟨fun q' hq' hrunning => ?_, fun ha q' hq' hs => ?_, fun q' _ hs =>
    Or.inl ((hstands q').2 hs),
    fun q' _ => ?_⟩
  · dsimp only at hq' hrunning ⊢
    rw [hstands, Manager.updateSub_sub] at *
    split_ifs at hrunning ⊢ with heq
    · rw [heq]
      exact Or.inl (halone.resolve_left hrunning)
    · exact h q' hq' hrunning
  · dsimp only at hq' hs ⊢
    rw [hstands] at hs
    have hattended' := ha q' hq' hs
    rw [Manager.updateSub_sub]
    split_ifs with heq
    · rw [heq] at hs hattended'
      exact hattended hs hattended'
    · exact hattended'
  · dsimp only
    rw [Manager.updateSub_sub]
    split_ifs with heq
    · rw [heq]
      exact hsent
    · exact Or.inl rfl

theorem running_of_senderStep {m m' : Manager} {q : SubId} (h : Manager.SenderStep m q m') :
    (m.sub q).sender ≠ .done := by
  intro hdone
  cases h with
  | wait hloops => rw [hdone] at hloops; cases hloops
  | send msg queue hloops => rw [hdone] at hloops; cases hloops
  | close queue hloops => rw [hdone] at hloops; cases hloops
  | complete queue hloops => rw [hdone] at hloops; cases hloops
  | timeOut hsending => rcases hsending with hsending | hsending <;> cases hdone.symm.trans hsending
  | finish hrunning => exact hrunning hdone
  | never hcreated => cases hdone.symm.trans hcreated

theorem Alone.effect_sender (h : s.Alone) (hinv : s.Inv) (hs : s.mgr.Streams) {q : SubId}
    {r : Reply}
    {m : Manager} (hq : q < s.mgr.nextSub) (hstep : s.mgr.resumeSender q r = some m) :
    Effect s (.sender q r) { s with mgr := m } := by
  have hcases := Manager.resumeSender_cases hstep
  have hrunning := running_of_senderStep hcases
  -- The end of a task, whatever it read before.
  have hfinish {s' : System} (hs' : s'.Alone) (hinv' : s'.Inv) (hm : Unmoved s.mgr s'.mgr) :
      Effect s (.sender q r) { s' with mgr := s'.mgr.finishSender q } := by
    obtain ⟨halone, hattended, hstands, hsent⟩ := hs'.finishSender hinv' (hm.next ▸ hq)
      ((hm.sub q).2.1 ▸ hrunning)
    refine ⟨halone, fun ha => hattended (ha.unmoved hm), fun q' _ hstand => ?_,
      fun q' _ => Or.inl ((hsent q').trans (hm.sub q').2.2.2)⟩
    by_cases heq : q' = q
    · exact Or.inr (Or.inl ⟨r, by rw [heq]⟩)
    · exact Or.inl (hstands q' heq ((hm.stands q').2 hstand))
  by_cases hcancelled : (s.mgr.sub q).cancelled = true
  · rcases resumeSender_cancelled hcancelled hstep with rfl | rfl
    · exact hfinish h hinv (.refl _)
    · refine h.effect_updateSub rfl (Or.inl rfl) (fun _ hattended => ?_) (Or.inl rfl)
      rw [hcancelled] at hattended
      cases hattended.2
  have hstands : s.mgr.Stands q := (h q hq hrunning).resolve_right fun hc => hcancelled hc.1
  obtain ⟨k, data, hf⟩ := hs.follow.follows q hq
  cases hcases with
  | wait hloops hqueue =>
    exact h.effect_updateSub rfl (Or.inr hstands) (fun _ ha => ⟨by rintro ⟨⟩, ha.2⟩) (Or.inl rfl)
  | send msg queue hloops hqueue =>
    refine h.effect_updateSub rfl (Or.inr hstands) (fun _ ha => ⟨by rintro ⟨⟩, ha.2⟩)
      (Or.inr ⟨hstands, ?_, ?_⟩)
    · by_contra hclosing
      have hhead := hf.lawful.closing (by simpa using hclosing) hloops
      rw [hqueue] at hhead
      cases hhead
    · by_contra hclosed
      rw [hf.lawful.closed (by simpa using hclosed)] at hloops
      cases hloops
  | close queue hloops hqueue =>
    exact h.effect_updateSub rfl (Or.inr hstands) (fun _ ha => ⟨by rintro ⟨⟩, ha.2⟩) (Or.inl rfl)
  | complete queue hloops hqueue =>
    have hread : Unmoved s.mgr (s.mgr.updateSub q ({ · with queue })) := by
      refine ⟨rfl, rfl, fun _ => rfl, fun q' => ?_⟩
      rw [Manager.updateSub_sub]
      split_ifs with heq
      · rw [heq]
        exact ⟨rfl, rfl, rfl, rfl⟩
      · exact ⟨rfl, rfl, rfl, rfl⟩
    exact hfinish (h.effect_mgr (a := .sender q r) hread).alone
      (hinv.updateSub fun sub => ⟨rfl, rfl, rfl⟩) hread
  | timeOut hsending =>
    exact h.effect_updateSub rfl (Or.inr hstands) (fun _ ha => ⟨by rintro ⟨⟩, ha.2⟩) (Or.inl rfl)
  | finish => exact hfinish h hinv (.refl _)
  | never hcreated hc => exact absurd hc hcancelled

end System

end WlanpiCore.Streaming
