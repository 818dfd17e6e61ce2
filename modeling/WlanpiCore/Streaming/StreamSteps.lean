import WlanpiCore.Streaming.Stream

/-!
# Steps of the service and the streams

Every step of the service keeps `Manager.Streams`, provided a drawn session id is not in use.
-/

namespace WlanpiCore.Streaming

namespace System

open Manager (Mute Streams)

/-! ## Steps of an endpoint -/

section

variable (s : System) (ws : Ws)

theorem mute_claim (start : CaptureStart) : Mute s.mgr (s.claim ws start).mgr := by
  unfold claim
  dsimp only
  split_ifs
  · exact .refl _
  cases hclaim : s.mgr.claimInterfaces ws start.interfaces with
  | error e => cases e <;> exact .refl _
  | ok m => exact Manager.mute_claimInterfaces hclaim

theorem mute_afterStop (next : AfterStop) : Mute s.mgr (s.afterStop ws next).mgr := by
  cases next with
  | command => exact .refl _
  | start start => exact s.mute_claim ws start
  | disconnect => exact s.mgr.mute_forget ws

theorem mute_notify (e : Event) (next : AfterStop) : Mute s.mgr (s.notify ws e next).mgr := by
  cases next with
  | command => exact .refl _
  | start start => exact s.mute_afterStop ws (.start start)
  | disconnect => exact .refl _

theorem mute_stopped (next : AfterStop) (p : Manager × StopOutcome) :
    Mute p.1 (s.stopped ws next p).mgr := by
  obtain ⟨m, outcome⟩ := p
  cases outcome with
  | unregistered => exact mute_afterStop { s with mgr := m } ws next
  | readOnly => exact mute_notify { s with mgr := m } ws _ next
  | waiting await => exact .refl _
  | stopped => exact mute_notify { s with mgr := m } ws _ next

theorem tuneNext_mgr (start : CaptureStart) (todo : List Iface) :
    (s.tuneNext ws start todo).mgr = s.mgr := by
  induction todo with
  | nil => unfold tuneNext filterNext; cases start.interfaces <;> rfl
  | cons iface todo ih =>
    unfold tuneNext
    split_ifs
    · rfl
    · exact ih

theorem filterNext_mgr (start : CaptureStart) (todo : List Iface) :
    (s.filterNext ws start todo).mgr = s.mgr := by
  cases todo <;> rfl

end

variable {s : System} {ws : Ws}

theorem streams_awaitHops {m : Manager} (h : m.Streams) (hgood : m.Good) (hws : ws ∈ m.clients)
    (hdone : ∀ k, (m.record ws).capture = some k → (m.capture k).task = .done) (hops : List HopId) :
    (m.awaitHops ws hops).1.Streams := by
  unfold Manager.awaitHops
  split_ifs
  · exact h.finishStop hgood hws hdone
  · exact h

theorem streams_stopHops {m : Manager} (h : m.Streams) (hgood : m.Good) (hws : ws ∈ m.clients)
    (hdone : ∀ k, (m.record ws).capture = some k → (m.capture k).task = .done) :
    (m.stopHops ws).1.Streams := by
  have hset : m.Mute (m.updateClient ws ({ · with channelTasks := [] })) :=
    m.mute_updateClient ws fun c => ⟨rfl, rfl, rfl, rfl⟩
  refine streams_awaitHops (h.mute hset) (hgood.updateClient ws _ fun c =>
    ⟨rfl, rfl, rfl, rfl, rfl⟩)
    hws ?_ _
  simpa using hdone

theorem streams_stopStreaming {m : Manager} (h : m.Streams) (hgood : m.Good) (ws : Ws) :
    (m.stopStreaming ws).1.Streams := by
  unfold Manager.stopStreaming
  by_cases hws : ws ∉ m.clients
  · rw [if_pos hws]
    exact h
  by_cases hsubscribed : m.subscribedTo ws ≠ none
  · rw [if_neg hws, if_pos hsubscribed]
    exact h
  rw [if_neg hws, if_neg hsubscribed]
  set m₁ := m.updateClient ws fun c => { c with
    sessionEnd := if c.sessionId ≠ none then some ("CAPTURE_STOPPED", "Capture stopped.")
      else c.sessionEnd } with hm₁
  have h₁ : m₁.Streams := h.mute (m.mute_updateClient ws fun c => ⟨rfl, rfl, rfl, rfl⟩)
  have hgood₁ : m₁.Good := hgood.updateClient ws _ fun c => ⟨rfl, rfl, rfl, rfl, rfl⟩
  dsimp only
  cases hcapture : (m₁.record ws).capture with
  | none =>
    have hws₁ : ws ∈ m₁.clients := not_not.1 hws
    refine streams_stopHops h₁ hgood₁ hws₁ fun k hk => ?_
    cases hcapture.symm.trans hk
  | some k =>
    exact h₁.mute (m₁.mute_updateCapture (f := ({ · with cancelled := true }))
      (fun c => ⟨rfl, rfl, rfl, rfl⟩) id)

theorem streams_attach (h : s.mgr.Streams) (hgood : s.mgr.Good) (ws : Ws) (sid : SessionId) :
    (s.attach ws sid).mgr.Streams := by
  unfold System.attach
  dsimp only
  cases howner : s.mgr.sessions sid with
  | none => exact h
  | some owner =>
    dsimp only
    rw [if_neg (not_not.2 ((hgood.sessions.sessions sid owner).1 howner).1)]
    split_ifs
    · exact h
    · exact h.attach hgood howner

theorem streams_afterDetach (h : s.mgr.Streams) (hgood : s.mgr.Good) (ws : Ws)
    (next : AfterDetach) :
    (s.afterDetach ws next).mgr.Streams := by
  cases next with
  | subscribe sid => exact streams_attach h hgood ws sid
  | unsubscribe sid => exact h
  | disconnect => exact (streams_stopStreaming h hgood ws).mute (s.mute_stopped ws .disconnect _)

theorem streams_detach (h : s.mgr.Streams) (hgood : s.mgr.Good) (ws : Ws) (next : AfterDetach) :
    (s.detach ws next).mgr.Streams := by
  have hcleared := h.mute (s.mgr.mute_clearSubscription ws none none)
  have hgood' := hgood.clearSubscription ws none none
  unfold System.detach
  rcases hclear : s.mgr.clearSubscription ws none none with ⟨m, q⟩
  rw [hclear] at hcleared hgood'
  cases q with
  | none => exact streams_afterDetach (s := { s with mgr := m }) hcleared hgood' ws next
  | some q => exact hcleared

theorem streams_startStreaming (h : s.mgr.Streams) (hgood : s.mgr.Good) (ws : Ws)
    (request : Option CaptureStart) : (s.startStreaming ws request).mgr.Streams := by
  unfold System.startStreaming
  by_cases hws : ws ∉ s.mgr.clients
  · rw [if_pos hws]
    exact h
  by_cases hsubscribed : s.mgr.subscribedTo ws ≠ none
  · rw [if_neg hws, if_pos hsubscribed]
    exact h
  rw [if_neg hws, if_neg hsubscribed]
  cases request with
  | none => exact h
  | some start =>
    dsimp only
    split_ifs
    · exact h
    · exact (streams_stopStreaming h hgood ws).mute (s.mute_stopped ws (.start start) _)
    · exact h.mute (s.mute_claim ws start)

theorem streams_subscribe (h : s.mgr.Streams) (hgood : s.mgr.Good) (ws : Ws)
    (request : Except Text SessionId) : (s.subscribe ws request).mgr.Streams := by
  unfold System.subscribe
  dsimp only
  by_cases hws : ws ∉ s.mgr.clients
  · rw [if_pos hws]
    exact h
  rw [if_neg hws]
  cases request with
  | error printed => exact h
  | ok sid =>
    dsimp only
    split_ifs
    · exact h
    · exact h
    · exact streams_detach h hgood ws _

theorem streams_run (h : s.mgr.Streams) (hgood : s.mgr.Good) (ws : Ws) (c : Command) :
    (s.run ws c).mgr.Streams := by
  cases c with
  | configure configs =>
    show (configs.foldl (fun m (c : Iface × CaptureInterfaceConfig) => m.configure ws c.1 c.2)
      s.mgr).Streams
    clear hgood
    generalize s.mgr = m at h
    induction configs generalizing m with
    | nil => exact h
    | cons c configs ih => exact ih _ (h.mute (m.mute_configure ws c.1 c.2))
  | start request => exact streams_startStreaming h hgood ws request
  | stop => exact (streams_stopStreaming h hgood ws).mute (s.mute_stopped ws .command _)
  | subscribe request => exact streams_subscribe h hgood ws request
  | unsubscribe => exact streams_detach h hgood ws _

theorem streams_resumeStart (h : s.Inv) (hs : s.mgr.Streams) {start : CaptureStart}
    {phase : StartPhase} {r : Reply} {t : System} (hhandler : s.handler ws = .starting start phase)
    (hfresh : s.freshSession (.resume ws r) = true)
    (hstep : s.resumeStart ws start phase r = some t) :
    t.mgr.Streams := by
  have hsound := h.sound ws
  rw [hhandler] at hsound
  obtain ⟨hws, hcapture, hsession, -⟩ := hsound
  cases phase with
  | resolving =>
    cases r with
    | resolved netns =>
      cases netns with
      | error reason =>
        cases hstep
        exact hs.mute (s.mgr.mute_releaseInterfaces ws)
      | ok netns =>
        cases hstep
        rw [tuneNext_mgr]
        have hfollow : (s.mgr.updateClient ws
            ({ · with netns, framer := {}, sessionEnd := none })).Follow :=
          hs.follow.updateClient ⟨rfl, rfl, rfl⟩
        refine ⟨hfollow, hs.framing.ended ws (fun ws' hne => ?_) ?_
          (fun k => ⟨rfl, rfl⟩) rfl fun k hk hgoes => ⟨hgoes, fun heq => ?_⟩⟩
        · simp [hne]
        · simp [hsession]
        · have hsome := hs.framing.running k hk hgoes
          rw [heq] at hsome
          exact hsome hsession
    | raises =>
      cases hstep
      exact hs
    | _ => cases hstep
  | tuning iface todo =>
    cases r with
    | tuned error =>
      cases error with
      | none =>
        cases hstep
        rw [tuneNext_mgr]
        exact hs
      | some error =>
        cases hstep
        exact hs
    | raises =>
      cases hstep
      exact hs
    | _ => cases hstep
  | reporting e todo =>
    cases r with
    | ok =>
      cases hstep
      rw [tuneNext_mgr]
      exact hs
    | _ => cases hstep
  | filtering todo =>
    cases r with
    | ok =>
      cases hstep
      rw [filterNext_mgr]
      exact hs
    | raises =>
      cases hstep
      exact hs
    | _ => cases hstep
  | spawning =>
    cases r with
    | spawned token =>
      cases hstep
      simp only [freshSession, hhandler, Bool.and_eq_true, Option.isNone_iff_eq_none,
        List.all_eq_true, decide_eq_true_eq] at hfresh
      exact hs.startCapture h.good start hcapture hsession hfresh.2
    | osError =>
      cases hstep
      exact hs.mute (s.mgr.mute_releaseInterfaces ws)
    | raises =>
      cases hstep
      exact hs
    | _ => cases hstep

/-! ## The stream task -/

theorem streams_streamHops {m : Manager} (h : m.Streams) (hgood : m.Good) {k : CaptureId}
    (hk : k < m.nextCapture) (hrunning : (m.capture k).task ≠ .done) (hops : List HopId) :
    (m.streamHops k hops).Streams := by
  obtain ⟨hws, hcurrent⟩ := hgood.linked.streams k hk hrunning
  unfold Manager.streamHops
  split_ifs
  · exact h.finishStream hgood hws hcurrent
  · exact h.mute (m.mute_updateCapture (fun c => ⟨rfl, rfl, rfl, rfl⟩)
      fun hdone => absurd hdone hrunning)

theorem streams_stream {m m' : Manager} (h : m.Streams) (hgood : m.Good) {k : CaptureId}
    (hk : k < m.nextCapture) (hstep : Manager.StreamStep m k m') : m'.Streams := by
  cases hstep with
  | enter task hrunning =>
    exact h.mute (m.mute_updateCapture (fun c => ⟨rfl, rfl, rfl, rfl⟩)
      fun hdone => absurd hdone hrunning)
  | broadcast chunk htask =>
    have hrunning : (m.capture k).task ≠ .done := by simp [htask]
    refine (h.broadcastChunk hgood hk hrunning chunk).mute
      (Manager.mute_updateCapture _ (fun c => ⟨rfl, rfl, rfl, rfl⟩) fun hdone => ?_)
    rw [Manager.broadcastChunk_capture] at hdone
    exact absurd hdone hrunning
  | die hcancelled hrunning =>
    exact h.mute (m.mute_updateCapture (fun c => ⟨rfl, rfl, rfl, rfl⟩) fun _ => rfl)
  | reaped htask halive =>
    have hset : m.Mute (m.updateClient (m.capture k).socket ({ · with channelTasks := [] })) :=
      m.mute_updateClient _ fun c => ⟨rfl, rfl, rfl, rfl⟩
    refine streams_streamHops (h.mute hset) (hgood.updateClient _ _ fun c =>
      ⟨rfl, rfl, rfl, rfl, rfl⟩)
      hk ?_ _
    simp [htask]
  | hop hop hops htask =>
    have hset : m.Mute (m.updateCapture k ({ · with cancelled := false })) :=
      m.mute_updateCapture (fun c => ⟨rfl, rfl, rfl, rfl⟩) id
    refine streams_streamHops (h.mute hset) (hgood.updateCapture ⟨rfl, id⟩) hk ?_ _
    simp [htask]

/-! ## Every step -/

theorem Inv.streams (h : s.Inv) (hs : s.mgr.Streams) {a : Act} {t : System}
    (hfresh : s.freshSession a = true) (hstep : s.step a = some t) : t.mgr.Streams := by
  cases step_cases hstep with
  | connect ws hhandler => exact hs
  | authenticate ws did hhandler =>
    show (s.mgr.authenticate ws did).Streams
    unfold Manager.authenticate
    split_ifs
    · exact hs.mute (s.mgr.mute_updateClient ws fun c => ⟨rfl, rfl, rfl, rfl⟩)
    · exact hs
  | command ws c hhandler => exact streams_run hs h.good ws c
  | disconnect ws hhandler => exact streams_detach hs h.good ws .disconnect
  | accepted ws hhandler =>
    have hsound := h.sound ws
    rw [hhandler] at hsound
    exact hs.connect h.good hsound
  | refused ws hhandler => exact hs
  | replied ws e hhandler => exact hs
  | stopping ws next await p hhandler hresume =>
    have hsound := h.sound ws
    rw [hhandler] at hsound
    obtain ⟨hws, -, hawait⟩ := hsound
    refine Streams.mute ?_ (s.mute_stopped ws next p)
    rcases Manager.resumeStop_cases hresume with ⟨k, rfl, hdone, rfl⟩ | ⟨k, rfl, -, rfl⟩ |
      ⟨hop, hops, rfl, -, rfl⟩
    · exact hs
    · exact streams_stopHops hs h.good hws hawait
    · exact streams_awaitHops hs h.good hws hawait hops
  | starting ws start phase r t hhandler ht => exact streams_resumeStart h hs hhandler hfresh ht
  | detached ws next q hhandler hdone => exact streams_afterDetach hs h.good ws next
  | left ws e hhandler => exact hs.mute (s.mute_afterStop ws .disconnect)
  | stream k r m hk hm => exact streams_stream hs h.good hk (Manager.resumeStream_cases hm)
  | sender q r m hq hm => exact hs.mute (Manager.mute_sender (Manager.resumeSender_cases hm))
  | hopEnds hop =>
    exact hs.mute (Manager.mute_records ⟨rfl, rfl, rfl, rfl, rfl⟩ (fun _ => id)
      fun _ => ⟨rfl, rfl, rfl, fun _ => id⟩)
  | exits k hk =>
    exact hs.mute (s.mgr.mute_updateCapture (f := ({ · with alive := false }))
      (fun c => ⟨rfl, rfl, rfl, rfl⟩) id)

theorem streams_initial : initial.mgr.Streams := by
  refine ⟨⟨fun ws sid hsid => ?_, fun q hq => absurd hq (Nat.not_lt_zero q)⟩,
    ⟨fun ws _ => rfl, fun ws k hsome => absurd rfl hsome, fun k hk =>
      absurd hk (Nat.not_lt_zero k)⟩⟩
  cases hsid

end System

end WlanpiCore.Streaming
