import WlanpiCore.Streaming.Methods
import WlanpiCore.Lib.Transition

/-!
# Shutdown

`shutdown_all` beside the coroutines of the sockets and the tasks. It stops the captures of the
clients that are registered when it begins, one after the other, cancels the subscriptions, and
clears what the manager records.

**`Whole.nothing_left`**: when it is over, no dumpcap is alive and nothing is recorded, and this
stays so, in every run in which dumpcap is started for no client that `shutdown_all` has begun to
stop, or has passed, or does not know. A start that is suspended does not see that its client was
stopped meanwhile: `Whole.something_left`.

`Calm` is what every method does that neither starts a capture nor registers a socket nor begins a
subscription; the methods that do are looked at by themselves.
-/

namespace WlanpiCore.Streaming

namespace Manager

/-! ## What holds of every capture -/

/-- A dumpcap that is alive is its client's, which is registered, has a session and is not
subscribed. -/
structure Held (m : Manager) : Prop where
  capture : ∀ ws k, (m.record ws).capture = some k →
    k < m.nextCapture ∧ (m.capture k).socket = ws
  alive : ∀ k < m.nextCapture, (m.capture k).alive = true →
    (m.capture k).socket ∈ m.clients ∧ (m.record (m.capture k).socket).capture = some k ∧
      (m.record (m.capture k).socket).sessionId ≠ none ∧
      (m.record (m.capture k).socket).subscription = none
  streams : ∀ k < m.nextCapture, (m.capture k).task ≠ .done →
    (m.record (m.capture k).socket).capture = some k
  reaped : ∀ k hops, (m.capture k).task = .stoppingHops hops → (m.capture k).alive = false

/-- A capture is over. -/
def Over (m : Manager) (k : CaptureId) : Prop :=
  (m.capture k).alive = false ∧ (m.capture k).task = .done

/-- What the coroutines of `ws` wait for has not changed. -/
structure Quiet (m m' : Manager) (ws : Ws) : Prop where
  client : ws ∈ m'.clients ↔ ws ∈ m.clients
  capture : ∀ k, (m'.record ws).capture = some k → (m.record ws).capture = some k ∧
    ((m.capture k).alive = false → (m'.capture k).alive = false) ∧
    ((m.capture k).task = .done → (m'.capture k).task = .done)
  session : (m.record ws).sessionId = none → (m'.record ws).sessionId = none
  subscription : (m.record ws).subscription = none → (m'.record ws).subscription = none

/-- Nothing was started, registered or subscribed, and what is alive has kept what it has. -/
structure Calm (m m' : Manager) : Prop where
  clients : m'.clients = m.clients
  next : m'.nextCapture = m.nextCapture
  owners : m.clients = [] → ∀ i, m.interfaceOwners i = none → m'.interfaceOwners i = none
  sessions : ∀ sid, m.sessions sid = none → m'.sessions sid = none
  captures : ∀ k, (m'.capture k).socket = (m.capture k).socket ∧
    ((m'.capture k).alive = true → (m.capture k).alive = true) ∧
    ((m.capture k).task = .done → (m'.capture k).task = .done) ∧
    ∀ hops, (m'.capture k).task = .stoppingHops hops →
      (∃ hops, (m.capture k).task = .stoppingHops hops) ∨ (m'.capture k).alive = false
  record : ∀ ws k, (m'.record ws).capture = some k → (m.record ws).capture = some k
  kept : ∀ ws k, (m.record ws).capture = some k → (m'.record ws).capture = some k ∨ m'.Over k
  session : ∀ ws, (m.record ws).sessionId = none → (m'.record ws).sessionId = none
  keptSession : ∀ ws k, (m.record ws).capture = some k → (m'.capture k).alive = true →
    (m.record ws).sessionId ≠ none → (m'.record ws).sessionId ≠ none
  subscription : ∀ ws, (m.record ws).subscription = none → (m'.record ws).subscription = none

namespace Calm

variable {m m' m'' : Manager}

theorem refl (m : Manager) : Calm m m where
  clients := rfl
  next := rfl
  owners _ _ := id
  sessions _ := id
  captures _ := ⟨rfl, id, id, fun hops h => Or.inl ⟨hops, h⟩⟩
  record _ _ := id
  kept _ _ := Or.inl
  session _ := id
  keptSession _ _ _ _ := id
  subscription _ := id

/-- What is over stays so. -/
theorem staysOver (h : Calm m m') {k : CaptureId} (hover : m.Over k) : m'.Over k := by
  obtain ⟨-, halive, hdone, -⟩ := h.captures k
  refine ⟨?_, hdone hover.2⟩
  by_contra hnot
  have hdead := halive (by simpa using hnot)
  rw [hover.1] at hdead
  cases hdead

theorem trans (h : Calm m m') (h' : Calm m' m'') : Calm m m'' where
  clients := h'.clients.trans h.clients
  next := h'.next.trans h.next
  owners hnil i hi := h'.owners (h.clients.trans hnil) i (h.owners hnil i hi)
  sessions sid hsid := h'.sessions sid (h.sessions sid hsid)
  captures k := by
    obtain ⟨hsocket, halive, hdone, hhops⟩ := h.captures k
    obtain ⟨hsocket', halive', hdone', hhops'⟩ := h'.captures k
    refine ⟨hsocket'.trans hsocket, fun hk => halive (halive' hk), fun hk => hdone' (hdone hk), ?_⟩
    intro hops hk
    rcases hhops' hops hk with ⟨hops', hk'⟩ | hdead
    · rcases hhops hops' hk' with hwas | hdead
      · exact Or.inl hwas
      · refine Or.inr ?_
        by_contra hnot
        have hlive := halive' (by simpa using hnot)
        rw [hdead] at hlive
        cases hlive
    · exact Or.inr hdead
  record ws k hk := h.record ws k (h'.record ws k hk)
  kept ws k hk := by
    rcases h.kept ws k hk with hkept | hover
    · exact h'.kept ws k hkept
    · exact Or.inr (h'.staysOver hover)
  session ws hnone := h'.session ws (h.session ws hnone)
  keptSession ws k hk halive hsome := by
    have halive₁ := (h'.captures k).2.1 halive
    have hsome₁ := h.keptSession ws k hk halive₁ hsome
    rcases h.kept ws k hk with hkept | hover
    · exact h'.keptSession ws k hkept halive hsome₁
    · rw [hover.1] at halive₁
      cases halive₁
  subscription ws hnone := h'.subscription ws (h.subscription ws hnone)

theorem quiet (h : Calm m m') (ws : Ws) : Quiet m m' ws where
  client := by rw [h.clients]
  capture k hk := by
    obtain ⟨-, halive, hdone, -⟩ := h.captures k
    refine ⟨h.record ws k hk, fun hdead => ?_, hdone⟩
    by_contra hnot
    have hlive := halive (by simpa using hnot)
    rw [hdead] at hlive
    cases hlive
  session := h.session ws
  subscription := h.subscription ws

end Calm

theorem Held.ofCalm {m m' : Manager} (hm : Held m) (h : Calm m m') : Held m' where
  capture ws k hk := by
    rw [h.next, (h.captures k).1]
    exact hm.capture ws k (h.record ws k hk)
  alive k hk halive := by
    obtain ⟨hsocket, hwas, -, -⟩ := h.captures k
    obtain ⟨hclient, hcapture, hsession, hfree⟩ := hm.alive k (h.next ▸ hk) (hwas halive)
    rw [hsocket]
    refine ⟨h.clients ▸ hclient, ?_, h.keptSession _ k hcapture halive hsession,
      h.subscription _ hfree⟩
    rcases h.kept _ k hcapture with hkept | hover
    · exact hkept
    · rw [hover.1] at halive
      cases halive
  streams k hk hrunning := by
    obtain ⟨hsocket, -, hdone, -⟩ := h.captures k
    rw [hsocket]
    rcases h.kept _ k (hm.streams k (h.next ▸ hk) fun hend => hrunning (hdone hend)) with
      hkept | hover
    · exact hkept
    · exact absurd hover.2 hrunning
  reaped k hops hk := by
    obtain ⟨-, halive, -, hhops⟩ := h.captures k
    rcases hhops hops hk with ⟨hops', hk'⟩ | hdead
    · by_contra hnot
      have hlive := halive (by simpa using hnot)
      rw [hm.reaped k hops' hk'] at hlive
      cases hlive
    · exact hdead

/-! ## The methods that are calm -/

variable (m : Manager)

theorem calm_updateClient (ws : Ws) (f : Client → Client)
    (hf : ∀ c, (f c).capture = c.capture ∧ (f c).sessionId = c.sessionId ∧
      ((f c).subscription = c.subscription ∨ (f c).subscription = none)) :
    Calm m (m.updateClient ws f) := by
  have hrecord (ws' : Ws) : ((m.updateClient ws f).record ws').capture = (m.record ws').capture ∧
      ((m.updateClient ws f).record ws').sessionId = (m.record ws').sessionId ∧
      (((m.updateClient ws f).record ws').subscription = (m.record ws').subscription ∨
        ((m.updateClient ws f).record ws').subscription = none) := by
    rw [updateClient_record]
    split_ifs with heq
    · rw [heq]
      exact hf _
    · exact ⟨rfl, rfl, Or.inl rfl⟩
  constructor
  case captures => exact (Calm.refl m).captures
  case record => intro ws' k hk; rwa [(hrecord ws').1] at hk
  case kept => intro ws' k hk; exact Or.inl ((hrecord ws').1.trans hk)
  case session => intro ws' hnone; exact (hrecord ws').2.1.trans hnone
  case keptSession => intro ws' k _ _ hsome; rwa [(hrecord ws').2.1]
  case subscription =>
    intro ws' hnone
    rcases (hrecord ws').2.2 with hsame | hgone
    · exact hsame.trans hnone
    · exact hgone
  all_goals simp

theorem calm_updateCapture (k : CaptureId) (f : Capture → Capture)
    (hf : (f (m.capture k)).socket = (m.capture k).socket ∧
      ((f (m.capture k)).alive = true → (m.capture k).alive = true) ∧
      ((m.capture k).task = .done → (f (m.capture k)).task = .done) ∧
      ∀ hops, (f (m.capture k)).task = .stoppingHops hops →
        (∃ hops, (m.capture k).task = .stoppingHops hops) ∨ (f (m.capture k)).alive = false) :
    Calm m (m.updateCapture k f) := by
  constructor
  case captures =>
    intro k'
    rw [updateCapture_capture]
    split_ifs with heq
    · rw [heq]
      exact hf
    · exact (Calm.refl m).captures k'
  case kept => intro ws k' hk; exact Or.inl hk
  all_goals simp

theorem calm_updateSub (q : SubId) (f : Subscription → Subscription) :
    Calm m (m.updateSub q f) := ⟨rfl, rfl, fun _ _ => id, fun _ => id, (Calm.refl m).captures,
      fun _ _ => id, fun _ _ => Or.inl, fun _ => id, fun _ _ _ _ => id, fun _ => id⟩

theorem calm_releaseInterfaces (ws : Ws) : Calm m (m.releaseInterfaces ws) := by
  constructor
  case owners =>
    intro hnil i hi
    rw [releaseInterfaces_owners, if_neg (by simp [hnil])]
    exact hi
  case captures => simpa using (Calm.refl m).captures
  case next => rw [releaseInterfaces_rest]
  case kept => intro ws' k hk; exact Or.inl (by simpa using hk)
  all_goals simp

theorem calm_claimInterfaces {m' : Manager} {ws : Ws} {interfaces : List Iface}
    (h : m.claimInterfaces ws interfaces = .ok m') : Calm m m' := by
  obtain ⟨hws, -, rfl⟩ := claimInterfaces_ok h
  have hcalm := calm_updateClient m ws ({ · with interfaces }) fun c => ⟨rfl, rfl, Or.inl rfl⟩
  constructor
  case owners => intro hnil; rw [hnil] at hws; cases hws
  case clients => rfl
  case next => rfl
  case sessions => exact fun _ => id
  case captures => exact hcalm.captures
  case record => exact hcalm.record
  case kept => exact hcalm.kept
  case session => exact hcalm.session
  case keptSession => exact hcalm.keptSession
  case subscription => exact hcalm.subscription

/-- A session ends when its dumpcap is dead. -/
theorem calm_endSession (ws : Ws) (code message : String)
    (hdead : ∀ k, (m.record ws).capture = some k → (m.capture k).alive = false) :
    Calm m (m.endSession ws code message) := by
  have hcapture (k : CaptureId) : ∃ ended,
      (m.endSession ws code message).capture k = { m.capture k with ended } :=
    m.endSession_capture ws code message k
  have hrecord (ws' : Ws) :
      ((m.endSession ws code message).record ws').capture = (m.record ws').capture ∧
      ((m.endSession ws code message).record ws').subscription = (m.record ws').subscription := by
    rw [endSession_record]
    split_ifs with heq
    · rw [heq]
      exact ⟨rfl, rfl⟩
    · exact ⟨rfl, rfl⟩
  constructor
  case clients => simp
  case next => rw [endSession_rest]
  case owners => intro _ i hi; simpa using hi
  case sessions =>
    intro sid hsid
    rw [endSession_sessions]
    cases (m.record ws).sessionId with
    | none => exact hsid
    | some sid' => by_cases heq : sid = sid' <;> simp [heq, hsid]
  case captures =>
    intro k
    obtain ⟨ended, hk⟩ := hcapture k
    rw [hk]
    exact (Calm.refl m).captures k
  case record => intro ws' k hk; rwa [(hrecord ws').1] at hk
  case kept => intro ws' k hk; exact Or.inl ((hrecord ws').1.trans hk)
  case session =>
    intro ws' hnone
    rw [endSession_record]
    split_ifs
    · rfl
    · exact hnone
  case keptSession =>
    intro ws' k hk halive hsome
    rw [endSession_record]
    split_ifs with heq
    · obtain ⟨ended, hk'⟩ := hcapture k
      rw [hk'] at halive
      have hgone : (m.capture k).alive = false := hdead k (heq ▸ hk)
      rw [hgone] at halive
      cases halive
    · exact hsome
  case subscription => intro ws' hnone; exact (hrecord ws').2.trans hnone

/-- A capture that is over is forgotten. -/
theorem calm_forgetCapture (ws : Ws) (f : Client → Client)
    (hf : ∀ c, ((f c).capture = c.capture ∨ (f c).capture = none) ∧ (f c).sessionId = c.sessionId ∧
      (f c).subscription = c.subscription)
    (hover : ∀ k, (m.record ws).capture = some k → m.Over k) :
    Calm m (m.updateClient ws f) := by
  have hrest (ws' : Ws) : ((m.updateClient ws f).record ws').sessionId = (m.record ws').sessionId ∧
      ((m.updateClient ws f).record ws').subscription = (m.record ws').subscription := by
    rw [updateClient_record]
    split_ifs with heq
    · rw [heq]
      exact (hf _).2
    · exact ⟨rfl, rfl⟩
  constructor
  case captures => exact (Calm.refl m).captures
  case record =>
    intro ws' k hk
    rw [updateClient_record] at hk
    split_ifs at hk with heq
    · rcases (hf (m.record ws)).1 with hsame | hnone
      · rw [heq, ← hsame]
        exact hk
      · rw [hnone] at hk
        cases hk
    · exact hk
  case kept =>
    intro ws' k hk
    by_cases heq : ws' = ws
    · exact Or.inr (hover k (heq ▸ hk))
    · exact Or.inl (by simpa [heq] using hk)
  case session => intro ws' hnone; exact (hrest ws').1.trans hnone
  case keptSession => intro ws' k _ _ hsome; rwa [(hrest ws').1]
  case subscription => intro ws' hnone; exact (hrest ws').2.trans hnone
  all_goals simp

theorem calm_finishStop {ws : Ws} (hover : ∀ k, (m.record ws).capture = some k → m.Over k) :
    Calm m (m.finishStop ws) := by
  have hreleased := calm_releaseInterfaces m ws
  have hended := calm_endSession (m.releaseInterfaces ws) ws "CAPTURE_STOPPED"
    "Capture stopped." fun k hk => by
      rw [releaseInterfaces_capture]
      exact (hover k (hreleased.record ws k hk)).1
  refine (hreleased.trans hended).trans
    (calm_forgetCapture _ ws _ (fun c => ⟨Or.inr rfl, rfl, rfl⟩) ?_)
  intro k hk
  exact (hreleased.trans hended).staysOver (hover k ((hreleased.trans hended).record ws k hk))

/-- After a stop a client has no capture. -/
theorem finishStop_record (ws : Ws) : ((m.finishStop ws).record ws).capture = none := by
  simp [finishStop]

theorem calm_dropSubscription (ws : Ws) (q : SubId) : Calm m (m.dropSubscription ws q) := by
  constructor
  case captures => rw [dropSubscription_rest]; exact (Calm.refl m).captures
  case clients => rw [dropSubscription_rest]
  case next => rw [dropSubscription_rest]
  case owners => rw [dropSubscription_rest]; exact fun _ _ => id
  case sessions => rw [dropSubscription_rest]; exact fun _ => id
  case record => intro ws' k hk; simpa using hk
  case kept => intro ws' k hk; exact Or.inl (by simpa using hk)
  case session => intro ws' hnone; simpa using hnone
  case keptSession => intro ws' k _ _ hsome; simpa using hsome
  case subscription =>
    intro ws' hnone
    rw [dropSubscription_record]
    dsimp only
    split_ifs
    · rfl
    · exact hnone

theorem calm_clearSubscription (ws : Ws) (expected : Option SessionId) (current : Option SubId) :
    Calm m (m.clearSubscription ws expected current).1 := by
  rcases m.clearSubscription_cases ws expected current with ⟨heq, -⟩ | ⟨q, -, -, heq⟩
  · rw [heq]
    exact Calm.refl m
  · rw [heq]
    dsimp only
    split_ifs
    · exact calm_dropSubscription m ws q
    · exact (calm_dropSubscription m ws q).trans (calm_updateSub _ q _)

theorem FannedOut.toCalm {m m' : Manager} {ws : Ws} (h : FannedOut ws m m') : Calm m m' := by
  constructor
  case clients => rw [h.rest]
  case next => rw [h.rest]
  case owners => rw [h.rest]; exact fun _ _ => id
  case sessions => rw [h.rest]; exact fun _ => id
  case captures => rw [h.rest]; exact (Calm.refl m).captures
  case record => intro ws' k hk; rw [h.record] at hk; exact hk
  case kept => intro ws' k hk; rw [h.record]; exact Or.inl hk
  case session => intro ws' hnone; rw [h.record]; exact hnone
  case keptSession => intro ws' k _ _ hsome; rw [h.record]; exact hsome
  case subscription => intro ws' hnone; rw [h.record]; exact hnone

theorem calm_broadcastChunk (k : CaptureId) (chunk : List UInt8) :
    Calm m (m.broadcastChunk k chunk) := by
  have hblocks (ws : Ws) (blocks : List Block) (m : Manager) :
      Calm m (blocks.foldl (broadcastBlock ws k) m) := by
    induction blocks generalizing m with
    | nil => exact Calm.refl m
    | cons block blocks ih =>
      have hblock := (fannedOut_queueSubscriberBlock ws m block).toCalm.trans
        (calm_updateCapture _ k (fun c => { c with framed := c.framed ++ [block] })
          ⟨rfl, id, id, fun hops hk => Or.inl ⟨hops, hk⟩⟩)
      exact hblock.trans (ih _)
  refine (calm_updateClient m (m.capture k).socket _ ?_).trans (hblocks _ _ _)
  exact fun c => ⟨rfl, rfl, Or.inl rfl⟩

theorem calm_finishSender (q : SubId) : Calm m (m.finishSender q) :=
  (calm_clearSubscription m _ _ _).trans (calm_updateSub _ q _)

theorem calm_sender {m' : Manager} {q : SubId} {r : Reply} (h : m.resumeSender q r = some m') :
    Calm m m' := by
  cases resumeSender_cases h with
  | complete queue => exact (calm_updateSub m q _).trans (calm_finishSender _ q)
  | finish => exact calm_finishSender m q
  | wait => exact calm_updateSub m q _
  | send => exact calm_updateSub m q _
  | close => exact calm_updateSub m q _
  | timeOut => exact calm_updateSub m q _
  | never => exact calm_updateSub m q _

/-- The end of `stream()`, once its dumpcap is reaped. -/
theorem calm_finishStream {k : CaptureId} (hmine : (m.record (m.capture k).socket).capture = some k)
    (hdead : (m.capture k).alive = false) : Calm m (m.finishStream k) := by
  unfold finishStream
  dsimp only
  have hreleased := calm_releaseInterfaces m (m.capture k).socket
  generalize ((m.releaseInterfaces (m.capture k).socket).record
    (m.capture k).socket).sessionEnd.getD ("CAPTURE_ENDED", "Capture ended.") = code
  have honly {m' : Manager} (h : Calm m m') (k' : CaptureId)
      (hk' : (m'.record (m.capture k).socket).capture = some k') : k' = k := by
    have hsame := h.record _ k' hk'
    rw [hmine] at hsame
    exact (Option.some.inj hsame).symm
  have hended := calm_endSession (m.releaseInterfaces (m.capture k).socket)
    (m.capture k).socket code.1 code.2 fun k' hk' => by
      rw [honly hreleased k' hk', releaseInterfaces_capture]
      exact hdead
  have hcalm := hreleased.trans hended
  have hdone := calm_updateCapture ((m.releaseInterfaces (m.capture k).socket).endSession
    (m.capture k).socket code.1 code.2) k ({ · with task := .done })
    ⟨rfl, id, fun _ => rfl, fun hops hk => by cases hk⟩
  -- The task is marked done before the record forgets it: the two do not depend on each other.
  refine (hcalm.trans hdone).trans (calm_forgetCapture _ (m.capture k).socket (fun c =>
    { c with capture := if c.capture = some k then none else c.capture }) (fun c => ?_) ?_)
  · refine ⟨?_, rfl, rfl⟩
    dsimp only
    split_ifs
    · exact Or.inr rfl
    · exact Or.inl rfl
  · intro k' hk'
    rw [honly (hcalm.trans hdone) k' hk']
    refine ⟨?_, ?_⟩
    · obtain ⟨ended, hsame⟩ := (m.releaseInterfaces (m.capture k).socket).endSession_capture
        (m.capture k).socket code.1 code.2 k
      rw [updateCapture_capture, if_pos rfl, hsame, releaseInterfaces_capture]
      exact hdead
    · rw [updateCapture_capture, if_pos rfl]

theorem calm_streamHops {k : CaptureId} (hops : List HopId)
    (hmine : (m.record (m.capture k).socket).capture = some k)
    (hdead : (m.capture k).alive = false) (hrunning : (m.capture k).task ≠ .done) :
    Calm m (m.streamHops k hops) := by
  unfold streamHops
  split_ifs
  · exact calm_finishStream m hmine hdead
  · exact calm_updateCapture m k _
      ⟨rfl, id, fun hdone => absurd hdone hrunning, fun _ _ => Or.inr hdead⟩

theorem Held.stream {m m' : Manager} {k : CaptureId} {r : Reply} (h : Held m)
    (hk : k < m.nextCapture) (hstep : m.resumeStream k r = some m') : Calm m m' := by
  cases resumeStream_cases hstep with
  | enter task hrunning htask hhops =>
    exact calm_updateCapture m k _
      ⟨rfl, id, fun hdone => absurd hdone hrunning, fun hops heq => absurd heq (hhops hops)⟩
  | broadcast chunk htask =>
    refine (calm_broadcastChunk m k chunk).trans (calm_updateCapture _ k _
      ⟨rfl, id, fun hdone => ?_, fun hops heq => by cases heq⟩)
    rw [broadcastChunk_capture, htask] at hdone
    cases hdone
  | die hcancelled hrunning =>
    exact calm_updateCapture m k _ ⟨rfl, id, fun _ => rfl, fun hops heq => by cases heq⟩
  | reaped htask hdead =>
    have hrunning : (m.capture k).task ≠ .done := by
      rw [htask]
      intro hdone
      cases hdone
    have hcleared := calm_updateClient m (m.capture k).socket ({ · with channelTasks := [] })
      fun c => ⟨rfl, rfl, Or.inl rfl⟩
    refine hcleared.trans (calm_streamHops _ _ ?_ hdead hrunning)
    simpa using h.streams k hk hrunning
  | hop hop hops htask =>
    have hrunning : (m.capture k).task ≠ .done := by
      rw [htask]
      intro hdone
      cases hdone
    have hset := calm_updateCapture m k ({ · with cancelled := false })
      ⟨rfl, id, id, fun hops heq => Or.inl ⟨hops, heq⟩⟩
    refine hset.trans (calm_streamHops _ hops ?_ ?_ ?_)
    · rw [updateCapture_capture, if_pos rfl]
      exact h.streams k hk hrunning
    · rw [updateCapture_capture, if_pos rfl]
      exact h.reaped k _ htask
    · rw [updateCapture_capture, if_pos rfl]
      exact hrunning

end Manager

/-! ## Stopping -/

/-- What a stop that waits relies on. -/
def StopAwait.Waits (m : Manager) (ws : Ws) : StopAwait → Prop
  | .task k => ∀ k', (m.record ws).capture = some k' → k' = k
  | .process k => ∀ k', (m.record ws).capture = some k' → k' = k ∧ (m.capture k).task = .done
  | .hops _ => ∀ k', (m.record ws).capture = some k' → m.Over k'

/-- What a stop leaves. -/
def StopOutcome.Leaves (m : Manager) (ws : Ws) : StopOutcome → Prop
  | .unregistered => ws ∉ m.clients
  | .readOnly => ws ∈ m.clients ∧ (m.record ws).subscription ≠ none
  | .waiting await => await.Waits m ws
  | .stopped => (m.record ws).capture = none

theorem StopAwait.Waits.keep {m m' : Manager} {ws : Ws} {await : StopAwait} (h : await.Waits m ws)
    (hm : ∀ k, (m'.record ws).capture = some k → (m.record ws).capture = some k ∧
      ((m.capture k).alive = false → (m'.capture k).alive = false) ∧
      ((m.capture k).task = .done → (m'.capture k).task = .done)) : await.Waits m' ws := by
  cases await with
  | task k => exact fun k' hk' => h k' (hm k' hk').1
  | process k =>
    intro k' hk'
    obtain ⟨hwas, -, hdone⟩ := hm k' hk'
    obtain ⟨rfl, hend⟩ := h k' hwas
    exact ⟨rfl, hdone hend⟩
  | hops hops =>
    intro k' hk'
    obtain ⟨hwas, hdead, hdone⟩ := hm k' hk'
    exact ⟨hdead (h k' hwas).1, hdone (h k' hwas).2⟩

namespace Manager

variable {m : Manager} {ws : Ws}

theorem awaitHops_leaves (hops : List HopId)
    (hover : ∀ k, (m.record ws).capture = some k → m.Over k) :
    Calm m (m.awaitHops ws hops).1 ∧
      (m.awaitHops ws hops).2.Leaves (m.awaitHops ws hops).1 ws := by
  unfold awaitHops
  split_ifs
  · exact ⟨calm_finishStop m hover, finishStop_record m ws⟩
  · exact ⟨Calm.refl m, hover⟩

theorem stopHops_leaves (hover : ∀ k, (m.record ws).capture = some k → m.Over k) :
    Calm m (m.stopHops ws).1 ∧ (m.stopHops ws).2.Leaves (m.stopHops ws).1 ws := by
  have hcleared := calm_updateClient m ws ({ · with channelTasks := [] })
    fun c => ⟨rfl, rfl, Or.inl rfl⟩
  obtain ⟨hcalm, hleaves⟩ :=
    awaitHops_leaves (m := m.updateClient ws ({ · with channelTasks := [] }))
    (m.record ws).channelTasks fun k hk => hover k (hcleared.record ws k hk)
  exact ⟨hcleared.trans hcalm, hleaves⟩

theorem stopStreaming_leaves (m : Manager) (ws : Ws) :
    Calm m (m.stopStreaming ws).1 ∧ (m.stopStreaming ws).2.Leaves (m.stopStreaming ws).1 ws := by
  unfold stopStreaming
  split_ifs with hws hsubscribed
  · refine ⟨Calm.refl m, hws, fun hnone => hsubscribed ?_⟩
    have hnone : (m.record ws).subscription = none := hnone
    simp [subscribedTo, hnone]
  · have hset := calm_updateClient m ws (fun c => { c with
        sessionEnd := if c.sessionId ≠ none then some ("CAPTURE_STOPPED", "Capture stopped.")
          else c.sessionEnd }) fun c => ⟨rfl, rfl, Or.inl rfl⟩
    generalize m.updateClient ws (fun c => { c with
        sessionEnd := if c.sessionId ≠ none then some ("CAPTURE_STOPPED", "Capture stopped.")
          else c.sessionEnd }) = m₁ at hset
    cases hcapture : (m₁.record ws).capture with
    | none =>
      dsimp only
      rw [hcapture]
      obtain ⟨hcalm, hleaves⟩ := stopHops_leaves (m := m₁) fun k hk => by
        rw [hcapture] at hk
        cases hk
      exact ⟨hset.trans hcalm, hleaves⟩
    | some k =>
      dsimp only
      rw [hcapture]
      dsimp only
      refine ⟨hset.trans (calm_updateCapture m₁ k _
        ⟨rfl, id, id, fun hops hk => Or.inl ⟨hops, hk⟩⟩), fun k' hk' => ?_⟩
      rw [updateCapture_record, hcapture] at hk'
      exact (Option.some.inj hk').symm
  · exact ⟨Calm.refl m, hws⟩

theorem resumeStop_leaves {await : StopAwait} {p : Manager × StopOutcome} (h : await.Waits m ws)
    (hp : m.resumeStop ws await = some p) : Calm m p.1 ∧ p.2.Leaves p.1 ws := by
  rcases resumeStop_cases hp with ⟨k, rfl, hdone, rfl⟩ | ⟨k, rfl, hdead, rfl⟩ |
    ⟨hop, hops, rfl, -, rfl⟩
  · exact ⟨Calm.refl m, fun k' hk' => ⟨h k' hk', hdone⟩⟩
  · refine stopHops_leaves fun k' hk' => ?_
    obtain ⟨rfl, hdone⟩ := h k' hk'
    exact ⟨hdead, hdone⟩
  · exact awaitHops_leaves hops h

end Manager

/-! ## `shutdown_all` -/

inductive Shutdown where
  | pending
  /-- It stops `ws`, then `rest`. -/
  | stopping (ws : Ws) (await : StopAwait) (rest : List Ws)
  /-- It awaits the cancelled subscription tasks. -/
  | gathering (tasks : List SubId)
  | done

namespace Manager

/-- `self.clients.clear()` and the rest. -/
def clear (m : Manager) : Manager :=
  { m with clients := [], interfaceOwners := fun _ => none, sessions := fun _ => none }

/-- The subscription tasks are cancelled. -/
def cancelTasks (m : Manager) (tasks : List SubId) : Manager :=
  tasks.foldl (fun m q => m.updateSub q ({ · with cancelled := true })) m

def gather (m : Manager) : Manager × Shutdown :=
  let tasks := m.clients.filterMap fun ws => (m.record ws).subscription
  if tasks = [] then (m.clear, .done) else (m.cancelTasks tasks, .gathering tasks)

/-- The loop over the clients, up to the next await. -/
def stopAll (m : Manager) : List Ws → Manager × Shutdown
  | [] => m.gather
  | ws :: rest =>
    match m.stopStreaming ws with
    | (m, .waiting await) => (m, .stopping ws await rest)
    | (m, _) => m.stopAll rest

/-- `shutdown_all` goes on, if what it awaits is done. -/
def resumeShutdown (m : Manager) : Shutdown → Option (Manager × Shutdown)
  | .stopping ws await rest =>
    (m.resumeStop ws await).map fun
      | (m, .waiting await) => (m, .stopping ws await rest)
      | (m, _) => m.stopAll rest
  | .gathering tasks =>
    if tasks.all fun q => (m.sub q).sender = .done then some (m.clear, .done) else none
  | _ => none

end Manager

/-- The service and `shutdown_all`. -/
structure Whole where
  sys : System
  shutdown : Shutdown

namespace Whole

inductive Act where
  | service (a : Streaming.Act)
  /-- `shutdown_all` is called. -/
  | shutdown
  /-- Its await returns. -/
  | proceed

/-- `shutdown_all` is at this point. -/
def goesTo (w : Whole) (p : Manager × Shutdown) : Whole := ⟨{ w.sys with mgr := p.1 }, p.2⟩

def step (w : Whole) : Act → Option Whole
  | .service a => (w.sys.step a).map fun sys => { w with sys }
  | .shutdown =>
    match w.shutdown with
    | .pending => some (w.goesTo (w.sys.mgr.stopAll w.sys.mgr.clients))
    | _ => none
  | .proceed => (w.sys.mgr.resumeShutdown w.shutdown).map w.goesTo

def initial : Whole := ⟨.initial, .pending⟩

end Whole

/-- `shutdown_all` is still to stop `ws`. -/
def Shutdown.spares (ws : Ws) : Shutdown → Bool
  | .pending => true
  | .stopping current _ rest => ws ≠ current && ws ∈ rest
  | .gathering _ | .done => false

def Shutdown.isOver : Shutdown → Bool
  | .done => true
  | _ => false

/-- No dumpcap is started for a client that `shutdown_all` is not still to stop, and no socket is
accepted when it is over. -/
def Whole.heeds (w : Whole) : Whole.Act → Bool
  | .service (.resume ws (.spawned _)) => w.shutdown.spares ws
  | .service (.resume ws .ok) =>
    match w.sys.handler ws with
    | .accepting => !w.shutdown.isOver
    | _ => true
  | _ => true

/-! ## What each coroutine relies on -/

/-- Nothing is registered. -/
structure Manager.Empty (m : Manager) : Prop where
  clients : m.clients = []
  owners : ∀ i, m.interfaceOwners i = none
  sessions : ∀ sid, m.sessions sid = none

/-- No dumpcap is alive. -/
def Manager.Dead (m : Manager) : Prop := ∀ k < m.nextCapture, (m.capture k).alive = false

def Shutdown.Waits (m : Manager) : Shutdown → Prop
  | .pending => True
  | .stopping ws await rest => await.Waits m ws ∧ ∀ k < m.nextCapture,
      (m.capture k).alive = true → (m.capture k).socket = ws ∨ (m.capture k).socket ∈ rest
  | .gathering _ => m.Dead
  | .done => m.Dead ∧ m.Empty

/-- What the coroutine of `ws` relies on. Once `shutdown_all` is over nothing is registered. -/
def Handler.Waits (ended : Prop) (m : Manager) (ws : Ws) : Handler → Prop
  | .fresh | .accepting => ws ∉ m.clients ∧ ∀ k < m.nextCapture, (m.capture k).socket ≠ ws
  | .stopping next await =>
    (next ≠ .command → ws ∈ m.clients → (m.record ws).subscription = none) ∧ await.Waits m ws
  | .starting _ _ => (ended ∨ ws ∈ m.clients) ∧ (m.record ws).capture = none ∧
      (m.record ws).subscription = none
  | .detaching next _ => (ws ∈ m.clients → (m.record ws).subscription = none) ∧
      ∀ sid, next = .subscribe sid → (m.record ws).sessionId = none
  | .leaving _ => (m.record ws).capture = none
  | _ => True

/-- The sockets of the captures are the ones they were. -/
def Manager.SameSockets (m m' : Manager) (ws : Ws) : Prop :=
  (∀ k < m.nextCapture, (m.capture k).socket ≠ ws) →
    ∀ k < m'.nextCapture, (m'.capture k).socket ≠ ws

theorem Handler.Waits.quiet {ended : Prop} {m m' : Manager} {ws : Ws} {h : Handler}
    (hs : h.Waits ended m ws) (hm : m.Quiet m' ws) (hsockets : m.SameSockets m' ws) :
    h.Waits ended m' ws := by
  have hnone (hk : (m.record ws).capture = none) : (m'.record ws).capture = none := by
    cases hcapture : (m'.record ws).capture with
    | none => rfl
    | some k =>
      have hwas := (hm.capture k hcapture).1
      rw [hk] at hwas
      cases hwas
  cases h with
  | fresh => exact ⟨fun hin => hs.1 (hm.client.1 hin), hsockets hs.2⟩
  | accepting => exact ⟨fun hin => hs.1 (hm.client.1 hin), hsockets hs.2⟩
  | stopping next await =>
      exact ⟨fun hne hws => hm.subscription (hs.1 hne (hm.client.1 hws)), hs.2.keep hm.capture⟩
  | starting start phase =>
    exact ⟨hs.1.imp_right hm.client.2, hnone hs.2.1, hm.subscription hs.2.2⟩
  | detaching next q =>
    exact ⟨fun hws => hm.subscription (hs.1 (hm.client.1 hws)),
      fun sid heq => hm.session (hs.2 sid heq)⟩
  | leaving e => exact hnone hs
  | authenticating => trivial
  | idle => trivial
  | replying e => trivial
  | raised => trivial
  | gone => trivial

theorem Manager.Calm.sameSockets {m m' : Manager} (h : Calm m m') (ws : Ws) :
    m.SameSockets m' ws := by
  intro hne k hk
  rw [(h.captures k).1]
  exact hne k (h.next ▸ hk)

theorem Manager.Calm.dead {m m' : Manager} (h : Calm m m') (hdead : m.Dead) : m'.Dead := by
  intro k hk
  by_contra hnot
  have hlive := (h.captures k).2.1 (by simpa using hnot)
  rw [hdead k (h.next ▸ hk)] at hlive
  cases hlive

theorem Shutdown.Waits.ofCalm {m m' : Manager} {sd : Shutdown} (hs : sd.Waits m) (h : m.Calm m') :
    sd.Waits m' := by
  cases sd with
  | pending => trivial
  | stopping ws await rest =>
    refine ⟨hs.1.keep (h.quiet ws).capture, fun k hk halive => ?_⟩
    rw [(h.captures k).1]
    exact hs.2 k (h.next ▸ hk) ((h.captures k).2.1 halive)
  | gathering tasks => exact h.dead hs
  | done =>
    refine ⟨h.dead hs.1, h.clients.trans hs.2.clients, ?_, ?_⟩
    · exact fun i => h.owners hs.2.clients i (hs.2.owners i)
    · exact fun sid => h.sessions sid (hs.2.sessions sid)

namespace Whole

/-- The invariant while the coroutine of `ws` runs. -/
structure Pending (sd : Shutdown) (s : System) (ws : Ws) : Prop where
  held : s.mgr.Held
  others : ∀ ws' ≠ ws, (s.handler ws').Waits (sd = .done) s.mgr ws'
  shutdown : sd.Waits s.mgr

/-- The invariant. -/
structure Inv (sd : Shutdown) (s : System) : Prop where
  held : s.mgr.Held
  waits : ∀ ws, (s.handler ws).Waits (sd = .done) s.mgr ws
  shutdown : sd.Waits s.mgr

variable {sd : Shutdown} {s : System} {ws : Ws}

theorem Inv.pending (h : Inv sd s) (ws : Ws) : Pending sd s ws :=
  ⟨h.held, fun ws' _ => h.waits ws', h.shutdown⟩

theorem Inv.ofCalm (h : Inv sd s) {m : Manager} (hm : s.mgr.Calm m) : Inv sd { s with mgr := m } :=
  ⟨h.held.ofCalm hm, fun ws => (h.waits ws).quiet (hm.quiet ws) (hm.sameSockets ws),
    h.shutdown.ofCalm hm⟩

namespace Pending

theorem ofCalm (h : Pending sd s ws) {m : Manager} (hm : s.mgr.Calm m) :
    Pending sd { s with mgr := m } ws :=
  ⟨h.held.ofCalm hm, fun ws' hne => (h.others ws' hne).quiet (hm.quiet ws') (hm.sameSockets ws'),
    h.shutdown.ofCalm hm⟩

/-- The coroutine suspends. -/
theorem become (h : Pending sd s ws) {handler : Handler}
    (hs : handler.Waits (sd = .done) s.mgr ws) : Inv sd (s.become ws handler) := by
  refine ⟨h.held, fun ws' => ?_, h.shutdown⟩
  rw [System.become_mgr, System.become_handler]
  split_ifs with heq
  · rw [heq]
    exact hs
  · exact h.others ws' heq

theorem reply (h : Pending sd s ws) (e : Event) : Inv sd (s.reply ws e) :=
  h.become trivial

/-- A start claims its interfaces. -/
theorem claim (h : Pending sd s ws) (start : CaptureStart)
    (hfree : ws ∈ s.mgr.clients →
      (s.mgr.record ws).capture = none ∧ (s.mgr.record ws).subscription = none) :
    Inv sd (s.claim ws start) := by
  unfold System.claim
  dsimp only
  split_ifs
  · exact h.reply _
  cases hclaim : s.mgr.claimInterfaces ws start.interfaces with
  | error e =>
    cases e with
    | inUse conflicts => exact h.reply _
    | keyError => exact h.become trivial
  | ok m =>
    have hcalm := s.mgr.calm_claimInterfaces hclaim
    have hws : ws ∈ s.mgr.clients := (Manager.claimInterfaces_ok hclaim).1
    obtain ⟨hcapture, hsubscription⟩ := hfree hws
    refine (h.ofCalm hcalm).become
      ⟨Or.inr (hcalm.clients ▸ hws), ?_, hcalm.subscription ws hsubscription⟩
    cases hgone : (m.record ws).capture with
    | none => rfl
    | some k =>
      have hwas := hcalm.record ws k hgone
      rw [hcapture] at hwas
      cases hwas

/-- A socket goes. -/
theorem forget (h : Pending sd s ws)
    (hfree : ws ∈ s.mgr.clients → (s.mgr.record ws).capture = none) :
    Inv sd ({ s with mgr := s.mgr.forget ws }.become ws .gone) := by
  have hgone : Pending sd { s with mgr := s.mgr.forget ws } ws := by
    refine ⟨⟨h.held.capture, fun k hk halive => ?_, h.held.streams, h.held.reaped⟩,
      fun ws' hne => (h.others ws' hne).quiet ⟨?_, fun k hk => ⟨hk, id, id⟩, id, id⟩ fun hno =>
        hno, ?_⟩
    · obtain ⟨hclient, hcapture, hrest⟩ := h.held.alive k hk halive
      refine ⟨(List.mem_erase_of_ne fun heq => ?_).2 hclient, hcapture, hrest⟩
      have heq : (s.mgr.capture k).socket = ws := heq
      have hnone := hfree (heq ▸ hclient)
      rw [← heq, hcapture] at hnone
      cases hnone
    · exact List.mem_erase_of_ne hne
    · cases hsd : sd with
      | pending => trivial
      | stopping ws' await rest =>
        have hs := h.shutdown
        rw [hsd] at hs
        exact ⟨hs.1.keep fun k hk => ⟨hk, id, id⟩, hs.2⟩
      | gathering tasks =>
        have hs := h.shutdown
        rw [hsd] at hs
        exact hs
      | done =>
        have hs := h.shutdown
        rw [hsd] at hs
        refine ⟨hs.1, ?_, hs.2.owners, hs.2.sessions⟩
        show s.mgr.clients.erase ws = []
        rw [hs.2.clients]
        rfl
  exact hgone.become trivial

theorem afterStop (h : Pending sd s ws) (next : AfterStop)
    (hcapture : next ≠ .command → ws ∈ s.mgr.clients → (s.mgr.record ws).capture = none)
    (hsubscription : next ≠ .command → ws ∈ s.mgr.clients →
      (s.mgr.record ws).subscription = none) :
    Inv sd (s.afterStop ws next) := by
  cases next with
  | command => exact h.become trivial
  | start start =>
    exact h.claim start fun hws => ⟨hcapture (by simp) hws, hsubscription (by simp) hws⟩
  | disconnect => exact h.forget (hcapture (by simp))

theorem notify (h : Pending sd s ws) (e : Event) (next : AfterStop)
    (hcapture : next ≠ .command → (s.mgr.record ws).capture = none)
    (hsubscription : next ≠ .command → ws ∈ s.mgr.clients →
      (s.mgr.record ws).subscription = none) :
    Inv sd (s.notify ws e next) := by
  cases next with
  | command => exact h.reply e
  | start start => exact h.afterStop (.start start) (fun hne _ => hcapture hne) hsubscription
  | disconnect => exact h.become (hcapture (by simp))

/-- A stop got this far. -/
theorem stopped (h : Pending sd s ws) (next : AfterStop) {p : Manager × StopOutcome}
    (hp : s.mgr.Calm p.1 ∧ p.2.Leaves p.1 ws)
    (hsubscription : next ≠ .command → ws ∈ s.mgr.clients →
      (s.mgr.record ws).subscription = none) :
    Inv sd (s.stopped ws next p) := by
  obtain ⟨m, outcome⟩ := p
  obtain ⟨hcalm, hleaves⟩ := hp
  have hm := h.ofCalm hcalm
  have hfree (hne : next ≠ .command) (hws : ws ∈ m.clients) : (m.record ws).subscription = none :=
    hcalm.subscription ws (hsubscription hne (hcalm.clients ▸ hws))
  cases outcome with
  | unregistered => exact hm.afterStop next (fun _ hws => absurd hws hleaves) hfree
  | readOnly =>
    -- Only the command can be refused.
    exact hm.notify _ next (fun hne => absurd (hfree hne hleaves.1) hleaves.2) hfree
  | waiting await => exact hm.become ⟨hfree, hleaves⟩
  | stopped => exact hm.notify _ next (fun _ => hleaves) hfree

/-- A subscription begins. A client with a session keeps its dumpcap alive, this one has none. -/
theorem attach (h : Pending sd s ws) (sid : SessionId)
    (hsession : (s.mgr.record ws).sessionId = none) :
    Inv sd (s.attach ws sid) := by
  unfold System.attach
  dsimp only
  cases s.mgr.sessions sid with
  | none => exact h.reply _
  | some owner =>
    dsimp only
    split_ifs with hclient hfull
    · exact h.reply _
    rotate_left
    · exact h.reply _
    have hattached : Pending sd { s with mgr := s.mgr.attach ws sid owner } ws := by
      have hcapture (ws' : Ws) : ((s.mgr.attach ws sid owner).record ws').capture =
          (s.mgr.record ws').capture := by simp
      have hcaptures : (s.mgr.attach ws sid owner).capture = s.mgr.capture := rfl
      refine ⟨⟨fun ws' k hk => ?_, fun k hk halive => ?_, fun k hk hrunning => ?_, h.held.reaped⟩,
        fun ws' hne => (h.others ws' hne).quiet ⟨Iff.rfl, fun k hk => ?_, fun hnone => ?_,
          fun hnone => ?_⟩ fun hno => hno, ?_⟩
      · exact h.held.capture ws' k (hcapture ws' ▸ hk)
      · obtain ⟨hin, hmine, hsome, hfree⟩ := h.held.alive k hk halive
        refine ⟨hin, (hcapture _).trans hmine, ?_, ?_⟩
        · simpa [hcaptures] using hsome
        · have hne : (s.mgr.capture k).socket ≠ ws := by
            intro heq
            rw [heq] at hsome
            exact hsome hsession
          simpa [hcaptures, hne] using hfree
      · exact (hcapture _).trans (h.held.streams k hk hrunning)
      · exact ⟨hcapture ws' ▸ hk, id, id⟩
      · simpa using hnone
      · simpa [hne] using hnone
      · have hs := h.shutdown
        cases sd with
        | pending => trivial
        | stopping ws' await rest =>
          exact ⟨hs.1.keep fun k hk => ⟨hcapture ws' ▸ hk, id, id⟩, hs.2⟩
        | gathering tasks => exact hs
        | done =>
          rw [hs.2.clients] at hclient
          exact absurd hclient List.not_mem_nil
    exact hattached.become trivial

theorem stopStreaming (h : Pending sd s ws) (next : AfterStop)
    (hsubscription : next ≠ .command → ws ∈ s.mgr.clients →
      (s.mgr.record ws).subscription = none) :
    Inv sd (s.stopped ws next (s.mgr.stopStreaming ws)) :=
  h.stopped next (s.mgr.stopStreaming_leaves ws) hsubscription

theorem afterDetach (h : Pending sd s ws) {next : AfterDetach}
    (hsubscription : ws ∈ s.mgr.clients → (s.mgr.record ws).subscription = none)
    (hsession : ∀ sid, next = .subscribe sid → (s.mgr.record ws).sessionId = none) :
    Inv sd (s.afterDetach ws next) := by
  cases next with
  | subscribe sid => exact h.attach sid (hsession sid rfl)
  | unsubscribe sid => exact h.reply _
  | disconnect => exact h.stopStreaming .disconnect fun _ => hsubscription

theorem detach (h : Pending sd s ws) (next : AfterDetach)
    (hsession : ∀ sid, next = .subscribe sid → (s.mgr.record ws).sessionId = none) :
    Inv sd (s.detach ws next) := by
  unfold System.detach
  have hcalm := s.mgr.calm_clearSubscription ws none none
  rcases s.mgr.clearSubscription_cases ws none none with ⟨hclear, hnone⟩ | ⟨q, -, -, hclear⟩
  · rw [hclear]
    refine h.afterDetach (fun hws => ?_) hsession
    by_contra hsome
    obtain ⟨q, hq⟩ := Option.ne_none_iff_exists'.1 hsome
    obtain ⟨sid, hsid, -⟩ := hnone hws q hq
    cases hsid
  · rw [hclear] at hcalm ⊢
    refine (h.ofCalm hcalm).become ⟨fun _ => ?_, fun sid heq => hcalm.session ws (hsession sid heq)⟩
    simp

theorem startStreaming (h : Pending sd s ws) (request : Option CaptureStart) :
    Inv sd (s.startStreaming ws request) := by
  unfold System.startStreaming
  by_cases hws : ws ∈ s.mgr.clients
  · rw [if_neg (not_not.2 hws)]
    by_cases hfree : (s.mgr.record ws).subscription = none
    · have hunsubscribed : s.mgr.subscribedTo ws = none := by simp [Manager.subscribedTo, hfree]
      rw [if_neg (not_not.2 hunsubscribed)]
      cases request with
      | none => exact h.reply _
      | some start =>
        dsimp only
        split_ifs with hrunning hleft
        · exact h.reply _
        · exact h.stopStreaming (.start start) fun _ _ => hfree
        · refine h.claim start fun _ => ⟨?_, hfree⟩
          by_contra hcapture
          exact hleft (Or.inl hcapture)
    · have hsubscribed : s.mgr.subscribedTo ws ≠ none := by simpa [Manager.subscribedTo] using hfree
      rw [if_pos hsubscribed]
      exact h.reply _
  · rw [if_pos hws]
    exact h.reply _

theorem subscribe (h : Pending sd s ws) (request : Except Text SessionId) :
    Inv sd (s.subscribe ws request) := by
  unfold System.subscribe
  dsimp only
  by_cases hws : ws ∈ s.mgr.clients
  · rw [if_neg (not_not.2 hws)]
    cases request with
    | error printed => exact h.reply _
    | ok sid =>
      dsimp only
      by_cases hnone : s.mgr.sessions sid = none
      · rw [if_pos hnone]
        exact h.reply _
      rw [if_neg hnone]
      by_cases hown : (s.mgr.record ws).sessionId = none
      · rw [if_neg (not_not.2 hown)]
        exact h.detach (.subscribe sid) fun _ _ => hown
      · rw [if_pos hown]
        exact h.reply _
  · rw [if_pos hws]
    exact h.become (show Handler.Waits _ s.mgr ws .idle from trivial)

theorem filterNext (h : Pending sd s ws) {start : CaptureStart} {phase : StartPhase}
    (hs : (Handler.starting start phase).Waits (sd = .done) s.mgr ws) (todo : List Iface) :
    Inv sd (s.filterNext ws start todo) := by
  cases todo <;> exact h.become hs

theorem tuneNext (h : Pending sd s ws) {start : CaptureStart} {phase : StartPhase}
    (hs : (Handler.starting start phase).Waits (sd = .done) s.mgr ws) (todo : List Iface) :
    Inv sd (s.tuneNext ws start todo) := by
  induction todo with
  | nil => exact h.filterNext hs _
  | cons iface todo ih =>
    unfold System.tuneNext
    split_ifs
    · exact h.become hs
    · exact ih

/-- A dumpcap is started for a client that `shutdown_all` is still to stop, if it stops any. -/
theorem startCapture (h : Pending sd s ws) {start : CaptureStart} {phase : StartPhase}
    (hs : (Handler.starting start phase).Waits (sd = .done) s.mgr ws)
    (hspares : sd.spares ws = true)
    (sid : SessionId) : Pending sd { s with mgr := s.mgr.startCapture ws start sid } ws := by
  obtain ⟨hregistered, hcapture, hsubscription⟩ := hs
  have hws : ws ∈ s.mgr.clients := by
    rcases hregistered with rfl | hws
    · cases hspares
    · exact hws
  set m := s.mgr.startCapture ws start sid with hm
  have hnew : m.capture s.mgr.nextCapture = { socket := ws, sessionId := sid } := by
    simp [hm, Manager.startCapture]
  have hold {k : CaptureId} (hk : k ≠ s.mgr.nextCapture) : m.capture k = s.mgr.capture k := by
    simp [hm, Manager.startCapture, hk]
  have hnext : m.nextCapture = s.mgr.nextCapture + 1 := rfl
  have hwas {k : CaptureId} (hk : k < m.nextCapture) (hne : k ≠ s.mgr.nextCapture) :
      k < s.mgr.nextCapture := by
    exact Nat.lt_of_le_of_ne (Nat.lt_succ_iff.1 hk) hne
  have hmine : m.record ws = { s.mgr.record ws with
      capture := some s.mgr.nextCapture
      channelTasks := s.mgr.hopTasks ws start
      sessionId := some sid
      sessionConfig := some (Manager.sessionConfig (s.mgr.record ws) start) } := by
    rw [hm, Manager.startCapture_record, if_pos rfl]
  have hothers {ws' : Ws} (hne : ws' ≠ ws) : m.record ws' = s.mgr.record ws' := by
    rw [hm, Manager.startCapture_record, if_neg hne]
  have hcurrent {ws' : Ws} {k : CaptureId} (hk : (s.mgr.record ws').capture = some k) :
      ws' ≠ ws ∧ k ≠ s.mgr.nextCapture := by
    refine ⟨fun heq => ?_, fun heq => ?_⟩
    · rw [heq, hcapture] at hk
      cases hk
    · exact Nat.ne_of_lt (h.held.capture ws' k hk).1 heq
  have hquiet {ws' : Ws} (hne : ws' ≠ ws) (k : CaptureId) (hk : (m.record ws').capture = some k) :
      (s.mgr.record ws').capture = some k ∧
        ((s.mgr.capture k).alive = false → (m.capture k).alive = false) ∧
        ((s.mgr.capture k).task = .done → (m.capture k).task = .done) := by
    rw [hothers hne] at hk
    rw [hold (hcurrent hk).2]
    exact ⟨hk, id, id⟩
  refine ⟨⟨fun ws' k hk => ?_, fun k hk halive => ?_, fun k hk hrunning => ?_, fun k hops hk => ?_⟩,
    fun ws' hne => (h.others ws' hne).quiet ⟨Iff.rfl, hquiet hne, fun hnone => ?_, fun hnone => ?_⟩
      fun hno k hk => ?_, ?_⟩
  · by_cases heq : ws' = ws
    · rw [heq, hmine] at hk
      cases hk
      exact ⟨Nat.lt_succ_self _, by rw [hnew, heq]⟩
    · rw [hothers heq] at hk
      obtain ⟨hlt, hsocket⟩ := h.held.capture ws' k hk
      exact ⟨Nat.lt_succ_of_lt hlt, by rw [hold (hcurrent hk).2, hsocket]⟩
  · by_cases heq : k = s.mgr.nextCapture
    · subst heq
      rw [hnew]
      dsimp only
      rw [hmine]
      exact ⟨hws, rfl, by simp, hsubscription⟩
    · rw [hold heq] at halive ⊢
      obtain ⟨hin, hlinked, hsome, hfree⟩ := h.held.alive k (hwas hk heq) halive
      rw [hothers (hcurrent hlinked).1]
      exact ⟨hin, hlinked, hsome, hfree⟩
  · by_cases heq : k = s.mgr.nextCapture
    · subst heq
      rw [hnew]
      dsimp only
      rw [hmine]
    · rw [hold heq] at hrunning ⊢
      have hlinked := h.held.streams k (hwas hk heq) hrunning
      rw [hothers (hcurrent hlinked).1]
      exact hlinked
  · by_cases heq : k = s.mgr.nextCapture
    · rw [heq, hnew] at hk
      cases hk
    · rw [hold heq] at hk ⊢
      exact h.held.reaped k hops hk
  · rw [hothers hne]
    exact hnone
  · rw [hothers hne]
    exact hnone
  · by_cases heq : k = s.mgr.nextCapture
    · rw [heq, hnew]
      exact fun h => hne h.symm
    · rw [hold heq]
      exact hno k (hwas hk heq)
  · have hs := h.shutdown
    cases sd with
    | pending => trivial
    | stopping current await rest =>
      rw [Shutdown.spares, Bool.and_eq_true, decide_eq_true_eq, decide_eq_true_eq] at hspares
      refine ⟨hs.1.keep (hquiet fun heq => hspares.1 heq.symm), fun k hk halive => ?_⟩
      by_cases heq : k = s.mgr.nextCapture
      · rw [heq, hnew]
        exact Or.inr hspares.2
      · rw [hold heq] at halive ⊢
        exact hs.2 k (hwas hk heq) halive
    | gathering tasks => cases hspares
    | done => cases hspares

/-- A socket is accepted. -/
theorem connect (h : Pending sd s ws)
    (hnew : ws ∉ s.mgr.clients ∧ ∀ k < s.mgr.nextCapture, (s.mgr.capture k).socket ≠ ws)
    (hover : sd.isOver = false) :
    Inv sd ({ s with mgr := s.mgr.connect ws }.become ws .authenticating) := by
  have hother {ws' : Ws} (hne : ws' ≠ ws) : (s.mgr.connect ws).record ws' = s.mgr.record ws' := by
    rw [Manager.connect_record, if_neg hne]
  have hsocket {k : CaptureId} (hk : k < s.mgr.nextCapture) :
      (s.mgr.connect ws).record (s.mgr.capture k).socket =
        s.mgr.record (s.mgr.capture k).socket := hother (hnew.2 k hk)
  have hconnected : Pending sd { s with mgr := s.mgr.connect ws } ws := by
    refine ⟨⟨fun ws' k hk => ?_, fun k hk halive => ?_, fun k hk hrunning => ?_, h.held.reaped⟩,
      fun ws' hne => (h.others ws' hne).quiet ⟨?_, fun k hk => ?_, fun hnone => ?_,
        fun hnone => ?_⟩ fun hno => hno, ?_⟩
    · by_cases heq : ws' = ws
      · rw [Manager.connect_record, if_pos heq] at hk
        cases hk
      · exact h.held.capture ws' k (hother heq ▸ hk)
    · obtain ⟨hin, hrest⟩ := h.held.alive k hk halive
      rw [← hsocket hk] at hrest
      exact ⟨List.mem_append_left _ hin, hrest⟩
    · exact (hsocket hk).symm ▸ h.held.streams k hk hrunning
    · show ws' ∈ s.mgr.clients ++ [ws] ↔ ws' ∈ s.mgr.clients
      simp [hne]
    · exact ⟨hother hne ▸ hk, id, id⟩
    · exact (hother hne).symm ▸ hnone
    · exact (hother hne).symm ▸ hnone
    · have hs := h.shutdown
      cases sd with
      | pending => trivial
      | stopping current await rest =>
        refine ⟨hs.1.keep fun k hk => ⟨?_, id, id⟩, hs.2⟩
        by_cases heq : current = ws
        · rw [Manager.connect_record, if_pos heq] at hk
          cases hk
        · exact hother heq ▸ hk
      | gathering tasks => exact hs
      | done => cases hover
  exact hconnected.become trivial

/-- `start_streaming` goes on. -/
theorem start (h : Pending sd s ws) {start : CaptureStart} {phase : StartPhase} {r : Reply}
    {t : System} (hs : (Handler.starting start phase).Waits (sd = .done) s.mgr ws)
    (hspares : ∀ token, r = .spawned token → sd.spares ws = true)
    (hstep : s.resumeStart ws start phase r = some t) : Inv sd t := by
  have hraised : Inv sd (s.become ws .raised) := h.become trivial
  have hfailed (e : Event) : Inv sd ({ s with mgr := s.mgr.releaseInterfaces ws }.reply ws e) :=
    (h.ofCalm (s.mgr.calm_releaseInterfaces ws)).reply e
  cases phase with
  | resolving =>
    cases r with
    | resolved netns =>
      cases netns with
      | error reason =>
        cases hstep
        exact hfailed _
      | ok netns =>
        cases hstep
        have hcalm :=
          s.mgr.calm_updateClient ws ({ · with netns, framer := {}, sessionEnd := none })
          fun c => ⟨rfl, rfl, Or.inl rfl⟩
        exact (h.ofCalm hcalm).tuneNext (hs.quiet (hcalm.quiet ws) (hcalm.sameSockets ws)) _
    | raises =>
      cases hstep
      exact hraised
    | _ => cases hstep
  | tuning iface todo =>
    cases r with
    | tuned error =>
      cases error with
      | none =>
        cases hstep
        exact h.tuneNext hs todo
      | some error =>
        cases hstep
        exact h.become hs
    | raises =>
      cases hstep
      exact hraised
    | _ => cases hstep
  | reporting e todo =>
    cases r with
    | ok =>
      cases hstep
      exact h.tuneNext hs todo
    | _ => cases hstep
  | filtering todo =>
    cases r with
    | ok =>
      cases hstep
      exact h.filterNext hs todo
    | raises =>
      cases hstep
      exact hraised
    | _ => cases hstep
  | spawning =>
    cases r with
    | spawned token =>
      cases hstep
      exact (h.startCapture hs (hspares token rfl) _).reply _
    | osError =>
      cases hstep
      exact hfailed _
    | raises =>
      cases hstep
      exact hraised
    | _ => cases hstep

end Pending

theorem calm_configure (m : Manager) (ws : Ws) (configs : List (Iface × CaptureInterfaceConfig)) :
    m.Calm (configs.foldl (fun m (iface, config) => m.configure ws iface config) m) := by
  induction configs generalizing m with
  | nil => exact Manager.Calm.refl m
  | cons c configs ih =>
    have hone : m.Calm (m.configure ws c.1 c.2) := by
      unfold Manager.configure
      split_ifs
      · exact m.calm_updateClient ws _ fun c => ⟨rfl, rfl, Or.inl rfl⟩
      · exact Manager.Calm.refl m
    exact hone.trans (ih _)

theorem Pending.run (h : Pending sd s ws) (c : Command) : Inv sd (s.run ws c) := by
  cases c with
  | configure configs => exact (h.ofCalm (calm_configure s.mgr ws configs)).reply _
  | start request => exact h.startStreaming request
  | stop => exact h.stopStreaming .command fun hne => absurd rfl hne
  | subscribe request => exact h.subscribe request
  | unsubscribe => exact h.detach (.unsubscribe _) fun sid heq => by cases heq

/-- A step of the service keeps the invariant. -/
theorem Inv.service (h : Inv sd s) {a : Streaming.Act} {t : System}
    (hheeds : Whole.heeds ⟨s, sd⟩ (.service a) = true) (hstep : s.step a = some t) : Inv sd t := by
  have hp := h.pending
  cases System.step_cases hstep with
  | connect ws hhandler =>
    have hwaits := h.waits ws
    rw [hhandler] at hwaits
    exact (hp ws).become hwaits
  | authenticate ws did hhandler =>
    have hcalm : s.mgr.Calm (s.mgr.authenticate ws did) := by
      unfold Manager.authenticate
      split_ifs
      · exact s.mgr.calm_updateClient ws _ fun c => ⟨rfl, rfl, Or.inl rfl⟩
      · exact Manager.Calm.refl _
    exact ((hp ws).ofCalm hcalm).reply _
  | command ws c hhandler => exact (hp ws).run c
  | disconnect ws hhandler => exact (hp ws).detach .disconnect fun sid heq => by cases heq
  | accepted ws hhandler =>
    have hwaits := h.waits ws
    rw [hhandler] at hwaits
    simp only [heeds, hhandler, Bool.not_eq_true'] at hheeds
    exact (hp ws).connect hwaits hheeds
  | refused ws hhandler => exact (hp ws).become trivial
  | replied ws e hhandler => exact (hp ws).become trivial
  | stopping ws next await p hhandler hresume =>
    have hwaits := h.waits ws
    rw [hhandler] at hwaits
    exact (hp ws).stopped next (Manager.resumeStop_leaves hwaits.2 hresume) hwaits.1
  | starting ws start phase r t hhandler ht =>
    have hwaits := h.waits ws
    rw [hhandler] at hwaits
    refine (hp ws).start hwaits (fun token heq => ?_) ht
    subst heq
    exact hheeds
  | detached ws next q hhandler hdone =>
    have hwaits := h.waits ws
    rw [hhandler] at hwaits
    exact (hp ws).afterDetach hwaits.1 hwaits.2
  | left ws e hhandler =>
    have hwaits := h.waits ws
    rw [hhandler] at hwaits
    exact (hp ws).forget fun _ => hwaits
  | stream k r m hk hm => exact h.ofCalm (h.held.stream hk hm)
  | sender q r m hq hm => exact h.ofCalm (s.mgr.calm_sender hm)
  | hopEnds hop =>
    have hcalm : s.mgr.Calm { s.mgr with hopDone := Function.update s.mgr.hopDone hop true } :=
      ⟨rfl, rfl, fun _ _ => id, fun _ => id, (Manager.Calm.refl s.mgr).captures, fun _ _ => id,
        fun _ _ => Or.inl, fun _ => id, fun _ _ _ _ => id, fun _ => id⟩
    exact h.ofCalm hcalm
  | exits k hk =>
    refine h.ofCalm (s.mgr.calm_updateCapture k _ ⟨rfl, ?_, id, fun hops heq => Or.inl ⟨hops, heq⟩⟩)
    intro halive
    cases halive

/-! ## The steps of `shutdown_all` -/

/-- Everything but `shutdown_all` itself, while it goes on. -/
structure Going (s : System) : Prop where
  held : s.mgr.Held
  waits : ∀ ws, (s.handler ws).Waits False s.mgr ws

theorem Going.ofCalm (h : Going s) {m : Manager} (hm : s.mgr.Calm m) : Going { s with mgr := m } :=
  ⟨h.held.ofCalm hm, fun ws => (h.waits ws).quiet (hm.quiet ws) (hm.sameSockets ws)⟩

theorem Inv.going (h : Inv sd s) (hsd : sd ≠ .done) : Going s := by
  refine ⟨h.held, fun ws => ?_⟩
  have hwaits := h.waits ws
  cases hhandler : s.handler ws with
  | starting start phase =>
    rw [hhandler] at hwaits
    exact ⟨hwaits.1.imp_left fun heq => hsd heq, hwaits.2⟩
  | _ =>
    rw [hhandler] at hwaits
    exact hwaits

/-- `shutdown_all` gets to a point that the manager is ready for. -/
theorem Going.inv (h : Going s) (hsd : sd.Waits s.mgr) : Inv sd s := by
  refine ⟨h.held, fun ws => ?_, hsd⟩
  have hwaits := h.waits ws
  cases hhandler : s.handler ws with
  | starting start phase =>
    rw [hhandler] at hwaits
    exact ⟨hwaits.1.imp_left False.elim, hwaits.2⟩
  | _ =>
    rw [hhandler] at hwaits
    exact hwaits

/-- Everything is cleared when no dumpcap is alive. -/
theorem Going.clear (h : Going s) (hdead : s.mgr.Dead) :
    Inv .done { s with mgr := s.mgr.clear } := by
  refine ⟨⟨h.held.capture, fun k hk halive => ?_, h.held.streams, h.held.reaped⟩, fun ws => ?_,
    hdead, rfl, fun _ => rfl, fun _ => rfl⟩
  · have hgone : (s.mgr.capture k).alive = true := halive
    rw [hdead k hk] at hgone
    cases hgone
  · have hwaits := h.waits ws
    show (s.handler ws).Waits _ s.mgr.clear ws
    cases hhandler : s.handler ws with
    | starting start phase =>
      rw [hhandler] at hwaits
      exact ⟨Or.inl rfl, hwaits.2⟩
    | fresh =>
      rw [hhandler] at hwaits
      exact ⟨List.not_mem_nil, hwaits.2⟩
    | accepting =>
      rw [hhandler] at hwaits
      exact ⟨List.not_mem_nil, hwaits.2⟩
    | stopping next await =>
      rw [hhandler] at hwaits
      exact ⟨fun _ hws => absurd hws List.not_mem_nil, hwaits.2.keep fun k hk => ⟨hk, id, id⟩⟩
    | detaching next q =>
      rw [hhandler] at hwaits
      exact ⟨fun hws => absurd hws List.not_mem_nil, hwaits.2⟩
    | leaving e =>
      rw [hhandler] at hwaits
      exact hwaits
    | _ => trivial

theorem calm_cancelTasks (m : Manager) (tasks : List SubId) : m.Calm (m.cancelTasks tasks) := by
  unfold Manager.cancelTasks
  induction tasks generalizing m with
  | nil => exact Manager.Calm.refl m
  | cons q tasks ih => exact (m.calm_updateSub q _).trans (ih _)

theorem Going.gather (h : Going s) (hdead : s.mgr.Dead) :
    Inv s.mgr.gather.2 { s with mgr := s.mgr.gather.1 } := by
  have hcalm := calm_cancelTasks s.mgr
    (s.mgr.clients.filterMap fun ws => (s.mgr.record ws).subscription)
  unfold Manager.gather
  dsimp only
  split_ifs
  · exact h.clear hdead
  · exact (h.ofCalm hcalm).inv (hcalm.dead hdead)

/-- A client that was stopped, or cannot be, has no dumpcap. -/
theorem Going.passed (h : Going s) {outcome : StopOutcome} (hleaves : outcome.Leaves s.mgr ws)
    (hpassed : ∀ await, outcome ≠ .waiting await) {k : CaptureId} (hk : k < s.mgr.nextCapture)
    (halive : (s.mgr.capture k).alive = true) : (s.mgr.capture k).socket ≠ ws := by
  intro heq
  obtain ⟨hclient, hlinked, -, hfree⟩ := h.held.alive k hk halive
  rw [heq] at hclient hlinked hfree
  cases outcome with
  | waiting await => exact hpassed await rfl
  | unregistered => exact hleaves hclient
  | readOnly => exact hleaves.2 hfree
  | stopped =>
    have hnone : (s.mgr.record ws).capture = none := hleaves
    rw [hnone] at hlinked
    cases hlinked

/-- What is alive is in what is still to stop. -/
theorem Going.stopAll (h : Going s) {rest : List Ws} (hrest : ∀ k < s.mgr.nextCapture,
    (s.mgr.capture k).alive = true → (s.mgr.capture k).socket ∈ rest) :
    Inv (s.mgr.stopAll rest).2 { s with mgr := (s.mgr.stopAll rest).1 } := by
  induction rest generalizing s with
  | nil =>
    refine h.gather fun k hk => ?_
    by_contra halive
    exact absurd (hrest k hk (by simpa using halive)) List.not_mem_nil
  | cons ws rest ih =>
    obtain ⟨hcalm, hleaves⟩ := s.mgr.stopStreaming_leaves ws
    unfold Manager.stopAll
    rcases hstop : s.mgr.stopStreaming ws with ⟨m, outcome⟩
    rw [hstop] at hcalm hleaves
    have hm := h.ofCalm hcalm
    have hleft (k : CaptureId) (hk : k < m.nextCapture) (halive : (m.capture k).alive = true) :
        (m.capture k).socket = ws ∨ (m.capture k).socket ∈ rest := by
      obtain ⟨hsocket, hwas, -, -⟩ := hcalm.captures k
      rw [hsocket]
      exact List.mem_cons.1 (hrest k (hcalm.next ▸ hk) (hwas halive))
    have hgone (hpassed : ∀ await, outcome ≠ .waiting await) :
        Inv (m.stopAll rest).2 { s with mgr := (m.stopAll rest).1 } := by
      refine @ih { s with mgr := m } hm fun k hk halive => ?_
      exact (hleft k hk halive).resolve_left (hm.passed hleaves hpassed hk halive)
    cases outcome with
    | waiting await => exact hm.inv ⟨hleaves, hleft⟩
    | _ => exact hgone (by simp)

/-- A step of `shutdown_all` keeps the invariant. -/
theorem Inv.proceed (h : Inv sd s) {p : Manager × Shutdown}
    (hp : s.mgr.resumeShutdown sd = some p) : Inv p.2 { s with mgr := p.1 } := by
  cases sd with
  | pending => cases hp
  | stopping ws await rest =>
    obtain ⟨hawait, hleft⟩ := h.shutdown
    have hgoing := h.going (by simp)
    simp only [Manager.resumeShutdown, Option.map_eq_some_iff] at hp
    obtain ⟨⟨m, outcome⟩, hresume, rfl⟩ := hp
    obtain ⟨hcalm, hleaves⟩ := Manager.resumeStop_leaves hawait hresume
    have hm := hgoing.ofCalm hcalm
    have hleft (k : CaptureId) (hk : k < m.nextCapture) (halive : (m.capture k).alive = true) :
        (m.capture k).socket = ws ∨ (m.capture k).socket ∈ rest := by
      obtain ⟨hsocket, hwas, -, -⟩ := hcalm.captures k
      rw [hsocket]
      exact hleft k (hcalm.next ▸ hk) (hwas halive)
    have hgone (hpassed : ∀ await, outcome ≠ .waiting await) :
        Inv (m.stopAll rest).2 { s with mgr := (m.stopAll rest).1 } := by
      refine @Going.stopAll { s with mgr := m } hm rest fun k hk halive => ?_
      exact (hleft k hk halive).resolve_left (hm.passed hleaves hpassed hk halive)
    cases outcome with
    | waiting await => exact hm.inv ⟨hleaves, hleft⟩
    | _ => exact hgone (by simp)
  | gathering tasks =>
    have hgoing := h.going (by simp)
    simp only [Manager.resumeShutdown, Option.ite_none_right_eq_some, Option.some.injEq] at hp
    obtain ⟨-, rfl⟩ := hp
    exact hgoing.clear h.shutdown
  | done => cases hp

theorem Inv.step {w w' : Whole} (h : Inv w.shutdown w.sys) {a : Act} (hheeds : w.heeds a = true)
    (hstep : w.step a = some w') : Inv w'.shutdown w'.sys := by
  cases a with
  | service a =>
    obtain ⟨t, ht, rfl⟩ := Option.map_eq_some_iff.1 hstep
    exact h.service hheeds ht
  | shutdown =>
    cases hsd : w.shutdown with
    | pending =>
      unfold Whole.step at hstep
      rw [hsd] at hstep
      cases hstep
      refine (h.going (by simp [hsd])).stopAll fun k hk halive => ?_
      exact (h.held.alive k hk halive).1
    | _ =>
      unfold Whole.step at hstep
      rw [hsd] at hstep
      cases hstep
  | proceed =>
    obtain ⟨p, hp, rfl⟩ := Option.map_eq_some_iff.1 hstep
    exact h.proceed hp

theorem inv_initial : Inv initial.shutdown initial.sys := by
  refine ⟨⟨?_, fun k hk => absurd hk (Nat.not_lt_zero k), fun k hk => absurd hk (Nat.not_lt_zero k),
    ?_⟩, fun _ => ⟨List.not_mem_nil, fun k hk => absurd hk (Nat.not_lt_zero k)⟩, trivial⟩
  · intro ws k hk
    cases hk
  · intro k hops hk
    cases hk

/-! ## The law -/

/-- Nothing is left when `shutdown_all` is over. -/
theorem nothing_left {w : Whole} (h : Run step (fun w a => w.heeds a = true) initial w)
    (hover : w.shutdown = .done) : w.sys.mgr.Dead ∧ w.sys.mgr.Empty := by
  have hinv : Inv w.shutdown w.sys :=
    h.invariant (I := fun w => Inv w.shutdown w.sys) inv_initial
      fun w a t hw hheeds hstep => hw.step hheeds hstep
  have hwaits := hinv.shutdown
  rw [hover] at hwaits
  exact hwaits

/-- A socket starts a capture, up to the start of dumpcap. -/
def startActs (ws : Ws) (iface : Checked validateCaptureInterface) (did : Text) :
    List Streaming.Act :=
  [.connect ws, .resume ws .ok, .authenticate ws did, .resume ws .ok,
    .command ws (.configure [(iface.val, {})]), .resume ws .ok,
    .command ws (.start (some (.single iface))),
    .resume ws (.resolved (.ok none)), .resume ws .ok]

/-- The shutdown of a running capture. -/
theorem nothing_left_running : ∃ w : Whole, w.shutdown = .done ∧ w.sys.mgr.nextCapture = 1 ∧
    w.sys.mgr.Dead ∧ w.sys.mgr.Empty := by
  have hexec : (exec (guarded step heeds) initial
      ((startActs 0 wlanpi0 "a".toList ++
        [Streaming.Act.resume 0 (.spawned "00000000".toList)]).map
        Act.service ++
          [.shutdown, .service (.stream 0 .ok), .proceed, .service (.exits 0), .proceed])).any
      (fun w => w.shutdown.isOver && w.sys.mgr.nextCapture == 1) = true := by
    decide +kernel
  obtain ⟨w, hw, hstate⟩ := (Option.any_eq_true _ _).1 hexec
  rw [Bool.and_eq_true, beq_iff_eq] at hstate
  have hover : w.shutdown = .done := by
    cases hsd : w.shutdown <;> rw [hsd] at hstate <;> simp [Shutdown.isOver] at hstate
  exact ⟨w, hover, hstate.2, nothing_left (Run.of_guarded (Reaches.of_exec hw)) hover⟩

/-- Dumpcap is started for a client that `shutdown_all` has stopped meanwhile. -/
theorem something_left : ¬∀ w : Whole, Reaches step initial w → w.shutdown = .done →
    w.sys.mgr.Dead ∧ w.sys.mgr.Empty := by
  intro h
  have hexec : (exec step initial
      ((startActs 0 wlanpi0 "a".toList).map Act.service ++
        [.shutdown, .service (.resume 0 (.spawned "00000000".toList))])).any
      (fun w => w.shutdown.isOver && w.sys.mgr.nextCapture == 1 && (w.sys.mgr.capture 0).alive) =
        true := by
    decide +kernel
  obtain ⟨w, hw, hstate⟩ := (Option.any_eq_true _ _).1 hexec
  rw [Bool.and_eq_true, Bool.and_eq_true, beq_iff_eq] at hstate
  obtain ⟨⟨hover, hnext⟩, halive⟩ := hstate
  have hover : w.shutdown = .done := by
    cases hsd : w.shutdown <;> rw [hsd] at hover <;> simp [Shutdown.isOver] at hover
  have hdead := (h w (Reaches.of_exec hw) hover).1 0 (hnext ▸ Nat.zero_lt_one)
  rw [hdead] at halive
  cases halive

end Whole

end WlanpiCore.Streaming
