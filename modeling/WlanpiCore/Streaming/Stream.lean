import WlanpiCore.Streaming.Delivery
import WlanpiCore.Streaming.Replay

/-!
# The stream of a subscriber

What a subscriber is due (`Manager.due`) is fixed by the capture it listens to and by how much of
that had been framed when it subscribed. `Manager.Follow` is the invariant that its queue and what
it was sent follow this sequence.
-/

namespace WlanpiCore.Streaming

namespace Manager

/-- The socket of `q` still has this subscription. -/
def Stands (m : Manager) (q : SubId) : Prop :=
  (m.sub q).socket ∈ m.clients ∧ (m.record (m.sub q).socket).subscription = some q

/-- `pcapng_header`, if it is not empty. -/
def headerOf (blocks : List Block) : List Message :=
  if replay blocks = [] then [] else [.bytes (replay blocks)]

/-- What is due to a subscriber of a capture that had framed `since` blocks: the event, the header,
the blocks framed later, and the end of the session. -/
def due (data : Json) (c : Capture) (since : Nat) : List Message :=
  .event ⟨"status", "SUBSCRIBED", data⟩ :: (headerOf (c.framed.take since) ++
    (c.framed.drop since).map .bytes ++ c.ended.toList.map .event)

theorem due_framed {data : Json} {c : Capture} {since : Nat} (hended : c.ended = none)
    (hsince : since ≤ c.framed.length) (block : Block) :
    due data { c with framed := c.framed ++ [block] } since =
      due data c since ++ [.bytes block] := by
  simp [due, hended, List.take_append_of_le_length hsince, List.drop_append_of_le_length hsince]

theorem due_ended {data : Json} {c : Capture} {since : Nat} (hended : c.ended = none) (e : Event) :
    due data { c with ended := some e } since = due data c since ++ [.event e] := by
  simp [due, hended]

/-! ## The invariant -/

/-- Subscription `q` listens to capture `k`. -/
structure Follows (m : Manager) (q : SubId) (k : CaptureId) (data : Json) : Prop where
  source : (m.sub q).source = some k
  capture : k < m.nextCapture
  session : (m.capture k).sessionId = (m.sub q).sessionId
  since : (m.sub q).since ≤ (m.capture k).framed.length
  descriptor : ∃ m' owner, data = sessionDescriptor m' (m.sub q).sessionId owner
  lawful : (m.sub q).Lawful (due data (m.capture k) (m.sub q).since)
  standing : m.Stands q → (m.sub q).closing = false →
    (m.sub q).Standing (due data (m.capture k) (m.sub q).since) (m.capture k).ended.isSome
  sessions : m.Stands q → m.sessions (m.sub q).sessionId =
    if (m.capture k).ended = none then some (m.capture k).socket else none
  current : m.Stands q → (m.capture k).ended = none →
    (m.record (m.capture k).socket).capture = some k

/-- Every session has a capture that goes on, and every subscription follows one. -/
structure Follow (m : Manager) : Prop where
  live : ∀ ws sid, (m.record ws).sessionId = some sid → ∃ k, (m.record ws).capture = some k ∧
    (m.capture k).sessionId = sid ∧ (m.capture k).ended = none
  follows : ∀ q < m.nextSub, ∃ k data, Follows m q k data

section

variable {m : Manager} {ws : Ws} {sid : SessionId} {k k₀ : CaptureId} {q : SubId} {data : Json}

/-- Who is told of a session has a subscription that stands and follows its capture. -/
theorem Follows.of_heard (hf : Follows m q k₀ data) (hgood : m.Good)
    (howner : m.sessions sid = some ws) (hcurrent : (m.record ws).capture = some k) {s : Ws}
    (hs : m.Heard (some sid) s q) : m.Stands q ∧ k₀ = k := by
  obtain ⟨hclient, hsubscription, hsession⟩ := hs
  have hstands : m.Stands q := by
    have heq := (hgood.linked.subscriptions s q hsubscription).2
    exact ⟨heq ▸ hclient, heq ▸ hsubscription⟩
  have hsessions₀ := hf.sessions hstands
  rw [Option.some.inj hsession, howner] at hsessions₀
  split_ifs at hsessions₀ with hended₀
  have hcurrent₀ := hf.current hstands hended₀
  rw [← Option.some.inj hsessions₀, hcurrent] at hcurrent₀
  exact ⟨hstands, (Option.some.inj hcurrent₀).symm⟩

/-- A subscription that stands and follows the capture of a session is one to that session. -/
theorem Follows.session_eq (hf : Follows m q k data) (hgood : m.Good)
    (hsid : (m.record ws).sessionId = some sid) (hcurrent : (m.record ws).capture = some k)
    (hended : (m.capture k).ended = none) (hstands : m.Stands q) : (m.sub q).sessionId = sid := by
  have hsessions₀ := hf.sessions hstands
  rw [if_pos hended, (hgood.linked.captures ws k hcurrent).2] at hsessions₀
  have hsid' := ((hgood.sessions.sessions _ ws).1 hsessions₀).2
  exact (Option.some.inj (hsid.symm.trans hsid')).symm

/-- It is told, unless its queue was closed. -/
theorem Follows.heard (hf : Follows m q k data) (hgood : m.Good)
    (howner : m.sessions sid = some ws) (hcurrent : (m.record ws).capture = some k)
    (hended : (m.capture k).ended = none) (hstands : m.Stands q)
    (hopen : (m.sub q).closing = false) :
    ∃ s ∈ (m.record ws).subscribers, m.Heard (some sid) s q := by
  have hsid := ((hgood.sessions.sessions sid ws).1 howner).2
  have hsession := hf.session_eq hgood hsid hcurrent hended hstands
  refine ⟨(m.sub q).socket, ?_, hstands.1, hstands.2, congrArg some hsession⟩
  exact hgood.sessions.holders sid ws _ howner ⟨hstands.1, q, hstands.2, hsession, hopen⟩

end

theorem Follow.told {m m' : Manager} (h : Follow m) (hgood : m.Good) {ws : Ws} {sid : SessionId}
    {k : CaptureId} (hws : ws ∈ m.clients) (hsid : (m.record ws).sessionId = some sid)
    (hcurrent : (m.record ws).capture = some k) (hended : (m.capture k).ended = none)
    {g : Subscription → Subscription} {x : Message} {isOver : Bool}
    (hg : Subscription.Tell g x isOver) {c : Capture}
    (hsame : c.socket = (m.capture k).socket ∧ c.sessionId = (m.capture k).sessionId ∧
      (m.capture k).framed.length ≤ c.framed.length ∧ c.ended.isSome = isOver)
    (hdue : ∀ data since, since ≤ (m.capture k).framed.length →
      due data c since = due data (m.capture k) since ++ [x])
    (hclients : m'.clients = m.clients) (hnext : m'.nextCapture = m.nextCapture)
    (hrecord : ∀ ws, (m'.record ws).subscription = (m.record ws).subscription ∧
      (m'.record ws).capture = (m.record ws).capture)
    (hcapture : ∀ k', m'.capture k' = if k' = k then c else m.capture k')
    (hsessions : m'.sessions = if isOver then Function.update m.sessions sid none else m.sessions)
    (hsub : ∀ q, ((∃ s ∈ (m.record ws).subscribers, m.Heard (some sid) s q) →
        m'.sub q = g (m.sub q)) ∧
      ((∀ s ∈ (m.record ws).subscribers, ¬m.Heard (some sid) s q) → m'.sub q = m.sub q)) :
    ∀ q < m.nextSub, ∃ k data, Follows m' q k data := by
  intro q hq
  obtain ⟨k₀, data, hf⟩ := h.follows q hq
  refine ⟨k₀, data, ?_⟩
  have howner : m.sessions sid = some ws := (hgood.sessions.sessions sid ws).2 ⟨hws, hsid⟩
  have hheard (s : Ws) (hs : m.Heard (some sid) s q) := hf.of_heard hgood howner hcurrent hs
  obtain ⟨hsub₁, hsub₂⟩ := hsub q
  have hqueued : (m.sub q).Queued (m'.sub q) := by
    by_cases hq' : ∃ s ∈ (m.record ws).subscribers, m.Heard (some sid) s q
    · rw [hsub₁ hq']
      exact hg.queued _
    · rw [hsub₂ fun s hs hh => hq' ⟨s, hs, hh⟩]
      exact .refl _
  have hfixed : (m'.sub q).source = (m.sub q).source ∧ (m'.sub q).since = (m.sub q).since := by
    rw [hqueued.rest]
    exact ⟨rfl, rfl⟩
  have hstands : m'.Stands q ↔ m.Stands q := by
    unfold Stands
    rw [hqueued.socket, hclients, (hrecord _).1]
  have hended' (hnone : (m'.capture k₀).ended = none) : (m.capture k₀).ended = none := by
    rw [hcapture] at hnone
    split_ifs at hnone with heq
    · rw [heq, hended]
    · exact hnone
  have hsocket' : (m'.capture k₀).socket = (m.capture k₀).socket := by
    rw [hcapture]
    split_ifs with heq
    · rw [heq, hsame.1]
    · rfl
  have hsession' : (m'.capture k₀).sessionId = (m.capture k₀).sessionId := by
    rw [hcapture]
    split_ifs with heq
    · rw [heq, hsame.2.1]
    · rfl
  have hlength : (m.capture k₀).framed.length ≤ (m'.capture k₀).framed.length := by
    rw [hcapture]
    split_ifs with heq
    · rw [heq]
      exact hsame.2.2.1
    · exact le_rfl
  refine ⟨hfixed.1.trans hf.source, hnext ▸ hf.capture, ?_, ?_, ?_, ?_, ?_, ?_, ?_⟩
  · rw [hsession', hqueued.sessionId]
    exact hf.session
  · rw [hfixed.2]
    exact hf.since.trans hlength
  · rw [hqueued.sessionId]
    exact hf.descriptor
  · rw [hfixed.2, hcapture]
    by_cases hq' : ∃ s ∈ (m.record ws).subscribers, m.Heard (some sid) s q
    · obtain ⟨s, hs, hh⟩ := hq'
      obtain ⟨hstands₀, rfl⟩ := hheard s hh
      rw [hsub₁ ⟨s, hs, hh⟩, if_pos rfl, hdue _ _ hf.since]
      by_cases hclosing : (m.sub q).closing = true
      · exact (hg.closing _ _ hclosing hf.lawful).grow (List.prefix_append _ _)
      · have hopen := Bool.eq_false_iff.2 hclosing
        have hstanding := hf.standing hstands₀ hopen
        rw [hended] at hstanding
        exact (hg.standing _ _ hopen hstanding hf.lawful).1
    · rw [hsub₂ fun s hs hh => hq' ⟨s, hs, hh⟩]
      split_ifs with heq
      · subst heq
        rw [hdue _ _ hf.since]
        exact hf.lawful.grow (List.prefix_append _ _)
      · exact hf.lawful
  · intro hstands' hopen'
    have hstands₀ := hstands.1 hstands'
    have hopen : (m.sub q).closing = false := by
      by_contra hclosing
      rw [hqueued.closing (by simpa using hclosing)] at hopen'
      cases hopen'
    have hstanding := hf.standing hstands₀ hopen
    rw [hfixed.2, hcapture]
    by_cases heq : k₀ = k
    · subst heq
      obtain ⟨s, hs, hh⟩ := hf.heard hgood howner hcurrent hended hstands₀ hopen
      rw [hsub₁ ⟨s, hs, hh⟩] at hopen' ⊢
      rw [if_pos rfl, hdue _ _ hf.since, hsame.2.2.2]
      rw [hended] at hstanding
      exact (hg.standing _ _ hopen hstanding hf.lawful).2 hopen'
    · rw [if_neg heq, hsub₂ fun s _ hh => heq (hheard s hh).2]
      exact hstanding
  · intro hstands'
    have hstands₀ := hstands.1 hstands'
    have hsessions₀ := hf.sessions hstands₀
    rw [hqueued.sessionId, hsessions, hsocket', hcapture]
    by_cases heq : k₀ = k
    · subst heq
      have hsid' := hf.session_eq hgood hsid hcurrent hended hstands₀
      rw [if_pos hended] at hsessions₀
      rw [if_pos rfl, ← hsame.2.2.2]
      cases hcase : c.ended with
      | none => simpa using hsessions₀
      | some e => simp [hsid']
    · rw [if_neg heq, ← hsessions₀]
      cases isOver with
      | false => rfl
      | true =>
        rw [if_pos rfl, Function.update_apply]
        split_ifs with hsid'
        · -- Two captures would be the current one of this session.
          rw [hsid', howner] at hsessions₀ ⊢
          split_ifs at hsessions₀ with hended₀
          have hcurrent₀ := hf.current hstands₀ hended₀
          rw [← Option.some.inj hsessions₀, hcurrent] at hcurrent₀
          exact absurd (Option.some.inj hcurrent₀).symm heq
        · rfl
  · intro hstands' hnone
    rw [hsocket', (hrecord _).2]
    exact hf.current (hstands.1 hstands') (hended' hnone)

/-! ## Steps that tell nobody anything -/

end Manager

/-- A sender task may go on from `sub` to `sub'`; `stands` says whether the subscription is still
there then. -/
structure Subscription.GoesOn (sub sub' : Subscription) (stands : Prop) : Prop where
  same : sub'.socket = sub.socket ∧ sub'.sessionId = sub.sessionId ∧ sub'.source = sub.source ∧
    sub'.since = sub.since
  lawful : ∀ law, sub.Lawful law → sub'.Lawful law
  standing : stands → sub'.closing = false → sub.closing = false ∧
    ∀ law isOver, sub.Standing law isOver → sub'.Standing law isOver

theorem Subscription.GoesOn.refl (sub : Subscription) (stands : Prop) : sub.GoesOn sub stands :=
  ⟨⟨rfl, rfl, rfl, rfl⟩, fun _ => id, fun _ hopen => ⟨hopen, fun _ _ => id⟩⟩

/-- Only flags of the task differ. -/
theorem Subscription.GoesOn.flags {sub sub' : Subscription} {stands : Prop}
    (h : sub' = { sub with sender := sub'.sender, cancelled := sub'.cancelled, closed :=
      sub'.closed })
    (hloops : sub'.sender.loops = true → sub.sender.loops = true)
    (hclosed : sub'.closed = true → sub.closed = true ∨ sub'.sender.loops = false) :
    sub.GoesOn sub' stands := by
  rw [h]
  refine ⟨⟨rfl, rfl, rfl, rfl⟩, fun law hlaw => ⟨?_, fun hclosing hl => ?_, fun hc => ?_⟩,
    fun _ hopen => ⟨hopen, fun _ _ => id⟩⟩
  · refine List.IsPrefix.trans ((List.prefix_append_right_inj _).2 ?_) hlaw.sent
    unfold pending
    dsimp only
    split_ifs with h₁ h₂
    · exact List.prefix_rfl
    · exact absurd (hloops h₁) h₂
    · exact List.nil_prefix
    · exact List.prefix_rfl
  · exact hlaw.closing hclosing (hloops hl)
  · rcases hclosed hc with hc | hl
    · by_contra hl
      have hl' := hlaw.closed hc
      rw [hloops (by simpa using hl)] at hl'
      cases hl'
    · exact hl

namespace Manager

/-- No session begins or ends, no block is framed and no subscription is made. -/
structure Mute (m m' : Manager) : Prop where
  next : m'.nextCapture = m.nextCapture ∧ m'.nextSub = m.nextSub
  sessions : m'.sessions = m.sessions
  record : ∀ ws, (m'.record ws).sessionId = (m.record ws).sessionId ∧
    (m'.record ws).capture = (m.record ws).capture ∧ (m'.record ws).framer = (m.record ws).framer
  stands : ∀ q, m'.Stands q → m.Stands q
  capture : ∀ k, (m'.capture k).socket = (m.capture k).socket ∧
    (m'.capture k).sessionId = (m.capture k).sessionId ∧
    (m'.capture k).framed = (m.capture k).framed ∧ (m'.capture k).ended = (m.capture k).ended ∧
    ((m.capture k).task = .done → (m'.capture k).task = .done)
  sub : ∀ q, (m.sub q).GoesOn (m'.sub q) (m'.Stands q)

theorem Mute.refl (m : Manager) : Mute m m :=
  ⟨⟨rfl, rfl⟩, rfl, fun _ => ⟨rfl, rfl, rfl⟩, fun _ => id, fun _ => ⟨rfl, rfl, rfl, rfl, id⟩,
    fun _ => .refl _ _⟩

theorem Mute.trans {m m' m'' : Manager} (h : Mute m m') (h' : Mute m' m'') : Mute m m'' where
  next := ⟨h'.next.1.trans h.next.1, h'.next.2.trans h.next.2⟩
  sessions := h'.sessions.trans h.sessions
  record ws := ⟨(h'.record ws).1.trans (h.record ws).1, (h'.record ws).2.1.trans (h.record ws).2.1,
    (h'.record ws).2.2.trans (h.record ws).2.2⟩
  stands q hq := h.stands q (h'.stands q hq)
  capture k := by
    obtain ⟨h₁, h₂, h₃, h₄, h₅⟩ := h.capture k
    obtain ⟨h₁', h₂', h₃', h₄', h₅'⟩ := h'.capture k
    exact ⟨h₁'.trans h₁, h₂'.trans h₂, h₃'.trans h₃, h₄'.trans h₄, fun hdone => h₅' (h₅ hdone)⟩
  sub q := by
    obtain ⟨⟨h₁, h₂, h₃, h₄⟩, hlawful, hstanding⟩ := h.sub q
    obtain ⟨⟨h₁', h₂', h₃', h₄'⟩, hlawful', hstanding'⟩ := h'.sub q
    refine ⟨⟨h₁'.trans h₁, h₂'.trans h₂, h₃'.trans h₃, h₄'.trans h₄⟩,
      fun law hlaw => hlawful' law (hlawful law hlaw), fun hstands hopen => ?_⟩
    obtain ⟨hopen', hgo'⟩ := hstanding' hstands hopen
    obtain ⟨hopen'', hgo⟩ := hstanding (h'.stands q hstands) hopen'
    exact ⟨hopen'', fun law isOver hs => hgo' law isOver (hgo law isOver hs)⟩

theorem Follow.mute {m m' : Manager} (h : Follow m) (hm : Mute m m') : Follow m' where
  live ws sid hsid := by
    rw [(hm.record ws).1] at hsid
    obtain ⟨k, hk, hsession, hended⟩ := h.live ws sid hsid
    obtain ⟨-, h₂, -, h₄, -⟩ := hm.capture k
    exact ⟨k, (hm.record ws).2.1.trans hk, h₂.trans hsession, h₄.trans hended⟩
  follows q hq := by
    obtain ⟨k, data, hf⟩ := h.follows q (hm.next.2 ▸ hq)
    obtain ⟨hsocket, hsid, hframed, hended, -⟩ := hm.capture k
    obtain ⟨⟨-, hsession, hsource, hsince⟩, hlawful, hstanding⟩ := hm.sub q
    have hdue (since : Nat) : due data (m'.capture k) since = due data (m.capture k) since := by
      unfold due
      rw [hframed, hended]
    refine ⟨k, data, hsource.trans hf.source, hm.next.1 ▸ hf.capture, ?_, ?_, ?_, ?_, ?_, ?_, ?_⟩
    · rw [hsid, hsession]
      exact hf.session
    · rw [hsince, hframed]
      exact hf.since
    · rw [hsession]
      exact hf.descriptor
    · rw [hsince, hdue]
      exact hlawful _ hf.lawful
    · intro hstands hopen
      obtain ⟨hopen', hgo⟩ := hstanding hstands hopen
      rw [hsince, hdue, hended]
      exact hgo _ _ (hf.standing (hm.stands q hstands) hopen')
    · intro hstands
      rw [hm.sessions, hsession, hended, hsocket]
      exact hf.sessions (hm.stands q hstands)
    · intro hstands hnone
      rw [hsocket, (hm.record _).2.1]
      exact hf.current (hm.stands q hstands) (hended ▸ hnone)

/-! ## The framer and the task of a capture -/

/-- The framer of a session has framed what its capture has, and one that is not used is empty; a
stream task that goes on belongs to a session. -/
structure Framing (m : Manager) : Prop where
  empty : ∀ ws, (m.record ws).sessionId = none → (m.record ws).framer = {}
  framer : ∀ ws k, (m.record ws).sessionId ≠ none → (m.record ws).capture = some k →
    (m.record ws).framer.Replays (m.capture k).framed
  running : ∀ k < m.nextCapture, (m.capture k).task ≠ .done →
    (m.record (m.capture k).socket).sessionId ≠ none

theorem Framing.mute {m m' : Manager} (h : Framing m) (hm : Mute m m') : Framing m' where
  empty ws hnone := by
    obtain ⟨hsession, -, hframer⟩ := hm.record ws
    rw [hframer]
    exact h.empty ws (hsession ▸ hnone)
  framer ws k hsome hk := by
    obtain ⟨hsession, hcapture, hframer⟩ := hm.record ws
    rw [hframer, (hm.capture k).2.2.1]
    exact h.framer ws k (hsession ▸ hsome) (hcapture ▸ hk)
  running k hk hrunning := by
    obtain ⟨hsocket, -, -, -, hdone⟩ := hm.capture k
    rw [hsocket, (hm.record _).1]
    exact h.running k (hm.next.1 ▸ hk) fun hd => hrunning (hdone hd)

/-- The part of the invariant that is about streams. -/
structure Streams (m : Manager) : Prop where
  follow : Follow m
  framing : Framing m

theorem Streams.mute {m m' : Manager} (h : Streams m) (hm : Mute m m') : Streams m' :=
  ⟨h.follow.mute hm, h.framing.mute hm⟩

/-! ## Mute methods -/

section

variable {m m' : Manager}

/-- Records may lose their subscription, and clients may go. -/
theorem mute_records (hrest : m'.capture = m.capture ∧ m'.sub = m.sub ∧
      m'.nextCapture = m.nextCapture ∧ m'.nextSub = m.nextSub ∧ m'.sessions = m.sessions)
    (hclients : ∀ ws ∈ m'.clients, ws ∈ m.clients)
    (hrecord : ∀ ws, (m'.record ws).sessionId = (m.record ws).sessionId ∧
      (m'.record ws).capture = (m.record ws).capture ∧
      (m'.record ws).framer = (m.record ws).framer ∧
      ∀ q, (m'.record ws).subscription = some q → (m.record ws).subscription = some q) :
    Mute m m' := by
  obtain ⟨hcapture, hsub, hnext, hnext', hsessions⟩ := hrest
  refine ⟨⟨hnext, hnext'⟩, hsessions, fun ws => ?_, fun q hq => ?_, fun k => ?_, fun q => ?_⟩
  · exact ⟨(hrecord ws).1, (hrecord ws).2.1, (hrecord ws).2.2.1⟩
  · unfold Stands at hq ⊢
    rw [hsub] at hq
    exact ⟨hclients _ hq.1, (hrecord _).2.2.2 q hq.2⟩
  · rw [hcapture]
    exact ⟨rfl, rfl, rfl, rfl, id⟩
  · rw [hsub]
    exact .refl _ _

theorem mute_updateClient (m : Manager) (ws : Ws) {f : Client → Client}
    (hf : ∀ c, (f c).sessionId = c.sessionId ∧ (f c).capture = c.capture ∧
      (f c).framer = c.framer ∧ (f c).subscription = c.subscription) :
    Mute m (m.updateClient ws f) := by
  refine mute_records ⟨rfl, rfl, rfl, rfl, rfl⟩ (fun _ => id) fun ws' => ?_
  rw [updateClient_record]
  split_ifs with heq
  · obtain ⟨h₁, h₂, h₃, h₄⟩ := hf (m.record ws)
    rw [heq, h₁, h₂, h₃, h₄]
    exact ⟨rfl, rfl, rfl, fun _ => id⟩
  · exact ⟨rfl, rfl, rfl, fun _ => id⟩

theorem mute_updateCapture (m : Manager) {k : CaptureId} {f : Capture → Capture}
    (hf : ∀ c, (f c).socket = c.socket ∧ (f c).sessionId = c.sessionId ∧ (f c).framed = c.framed ∧
      (f c).ended = c.ended)
    (hdone : (m.capture k).task = .done → (f (m.capture k)).task = .done) :
    Mute m (m.updateCapture k f) := by
  refine ⟨⟨rfl, rfl⟩, rfl, fun _ => ⟨rfl, rfl, rfl⟩, fun _ => id, fun k' => ?_, fun _ => .refl _ _⟩
  rw [updateCapture_capture]
  split_ifs with heq
  · obtain ⟨h₁, h₂, h₃, h₄⟩ := hf (m.capture k)
    rw [heq]
    exact ⟨h₁, h₂, h₃, h₄, hdone⟩
  · exact ⟨rfl, rfl, rfl, rfl, id⟩

theorem mute_updateSub (m : Manager) {q : SubId} {f : Subscription → Subscription}
    (hf : (m.sub q).GoesOn (f (m.sub q)) (m.Stands q)) : Mute m (m.updateSub q f) := by
  have hstands (q' : SubId) : (m.updateSub q f).Stands q' ↔ m.Stands q' := by
    unfold Stands
    rw [updateSub_sub]
    split_ifs with heq
    · rw [heq, hf.same.1]
      exact Iff.rfl
    · exact Iff.rfl
  refine ⟨⟨rfl, rfl⟩, rfl, fun _ => ⟨rfl, rfl, rfl⟩, fun q' => (hstands q').1,
    fun _ => ⟨rfl, rfl, rfl, rfl, id⟩, fun q' => ?_⟩
  rw [updateSub_sub]
  split_ifs with heq
  · rw [heq, hstands]
    exact hf
  · exact .refl _ _

theorem mute_releaseInterfaces (m : Manager) (ws : Ws) : Mute m (m.releaseInterfaces ws) := by
  have hrest := m.releaseInterfaces_rest ws
  refine mute_records ⟨?_, ?_, ?_, ?_, ?_⟩ (fun ws' => ?_) fun ws' => ?_
  · rw [hrest]
  · rw [hrest]
  · rw [hrest]
  · rw [hrest]
  · rw [hrest]
  · rw [hrest]
    exact id
  · rw [releaseInterfaces_record]
    exact ⟨rfl, rfl, rfl, fun _ => id⟩

theorem mute_claimInterfaces {ws : Ws} {interfaces : List Iface}
    (h : m.claimInterfaces ws interfaces = .ok m') : Mute m m' := by
  obtain ⟨-, -, rfl⟩ := claimInterfaces_ok h
  refine mute_records ⟨rfl, rfl, rfl, rfl, rfl⟩ (fun _ => id) fun ws' => ?_
  rw [updateClient_record]
  split_ifs with heq
  · rw [heq]
    exact ⟨rfl, rfl, rfl, fun _ => id⟩
  · exact ⟨rfl, rfl, rfl, fun _ => id⟩

theorem mute_forget (m : Manager) (ws : Ws) : Mute m (m.forget ws) :=
  mute_records ⟨rfl, rfl, rfl, rfl, rfl⟩ (fun _ => List.mem_of_mem_erase)
    fun _ => ⟨rfl, rfl, rfl, fun _ => id⟩

theorem mute_dropSubscription (m : Manager) (ws : Ws) (q : SubId) :
    Mute m (m.dropSubscription ws q) := by
  have hrest := m.dropSubscription_rest ws q
  refine mute_records ⟨?_, ?_, ?_, ?_, ?_⟩ (fun ws' => ?_) fun ws' => ?_
  · rw [hrest]
  · rw [hrest]
  · rw [hrest]
  · rw [hrest]
  · rw [hrest]
  · rw [hrest]
    exact id
  · rw [dropSubscription_record]
    refine ⟨rfl, rfl, rfl, fun q' => ?_⟩
    dsimp only
    split_ifs
    · rintro ⟨⟩
    · exact id

theorem mute_clearSubscription (m : Manager) (ws : Ws) (expected : Option SessionId)
    (current : Option SubId) : Mute m (m.clearSubscription ws expected current).1 := by
  rcases m.clearSubscription_cases ws expected current with ⟨hnone, -⟩ | ⟨q, -, -, hsome⟩
  · rw [hnone]
    exact .refl m
  · have hdropped := m.mute_dropSubscription ws q
    rw [hsome]
    dsimp only
    split_ifs
    · exact hdropped
    · exact hdropped.trans (mute_updateSub _ (.flags rfl id Or.inl))

theorem mute_configure (m : Manager) (ws : Ws) (iface : Iface) (config : CaptureInterfaceConfig) :
    Mute m (m.configure ws iface config) := by
  unfold configure
  split_ifs
  · exact mute_updateClient m ws fun c => ⟨rfl, rfl, rfl, rfl⟩
  · exact .refl m

/-! ## The sender task -/

theorem clearSubscription_sub (m : Manager) (ws : Ws) (expected : Option SessionId)
    (current : Option SubId) (q : SubId) : ∃ cancelled,
    (m.clearSubscription ws expected current).1.sub q = { m.sub q with cancelled } := by
  rcases m.clearSubscription_cases ws expected current with ⟨hnone, -⟩ | ⟨q', -, -, hsome⟩
  · rw [hnone]
    exact ⟨_, rfl⟩
  · have hsub : (m.dropSubscription ws q').sub = m.sub := by rw [dropSubscription_rest]
    rw [hsome]
    dsimp only
    split_ifs
    · rw [hsub]
      exact ⟨_, rfl⟩
    · rw [updateSub_sub, hsub]
      split_ifs with heq
      · rw [heq]
        exact ⟨true, rfl⟩
      · exact ⟨_, rfl⟩

theorem mute_finishSender (m : Manager) (q : SubId) : Mute m (m.finishSender q) := by
  unfold finishSender
  refine (m.mute_clearSubscription _ _ _).trans (mute_updateSub _ (.flags rfl ?_ Or.inl))
  rintro ⟨⟩

/-- A sender task that is done has no subscription. -/
theorem not_stands_finishSender (m : Manager) (q : SubId) : ¬(m.finishSender q).Stands q := by
  set ws := (m.sub q).socket with hws
  obtain ⟨cancelled, hsub⟩ := m.clearSubscription_sub ws (some (m.sub q).sessionId) (some q) q
  intro hstands
  have hsocket : ((m.finishSender q).sub q).socket = ws := by
    unfold finishSender
    rw [updateSub_sub, if_pos rfl, ← hws, hsub]
  unfold Stands at hstands
  rw [hsocket] at hstands
  unfold finishSender at hstands
  rw [updateSub_record, updateSub_clients, ← hws] at hstands
  rcases m.clearSubscription_cases ws (some (m.sub q).sessionId) (some q) with
    ⟨hnone, hother⟩ | ⟨q', -, hq', hsome⟩
  · rw [hnone] at hstands
    obtain ⟨sid, hsid, hne⟩ := hother hstands.1 q hstands.2
    exact hne (Option.some.inj hsid).symm
  · rw [hsome] at hstands
    dsimp only at hstands
    have hnone := hstands.2
    split_ifs at hnone
    · simp at hnone
    · simp at hnone

/-- The item that ends the loop is taken from the queue. -/
theorem mute_complete (m : Manager) (q : SubId) (queue : List Item) :
    Mute m ((m.updateSub q ({ · with queue })).finishSender q) := by
  set m₁ := m.updateSub q ({ · with queue }) with hm₁
  have hmute := m₁.mute_finishSender q
  have hstands (q' : SubId) (h : m₁.Stands q') : m.Stands q' := by
    by_cases heq : q' = q
    · subst heq
      simpa [Stands, hm₁] using h
    · simpa [Stands, hm₁, heq] using h
  refine ⟨hmute.next, hmute.sessions, hmute.record, fun q' h => hstands q' (hmute.stands q' h),
    hmute.capture, fun q' => ?_⟩
  by_cases heq : q' = q
  · subst heq
    have hsub : (m₁.finishSender q').sub q' =
        { m.sub q' with queue, sender := .done, cancelled := false } := by
      obtain ⟨cancelled, hclear⟩ := m₁.clearSubscription_sub (m₁.sub q').socket
        (some (m₁.sub q').sessionId) (some q') q'
      unfold finishSender
      rw [updateSub_sub, if_pos rfl, hclear, hm₁, updateSub_sub, if_pos rfl]
    rw [hsub]
    refine ⟨⟨rfl, rfl, rfl, rfl⟩, fun law hlaw =>
      ⟨?_, fun _ hl => ?_, fun _ => rfl⟩, fun hstands' => ?_⟩
    · simpa [Subscription.pending, Sender.loops] using (List.prefix_append _ _).trans hlaw.sent
    · cases hl
    · exact absurd hstands' (m₁.not_stands_finishSender q')
  · have hgo := hmute.sub q'
    rwa [hm₁, updateSub_sub, if_neg heq] at hgo

theorem mute_sender {q : SubId} (h : SenderStep m q m') : Mute m m' := by
  cases h with
  | wait hloops hqueue => exact mute_updateSub m (.flags rfl (fun _ => hloops) Or.inl)
  | send msg queue hloops hqueue =>
    refine mute_updateSub m ⟨⟨rfl, rfl, rfl, rfl⟩, fun law hlaw =>
      ⟨?_, fun hclosing _ => ?_, fun hc => ?_⟩,
      fun _ hopen => ⟨hopen, fun law isOver hs => ?_⟩⟩
    · have hsent := hlaw.sent
      rw [Subscription.pending, if_pos hloops, hqueue] at hsent
      simpa [Subscription.pending, Sender.loops, coming] using hsent
    · have hhead := hlaw.closing hclosing hloops
      rw [hqueue] at hhead
      cases hhead
    · rw [hlaw.closed hc] at hloops
      cases hloops
    · obtain ⟨msgs, hmsgs, hsent⟩ := hs
      rw [hqueue] at hmsgs
      cases msgs with
      | nil => cases isOver <;> cases hmsgs
      | cons x msgs =>
        obtain ⟨hx, htail⟩ := List.cons.inj hmsgs
        cases hx
        exact ⟨msgs, htail, by simpa using hsent⟩
  | close queue hloops hqueue =>
    refine mute_updateSub m ⟨⟨rfl, rfl, rfl, rfl⟩, fun law hlaw =>
      ⟨?_, fun _ hl => ?_, fun _ => rfl⟩,
      fun _ hopen => ⟨hopen, fun law isOver hs => ?_⟩⟩
    · simpa [Subscription.pending, Sender.loops] using (List.prefix_append _ _).trans hlaw.sent
    · cases hl
    · obtain ⟨msgs, hmsgs, -⟩ := hs
      rw [hqueue] at hmsgs
      cases msgs with
      | nil => cases isOver <;> cases hmsgs
      | cons x msgs => cases hmsgs
  | complete queue hloops hqueue => exact m.mute_complete q queue
  | timeOut hsending =>
    refine mute_updateSub m (.flags rfl ?_ fun _ => Or.inr rfl)
    rintro ⟨⟩
  | finish hrunning => exact m.mute_finishSender q
  | never hcreated hcancelled =>
    refine mute_updateSub m (.flags rfl ?_ Or.inl)
    rintro ⟨⟩

end

/-! ## Telling subscribers -/

variable {m : Manager}

theorem Follow.broadcastBlock (h : Follow m) (hgood : m.Good) {ws : Ws} {k : CaptureId}
    (hws : ws ∈ m.clients) (hcurrent : (m.record ws).capture = some k)
    (hsession : (m.record ws).sessionId ≠ none) (block : Block) :
    Follow (Manager.broadcastBlock ws k m block) := by
  obtain ⟨sid, hsid⟩ := Option.ne_none_iff_exists'.1 hsession
  obtain ⟨k', hk', -, hended⟩ := h.live ws sid hsid
  obtain rfl : k = k' := Option.some.inj (hcurrent.symm.trans hk')
  have hfanned := fannedOut_queueSubscriberBlock ws m block
  have hrecord (ws' : Ws) : (Manager.broadcastBlock ws k m block).record ws' = _ :=
    hfanned.record ws'
  have hcapture (k' : CaptureId) : (Manager.broadcastBlock ws k m block).capture k' =
      if k' = k then { m.capture k with framed := (m.capture k).framed ++ [block] }
      else m.capture k' := by
    unfold Manager.broadcastBlock
    rw [updateCapture_capture, hfanned.capture]
  refine ⟨fun ws' sid' hsid' => ?_, ?_⟩
  · rw [hrecord] at hsid'
    obtain ⟨k', hk', hsession', hended'⟩ := h.live ws' sid' hsid'
    refine ⟨k', ?_, ?_, ?_⟩
    · rw [hrecord]
      exact hk'
    · rw [hcapture]
      split_ifs with heq
      · rwa [heq] at hsession'
      · exact hsession'
    · rw [hcapture]
      split_ifs
      · exact hended
      · exact hended'
  · have hnext : (Manager.broadcastBlock ws k m block).nextSub = m.nextSub := by
      unfold Manager.broadcastBlock
      rw [hfanned.rest]
      rfl
    rw [hnext]
    refine h.told (c := { m.capture k with framed := (m.capture k).framed ++ [block] })
      hgood hws hsid
      hcurrent hended (Subscription.tell_block (.bytes block)) ⟨rfl, rfl, ?_, ?_⟩
      (fun data since hsince => due_framed hended hsince block) ?_ ?_ (fun ws' => ?_) hcapture ?_ ?_
    · simp
    · simp [hended]
    · unfold Manager.broadcastBlock
      rw [hfanned.rest]
      rfl
    · unfold Manager.broadcastBlock
      rw [hfanned.rest]
      rfl
    · rw [hrecord]
      exact ⟨rfl, rfl⟩
    · unfold Manager.broadcastBlock
      rw [hfanned.rest]
      rfl
    · refine tells_all (f := queueBlock ws block)
        (g := fun sub => if sub.closing then sub else sub.putOrClose (.message (.bytes block)))
        (P := fun m => (m.record ws).sessionId = some sid) (fun m s hP => ⟨?_, ?_⟩)
        (hgood.sessions.nodup ws) hsid (fun s q hq => (hgood.linked.subscriptions s q hq).2)
        fun sub => ?_
      · rw [(fannedOut_queueBlock ws block m s).record]
        exact hP
      · exact tells_queueBlock block m s hP
      · exact ((Subscription.tell_block (.bytes block)).queued sub).socket

theorem Good.broadcastBlock (h : Good m) (ws : Ws) (k : CaptureId) (block : Block) :
    Good (Manager.broadcastBlock ws k m block) :=
  (h.queueSubscriberBlock ws block).updateCapture ⟨rfl, id⟩

theorem Follow.broadcastBlocks {ws : Ws} {k : CaptureId} (blocks : List Block) (h : Follow m)
    (hgood : m.Good) (hws : ws ∈ m.clients) (hcurrent : (m.record ws).capture = some k)
    (hsession : (m.record ws).sessionId ≠ none) :
    Follow (blocks.foldl (Manager.broadcastBlock ws k) m) := by
  induction blocks generalizing m with
  | nil => exact h
  | cons block blocks ih =>
    have hfanned := fannedOut_queueSubscriberBlock ws m block
    have hrecord (ws' : Ws) : (Manager.broadcastBlock ws k m block).record ws' = _ :=
      hfanned.record ws'
    refine ih (h.broadcastBlock hgood hws hcurrent hsession block) (hgood.broadcastBlock ws k block)
      ?_ ?_ ?_
    · unfold Manager.broadcastBlock
      rw [hfanned.rest]
      exact hws
    · rw [hrecord]
      exact hcurrent
    · rw [hrecord]
      exact hsession

/-- A record's framer, among others, is not what subscriptions are about. -/
theorem Follow.updateClient (h : Follow m) {ws : Ws} {f : Client → Client}
    (hf : (f (m.record ws)).sessionId = (m.record ws).sessionId ∧
      (f (m.record ws)).capture = (m.record ws).capture ∧
      (f (m.record ws)).subscription = (m.record ws).subscription) :
    Follow (m.updateClient ws f) := by
  have hrecord (ws' : Ws) : ((m.updateClient ws f).record ws').sessionId =
    (m.record ws').sessionId ∧
      ((m.updateClient ws f).record ws').capture = (m.record ws').capture ∧
      ((m.updateClient ws f).record ws').subscription = (m.record ws').subscription := by
    rw [updateClient_record]
    split_ifs with heq
    · rw [heq]
      exact hf
    · exact ⟨rfl, rfl, rfl⟩
  have hstands (q : SubId) (hq : (m.updateClient ws f).Stands q) : m.Stands q := by
    unfold Stands at hq
    rw [(hrecord _).2.2] at hq
    exact hq
  refine ⟨fun ws' sid hsid => ?_, fun q hq => ?_⟩
  · obtain ⟨k, hk, hrest⟩ := h.live ws' sid ((hrecord ws').1 ▸ hsid)
    exact ⟨k, (hrecord ws').2.1.trans hk, hrest⟩
  · obtain ⟨k, data, hf⟩ := h.follows q hq
    exact ⟨k, data, hf.source, hf.capture, hf.session, hf.since, hf.descriptor, hf.lawful,
      fun hs => hf.standing (hstands q hs), fun hs => hf.sessions (hstands q hs),
      fun hs hnone => (hrecord _).2.1.trans (hf.current (hstands q hs) hnone)⟩

theorem broadcastBlocks_record (ws : Ws) (k : CaptureId) (blocks : List Block) (m : Manager)
    (ws' : Ws) : ∃ subscribers, (blocks.foldl (Manager.broadcastBlock ws k) m).record ws' =
      { m.record ws' with subscribers } := by
  induction blocks generalizing m with
  | nil => exact ⟨_, rfl⟩
  | cons block blocks ih =>
    obtain ⟨subscribers, hrecord⟩ := ih (Manager.broadcastBlock ws k m block)
    refine ⟨subscribers, ?_⟩
    rw [List.foldl_cons, hrecord]
    unfold Manager.broadcastBlock
    rw [updateCapture_record, (fannedOut_queueSubscriberBlock ws m block).record]

theorem broadcastBlocks_nextCapture (ws : Ws) (k : CaptureId) (blocks : List Block) (m : Manager) :
    (blocks.foldl (Manager.broadcastBlock ws k) m).nextCapture = m.nextCapture := by
  induction blocks generalizing m with
  | nil => rfl
  | cons block blocks ih =>
    rw [List.foldl_cons, ih]
    unfold Manager.broadcastBlock
    rw [updateCapture_nextCapture, (fannedOut_queueSubscriberBlock ws m block).rest]

theorem Streams.broadcastChunk (h : Streams m) (hgood : m.Good) {k : CaptureId}
    (hk : k < m.nextCapture) (hrunning : (m.capture k).task ≠ .done) (chunk : List UInt8) :
    Streams (m.broadcastChunk k chunk) := by
  obtain ⟨hws, hcurrent⟩ := hgood.linked.streams k hk hrunning
  have hsession := h.framing.running k hk hrunning
  have hframer := h.framing.framer _ k hsession hcurrent
  set ws := (m.capture k).socket with hsocket
  set framed := pcapngBlocks (m.record ws).framer chunk with hframed
  set m₁ := m.updateClient ws ({ · with framer := framed.1 }) with hm₁
  have hbroadcast : m.broadcastChunk k chunk = framed.2.foldl (Manager.broadcastBlock ws k) m₁ :=
    rfl
  have hrecord (ws' : Ws) : (m.broadcastChunk k chunk).record ws' = { m.record ws' with
      framer := if ws' = ws then framed.1 else (m.record ws').framer
      subscribers := ((m.broadcastChunk k chunk).record ws').subscribers } := by
    obtain ⟨subscribers, hsame⟩ := broadcastBlocks_record ws k framed.2 m₁ ws'
    rw [hbroadcast, hsame, hm₁, updateClient_record]
    split_ifs with heq
    · rw [heq]
    · rfl
  have hcapture := m.broadcastChunk_capture k chunk
  refine ⟨?_, fun ws' hnone => ?_, fun ws' k' hsome hk' => ?_, fun k' hk' hrunning' => ?_⟩
  · have hgood₁ : m₁.Good := hgood.updateClient _ _ fun c => ⟨rfl, rfl, rfl, rfl, rfl⟩
    have hfollow₁ : m₁.Follow := h.follow.updateClient ⟨rfl, rfl, rfl⟩
    rw [hbroadcast]
    refine hfollow₁.broadcastBlocks framed.2 hgood₁ hws ?_ ?_
    · simpa [hm₁] using hcurrent
    · simpa [hm₁] using hsession
  · rw [hrecord] at hnone ⊢
    dsimp only at hnone ⊢
    split_ifs with heq
    · rw [heq] at hnone
      exact absurd hnone hsession
    · exact h.framing.empty ws' hnone
  · rw [hrecord] at hsome hk' ⊢
    rw [hcapture]
    dsimp only at hsome hk' ⊢
    split_ifs with heq hsame hsame
    · rw [hsame]
      exact hframer.pcapngBlocks chunk
    · rw [heq, hcurrent] at hk'
      exact absurd (Option.some.inj hk').symm hsame
    · -- The capture of another socket is another one.
      rw [hsame] at hk'
      exact absurd (hgood.linked.captures ws' k hk').2.symm heq
    · exact h.framing.framer ws' k' hsome hk'
  · rw [hcapture] at hrunning' ⊢
    rw [hrecord]
    rw [hbroadcast, broadcastBlocks_nextCapture] at hk'
    exact h.framing.running k' hk' hrunning'

/-! ## The end of a session -/

theorem Follow.endSession (h : Follow m) (hgood : m.Good) {ws : Ws} (hws : ws ∈ m.clients)
    (code message : String) : Follow (m.endSession ws code message) := by
  cases hsid : (m.record ws).sessionId with
  | none =>
    rw [endSession_none m ws code message hsid]
    exact h.updateClient ⟨hsid.symm, rfl, rfl⟩
  | some sid =>
    obtain ⟨k, hcurrent, -, hended⟩ := h.live ws sid hsid
    set e := endEvent code message sid with he
    set m₁ := m.closeSession ws sid e with hm₁
    have hend : m.endSession ws code message =
        (m.record ws).subscribers.foldl (notifyEnd (some sid) e) m₁ := by
      unfold Manager.endSession
      rw [hsid]
    have hdelivered := delivered_notifyEnds (some sid) e m₁ (m.record ws).subscribers
    rw [← hend] at hdelivered
    have hrest := m.closeSession_rest ws sid e
    have hcapture (k' : CaptureId) : (m.endSession ws code message).capture k' =
        if k' = k then { m.capture k with ended := some e } else m.capture k' := by
      rw [hdelivered.rest]
      dsimp only
      rw [closeSession_capture, hcurrent]
      split_ifs with h₁ h₂ h₂
      · rw [h₂]
      · exact absurd (Option.some.inj h₁).symm h₂
      · exact absurd (congrArg some h₂.symm) h₁
      · rfl
    refine ⟨fun ws' sid' hsid' => ?_, ?_⟩
    · rw [endSession_record] at hsid'
      split_ifs at hsid' with heq
      · cases hsid'
      · obtain ⟨k', hk', hsession', hended'⟩ := h.live ws' sid' hsid'
        have hne : k' ≠ k := by
          rintro rfl
          exact heq ((hgood.linked.captures ws' k' hk').2.symm.trans
            (hgood.linked.captures ws k' hcurrent).2)
        refine ⟨k', ?_, ?_, ?_⟩
        · rw [endSession_record, if_neg heq]
          exact hk'
        · rw [hcapture, if_neg hne]
          exact hsession'
        · rw [hcapture, if_neg hne]
          exact hended'
    · have hnext : (m.endSession ws code message).nextSub = m.nextSub := by
        rw [endSession_rest]
      rw [hnext]
      refine h.told (c := { m.capture k with ended := some e }) hgood hws hsid hcurrent hended
        (Subscription.tell_end e) ⟨rfl, rfl, le_rfl, rfl⟩ (fun data since _ => due_ended hended e)
        (by simp) (by rw [endSession_rest]) (fun ws' => ?_) hcapture ?_ fun q => ?_
      · rw [endSession_record]
        split_ifs with heq
        · rw [heq]
          exact ⟨rfl, rfl⟩
        · exact ⟨rfl, rfl⟩
      · rw [endSession_sessions, hsid]
        rfl
      · have hsub : m₁.sub = m.sub := by rw [hm₁, hrest]
        have hclients : m₁.clients = m.clients := by rw [hm₁, hrest]
        have hsubscription (s : Ws) : (m₁.record s).subscription = (m.record s).subscription := by
          rw [hm₁, closeSession_record]
          split_ifs with heq
          · rw [heq]
            rfl
          · rfl
        have hheard (s : Ws) : m₁.Heard (some sid) s q ↔ m.Heard (some sid) s q := by
          rw [heard_iff, heard_iff, hsub, hclients, hsubscription]
        have htells := tells_all (f := notifyEnd (some sid) e) (g := (·.putEnd e))
          (P := fun _ => True) (fun m s _ => ⟨trivial, tells_notifyEnd e m s⟩)
          (hgood.sessions.nodup ws) (m := m₁) trivial (fun s q hq => by
            rw [hsubscription] at hq
            rw [hsub]
            exact (hgood.linked.subscriptions s q hq).2)
          (fun sub => ((Subscription.tell_end e).queued sub).socket) q
        simp only [hheard] at htells
        rwa [hend, ← hsub]

/-- A capture without a session may be forgotten. -/
theorem Follow.forgetCapture (h : Follow m) (hgood : m.Good) {ws : Ws} {f : Client → Client}
    (hf : (f (m.record ws)).sessionId = none ∧ (m.record ws).sessionId = none ∧
      (f (m.record ws)).subscription = (m.record ws).subscription) :
    Follow (m.updateClient ws f) := by
  have hsubscription (ws' : Ws) :
      ((m.updateClient ws f).record ws').subscription = (m.record ws').subscription := by
    rw [updateClient_record]
    split_ifs with heq
    · rw [heq, hf.2.2]
    · rfl
  have hstands (q : SubId) (hq : (m.updateClient ws f).Stands q) : m.Stands q := by
    unfold Stands at hq
    rw [hsubscription] at hq
    exact hq
  refine ⟨fun ws' sid hsid => ?_, fun q hq => ?_⟩
  · rw [updateClient_record] at hsid ⊢
    split_ifs at hsid ⊢
    · cases hf.1.symm.trans hsid
    · exact h.live ws' sid hsid
  · obtain ⟨k, data, hfollows⟩ := h.follows q hq
    refine ⟨k, data, hfollows.source, hfollows.capture, hfollows.session, hfollows.since,
      hfollows.descriptor, hfollows.lawful, fun hs => hfollows.standing (hstands q hs),
      fun hs => hfollows.sessions (hstands q hs), fun hs hnone => ?_⟩
    rw [updateClient_capture] at hnone
    have hs' := hstands q hs
    have hcurrent := hfollows.current hs' hnone
    rw [updateClient_capture, updateClient_record, if_neg]
    · exact hcurrent
    · -- A capture that goes on has a session.
      intro heq
      have hsessions := hfollows.sessions hs'
      rw [if_pos hnone, heq] at hsessions
      have hsid := ((hgood.sessions.sessions _ ws).1 hsessions).2
      rw [hf.2.1] at hsid
      cases hsid

/-- The session of `ws` ended, and none of its stream tasks goes on. -/
theorem Framing.ended {m' : Manager} (h : Framing m) (ws : Ws)
    (hrecord : ∀ ws' ≠ ws, (m'.record ws').sessionId = (m.record ws').sessionId ∧
      (m'.record ws').capture = (m.record ws').capture ∧
      (m'.record ws').framer = (m.record ws').framer)
    (hws : (m'.record ws).sessionId = none ∧ (m'.record ws).framer = {})
    (hcapture : ∀ k, (m'.capture k).framed = (m.capture k).framed ∧
      (m'.capture k).socket = (m.capture k).socket)
    (hnext : m'.nextCapture = m.nextCapture)
    (hrunning : ∀ k < m.nextCapture, (m'.capture k).task ≠ .done →
      (m.capture k).task ≠ .done ∧ (m.capture k).socket ≠ ws) : Framing m' where
  empty ws' hnone := by
    by_cases heq : ws' = ws
    · rw [heq, hws.2]
    · rw [(hrecord ws' heq).2.2]
      exact h.empty ws' ((hrecord ws' heq).1 ▸ hnone)
  framer ws' k hsome hk := by
    by_cases heq : ws' = ws
    · rw [heq, hws.1] at hsome
      exact absurd rfl hsome
    · obtain ⟨hsession, hcurrent, hframer⟩ := hrecord ws' heq
      rw [hframer, (hcapture k).1]
      exact h.framer ws' k (hsession ▸ hsome) (hcurrent ▸ hk)
  running k hk hgoes := by
    obtain ⟨hgoes', hne⟩ := hrunning k (hnext ▸ hk) hgoes
    rw [(hcapture k).2, (hrecord _ hne).1]
    exact h.running k (hnext ▸ hk) hgoes'

theorem Streams.finishStop (h : Streams m) (hgood : m.Good) {ws : Ws} (hws : ws ∈ m.clients)
    (hdone : ∀ k, (m.record ws).capture = some k → (m.capture k).task = .done) :
    Streams (m.finishStop ws) := by
  have hreleased := h.follow.mute (m.mute_releaseInterfaces ws)
  have hgood₁ := hgood.releaseInterfaces ws
  have hws₁ : ws ∈ (m.releaseInterfaces ws).clients := by simpa using hws
  have hended := hreleased.endSession hgood₁ hws₁ "CAPTURE_STOPPED" "Capture stopped."
  have hgood₂ := hgood₁.endSession hws₁ "CAPTURE_STOPPED" "Capture stopped."
  have hcapture (k : CaptureId) : ∃ ended,
      (m.finishStop ws).capture k = { m.capture k with ended } := by
    obtain ⟨ended, hk⟩ := (m.releaseInterfaces ws).endSession_capture ws "CAPTURE_STOPPED"
      "Capture stopped." k
    refine ⟨ended, ?_⟩
    unfold Manager.finishStop
    rw [updateClient_capture, hk, releaseInterfaces_rest]
  refine ⟨hended.forgetCapture hgood₂ ?_, h.framing.ended ws (fun ws' hne => ?_) ?_
    (fun k => ?_) ?_ fun k hk hgoes => ?_⟩
  · simp [sessionOver]
  · simp [Manager.finishStop, hne]
  · simp [Manager.finishStop, sessionOver]
  · obtain ⟨ended, hk⟩ := hcapture k
    rw [hk]
    exact ⟨rfl, rfl⟩
  · unfold Manager.finishStop
    rw [updateClient_nextCapture, endSession_rest]
    dsimp only
    rw [releaseInterfaces_rest]
  · obtain ⟨ended, hk'⟩ := hcapture k
    rw [hk'] at hgoes
    refine ⟨hgoes, fun heq => hgoes (hdone k ?_)⟩
    rw [← heq]
    exact (hgood.linked.streams k hk hgoes).2

theorem Streams.finishStream (h : Streams m) (hgood : m.Good) {k : CaptureId}
    (hws : (m.capture k).socket ∈ m.clients)
    (hcurrent : (m.record (m.capture k).socket).capture = some k) :
    Streams (m.finishStream k) := by
  unfold Manager.finishStream
  dsimp only
  set ws := (m.capture k).socket with hsocket
  generalize ((m.releaseInterfaces ws).record ws).sessionEnd.getD _ = e
  have hreleased := h.follow.mute (m.mute_releaseInterfaces ws)
  have hgood₁ := hgood.releaseInterfaces ws
  have hws₁ : ws ∈ (m.releaseInterfaces ws).clients := by simpa using hws
  have hended := hreleased.endSession hgood₁ hws₁ e.1 e.2
  have hgood₂ := hgood₁.endSession hws₁ e.1 e.2
  have hcapture (k' : CaptureId) : ∃ ended,
      ((m.releaseInterfaces ws).endSession ws e.1 e.2).capture k' =
        { m.capture k' with ended } := by
    obtain ⟨ended, hk⟩ := (m.releaseInterfaces ws).endSession_capture ws e.1 e.2 k'
    refine ⟨ended, ?_⟩
    rw [hk, releaseInterfaces_rest]
  set m₂ := (m.releaseInterfaces ws).endSession ws e.1 e.2 with hm₂
  set f : Client → Client := fun c => { c with
    capture := if c.capture = some k then none else c.capture } with hf
  have hforgot : Follow (m₂.updateClient ws f) := hended.forgetCapture hgood₂ (by
    simp [hm₂, hf, sessionOver])
  refine ⟨hforgot.mute (mute_updateCapture _ (fun c => ⟨rfl, rfl, rfl, rfl⟩) fun _ => rfl),
    h.framing.ended ws (fun ws' hne => ?_) ?_ (fun k' => ?_) ?_ fun k' hk' hgoes => ?_⟩
  · simp [hm₂, hne]
  · simp [hm₂, hf, sessionOver]
  · obtain ⟨ended, hk⟩ := hcapture k'
    rw [updateCapture_capture, updateClient_capture]
    split_ifs with heq
    · rw [heq] at hk ⊢
      rw [hk]
      exact ⟨rfl, rfl⟩
    · rw [hk]
      exact ⟨rfl, rfl⟩
  · rw [updateCapture_nextCapture, updateClient_nextCapture, hm₂, endSession_rest]
    dsimp only
    rw [releaseInterfaces_rest]
  · obtain ⟨ended, hk⟩ := hcapture k'
    rw [updateCapture_capture, updateClient_capture] at hgoes
    split_ifs at hgoes with heq
    · exact absurd rfl hgoes
    · rw [hk] at hgoes
      refine ⟨hgoes, fun hsame => heq ?_⟩
      have hcurrent' := (hgood.linked.streams k' hk' hgoes).2
      rw [hsame, hcurrent] at hcurrent'
      exact (Option.some.inj hcurrent').symm

/-! ## What begins -/

theorem Streams.attach (h : Streams m) (hgood : m.Good) {ws : Ws} {sid : SessionId} {owner : Ws}
    (howner : m.sessions sid = some owner) : Streams (m.attach ws sid owner) := by
  have hsid := ((hgood.sessions.sessions sid owner).1 howner).2
  obtain ⟨k, hcurrent, hsession, hended⟩ := h.follow.live owner sid hsid
  obtain ⟨hlt, hsocket⟩ := hgood.linked.captures owner k hcurrent
  have hframer := h.framing.framer owner k (by simp [hsid]) hcurrent
  have hsub (q : SubId) (hne : q ≠ m.nextSub) : (m.attach ws sid owner).sub q = m.sub q := by
    simp [Manager.attach, hne]
  have hnew : (m.attach ws sid owner).sub m.nextSub =
      { socket := ws
        sessionId := sid
        queue := (m.opening sid owner).map .message
        source := some k
        since := (m.capture k).framed.length } := by
    simp [Manager.attach, hcurrent]
  have hrecord (ws' : Ws) := m.attach_record ws sid owner ws'
  have hcapture : (m.attach ws sid owner).capture = m.capture := rfl
  refine ⟨⟨fun ws' sid' hsid' => ?_, fun q hq => ?_⟩,
    ⟨fun ws' hnone => ?_, fun ws' k' hsome hk' => ?_,
    fun k' hk' hrunning => ?_⟩⟩
  · rw [hrecord] at hsid' ⊢
    exact h.follow.live ws' sid' hsid'
  · by_cases heq : q = m.nextSub
    · subst heq
      have hdue : due (m.sessionDescriptor sid owner) (m.capture k) (m.capture k).framed.length =
          m.opening sid owner := by
        simp [due, opening, headerOf, hended, hframer.header]
      have hstanding : ((m.attach ws sid owner).sub m.nextSub).Standing (m.opening sid owner)
        false := by
        rw [hnew]
        exact ⟨m.opening sid owner, by simp [ending], rfl⟩
      refine ⟨k, m.sessionDescriptor sid owner, ?_, hlt, ?_, ?_, ?_, ?_, fun _ _ => ?_, fun _ => ?_,
        fun _ _ => ?_⟩
      · rw [hnew]
      · rw [hnew]
        exact hsession
      · rw [hnew]
        exact le_rfl
      · rw [hnew]
        exact ⟨m, owner, rfl⟩
      · have hlawful := hstanding.lawful (by rw [hnew]) (by rw [hnew]; rintro ⟨⟩)
        rw [hnew] at hlawful ⊢
        rwa [hcapture, hdue]
      · rw [hnew] at hstanding ⊢
        rw [hcapture, hdue, hended]
        exact hstanding
      · rw [hnew, hcapture, if_pos hended, hsocket]
        exact howner
      · rw [hcapture, hsocket, hrecord]
        exact hcurrent
    · have hlt' : q < m.nextSub := lt_of_le_of_ne (Nat.lt_succ_iff.1 hq) heq
      obtain ⟨k', data, hf⟩ := h.follow.follows q hlt'
      have hstands (hs : (m.attach ws sid owner).Stands q) : m.Stands q := by
        unfold Stands at hs
        rw [hsub q heq, hrecord] at hs
        obtain ⟨hclient, hsome⟩ := hs
        dsimp only at hsome
        split_ifs at hsome
        · exact absurd (Option.some.inj hsome).symm heq
        · exact ⟨hclient, hsome⟩
      refine ⟨k', data, ?_⟩
      constructor
      · rw [hsub q heq]
        exact hf.source
      · exact hf.capture
      · rw [hsub q heq]
        exact hf.session
      · rw [hsub q heq]
        exact hf.since
      · rw [hsub q heq]
        exact hf.descriptor
      · rw [hsub q heq]
        exact hf.lawful
      · intro hs
        rw [hsub q heq]
        exact hf.standing (hstands hs)
      · intro hs
        rw [hsub q heq]
        exact hf.sessions (hstands hs)
      · intro hs hnone
        rw [hrecord]
        exact hf.current (hstands hs) hnone
  · rw [hrecord] at hnone ⊢
    exact h.framing.empty ws' hnone
  · rw [hrecord] at hsome hk' ⊢
    exact h.framing.framer ws' k' hsome hk'
  · rw [hrecord]
    exact h.framing.running k' hk' hrunning

theorem Streams.startCapture (h : Streams m) (hgood : m.Good) {ws : Ws} (start : CaptureStart)
    {sid : SessionId} (hcapture : (m.record ws).capture = none)
    (hsession : (m.record ws).sessionId = none)
    (hunheard : ∀ s ∈ m.clients, m.subscribedTo s ≠ some sid) :
    Streams (m.startCapture ws start sid) := by
  have hrecord (ws' : Ws) := m.startCapture_record ws start sid ws'
  have hcaptures (k : CaptureId) : (m.startCapture ws start sid).capture k =
      if k = m.nextCapture then { socket := ws, sessionId := sid } else m.capture k := by
    simp only [Manager.startCapture, updateClient_capture, Function.update_apply]
  have hsessions : (m.startCapture ws start sid).sessions =
    Function.update m.sessions sid (some ws) :=
    rfl
  have hsubscription (ws' : Ws) :
      ((m.startCapture ws start sid).record ws').subscription = (m.record ws').subscription := by
    rw [hrecord]
    split_ifs with heq
    · rw [heq]
    · rfl
  have hstands (q : SubId) (hs : (m.startCapture ws start sid).Stands q) : m.Stands q := by
    unfold Stands at hs
    rw [hsubscription] at hs
    exact hs
  refine ⟨⟨fun ws' sid' hsid' => ?_, fun q hq => ?_⟩,
    ⟨fun ws' hnone => ?_, fun ws' k hsome hk => ?_,
    fun k hk hrunning => ?_⟩⟩
  · rw [hrecord] at hsid' ⊢
    split_ifs at hsid' ⊢ with heq
    · refine ⟨m.nextCapture, rfl, ?_, ?_⟩
      · rw [hcaptures, if_pos rfl]
        exact Option.some.inj hsid'
      · rw [hcaptures, if_pos rfl]
    · obtain ⟨k, hk, hrest⟩ := h.follow.live ws' sid' hsid'
      refine ⟨k, hk, ?_⟩
      rw [hcaptures, if_neg (hgood.linked.captures ws' k hk).1.ne]
      exact hrest
  · obtain ⟨k, data, hf⟩ := h.follow.follows q hq
    have hk : (m.startCapture ws start sid).capture k = m.capture k := by
      rw [hcaptures, if_neg hf.capture.ne]
    refine ⟨k, data, hf.source, hf.capture.trans (Nat.lt_succ_self _), ?_, ?_, hf.descriptor, ?_,
      fun hs => ?_, fun hs => ?_, fun hs hnone => ?_⟩
    · rw [hk]
      exact hf.session
    · rw [hk]
      exact hf.since
    · rw [hk]
      exact hf.lawful
    · rw [hk]
      exact hf.standing (hstands q hs)
    · -- Nobody listens to a session that has just begun.
      have hs' := hstands q hs
      have hne : (m.sub q).sessionId ≠ sid := by
        intro heq
        refine hunheard _ hs'.1 ?_
        rw [subscribedTo, hs'.2, Option.map_some, heq]
      rw [hk, hsessions]
      show Function.update m.sessions sid (some ws) (m.sub q).sessionId = _
      rw [Function.update_of_ne hne]
      exact hf.sessions hs'
    · rw [hk] at hnone ⊢
      have hcurrent := hf.current (hstands q hs) hnone
      rw [hrecord, if_neg]
      · exact hcurrent
      · intro heq
        rw [heq, hcapture] at hcurrent
        cases hcurrent
  · rw [hrecord] at hnone ⊢
    split_ifs at hnone ⊢
    exact h.framing.empty ws' hnone
  · rw [hrecord] at hsome hk ⊢
    rw [hcaptures]
    by_cases heq : ws' = ws
    · -- Its framer was not used since it was reset.
      rw [if_pos heq] at hk ⊢
      cases hk
      rw [if_pos rfl]
      show (m.record ws).framer.Replays []
      rw [h.framing.empty ws hsession]
      exact Framer.replays_initial
    · rw [if_neg heq] at hsome hk ⊢
      rw [if_neg (hgood.linked.captures ws' k hk).1.ne]
      exact h.framing.framer ws' k hsome hk
  · rw [hcaptures] at hrunning ⊢
    rw [hrecord]
    split_ifs at hrunning ⊢ with hnew heq heq
    · simp
    · exact absurd rfl heq
    · simp
    · exact h.framing.running k (lt_of_le_of_ne (Nat.lt_succ_iff.1 hk) hnew) hrunning

theorem Streams.connect (h : Streams m) (hgood : m.Good) {ws : Ws} (hws : ws ∉ m.clients) :
    Streams (m.connect ws) := by
  have hstands (q : SubId) (hs : (m.connect ws).Stands q) : m.Stands q := by
    unfold Stands at hs
    rw [connect_record] at hs
    obtain ⟨hclient, hsome⟩ := hs
    split_ifs at hsome with heq
    refine ⟨?_, hsome⟩
    rcases List.mem_append.1 hclient with hclient | hclient
    · exact hclient
    · exact absurd (List.mem_singleton.1 hclient) heq
  refine ⟨⟨fun ws' sid hsid => ?_, fun q hq => ?_⟩, ⟨fun ws' hnone => ?_, fun ws' k hsome hk => ?_,
    fun k hk hrunning => ?_⟩⟩
  · rw [connect_record] at hsid ⊢
    split_ifs at hsid ⊢
    exact h.follow.live ws' sid hsid
  · obtain ⟨k, data, hf⟩ := h.follow.follows q hq
    refine ⟨k, data, hf.source, hf.capture, hf.session, hf.since, hf.descriptor, hf.lawful,
      fun hs => hf.standing (hstands q hs), fun hs =>
        hf.sessions (hstands q hs), fun hs hnone => ?_⟩
    have hs' := hstands q hs
    have hsessions := hf.sessions hs'
    rw [if_pos (show (m.capture k).ended = none from hnone)] at hsessions
    have hclient := ((hgood.sessions.sessions _ _).1 hsessions).1
    rw [connect_record, if_neg]
    · exact hf.current hs' hnone
    · intro heq
      exact hws (heq ▸ hclient)
  · rw [connect_record] at hnone ⊢
    split_ifs at hnone ⊢
    · rfl
    · exact h.framing.empty ws' hnone
  · rw [connect_record] at hsome hk ⊢
    split_ifs at hsome hk ⊢
    exact h.framing.framer ws' k hsome hk
  · have hclient := (hgood.linked.streams k hk hrunning).1
    rw [connect_record, if_neg]
    · exact h.framing.running k hk hrunning
    · intro heq
      exact hws (heq ▸ hclient)

end Manager

end WlanpiCore.Streaming
