import WlanpiCore.Streaming.Invariant

/-!
# What a subscriber is sent

`Subscription.Lawful` and `Subscription.Standing` say how the messages that a sender task has sent
and those in its queue lie in the sequence that the subscriber is due. `Manager.Tells` is what the
loops over a session's subscribers do to their queues.
-/

namespace WlanpiCore.Streaming

/-- The messages at the front of a queue. -/
def coming : List Item → List Message
  | .message m :: items => m :: coming items
  | _ => []

/-- What is in the queue of a subscription once nothing but the end of the session may follow. -/
def ending (isOver : Bool) : List Item := if isOver then [.done] else []

theorem coming_append (msgs : List Message) (isOver : Bool) :
    coming (msgs.map .message ++ ending isOver) = msgs := by
  induction msgs with
  | nil => cases isOver <;> rfl
  | cons m msgs ih => simp [coming, ih]

namespace Subscription

/-- The messages that the task will still send. -/
def pending (sub : Subscription) : List Message := if sub.sender.loops then coming sub.queue else []

/-- What was sent, and what will be, begins the sequence `law`; nothing is sent once the socket is
being closed, and a queue that was closed comes to that next. -/
structure Lawful (sub : Subscription) (law : List Message) : Prop where
  sent : sub.sent ++ sub.pending <+: law
  closing : sub.closing = true → sub.sender.loops = true → sub.queue.head? = some .close
  closed : sub.closed = true → sub.sender.loops = false

/-- What was sent and what waits in the queue are the sequence `law`, and the end of the queue is
marked if the session is over. -/
def Standing (sub : Subscription) (law : List Message) (isOver : Bool) : Prop :=
  ∃ msgs, sub.queue = msgs.map .message ++ ending isOver ∧ sub.sent ++ msgs = law

variable {sub sub' : Subscription} {law law' : List Message} {isOver : Bool}

theorem Lawful.grow (h : sub.Lawful law) (hlaw : law <+: law') : sub.Lawful law' :=
  ⟨h.sent.trans hlaw, h.closing, h.closed⟩

theorem pending_prefix_coming (sub : Subscription) : sub.pending <+: coming sub.queue := by
  unfold pending
  split_ifs
  · exact List.prefix_rfl
  · exact List.nil_prefix

/-- A subscription whose queue is not closed is lawful if it stands. -/
theorem Standing.lawful (h : sub.Standing law isOver) (hopen : sub.closing = false)
    (hclosed : sub.closed = true → sub.sender.loops = false) : sub.Lawful law := by
  obtain ⟨msgs, hqueue, hsent⟩ := h
  refine ⟨?_, fun hclosing => ?_, hclosed⟩
  · rw [← hsent]
    refine (List.prefix_append_right_inj sub.sent).2 ?_
    have hpending := sub.pending_prefix_coming
    rwa [hqueue, coming_append] at hpending
  · rw [hopen] at hclosing
    cases hclosing

/-- A closed queue comes to the close next. -/
theorem Lawful.closeQueue (h : sub.Lawful law) (hopen : sub.closing = false) :
    sub.closeQueue.Lawful law ∧ sub.closeQueue.closing = true := by
  have hclose : sub.closeQueue = { sub with closing := true, queue := [.close] } := by
    simp [Subscription.closeQueue, hopen]
  rw [hclose]
  refine ⟨⟨?_, fun _ _ => rfl, h.closed⟩, rfl⟩
  have hpending : pending { sub with closing := true, queue := [.close] } = [] := by
    simp [pending, coming]
  rw [hpending, List.append_nil]
  exact (List.prefix_append _ _).trans h.sent

/-- What is done to the queue of a subscriber that is told `x`, the last it is told or not. -/
structure Tell (g : Subscription → Subscription) (x : Message) (isOver : Bool) : Prop where
  queued : ∀ sub, Queued sub (g sub)
  standing : ∀ sub law, sub.closing = false → sub.Standing law false → sub.Lawful law →
    (g sub).Lawful (law ++ [x]) ∧
      ((g sub).closing = false → (g sub).Standing (law ++ [x]) isOver)
  closing : ∀ sub law, sub.closing = true → sub.Lawful law → (g sub).Lawful law

theorem put_cases (sub : Subscription) (item : Item) :
    sub.put item = none ∨ sub.put item = some { sub with queue := sub.queue ++ [item] } := by
  unfold put
  split_ifs
  · exact Or.inr rfl
  · exact Or.inl rfl

/-- A queue that has been closed may get more items, behind the close. -/
theorem Lawful.behind (h : sub.Lawful law) (hclosing : sub.closing = true) (items : List Item) :
    Lawful { sub with queue := sub.queue ++ items } law := by
  by_cases hloops : sub.sender.loops = true
  · have hhead := h.closing hclosing hloops
    cases hqueue : sub.queue with
    | nil =>
      rw [hqueue] at hhead
      cases hhead
    | cons item queue =>
      rw [hqueue, List.head?_cons, Option.some.injEq] at hhead
      subst hhead
      refine ⟨?_, fun _ _ => rfl, h.closed⟩
      have hsent := h.sent
      rw [pending, hqueue] at hsent
      exact hsent
  · have hpending (queue : List Item) : pending { sub with queue } = [] := by simp [pending, hloops]
    refine ⟨?_, fun _ hloops' => absurd hloops' hloops, h.closed⟩
    have hsent := h.sent
    rw [show sub.pending = [] from hpending sub.queue] at hsent
    rwa [hpending]

/-- `put_nowait` of a block, or the queue is closed. -/
theorem tell_block (x : Message) :
    Tell (fun sub => if sub.closing then sub else sub.putOrClose (.message x)) x false where
  queued sub := by
    split_ifs
    · exact .refl sub
    · exact queued_putOrClose _
  standing sub law hopen hstanding hlawful := by
    rw [if_neg (by simp [hopen])]
    unfold putOrClose
    rcases sub.put_cases (.message x) with hput | hput <;> rw [hput]
    · obtain ⟨hclosed, hclosing⟩ := hlawful.closeQueue hopen
      refine ⟨hclosed.grow (List.prefix_append _ _), fun hopen' => ?_⟩
      rw [Option.getD_none, hclosing] at hopen'
      cases hopen'
    · obtain ⟨msgs, hqueue, hsent⟩ := hstanding
      have hstanding' : Standing { sub with queue := sub.queue ++ [.message x] } (law ++ [x])
        false := by
        refine ⟨msgs ++ [x], ?_, ?_⟩
        · simp [hqueue, ending]
        · rw [← hsent, List.append_assoc]
      exact ⟨hstanding'.lawful hopen hlawful.closed, fun _ => hstanding'⟩
  closing sub law hclosing hlawful := by
    rwa [if_pos hclosing]

/-- The end of a session. -/
theorem tell_end (e : Event) : Tell (·.putEnd e) (.event e) true where
  queued sub := queued_putEnd e
  standing sub law hopen hstanding hlawful := by
    unfold putEnd
    have hgrow : law <+: law ++ [.event e] := List.prefix_append _ _
    rcases sub.put_cases (.message (.event e)) with hput | hput <;> rw [hput]
    · obtain ⟨hclosed, hclosing⟩ := hlawful.closeQueue hopen
      refine ⟨hclosed.grow hgrow, fun hopen' => ?_⟩
      rw [hclosing] at hopen'
      cases hopen'
    dsimp only
    obtain ⟨msgs, hqueue, hsent⟩ := hstanding
    set told : Subscription := { sub with queue := sub.queue ++ [.message (.event e)] } with htold
    have hstanding' : told.Standing (law ++ [.event e]) false := by
      refine ⟨msgs ++ [.event e], ?_, ?_⟩
      · simp [htold, hqueue, ending]
      · show sub.sent ++ (msgs ++ [.event e]) = law ++ [.event e]
        rw [← List.append_assoc, hsent]
    have hlawful' := hstanding'.lawful hopen hlawful.closed
    unfold putOrClose
    rcases told.put_cases .done with hdone | hdone <;> rw [hdone]
    · obtain ⟨hclosed, hclosing⟩ := hlawful'.closeQueue hopen
      refine ⟨hclosed, fun hopen' => ?_⟩
      rw [Option.getD_none, hclosing] at hopen'
      cases hopen'
    · have hover :
        Standing { told with queue := told.queue ++ [.done] } (law ++ [.event e]) true := by
        refine ⟨msgs ++ [.event e], ?_, ?_⟩
        · simp [htold, hqueue, ending]
        · show sub.sent ++ (msgs ++ [.event e]) = law ++ [.event e]
          rw [← List.append_assoc, hsent]
      exact ⟨hover.lawful hopen hlawful.closed, fun _ => hover⟩
  closing sub law hclosing hlawful := by
    unfold putEnd
    have hself : sub.closeQueue = sub := by simp [Subscription.closeQueue, hclosing]
    rcases sub.put_cases (.message (.event e)) with hput | hput <;> rw [hput]
    · rwa [hself]
    dsimp only
    have hbehind := hlawful.behind hclosing [.message (.event e)]
    unfold putOrClose
    rcases put_cases { sub with queue := sub.queue ++ [.message (.event e)] } .done with
      hdone | hdone <;> rw [hdone]
    · have hself' : closeQueue { sub with queue := sub.queue ++ [.message (.event e)] } =
          { sub with queue := sub.queue ++ [.message (.event e)] } := by
        simp [Subscription.closeQueue, hclosing]
      rwa [Option.getD_none, hself']
    · exact hbehind.behind hclosing [.done]

end Subscription

namespace Manager

/-! ## Telling the subscribers -/

/-- Subscription `q` is the one that `s` has to `session`. -/
def Heard (session : Option SessionId) (m : Manager) (s : Ws) (q : SubId) : Prop :=
  s ∈ m.clients ∧ (m.record s).subscription = some q ∧ some (m.sub q).sessionId = session

/-- One turn of a loop over subscribers does `g` to what the subscriber has. -/
structure Tells (g : Subscription → Subscription) (session : Option SessionId)
    (m : Manager) (s : Ws)
    (m' : Manager) : Prop where
  clients : m'.clients = m.clients
  subscription : ∀ ws, (m'.record ws).subscription = (m.record ws).subscription
  heard : ∀ q, m.Heard session s q → m'.sub q = g (m.sub q)
  others : ∀ q, ¬m.Heard session s q → m'.sub q = m.sub q

variable {g : Subscription → Subscription} {session : Option SessionId}

theorem heard_iff {session : Option SessionId} (m : Manager) (s : Ws) (q : SubId) :
    m.Heard session s q ↔
      s ∈ m.clients ∧ (m.record s).subscription = some q ∧ some (m.sub q).sessionId = session :=
  Iff.rfl

theorem tells_notifyEnd (e : Event) (m : Manager) (s : Ws) :
    Tells (·.putEnd e) session m s (notifyEnd session e m s) := by
  unfold notifyEnd
  cases hq : (m.record s).subscription with
  | none => exact ⟨rfl, fun _ => rfl, fun q h => (by cases hq.symm.trans h.2.1), fun _ _ => rfl⟩
  | some q =>
    dsimp only
    split_ifs with htold
    · refine ⟨rfl, fun _ => rfl, fun q' h => ?_, fun q' h => ?_⟩
      · obtain rfl : q = q' := Option.some.inj (hq.symm.trans h.2.1)
        rw [updateSub_sub, if_pos rfl]
      · rw [updateSub_sub, if_neg]
        rintro rfl
        exact h ⟨htold.1, hq, htold.2⟩
    · refine ⟨rfl, fun _ => rfl, fun q' h => absurd ⟨h.1, ?_⟩ htold, fun _ _ => rfl⟩
      obtain rfl : q = q' := Option.some.inj (hq.symm.trans h.2.1)
      exact h.2.2

theorem tells_queueBlock {ws : Ws} (block : Block) (m : Manager) (s : Ws)
    (hsession : (m.record ws).sessionId = session) :
    Tells (fun sub => if sub.closing then sub else sub.putOrClose (.message (.bytes block))) session
      m s (queueBlock ws block m s) := by
  have hfanned := fannedOut_queueBlock ws block m s
  have hsubscription (ws' : Ws) :
      ((queueBlock ws block m s).record ws').subscription = (m.record ws').subscription := by
    rw [hfanned.record]
  refine ⟨by rw [hfanned.rest], hsubscription, fun q h => ?_, fun q h => ?_⟩
  · have htold : ¬(s ∉ m.clients ∨ m.subscribedTo s ≠ (m.record ws).sessionId) := by
      simp [h.1, subscribedTo, h.2.1, h.2.2, hsession]
    unfold queueBlock
    dsimp only
    rw [if_neg htold, h.2.1]
    dsimp only
    split_ifs with hclosing
    · rfl
    · unfold Subscription.putOrClose
      rcases (m.sub q).put_cases (.message (.bytes block)) with hput | hput <;> simp [hput]
  · unfold queueBlock
    dsimp only
    split_ifs with hother
    · rfl
    cases hq : (m.record s).subscription with
    | none => rfl
    | some q' =>
      have hne : q ≠ q' := by
        rintro rfl
        rw [not_or, not_not, not_not, subscribedTo, hq, hsession] at hother
        exact h ⟨hother.1, hq, hother.2⟩
      dsimp only
      split_ifs
      · rfl
      · rcases (m.sub q').put_cases (.message (.bytes block)) with hput | hput <;> simp [hput, hne]

/-- A whole loop over subscribers does `g` to what each of them has, once. -/
theorem tells_all {f : Manager → Ws → Manager} {P : Manager → Prop}
    (hf : ∀ m s, P m → P (f m s) ∧ Tells g session m s (f m s))
    {l : List Ws} (hnodup : l.Nodup) {m : Manager} (hP : P m)
    (hsocket : ∀ s q, (m.record s).subscription = some q → (m.sub q).socket = s)
    (hg : ∀ sub, (g sub).socket = sub.socket) (q : SubId) :
    ((∃ s ∈ l, m.Heard session s q) → (l.foldl f m).sub q = g (m.sub q)) ∧
      ((∀ s ∈ l, ¬m.Heard session s q) → (l.foldl f m).sub q = m.sub q) := by
  induction l generalizing m with
  | nil => exact ⟨fun ⟨s, hs, _⟩ => absurd hs List.not_mem_nil, fun _ => rfl⟩
  | cons s l ih =>
    obtain ⟨hs, hl⟩ := List.nodup_cons.1 hnodup
    obtain ⟨hP', htells⟩ := hf m s hP
    have hsocket' (s' : Ws) (q' : SubId) (hq' : ((f m s).record s').subscription = some q') :
        ((f m s).sub q').socket = s' := by
      rw [htells.subscription] at hq'
      by_cases hheard : m.Heard session s q'
      · rw [htells.heard q' hheard, hg]
        exact hsocket s' q' hq'
      · rw [htells.others q' hheard]
        exact hsocket s' q' hq'
    obtain ⟨hheard, hothers⟩ := ih hl hP' hsocket'
    -- The others of the list have what they had.
    have hagree (s' : Ws) (hs' : s' ∈ l) : (f m s).Heard session s' q ↔ m.Heard session s' q := by
      rw [heard_iff, heard_iff, htells.clients, htells.subscription]
      refine and_congr_right fun _ => and_congr_right fun hq => ?_
      rw [htells.others q]
      intro hsame
      have heq := (hsocket s q hsame.2.1).symm.trans (hsocket s' q hq)
      exact hs (heq ▸ hs')
    rw [List.foldl_cons]
    refine ⟨fun ⟨s', hs', hq⟩ => ?_, fun hnone => ?_⟩
    · rcases List.mem_cons.1 hs' with rfl | hs'
      · rw [hothers fun s'' hs'' hq'' => ?_]
        · exact htells.heard q hq
        · have hq'' := (hagree s'' hs'').1 hq''
          have heq := (hsocket s' q hq.2.1).symm.trans (hsocket s'' q hq''.2.1)
          exact hs (heq ▸ hs'')
      · have hne : ¬m.Heard session s q := by
          intro hsame
          have heq := (hsocket s q hsame.2.1).symm.trans (hsocket s' q hq.2.1)
          exact hs (heq ▸ hs')
        rw [hheard ⟨s', hs', (hagree s' hs').2 hq⟩, htells.others q hne]
    · rw [hothers fun s' hs' hq => hnone s' (List.mem_cons_of_mem _ hs') ((hagree s' hs').1 hq)]
      exact htells.others q (hnone s List.mem_cons_self)

end Manager

end WlanpiCore.Streaming
