import WlanpiCore.Streaming.Methods

/-!
# Who owns what

The two agreements between the manager's records, `InterfacesAgree` and `SessionsAgree`, and that
each method keeps them.
-/

namespace WlanpiCore.Streaming

namespace Manager

/-! ## The five records -/

/-- `ws` holds a subscription to `sid` that is not being closed. -/
def Holds (m : Manager) (ws : Ws) (sid : SessionId) : Prop :=
  ws ∈ m.clients ∧ ∃ q, (m.record ws).subscription = some q ∧ (m.sub q).sessionId = sid ∧
    (m.sub q).closing = false

/-- An interface is owned by the client that claimed it. -/
def InterfacesAgree (m : Manager) : Prop :=
  ∀ i ws, m.interfaceOwners i = some ws ↔ ws ∈ m.clients ∧ i ∈ (m.record ws).interfaces

/-- Sessions, subscriptions and the owners' sets of subscribers agree. The last three fields keep
the others. -/
structure SessionsAgree (m : Manager) : Prop where
  sessions : ∀ sid ws,
    m.sessions sid = some ws ↔ ws ∈ m.clients ∧ (m.record ws).sessionId = some sid
  apart : ∀ ws, (m.record ws).sessionId ≠ none → (m.record ws).subscription = none
  members : ∀ ws, ∀ s ∈ (m.record ws).subscribers, ws ∈ m.clients ∧ s ∈ m.clients ∧ ∃ sid,
    (m.record ws).sessionId = some sid ∧ m.subscribedTo s = some sid
  bounded : ∀ sid (holders : List Ws), holders.Nodup → (∀ s ∈ holders, m.Holds s sid) →
    holders.length ≤ maxSubscribersPerSession
  nodup : ∀ ws, (m.record ws).subscribers.Nodup
  few : ∀ ws, (m.record ws).subscribers.length ≤ maxSubscribersPerSession
  holders : ∀ sid ws s, m.sessions sid = some ws → m.Holds s sid → s ∈ (m.record ws).subscribers

/-- Nothing that `SessionsAgree` is about has changed, except that a queue may be closed. -/
structure SameSessions (m m' : Manager) : Prop where
  clients : m'.clients = m.clients
  sessions : m'.sessions = m.sessions
  record : ∀ ws, (m'.record ws).sessionId = (m.record ws).sessionId ∧
    (m'.record ws).subscription = (m.record ws).subscription ∧
    (m'.record ws).subscribers = (m.record ws).subscribers
  sub : ∀ q, (m'.sub q).sessionId = (m.sub q).sessionId ∧
    ((m.sub q).closing = true → (m'.sub q).closing = true)

namespace SameSessions

variable {m m' : Manager}

theorem subscribedTo (h : SameSessions m m') (ws : Ws) : m'.subscribedTo ws =
    m.subscribedTo ws := by
  unfold Manager.subscribedTo
  rw [(h.record ws).2.1]
  exact congrArg (Option.map · _) (funext fun q => (h.sub q).1)

theorem holds (h : SameSessions m m') {ws : Ws} {sid : SessionId} (hholds : m'.Holds ws sid) :
    m.Holds ws sid := by
  obtain ⟨hws, q, hq, hsid, hopen⟩ := hholds
  refine ⟨h.clients ▸ hws, q, (h.record ws).2.1 ▸ hq, (h.sub q).1 ▸ hsid, ?_⟩
  by_contra hclosing
  rw [(h.sub q).2 (by simpa using hclosing)] at hopen
  cases hopen

end SameSessions

theorem SessionsAgree.same {m m' : Manager} (hm : SessionsAgree m) (h : SameSessions m m') :
    SessionsAgree m' where
  sessions sid ws := by
    rw [h.sessions, h.clients, (h.record ws).1]
    exact hm.sessions sid ws
  apart ws := by
    rw [(h.record ws).1, (h.record ws).2.1]
    exact hm.apart ws
  members ws s := by
    rw [(h.record ws).1, (h.record ws).2.2, h.clients, h.subscribedTo]
    exact hm.members ws s
  bounded sid holders hnodup hholders := hm.bounded sid holders hnodup fun s hs =>
    h.holds (hholders s hs)
  nodup ws := (h.record ws).2.2 ▸ hm.nodup ws
  few ws := (h.record ws).2.2 ▸ hm.few ws
  holders sid ws s hsid hholds := by
    rw [(h.record ws).2.2]
    exact hm.holders sid ws s (h.sessions ▸ hsid) (h.holds hholds)

/-! ## Interfaces -/

namespace InterfacesAgree

variable {m m' : Manager}

theorem same (h : InterfacesAgree m) (hclients : m'.clients = m.clients)
    (howners : m'.interfaceOwners = m.interfaceOwners)
    (hrecord : ∀ ws, (m'.record ws).interfaces = (m.record ws).interfaces) :
      InterfacesAgree m' := by
  intro i ws
  rw [howners, hclients, hrecord]
  exact h i ws

theorem release (h : InterfacesAgree m) (ws : Ws) : InterfacesAgree (m.releaseInterfaces ws) := by
  intro i ws'
  have hi := h i
  rw [releaseInterfaces_owners, releaseInterfaces_clients, releaseInterfaces_record]
  by_cases hws : ws ∈ m.clients
  · by_cases heq : ws' = ws
    · subst heq
      simp only [hws, hi, true_and, and_self, if_true, List.not_mem_nil, and_false, iff_false]
      split_ifs with howned
      · simp
      · exact fun howner => howned (by simpa [hws] using (hi ws').1 howner)
    · grind
  · simp [hws, hi]

theorem claim {ws : Ws} {interfaces : List Iface} (h : InterfacesAgree m)
    (hnone : (m.record ws).interfaces = []) (hclaim : m.claimInterfaces ws interfaces = .ok m') :
    InterfacesAgree m' := by
  obtain ⟨hws, hfree, rfl⟩ := claimInterfaces_ok hclaim
  intro i ws'
  have hi := h i
  simp only [updateClient_owners, updateClient_clients, updateClient_record]
  by_cases hmem : i ∈ interfaces
  · rw [if_pos hmem]
    by_cases heq : ws' = ws
    · simp [heq, hws, hmem]
    · rw [if_neg heq, ← hi ws']
      refine ⟨fun hsome => absurd (Option.some.inj hsome).symm heq, fun howner => ?_⟩
      exact absurd (hfree i hmem ws' howner) heq
  · rw [if_neg hmem]
    by_cases heq : ws' = ws
    · simp [heq, hmem, hi, hnone]
    · rw [if_neg heq]
      exact hi ws'

end InterfacesAgree

/-! ## Sessions -/

namespace SessionsAgree

variable {m m' : Manager}

theorem subscribers_eq_nil (h : SessionsAgree m) {ws : Ws}
    (hnone : (m.record ws).sessionId = none) :
    (m.record ws).subscribers = [] := by
  apply List.eq_nil_iff_forall_not_mem.2
  intro s hs
  obtain ⟨-, -, sid, hsid, -⟩ := h.members ws s hs
  rw [hnone] at hsid
  cases hsid

theorem subscribedTo_of_holds {ws : Ws} {sid : SessionId} (h : m.Holds ws sid) :
    m.subscribedTo ws = some sid := by
  obtain ⟨-, q, hq, hsid, -⟩ := h
  simp [subscribedTo, hq, hsid]

/-- A socket that does not hold the session may leave the set. -/
theorem discard (h : SessionsAgree m) {ws s : Ws}
    (hs : ∀ sid, m.sessions sid = some ws → ¬m.Holds s sid) :
    SessionsAgree (m.updateClient ws fun c => { c with subscribers := c.subscribers.erase s }) := by
  set m' := m.updateClient ws fun c => { c with subscribers := c.subscribers.erase s } with hm'
  have hrecord (ws' : Ws) : m'.record ws' = { m.record ws' with
      subscribers := if ws' = ws then (m.record ws').subscribers.erase s
        else (m.record ws').subscribers } := by
    by_cases heq : ws' = ws <;> simp [hm', heq]
  have hsub (ws' s' : Ws) (hs' : s' ∈ (m'.record ws').subscribers) :
      s' ∈ (m.record ws').subscribers := by
    rw [hrecord] at hs'
    dsimp only at hs'
    split_ifs at hs'
    · exact List.mem_of_mem_erase hs'
    · exact hs'
  refine ⟨fun sid ws' => ?_, fun ws' => ?_, fun ws' s' hs' => ?_, ?_, fun ws' => ?_, fun ws' => ?_,
    fun sid ws' s' hsid hholds => ?_⟩
  · rw [hrecord]
    exact h.sessions sid ws'
  · rw [hrecord]
    exact h.apart ws'
  · rw [hrecord, subscribedTo, hrecord]
    exact h.members ws' s' (hsub ws' s' hs')
  · intro sid holders hnodup hholders
    refine h.bounded sid holders hnodup fun s' hs' => ?_
    have hs' := hholders s' hs'
    rwa [Holds, hrecord] at hs'
  · rw [hrecord]
    dsimp only
    split_ifs
    · exact (h.nodup ws').erase s
    · exact h.nodup ws'
  · rw [hrecord]
    dsimp only
    split_ifs
    · exact (List.length_erase_le).trans (h.few ws')
    · exact h.few ws'
  · rw [Holds, hrecord] at hholds
    have hmem := h.holders sid ws' s' hsid hholds
    rw [hrecord]
    dsimp only
    split_ifs with heq
    · subst heq
      refine (List.mem_erase_of_ne ?_).2 hmem
      rintro rfl
      exact hs sid hsid hholds
    · exact hmem

theorem updateSub (h : SessionsAgree m) {q : SubId} {f : Subscription → Subscription}
    (hsid : (f (m.sub q)).sessionId = (m.sub q).sessionId)
    (hclosing : (m.sub q).closing = true → (f (m.sub q)).closing = true) :
    SessionsAgree (m.updateSub q f) := by
  refine h.same ⟨rfl, rfl, fun _ => ⟨rfl, rfl, rfl⟩, fun q' => ?_⟩
  rw [updateSub_sub]
  split_ifs with heq
  · rw [heq]
    exact ⟨hsid, hclosing⟩
  · exact ⟨rfl, id⟩

theorem updateClient (h : SessionsAgree m) {ws : Ws} {f : Client → Client}
    (hf : ∀ c, (f c).sessionId = c.sessionId ∧ (f c).subscription = c.subscription ∧
      (f c).subscribers = c.subscribers) : SessionsAgree (m.updateClient ws f) := by
  refine h.same ⟨rfl, rfl, fun ws' => ?_, fun _ => ⟨rfl, id⟩⟩
  rw [updateClient_record]
  split_ifs with heq
  · rw [heq]
    exact hf _
  · exact ⟨rfl, rfl, rfl⟩

theorem delivered (h : SessionsAgree m) (hm : Delivered m m') : SessionsAgree m' := by
  refine h.same ⟨?_, ?_, fun ws => ?_, fun q => ?_⟩
  · rw [hm.rest]
  · rw [hm.rest]
  · rw [hm.rest]
    exact ⟨rfl, rfl, rfl⟩
  · exact ⟨(hm.sub q).sessionId, (hm.sub q).closing⟩

theorem queueBlock (h : SessionsAgree m) (ws : Ws) (block : Block) (s : Ws) :
    SessionsAgree (queueBlock ws block m s) := by
  unfold Manager.queueBlock
  dsimp only
  split_ifs with hother
  · -- It left, or listens to another session.
    refine h.discard fun sid hsid hholds => ?_
    rcases hother with hgone | hother
    · exact hgone hholds.1
    · exact hother ((subscribedTo_of_holds hholds).trans ((h.sessions sid ws).1 hsid).2.symm)
  cases hq : (m.record s).subscription with
  | none => exact h
  | some q =>
    dsimp only
    split_ifs with hclosing
    · refine h.discard fun sid hsid hholds => ?_
      obtain ⟨-, q', hq', -, hopen⟩ := hholds
      rw [hq] at hq'
      cases hq'
      rw [hopen] at hclosing
      cases hclosing
    cases hput : (m.sub q).put (.message (.bytes block)) with
    | some q' => exact h.delivered (delivered_updateSub (Subscription.queued_put hput))
    | none =>
      -- The queue is full: it is closed, so the socket no longer holds the session.
      have hclosed := h.delivered (delivered_updateSub (q := q) (f := (·.closeQueue))
        Subscription.queued_closeQueue)
      refine hclosed.discard fun sid hsid hholds => ?_
      obtain ⟨-, q', hq', -, hopen⟩ := hholds
      rw [updateSub_record, hq] at hq'
      cases hq'
      simp [Subscription.closeQueue, hclosing] at hopen

theorem queueSubscriberBlock (h : SessionsAgree m) (ws : Ws) (block : Block) :
    SessionsAgree (queueSubscriberBlock ws m block) := by
  unfold Manager.queueSubscriberBlock
  generalize (m.record ws).subscribers = l
  induction l generalizing m with
  | nil => exact h
  | cons s l ih => exact ih (h.queueBlock ws block s)

theorem dropSubscription (h : SessionsAgree m) {ws : Ws} {q : SubId}
    (hq : (m.record ws).subscription = some q) : SessionsAgree (m.dropSubscription ws q) := by
  have hrest := m.dropSubscription_rest ws q
  set m' := m.dropSubscription ws q with hm'
  have hrecord (ws' : Ws) : m'.record ws' = _ := m.dropSubscription_record ws q ws'
  have hclients : m'.clients = m.clients := by rw [hrest]
  have hsessions : m'.sessions = m.sessions := by rw [hrest]
  have hsub : m'.sub = m.sub := by rw [hrest]
  have hsubscribedTo (s : Ws) (hne : s ≠ ws) : m'.subscribedTo s = m.subscribedTo s := by
    simp [subscribedTo, hrecord, hne, hsub]
  have hholds (s : Ws) (sid : SessionId) (hs : m'.Holds s sid) : s ≠ ws ∧ m.Holds s sid := by
    by_cases heq : s = ws
    · simp [Holds, hrecord, heq] at hs
    · exact ⟨heq, by simpa [Holds, hrecord, heq, hsub, hclients] using hs⟩
  -- No owner has `ws` among its subscribers any more.
  have hmembers (ws' s : Ws) (hs : s ∈ (m'.record ws').subscribers) :
      s ≠ ws ∧ s ∈ (m.record ws').subscribers := by
    rw [hrecord] at hs
    dsimp only at hs
    split_ifs at hs with howner
    · exact ((h.nodup ws').mem_erase_iff).1 hs
    · refine ⟨?_, hs⟩
      rintro rfl
      obtain ⟨hclient, -, sid, hsid, hsubscribed⟩ := h.members ws' s hs
      obtain rfl : (m.sub q).sessionId = sid := by simpa [subscribedTo, hq] using hsubscribed
      exact howner ⟨(h.sessions _ ws').2 ⟨hclient, hsid⟩, hclient⟩
  have hsublist (ws' : Ws) : (m'.record ws').subscribers.Sublist (m.record ws').subscribers := by
    rw [hrecord]
    dsimp only
    split_ifs
    · exact List.erase_sublist
    · exact List.Sublist.refl _
  refine ⟨fun sid ws' => ?_, fun ws' hsid => ?_, fun ws' s hs => ?_, ?_,
    fun ws' => (h.nodup ws').sublist (hsublist ws'),
    fun ws' => (hsublist ws').length_le.trans (h.few ws'), fun sid ws' s hsid hs => ?_⟩
  · rw [hsessions, hclients, hrecord]
    exact h.sessions sid ws'
  · rw [hrecord] at hsid ⊢
    dsimp only
    split_ifs
    · rfl
    · exact h.apart ws' hsid
  · obtain ⟨hne, hs⟩ := hmembers ws' s hs
    rw [hclients, hrecord, hsubscribedTo s hne]
    exact h.members ws' s hs
  · intro sid holders hnodup hall
    exact h.bounded sid holders hnodup fun s hs => (hholds s sid (hall s hs)).2
  · obtain ⟨hne, hs⟩ := hholds s sid hs
    have hmem := h.holders sid ws' s (hsessions ▸ hsid) hs
    rw [hrecord]
    dsimp only
    split_ifs
    · exact (List.mem_erase_of_ne hne).2 hmem
    · exact hmem

theorem clearSubscription (h : SessionsAgree m) (ws : Ws) (expected : Option SessionId)
    (current : Option SubId) : SessionsAgree (m.clearSubscription ws expected current).1 := by
  rcases m.clearSubscription_cases ws expected current with ⟨hnone, -⟩ | ⟨q, -, hq, hsome⟩
  · rw [hnone]
    exact h
  · rw [hsome]
    dsimp only
    split_ifs
    · exact h.dropSubscription hq
    · exact (h.dropSubscription hq).updateSub rfl id

theorem endSession (h : SessionsAgree m) {ws : Ws} (hws : ws ∈ m.clients) (code message : String) :
    SessionsAgree (m.endSession ws code message) := by
  cases hsid : (m.record ws).sessionId with
  | none =>
    rw [endSession_none m ws code message hsid]
    refine h.same ⟨rfl, rfl, fun ws' => ?_, fun _ => ⟨rfl, id⟩⟩
    rw [updateClient_record]
    split_ifs with heq
    · rw [heq, hsid, h.subscribers_eq_nil hsid]
      exact ⟨rfl, rfl, rfl⟩
    · exact ⟨rfl, rfl, rfl⟩
  | some sid =>
    refine SessionsAgree.delivered ?_ (endSession_some m ws code message hsid)
    generalize endEvent code message sid = e
    have hrest := m.closeSession_rest ws sid e
    set m' := m.closeSession ws sid e with hm'
    have hrecord (ws' : Ws) : m'.record ws' = _ := m.closeSession_record ws sid e ws'
    have hclients : m'.clients = m.clients := by rw [hrest]
    have hsessions : m'.sessions = Function.update m.sessions sid none := by rw [hrest]
    have hsub : m'.sub = m.sub := by rw [hrest]
    have hsubscription (ws' : Ws) : (m'.record ws').subscription = (m.record ws').subscription := by
      rw [hrecord]
      split_ifs with heq
      · rw [heq]
        rfl
      · rfl
    have hholds (s : Ws) (sid : SessionId) (hs : m'.Holds s sid) : m.Holds s sid := by
      rwa [Holds, hsubscription, hsub, hclients] at hs
    refine ⟨fun sid' ws' => ?_, fun ws' => ?_, fun ws' s hs => ?_, ?_, fun ws' => ?_, fun ws' => ?_,
      fun sid' ws' s hsid' hs => ?_⟩
    · rw [hsessions, hclients, hrecord, Function.update_apply]
      have hagree := h.sessions sid' ws'
      by_cases heq : ws' = ws
      · subst heq
        by_cases hsid' : sid' = sid
        · simp [hsid', sessionOver]
        · simp [hsid', sessionOver, hagree, hsid, Ne.symm hsid']
      · rw [if_neg heq]
        split_ifs with hsid'
        · subst hsid'
          refine ⟨by simp, fun hother => absurd ?_ heq⟩
          have howner := (h.sessions sid' ws).2 ⟨hws, hsid⟩
          rw [hagree.2 hother] at howner
          exact Option.some.inj howner
        · exact hagree
    · rw [hsubscription, hrecord]
      split_ifs with heq
      · simp [sessionOver]
      · exact h.apart ws'
    · rw [hrecord] at hs ⊢
      split_ifs at hs ⊢ with heq
      · simp [sessionOver] at hs
      · rw [hclients, subscribedTo, hsubscription, hsub]
        exact h.members ws' s hs
    · intro sid' holders hnodup hall
      exact h.bounded sid' holders hnodup fun s hs => hholds s sid' (hall s hs)
    · rw [hrecord]
      split_ifs
      · exact List.nodup_nil
      · exact h.nodup ws'
    · rw [hrecord]
      split_ifs
      · exact Nat.zero_le _
      · exact h.few ws'
    · rw [hsessions, Function.update_apply] at hsid'
      split_ifs at hsid' with heq
      have hmem := h.holders sid' ws' s hsid' (hholds s sid' hs)
      rw [hrecord]
      split_ifs with hws'
      · subst hws'
        have hsession := ((h.sessions sid' ws').1 hsid').2
        rw [hsid] at hsession
        exact absurd (Option.some.inj hsession).symm heq
      · exact hmem

theorem attach (h : SessionsAgree m) {ws : Ws} {sid : SessionId} {owner : Ws} (hws : ws ∈ m.clients)
    (hfree : (m.record ws).subscription = none) (hsession : (m.record ws).sessionId = none)
    (howner : m.sessions sid = some owner)
    (hroom : (m.record owner).subscribers.length < maxSubscribersPerSession)
    (hnext : ∀ ws q, (m.record ws).subscription = some q → q < m.nextSub) :
    SessionsAgree (m.attach ws sid owner) := by
  obtain ⟨howned, hsid⟩ := (h.sessions sid owner).1 howner
  have hne : ws ≠ owner := by
    rintro rfl
    rw [hsession] at hsid
    cases hsid
  set m' := m.attach ws sid owner with hm'
  have hrecord (ws' : Ws) : m'.record ws' = _ := m.attach_record ws sid owner ws'
  have hsub (q : SubId) (hq : q ≠ m.nextSub) : m'.sub q = m.sub q := by
    simp [hm', Manager.attach, hq]
  have hnew : (m'.sub m.nextSub).sessionId = sid := by simp [hm', Manager.attach]
  have hsubscribedTo (s : Ws) : m'.subscribedTo s = if s = ws then some sid
    else m.subscribedTo s := by
    rw [subscribedTo, hrecord]
    by_cases heq : s = ws
    · simp [heq, hnew]
    · dsimp only
      rw [if_neg heq, if_neg heq, subscribedTo]
      cases hq : (m.record s).subscription with
      | none => rfl
      | some q => rw [Option.map_some, Option.map_some, hsub q (hnext s q hq).ne]
  have hholds (s : Ws) (sid' : SessionId) (hs : m'.Holds s sid') :
      s = ws ∧ sid' = sid ∨ s ≠ ws ∧ m.Holds s sid' := by
    by_cases heq : s = ws
    · left
      have hsid' := subscribedTo_of_holds hs
      rw [hsubscribedTo, if_pos heq] at hsid'
      exact ⟨heq, (Option.some.inj hsid').symm⟩
    · right
      obtain ⟨hclient, q, hq, hrest⟩ := hs
      rw [hrecord] at hq
      dsimp only at hq
      rw [if_neg heq] at hq
      rw [hsub q (hnext s q hq).ne] at hrest
      exact ⟨heq, hclient, q, hq, hrest⟩
  have hmem (s : Ws) : s ∈ (m'.record owner).subscribers ↔ s = ws ∨
    s ∈ (m.record owner).subscribers := by
    rw [hrecord]
    simp
  have hfew : (m'.record owner).subscribers.length ≤ maxSubscribersPerSession := by
    rw [hrecord]
    dsimp only
    rw [if_pos rfl]
    by_cases hin : ws ∈ (m.record owner).subscribers
    · rw [List.insert_of_mem hin]
      exact hroom.le
    · rw [List.insert_of_not_mem hin]
      exact hroom
  have hholders (sid' : SessionId) (ws' s : Ws) (hsid' : m.sessions sid' = some ws')
      (hs : m'.Holds s sid') : s ∈ (m'.record ws').subscribers := by
    rcases hholds s sid' hs with ⟨rfl, rfl⟩ | ⟨-, hs⟩
    · rw [howner] at hsid'
      cases hsid'
      exact (hmem s).2 (Or.inl rfl)
    · have hold := h.holders sid' ws' s hsid' hs
      by_cases heq : ws' = owner
      · subst heq
        exact (hmem s).2 (Or.inr hold)
      · rw [hrecord]
        simpa [heq] using hold
  refine ⟨fun sid' ws' => ?_, fun ws' hsid' => ?_, fun ws' s hs => ?_, ?_, fun ws' =>
    ?_, fun ws' => ?_,
    hholders⟩
  · rw [hrecord]
    exact h.sessions sid' ws'
  · rw [hrecord] at hsid' ⊢
    dsimp only
    rw [if_neg, h.apart ws' hsid']
    rintro rfl
    exact hsid' hsession
  · rw [hsubscribedTo]
    have hold (hs : s ∈ (m.record ws').subscribers) : ws' ∈ m.clients ∧ s ∈ m.clients ∧ ∃ sid',
        (m.record ws').sessionId = some sid' ∧ (if s = ws then some sid else m.subscribedTo s) =
          some sid' := by
      obtain ⟨hclient, hs, sid', hsid', hsubscribed⟩ := h.members ws' s hs
      refine ⟨hclient, hs, sid', hsid', ?_⟩
      rw [if_neg, hsubscribed]
      rintro rfl
      simp [subscribedTo, hfree] at hsubscribed
    by_cases heq : ws' = owner
    · subst heq
      rcases (hmem s).1 hs with rfl | hs
      · refine ⟨howned, hws, sid, ?_, if_pos rfl⟩
        rw [hrecord]
        exact hsid
      · rw [hrecord]
        exact hold hs
    · rw [hrecord] at hs ⊢
      dsimp only at hs
      rw [if_neg heq] at hs
      exact hold hs
  · -- The session is live, so its holders are in the owner's set.
    intro sid' holders hnodup hall
    by_cases heq : sid' = sid
    · subst heq
      have hsubset : holders ⊆ (m'.record owner).subscribers :=
        fun s hs => hholders sid' owner s howner (hall s hs)
      exact (List.subperm_of_subset hnodup hsubset).length_le.trans hfew
    · refine h.bounded sid' holders hnodup fun s hs => ?_
      rcases hholds s sid' (hall s hs) with ⟨-, hsid'⟩ | ⟨-, hs⟩
      · exact absurd hsid' heq
      · exact hs
  · rw [hrecord]
    dsimp only
    split_ifs
    · exact (h.nodup ws').insert
    · exact h.nodup ws'
  · by_cases heq : ws' = owner
    · rw [heq]
      exact hfew
    · rw [hrecord]
      simpa [heq] using h.few ws'

theorem startCapture (h : SessionsAgree m) {ws : Ws} {start : CaptureStart} {sid : SessionId}
    (hws : ws ∈ m.clients) (hsession : (m.record ws).sessionId = none)
    (hfree : (m.record ws).subscription = none) (hfresh : m.sessions sid = none)
    (hunheard : ∀ s ∈ m.clients, m.subscribedTo s ≠ some sid) :
    SessionsAgree (m.startCapture ws start sid) := by
  set m' := m.startCapture ws start sid with hm'
  have hrecord (ws' : Ws) : m'.record ws' = _ := m.startCapture_record ws start sid ws'
  have hsessions : m'.sessions = Function.update m.sessions sid (some ws) := rfl
  have hclients : m'.clients = m.clients := rfl
  have hsubscription (ws' : Ws) : (m'.record ws').subscription = (m.record ws').subscription := by
    rw [hrecord]
    split_ifs with heq
    · rw [heq]
    · rfl
  have hsubscribers (ws' : Ws) : (m'.record ws').subscribers = (m.record ws').subscribers := by
    rw [hrecord]
    split_ifs with heq
    · rw [heq]
    · rfl
  have hholds (s : Ws) (sid' : SessionId) (hs : m'.Holds s sid') : m.Holds s sid' := by
    rwa [Holds, hsubscription] at hs
  refine ⟨fun sid' ws' => ?_, fun ws' hsid' => ?_, fun ws' s hs => ?_, ?_, fun ws' =>
    ?_, fun ws' => ?_,
    fun sid' ws' s hsid' hs => ?_⟩
  · have hagree := h.sessions sid' ws'
    rw [hsessions, hclients, hrecord, Function.update_apply]
    by_cases heq : ws' = ws
    · subst heq
      by_cases hsid' : sid' = sid
      · simpa [hsid'] using hws
      · simp [hsid', Ne.symm hsid', hagree, hsession]
    · rw [if_neg heq]
      split_ifs with hsid'
      · subst hsid'
        rw [hfresh] at hagree
        simp only [reduceCtorEq, false_iff] at hagree
        exact ⟨fun hsome => absurd (Option.some.inj hsome).symm heq, fun hother =>
          absurd hother hagree⟩
      · exact hagree
  · rw [hsubscription]
    by_cases heq : ws' = ws
    · rw [heq, hfree]
    · rw [hrecord, if_neg heq] at hsid'
      exact h.apart ws' hsid'
  · rw [hsubscribers] at hs
    obtain ⟨hclient, hs, sid', hsid', hsubscribed⟩ := h.members ws' s hs
    refine ⟨hclient, hs, sid', ?_, ?_⟩
    · rw [hrecord, if_neg, hsid']
      rintro rfl
      rw [hsession] at hsid'
      cases hsid'
    · rwa [subscribedTo, hsubscription]
  · intro sid' holders hnodup hall
    exact h.bounded sid' holders hnodup fun s hs => hholds s sid' (hall s hs)
  · rw [hsubscribers]
    exact h.nodup ws'
  · rw [hsubscribers]
    exact h.few ws'
  · rw [hsessions, Function.update_apply] at hsid'
    split_ifs at hsid' with heq
    · -- Nobody listens to a session that has just begun.
      subst heq
      exact absurd (subscribedTo_of_holds (hholds s sid' hs)) (hunheard s hs.1)
    · rw [hsubscribers]
      exact h.holders sid' ws' s hsid' (hholds s sid' hs)

theorem connect (h : SessionsAgree m) {ws : Ws} (hws : ws ∉ m.clients) :
    SessionsAgree (m.connect ws) := by
  have hclients (ws' : Ws) : ws' ∈ (m.connect ws).clients ↔ ws' ∈ m.clients ∨ ws' = ws := by
    simp [Manager.connect]
  have hholds (s : Ws) (sid : SessionId) (hs : (m.connect ws).Holds s sid) : m.Holds s sid := by
    obtain ⟨hclient, q, hq, hrest⟩ := hs
    rw [connect_record] at hq
    by_cases heq : s = ws
    · rw [if_pos heq] at hq
      cases hq
    · rw [if_neg heq] at hq
      exact ⟨((hclients s).1 hclient).resolve_right heq, q, hq, hrest⟩
  refine ⟨fun sid ws' => ?_, fun ws' hsid => ?_, fun ws' s hs => ?_, ?_, fun ws' =>
    ?_, fun ws' => ?_,
    fun sid ws' s hsid hs => ?_⟩
  · have hagree := h.sessions sid ws'
    rw [hclients, connect_record]
    by_cases heq : ws' = ws
    · subst heq
      simp only [hws, false_and, iff_false] at hagree
      simp only [if_true, reduceCtorEq, and_false, iff_false]
      exact hagree
    · rw [if_neg heq, or_iff_left heq]
      exact hagree
  · rw [connect_record] at hsid ⊢
    split_ifs
    · rfl
    · rw [if_neg (by assumption)] at hsid
      exact h.apart ws' hsid
  · rw [connect_record] at hs
    split_ifs at hs with heq
    · cases hs
    · obtain ⟨hclient, hsclient, sid, hsid, hsubscribed⟩ := h.members ws' s hs
      refine ⟨(hclients ws').2 (Or.inl hclient), (hclients s).2 (Or.inl hsclient), sid, ?_, ?_⟩
      · rw [connect_record, if_neg heq, hsid]
      · rw [subscribedTo, connect_record, if_neg fun hsame : s = ws => hws (hsame ▸ hsclient)]
        exact hsubscribed
  · intro sid holders hnodup hall
    exact h.bounded sid holders hnodup fun s hs => hholds s sid (hall s hs)
  · rw [connect_record]
    split_ifs
    · exact List.nodup_nil
    · exact h.nodup ws'
  · rw [connect_record]
    split_ifs
    · exact Nat.zero_le _
    · exact h.few ws'
  · have hmem := h.holders sid ws' s hsid (hholds s sid hs)
    rw [connect_record, if_neg]
    · exact hmem
    · rintro rfl
      exact hws ((h.sessions sid ws').1 hsid).1

theorem forget (h : SessionsAgree m) (hnodup : m.clients.Nodup) {ws : Ws}
    (hsession : (m.record ws).sessionId = none) (hfree : (m.record ws).subscription = none) :
    SessionsAgree (m.forget ws) := by
  have hclients (ws' : Ws) : ws' ∈ (m.forget ws).clients ↔ ws' ≠ ws ∧ ws' ∈ m.clients :=
    hnodup.mem_erase_iff
  have hholds (s : Ws) (sid : SessionId) (hs : (m.forget ws).Holds s sid) : m.Holds s sid :=
    ⟨((hclients s).1 hs.1).2, hs.2⟩
  refine ⟨fun sid ws' => ?_, h.apart, fun ws' s hs => ?_, ?_, h.nodup, h.few,
    fun sid ws' s hsid hs => h.holders sid ws' s hsid (hholds s sid hs)⟩
  · have hagree := h.sessions sid ws'
    rw [hclients]
    refine ⟨fun hsid => ⟨⟨?_, (hagree.1 hsid).1⟩, (hagree.1 hsid).2⟩,
      fun hsid => hagree.2 ⟨hsid.1.2, hsid.2⟩⟩
    rintro rfl
    rw [hsession] at hagree
    cases (hagree.1 hsid).2
  · obtain ⟨hclient, hsclient, sid, hsid, hsubscribed⟩ := h.members ws' s hs
    refine ⟨(hclients ws').2 ⟨?_, hclient⟩, (hclients s).2 ⟨?_, hsclient⟩, sid, hsid, hsubscribed⟩
    · rintro rfl
      rw [hsession] at hsid
      cases hsid
    · rintro rfl
      simp [subscribedTo, hfree] at hsubscribed
  · intro sid holders hnodup hall
    exact h.bounded sid holders hnodup fun s hs => hholds s sid (hall s hs)

end SessionsAgree

end Manager

end WlanpiCore.Streaming
