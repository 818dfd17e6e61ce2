import WlanpiCore.Auth.Token
import WlanpiCore.Lib.Transition
import Mathlib.Data.List.Nodup

/-!
# Safety of the token store

**`Db.tokenStore_safe`**: whatever transactions were committed, at most one signing key is active
and every token that is not revoked was signed with it; a revoked token stays revoked; a valid
verification has found such a token; and once a transaction that covers a token is committed, it is
not valid again.

`Db.Safe` is the invariant of the tables. `Db.Grown` is what every transaction does to the rows of
tokens: none goes, none changes except that it may be revoked.
-/

namespace WlanpiCore.Auth

/-- A transaction of `TokenManager`. -/
inductive Transaction where
  | create (deviceId : Text) (expiresDelta : Option Rat) (draw : Draw)
  | revoke (token : Text)
  | revokeDevice (deviceId : Text)
  /-- With the text of the new key. -/
  | rotate (key : Text)

/-- The token is one of those that the transaction revokes. -/
def Transaction.Covers (depth : Nat) (t : Token) : Transaction → Prop
  | .create .. => False
  | .revoke token => normalizeToken depth token = .ok t.token
  | .revokeDevice deviceId => t.deviceId = deviceId
  | .rotate _ => True

namespace Db

/-- The database after a transaction, if it commits. -/
def commit (jose : Jose) (depth : Nat) (db : Db) : Transaction → Option Db
  | .create deviceId expiresDelta draw =>
    (db.createToken jose deviceId expiresDelta draw).map Prod.fst
  | .revoke token => some (db.revokeToken depth token)
  | .revokeDevice deviceId => some (db.revokeDeviceTokens deviceId)
  | .rotate key => db.rotateKey key

/-! ## What transactions do -/

theorem mem_revoke {db : Db} {p : Token → Bool} {t : Token} : t ∈ (db.revoke p).tokens ↔
    ∃ t₀ ∈ db.tokens, t = if p t₀ then { t₀ with revoked := true } else t₀ := by
  simp only [revoke, List.mem_map, eq_comm]

/-- A new key is the only active one, and every live token was signed with it. -/
theorem replaceKey_some {db db' : Db} {key : Text} {k : SigningKey}
    (h : db.replaceKey key = some (db', k)) :
    k.active = true ∧ k.id = db.nextKeyId ∧
      db'.keys = k :: db.keys.map ({ · with active := false }) ∧
      db'.tokens = (db.revoke fun t => t.keyId ≠ k.id ∧ t.revoked = false).tokens := by
  obtain ⟨added, hadd, hsome⟩ := Option.map_eq_some_iff.1 h
  obtain ⟨rfl, rfl⟩ := Prod.mk.inj hsome
  unfold addKey at hadd
  split_ifs at hadd
  cases hadd
  have hid : db.deactivateKeys.nextKeyId = db.nextKeyId := by
    unfold nextKeyId deactivateKeys
    rw [List.map_map]
    rfl
  exact ⟨rfl, hid, rfl, rfl⟩

theorem addToken_some {db db' : Db} {t : Token} (h : db.addToken t = some db') :
    t.token ∉ db.tokens.map Token.token ∧ db'.keys = db.keys ∧ db'.tokens = t :: db.tokens := by
  unfold addToken at h
  split_ifs at h with hnew
  cases h
  exact ⟨hnew, rfl, rfl⟩

/-- The key of a new token is the active one: the one there was, or a new one. -/
theorem getOrCreateSigningKey_some {db db' : Db} {key : Text} {k : SigningKey}
    (h : db.getOrCreateSigningKey key = some (db', k)) :
    (db' = db ∧ db.keys.filter SigningKey.active = [k]) ∨ db.replaceKey key = some (db', k) := by
  unfold getOrCreateSigningKey at h
  split at h
  · rename_i k' hactive
    obtain ⟨rfl, rfl⟩ := Prod.mk.inj (Option.some.inj h)
    exact Or.inl ⟨rfl, hactive⟩
  · exact Or.inr h
  · cases h

theorem createToken_some {jose : Jose} {db db' : Db} {deviceId token : Text}
    {expiresDelta : Option Rat} {draw : Draw}
    (h : db.createToken jose deviceId expiresDelta draw = some (db', token)) :
    ∃ db₁ k, db.getOrCreateSigningKey draw.key = some (db₁, k) ∧
      db₁.addToken { token, deviceId, keyId := k.id } = some db' := by
  unfold createToken at h
  simp only [Option.bind_eq_bind, Option.bind_eq_some_iff, Option.pure_def, Option.some.injEq,
    Prod.mk.injEq] at h
  obtain ⟨⟨db₁, k⟩, hkey, db₂, hadd, rfl, rfl⟩ := h
  exact ⟨db₁, k, hkey, hadd⟩

/-! ## Rows stay -/

/-- Every row is still there, and nothing has changed in it except that it may be revoked. -/
def Grown (db db' : Db) : Prop :=
  ∀ t ∈ db.tokens, ∃ t' ∈ db'.tokens, t' = { t with revoked := t'.revoked } ∧
    (t.revoked = true → t'.revoked = true)

theorem Grown.refl (db : Db) : Grown db db := fun t ht => ⟨t, ht, rfl, id⟩

theorem Grown.trans {db db' db'' : Db} (h : Grown db db') (h' : Grown db' db'') :
    Grown db db'' := by
  intro t ht
  obtain ⟨t', ht', hsame, hrevoked⟩ := h t ht
  obtain ⟨t'', ht'', hsame', hrevoked'⟩ := h' t' ht'
  refine ⟨t'', ht'', ?_, fun hr => hrevoked' (hrevoked hr)⟩
  rw [hsame', hsame]

theorem grown_revoke (db : Db) (p : Token → Bool) : Grown db (db.revoke p) := by
  intro t ht
  refine ⟨_, mem_revoke.2 ⟨t, ht, rfl⟩, ?_⟩
  split_ifs
  · exact ⟨rfl, fun _ => rfl⟩
  · exact ⟨rfl, id⟩

theorem grown_of_tokens {db db' : Db} (h : db'.tokens = db.tokens) : Grown db db' := by
  intro t ht
  exact ⟨t, h ▸ ht, rfl, id⟩

theorem grown_replaceKey {db db' : Db} {key : Text} {k : SigningKey}
    (h : db.replaceKey key = some (db', k)) : Grown db db' := by
  obtain ⟨-, -, -, htokens⟩ := replaceKey_some h
  exact (db.grown_revoke _).trans (grown_of_tokens htokens)

theorem grown_getOrCreateSigningKey {db db' : Db} {key : Text} {k : SigningKey}
    (h : db.getOrCreateSigningKey key = some (db', k)) : Grown db db' := by
  rcases getOrCreateSigningKey_some h with ⟨rfl, -⟩ | h
  · exact .refl _
  · exact grown_replaceKey h

theorem grown_addToken {db db' : Db} {t : Token} (h : db.addToken t = some db') :
    Grown db db' := by
  obtain ⟨-, -, htokens⟩ := addToken_some h
  intro t' ht'
  exact ⟨t', htokens ▸ List.mem_cons_of_mem t ht', rfl, id⟩

theorem grown_createToken {jose : Jose} {db db' : Db} {deviceId token : Text}
    {expiresDelta : Option Rat} {draw : Draw}
    (h : db.createToken jose deviceId expiresDelta draw = some (db', token)) : Grown db db' := by
  obtain ⟨db₁, k, hkey, hadd⟩ := createToken_some h
  exact (grown_getOrCreateSigningKey hkey).trans (grown_addToken hadd)

theorem grown_revokeToken (depth : Nat) (db : Db) (token : Text) :
    Grown db (db.revokeToken depth token) := by
  unfold revokeToken
  cases normalizeToken depth token with
  | error e => exact .refl db
  | ok value => exact db.grown_revoke _

variable {jose : Jose} {depth : Nat}

theorem grown_commit {db db' : Db} {op : Transaction} (h : db.commit jose depth op = some db') :
    Grown db db' := by
  cases op with
  | create deviceId expiresDelta draw =>
    obtain ⟨⟨db₁, token⟩, hcreate, rfl⟩ := Option.map_eq_some_iff.1 h
    exact grown_createToken hcreate
  | revoke token =>
    cases h
    exact grown_revokeToken depth db token
  | revokeDevice deviceId =>
    cases h
    exact db.grown_revoke _
  | rotate key =>
    obtain ⟨⟨db₁, k⟩, hreplace, rfl⟩ := Option.map_eq_some_iff.1 h
    exact grown_replaceKey hreplace

theorem grown_reaches {db db' : Db} (h : Reaches (commit jose depth) db db') : Grown db db' := by
  induction h with
  | refl => exact .refl db
  | tail _ _ hstep ih => exact ih.trans (grown_commit hstep)

/-! ## The invariant -/

/-- At most one key is active, and every token that is not revoked was signed with it. -/
structure Safe (db : Db) : Prop where
  single : (db.keys.filter SigningKey.active).length ≤ 1
  live : ∀ t ∈ db.tokens, t.revoked = false → ∃ k ∈ db.keys, k.active = true ∧ k.id = t.keyId
  /-- No token was signed with a key that is yet to come. -/
  signed : ∀ t ∈ db.tokens, t.keyId < db.nextKeyId

theorem safe_empty : empty.Safe :=
  ⟨Nat.zero_le _, fun _ ht => absurd ht List.not_mem_nil, fun _ ht => absurd ht List.not_mem_nil⟩

namespace Safe

variable {db db' : Db}

theorem revoke (h : Safe db) (p : Token → Bool) : Safe (db.revoke p) := by
  refine ⟨h.single, fun t ht hrevoked => ?_, fun t ht => ?_⟩
  all_goals
    obtain ⟨t₀, ht₀, rfl⟩ := mem_revoke.1 ht
  · split_ifs at hrevoked ⊢
    exact h.live t₀ ht₀ hrevoked
  · have hsigned := h.signed t₀ ht₀
    split_ifs <;> exact hsigned

theorem replaceKey {key : Text} {k : SigningKey} (h : Safe db)
    (hreplace : db.replaceKey key = some (db', k)) : Safe db' := by
  obtain ⟨hactive, hid, hkeys, htokens⟩ := replaceKey_some hreplace
  have hk : k ∈ db'.keys := by
    rw [hkeys]
    exact List.mem_cons_self
  refine ⟨?_, fun t ht hrevoked => ?_, fun t ht => ?_⟩
  · rw [hkeys, List.filter_cons_of_pos hactive, List.filter_eq_nil_iff.2]
    · exact le_refl 1
    · intro k' hk'
      obtain ⟨k₀, -, rfl⟩ := List.mem_map.1 hk'
      simp
  all_goals
    rw [htokens] at ht
    obtain ⟨t₀, ht₀, rfl⟩ := mem_revoke.1 ht
  · -- The keys of all other tokens differ from the new one, so they are revoked.
    refine ⟨k, hk, hactive, ?_⟩
    split_ifs at hrevoked ⊢ with hother
    simp only [hrevoked, and_true, decide_eq_true_eq, ne_eq, not_not] at hother
    exact hother.symm
  · have hlt := db'.lt_nextKeyId hk
    have hsigned := h.signed t₀ ht₀
    rw [hid] at hlt
    split_ifs <;> exact hsigned.trans hlt

theorem addToken {t : Token} {k : SigningKey} (h : Safe db) (hk : k ∈ db.keys)
    (hactive : k.active = true) (hid : t.keyId = k.id) (hadd : db.addToken t = some db') :
    Safe db' := by
  obtain ⟨-, hkeys, htokens⟩ := addToken_some hadd
  have hnext : db'.nextKeyId = db.nextKeyId := by rw [nextKeyId, hkeys, nextKeyId]
  refine ⟨hkeys ▸ h.single, fun t' ht' hrevoked => ?_, fun t' ht' => ?_⟩
  all_goals
    rw [htokens] at ht'
    rcases List.mem_cons.1 ht' with rfl | ht'
  · exact ⟨k, hkeys ▸ hk, hactive, hid.symm⟩
  · exact hkeys ▸ h.live t' ht' hrevoked
  · rw [hnext, hid]
    exact db.lt_nextKeyId hk
  · rw [hnext]
    exact h.signed t' ht'

theorem commit {op : Transaction} (h : Safe db) (hcommit : db.commit jose depth op = some db') :
    Safe db' := by
  cases op with
  | create deviceId expiresDelta draw =>
    obtain ⟨⟨db₁, token⟩, hcreate, rfl⟩ := Option.map_eq_some_iff.1 hcommit
    obtain ⟨db₂, k, hkey, hadd⟩ := createToken_some hcreate
    rcases getOrCreateSigningKey_some hkey with ⟨rfl, hactive⟩ | hreplace
    · have hmem : k ∈ db₂.keys.filter SigningKey.active := by
        rw [hactive]
        exact List.mem_cons_self
      obtain ⟨hk, hactive⟩ := List.mem_filter.1 hmem
      exact h.addToken hk hactive rfl hadd
    · obtain ⟨hactive, -, hkeys, -⟩ := replaceKey_some hreplace
      exact (h.replaceKey hreplace).addToken (hkeys ▸ List.mem_cons_self) hactive rfl hadd
  | revoke token =>
    cases hcommit
    unfold Db.revokeToken
    cases normalizeToken depth token with
    | error e => exact h
    | ok value => exact h.revoke _
  | revokeDevice deviceId =>
    cases hcommit
    exact h.revoke _
  | rotate key =>
    obtain ⟨⟨db₁, k⟩, hreplace, rfl⟩ := Option.map_eq_some_iff.1 hcommit
    exact h.replaceKey hreplace

theorem reaches (h : Safe db) (hreach : Reaches (Db.commit jose depth) db db') : Safe db' :=
  hreach.invariant h fun _ _ _ hs _ hstep => hs.commit hstep

end Safe

/-! ## Verifying -/

theorem getTokenByValue_some {db : Db} {value : Text} {t : Token}
    (h : db.getTokenByValue value = some t) : t ∈ db.tokens ∧ t.token = value :=
  ⟨List.mem_of_find?_eq_some h, by simpa using List.find?_some h⟩

/-- There is one row for a token. -/
theorem eq_of_token {db : Db} {t t' : Token} (ht : t ∈ db.tokens) (ht' : t' ∈ db.tokens)
    (h : t.token = t'.token) : t = t' :=
  List.inj_on_of_nodup_map db.tokenTexts ht ht' h

end Db

/-- What `verify_token` has found when it reports a token valid. -/
structure Verified (db : Db) (payload : Claims) (t : Token) : Prop where
  row : t ∈ db.tokens
  unrevoked : t.revoked = false
  key : ∃ k ∈ db.keys, k.id = t.keyId ∧ k.active = true
  kid : ∃ kid, payload.get "kid" = some kid ∧ kid.printsAs t.keyId = true
  did : ∃ did, payload.get "did" = some did ∧ did.truth = true

theorem checkPayload_ok {jose : Jose} {clock : Clock} {payload : Claims} {t : Token}
    (h : checkPayload jose clock payload t = .ok ()) :
    (∃ kid, payload.get "kid" = some kid ∧ kid.printsAs t.keyId = true) ∧
      ∃ did, payload.get "did" = some did ∧ did.truth = true := by
  have hkid : (payload.get "kid").any (·.printsAs t.keyId) = true := by
    by_contra hkid
    rw [Bool.not_eq_true] at hkid
    simp only [checkPayload, hkid, bind, Except.bind] at h
    repeat' split at h
    all_goals simp_all [throw, throwThe, MonadExceptOf.throw]
  have hdid : (payload.get "did").any (·.truth) = true := by
    by_contra hdid
    rw [Bool.not_eq_true] at hdid
    simp only [checkPayload, hdid, bind, Except.bind] at h
    repeat' split at h
    all_goals simp_all [throw, throwThe, MonadExceptOf.throw]
  exact ⟨(Option.any_eq_true _ _).1 hkid, (Option.any_eq_true _ _).1 hdid⟩

variable {jose : Jose} {depth : Nat}

/-- A value that is reported valid is a stored token that is not revoked, and it decodes under its
key, which is active, to a payload that passes the checks. -/
theorem verifyNormalized_found {db : Db} {clock : Clock} {value token : Text} {payload : Claims}
    {deviceId : Claim} {keyId : Nat}
    (h : verifyNormalized jose db clock value = some (.valid payload token deviceId keyId)) :
    ∃ t ∈ db.tokens, ∃ k ∈ db.keys, value = t.token ∧ t.revoked = false ∧
      k.id = t.keyId ∧ k.active = true ∧ jose.decode t.token k.key = .ok payload ∧
      checkPayload jose clock payload t = .ok () ∧
      validResult payload t = .valid payload token deviceId keyId := by
  unfold verifyNormalized at h
  cases hrow : db.getTokenByValue value with
  | none =>
    rw [hrow] at h
    simp at h
  | some t =>
    rw [hrow] at h
    dsimp only at h
    obtain ⟨ht, rfl⟩ := Db.getTokenByValue_some hrow
    by_cases hrevoked : t.revoked = true
    · rw [if_pos hrevoked] at h
      simp at h
    rw [if_neg hrevoked] at h
    cases hkey : db.signingKey t with
    | none =>
      rw [hkey] at h
      simp at h
    | some k =>
      rw [hkey] at h
      dsimp only at h
      by_cases hactive : k.active = false
      · rw [if_pos hactive] at h
        simp at h
      rw [if_neg hactive] at h
      have hid : k.id = t.keyId := by simpa using List.find?_some hkey
      cases hdecode : jose.decode t.token k.key with
      | error e =>
        rw [hdecode] at h
        simp [reported, Except.mapError, bind, Except.bind] at h
      | ok claims =>
        rw [hdecode] at h
        cases hcheck : checkPayload jose clock claims t with
        | error e => cases e <;> simp [reported, Except.mapError, bind, Except.bind, hcheck] at h
        | ok u =>
          simp only [reported, Except.mapError, bind, Except.bind, hcheck, pure, Except.pure,
            Option.some.injEq] at h
          obtain rfl : claims = payload := by
            unfold validResult at h
            cases h
            rfl
          exact ⟨t, ht, k, List.mem_of_find?_eq_some hkey, rfl, by simpa using hrevoked, hid,
            by simpa using hactive, hdecode, hcheck, h⟩

theorem verifyToken_found {db : Db} {clock : Clock} {text token : Text} {payload : Claims}
    {deviceId : Claim} {keyId : Nat}
    (h : verifyToken jose depth db clock text = some (.valid payload token deviceId keyId)) :
    ∃ t ∈ db.tokens, ∃ k ∈ db.keys, normalizeToken depth text = .ok t.token ∧ t.revoked = false ∧
      k.id = t.keyId ∧ k.active = true ∧ jose.decode t.token k.key = .ok payload ∧
      checkPayload jose clock payload t = .ok () ∧
      validResult payload t = .valid payload token deviceId keyId := by
  unfold verifyToken at h
  cases hnormal : normalizeToken depth text with
  | error e => cases e <;> rw [hnormal] at h <;> simp at h
  | ok value =>
    rw [hnormal] at h
    obtain ⟨t, ht, k, hk, rfl, hfound⟩ := verifyNormalized_found h
    exact ⟨t, ht, k, hk, rfl, hfound⟩

theorem verifyToken_valid {db : Db} {clock : Clock} {text token : Text} {payload : Claims}
    {deviceId : Claim} {keyId : Nat}
    (h : verifyToken jose depth db clock text = some (.valid payload token deviceId keyId)) :
    ∃ t, normalizeToken depth text = .ok t.token ∧ Verified db payload t ∧
      validResult payload t = .valid payload token deviceId keyId := by
  obtain ⟨t, ht, k, hk, hnormal, hrevoked, hid, hactive, -, hcheck, hresult⟩ := verifyToken_found h
  obtain ⟨hkid, hdid⟩ := checkPayload_ok hcheck
  exact ⟨t, hnormal, ⟨ht, hrevoked, ⟨k, hk, hid, hactive⟩, hkid, hdid⟩, hresult⟩

namespace Db

/-- A transaction leaves the tokens that it covers revoked. -/
theorem covered_revoked {db db' : Db} {op : Transaction} {t : Token} (hsafe : db.Safe)
    (ht : t ∈ db.tokens) (hcovers : op.Covers depth t) (h : db.commit jose depth op = some db') :
    ∃ t' ∈ db'.tokens, t'.token = t.token ∧ t'.revoked = true := by
  have hrevoke (p : Token → Bool) (hp : t.revoked = false → p t = true) :
      ∃ t' ∈ (db.revoke p).tokens, t'.token = t.token ∧ t'.revoked = true := by
    refine ⟨_, mem_revoke.2 ⟨t, ht, rfl⟩, ?_⟩
    by_cases hrevoked : t.revoked = true
    · split_ifs <;> simp [hrevoked]
    · rw [if_pos (hp (by simpa using hrevoked))]
      exact ⟨rfl, rfl⟩
  cases op with
  | create => exact hcovers.elim
  | revoke token =>
    cases h
    unfold revokeToken
    rw [show normalizeToken depth token = .ok t.token from hcovers]
    exact hrevoke _ fun hrevoked => by simp [hrevoked]
  | revokeDevice deviceId =>
    cases h
    refine hrevoke _ fun hrevoked => ?_
    simp [hrevoked, show t.deviceId = deviceId from hcovers]
  | rotate key =>
    obtain ⟨⟨db₁, k⟩, hreplace, rfl⟩ := Option.map_eq_some_iff.1 h
    obtain ⟨-, hid, -, htokens⟩ := replaceKey_some hreplace
    rw [htokens]
    refine hrevoke _ fun hrevoked => ?_
    simp [hrevoked, hid, (hsafe.signed t ht).ne]

/-- The token store is safe in every run of committed transactions. -/
theorem tokenStore_safe (jose : Jose) (depth : Nat) :
    (∀ db, Reaches (commit jose depth) empty db →
      (db.keys.filter SigningKey.active).length ≤ 1 ∧
      ∀ t ∈ db.tokens, t.revoked = false → ∃ k ∈ db.keys, k.active = true ∧ k.id = t.keyId) ∧
    (∀ db db', Reaches (commit jose depth) empty db → Reaches (commit jose depth) db db' →
      ∀ t ∈ db.tokens, t.revoked = true → { t with revoked := true } ∈ db'.tokens) ∧
    (∀ db clock text payload token deviceId keyId,
      verifyToken jose depth db clock text = some (.valid payload token deviceId keyId) →
      ∃ t ∈ db.tokens, normalizeToken depth text = .ok t.token ∧ t.revoked = false ∧
        (∃ k ∈ db.keys, k.id = t.keyId ∧ k.active = true) ∧
        ∃ kid, payload.get "kid" = some kid ∧ kid.printsAs t.keyId = true) ∧
    ∀ db op db' db'' t, Reaches (commit jose depth) empty db → t ∈ db.tokens →
      op.Covers depth t → db.commit jose depth op = some db' →
      Reaches (commit jose depth) db' db'' →
      ∀ clock text payload token deviceId keyId, normalizeToken depth text = .ok t.token →
        verifyToken jose depth db'' clock text ≠ some (.valid payload token deviceId keyId) := by
  refine ⟨fun db hreach => ?_, fun db db' _ hreach t ht hrevoked => ?_,
    fun db clock text payload token deviceId keyId hvalid => ?_,
    fun db op db' db'' t hreach ht hcovers hcommit hlater => ?_⟩
  · have hsafe := safe_empty.reaches hreach
    exact ⟨hsafe.single, hsafe.live⟩
  · obtain ⟨t', ht', hsame, hrevoked'⟩ := grown_reaches hreach t ht
    rw [hrevoked' hrevoked] at hsame
    exact hsame ▸ ht'
  · obtain ⟨t, hnormal, hverified, -⟩ := verifyToken_valid hvalid
    exact ⟨t, hverified.row, hnormal, hverified.unrevoked, hverified.key, hverified.kid⟩
  · intro clock text payload token deviceId keyId hnormal hvalid
    obtain ⟨t', ht', htoken, hrevoked⟩ :=
      covered_revoked (safe_empty.reaches hreach) ht hcovers hcommit
    obtain ⟨t'', ht'', hsame, hrevoked''⟩ := grown_reaches hlater t' ht'
    -- The row that is verified is the one that was revoked.
    obtain ⟨row, hnormal', hverified, -⟩ := verifyToken_valid hvalid
    have hrow : row.token = t''.token := by
      rw [hnormal] at hnormal'
      rw [hsame, ← Except.ok.inj hnormal']
      exact htoken.symm
    have heq := eq_of_token hverified.row ht'' hrow
    have hunrevoked := hverified.unrevoked
    rw [heq, hrevoked'' hrevoked] at hunrevoked
    cases hunrevoked

end Db

end WlanpiCore.Auth
