import WlanpiCore.Auth.Endpoints

/-!
# Where tokens come from

**`provenance`**: after the startup revocation, whatever requests come in and however their
transactions are ordered, a token of the reserved device id that is not revoked was minted for a
localhost caller; a token that a bearer minted has the device id of the bearer's own token; so
every token goes back, by mints for one device id, to such a caller or to a token there was at
startup; and a bearer that `verify_local_auth` lets in goes back to such a caller.

The invariant `Traced` has a mint for every row that was not there at startup, and says what the
request behind a mint had to pass. A waiting request has passed it already, and rows stay, so it
does not matter what comes between.
-/

namespace WlanpiCore.Auth

/-- A chain of mints for one device id, from a localhost caller or a token there was at startup. -/
inductive GoesBack (atStartup : List Token) (mints : List Mint) (deviceId : Text) : Text →
    Prop where
  | startup {t : Token} (ht : t ∈ atStartup) (hid : t.deviceId = deviceId) :
    GoesBack atStartup mints deviceId t.token
  | localhost {m : Mint} (hm : m ∈ mints) (hid : m.deviceId = deviceId)
      (hcaller : m.caller = .localhostHmac) : GoesBack atStartup mints deviceId m.token
  | bearer {m : Mint} {token : Text} {callerId : Claim} (hm : m ∈ mints)
      (hid : m.deviceId = deviceId) (hcaller : m.caller = .bearer token callerId)
      (hback : GoesBack atStartup mints deviceId token) : GoesBack atStartup mints deviceId m.token

theorem GoesBack.mono {atStartup : List Token} {mints mints' : List Mint} {deviceId token : Text}
    (h : GoesBack atStartup mints deviceId token) (hsub : mints ⊆ mints') :
    GoesBack atStartup mints' deviceId token := by
  induction h with
  | startup ht hid => exact .startup ht hid
  | localhost hm hid hcaller => exact .localhost (hsub hm) hid hcaller
  | bearer hm hid hcaller _ ih => exact .bearer (hsub hm) hid hcaller ih

/-! ## Rows come from mints -/

namespace Db

/-- Every row was there before. -/
def NoneNew (db db' : Db) : Prop :=
  ∀ t' ∈ db'.tokens, ∃ t ∈ db.tokens, t' = { t with revoked := t'.revoked } ∧
    (t.revoked = true → t'.revoked = true)

theorem NoneNew.refl (db : Db) : NoneNew db db := fun t ht => ⟨t, ht, rfl, id⟩

theorem noneNew_of_tokens {db db₁ db' : Db} (h : NoneNew db db₁)
    (htokens : db'.tokens = db₁.tokens) :
    NoneNew db db' := by
  intro t' ht'
  exact h t' (htokens ▸ ht')

theorem noneNew_revoke (db : Db) (p : Token → Bool) : NoneNew db (db.revoke p) := by
  intro t' ht'
  obtain ⟨t, ht, rfl⟩ := mem_revoke.1 ht'
  refine ⟨t, ht, ?_⟩
  split_ifs
  · exact ⟨rfl, fun _ => rfl⟩
  · exact ⟨rfl, id⟩

theorem noneNew_revokeToken (depth : Nat) (db : Db) (token : Text) :
    NoneNew db (db.revokeToken depth token) := by
  unfold revokeToken
  cases normalizeToken depth token with
  | error e => exact .refl db
  | ok value => exact db.noneNew_revoke _

theorem noneNew_replaceKey {db db' : Db} {key : Text} {k : SigningKey}
    (h : db.replaceKey key = some (db', k)) : NoneNew db db' := by
  obtain ⟨-, -, -, htokens⟩ := replaceKey_some h
  exact noneNew_of_tokens (db.noneNew_revoke _) htokens

/-- One row is new, the token that was minted. -/
theorem createToken_rows {jose : Jose} {db db' : Db} {deviceId token : Text}
    {expiresDelta : Option Rat} {draw : Draw}
    (h : db.createToken jose deviceId expiresDelta draw = some (db', token)) :
    (∃ t ∈ db'.tokens, t.token = token ∧ t.deviceId = deviceId) ∧
      ∀ t' ∈ db'.tokens, t'.token = token ∧ t'.deviceId = deviceId ∨
        ∃ t ∈ db.tokens, t' = { t with revoked := t'.revoked } ∧
          (t.revoked = true → t'.revoked = true) := by
  obtain ⟨db₁, k, hkey, hadd⟩ := createToken_some h
  obtain ⟨-, -, htokens⟩ := addToken_some hadd
  have hnone : NoneNew db db₁ := by
    rcases getOrCreateSigningKey_some hkey with ⟨rfl, -⟩ | hreplace
    · exact .refl _
    · exact noneNew_replaceKey hreplace
  refine ⟨⟨_, htokens ▸ List.mem_cons_self, rfl, rfl⟩, fun t' ht' => ?_⟩
  rw [htokens] at ht'
  rcases List.mem_cons.1 ht' with rfl | ht'
  · exact Or.inl ⟨rfl, rfl⟩
  · exact Or.inr (hnone t' ht')

end Db

/-! ## What a caller may mint -/

/-- A bearer's token is in the store, under the device id that is minted, which is not the
reserved one. -/
def Caller.MayMint (db : Db) (deviceId : Text) : Caller → Prop
  | .localhostHmac => True
  | .bearer token _ => deviceId ≠ pamClientDeviceId ∧
      ∃ t ∈ db.tokens, t.token = token ∧ t.deviceId = deviceId

theorem Caller.MayMint.grown {db db' : Db} {deviceId : Text} {caller : Caller}
    (h : caller.MayMint db deviceId) (hgrown : db.Grown db') : caller.MayMint db' deviceId := by
  cases caller with
  | localhostHmac => trivial
  | bearer token callerId =>
    obtain ⟨hreserved, t, ht, htoken, hid⟩ := h
    obtain ⟨t', ht', hsame, -⟩ := hgrown t ht
    exact ⟨hreserved, t', ht', by rw [hsame]; exact htoken, by rw [hsame]; exact hid⟩

section

variable {jose : Jose} {depth : Nat} {crypto : Crypto}

/-- Every row has a device id. -/
def Db.Named (db : Db) : Prop := ∀ t ∈ db.tokens, t.deviceId ≠ []

/-- A bearer that is let in presents a token of the store, and has its device id. -/
theorem verifyJwtToken_some {db : Db} {clock : Clock} {r : Request} {caller : Caller}
    (hnamed : db.Named) (h : verifyJwtToken jose depth db clock r = some caller) :
    ∃ t ∈ db.tokens, t.revoked = false ∧ caller = .bearer t.token (.str t.deviceId) := by
  unfold verifyJwtToken at h
  cases hcredentials : r.credentials with
  | none =>
    rw [hcredentials] at h
    cases h
  | some text =>
    rw [hcredentials] at h
    dsimp only at h
    cases hverify : verifyToken jose depth db clock text with
    | none =>
      rw [hverify] at h
      cases h
    | some result =>
      rw [hverify] at h
      cases result with
      | invalid error => cases h
      | valid payload token deviceId keyId =>
        obtain ⟨t, -, hverified, hresult⟩ := verifyToken_valid hverify
        refine ⟨t, hverified.row, hverified.unrevoked, ?_⟩
        unfold validResult at hresult
        rw [if_pos (hnamed t hverified.row)] at hresult
        cases hresult
        cases h
        rfl

theorem verifyHmac_some {r : Request} {caller : Caller} (h : verifyHmac crypto r = some caller) :
    caller = .localhostHmac := by
  unfold verifyHmac at h
  split_ifs at h
  cases hsignature : given r.signature with
  | none =>
    rw [hsignature] at h
    cases h
  | some signature =>
    rw [hsignature] at h
    dsimp only at h
    split_ifs at h
    exact (Option.some.inj h).symm

theorem verifyAuthWrapper_some {db : Db} {clock : Clock} {r : Request} {caller : Caller}
    (hnamed : db.Named) (h : verifyAuthWrapper jose depth crypto db clock r = some caller) :
    caller = .localhostHmac ∧ r.credentials = none ∨
      ∃ t ∈ db.tokens, t.revoked = false ∧ caller = .bearer t.token (.str t.deviceId) := by
  unfold verifyAuthWrapper at h
  split_ifs at h with hcredentials
  · exact Or.inr (verifyJwtToken_some hnamed h)
  · exact Or.inl ⟨verifyHmac_some h, by simpa using hcredentials⟩

theorem given_ne_nil {t : Option Text} {value : Text} (h : given t = some value) : value ≠ [] := by
  have hne := (Option.filter_eq_some_iff.1 h).2
  simpa using hne

/-- What `generate_token` mints, the caller may mint. -/
theorem mayMint {db : Db} {clock : Clock} {r : Request} {caller : Caller} {body : Option Text}
    {deviceId : Text} (hnamed : db.Named)
    (hcaller : verifyAuthWrapper jose depth crypto db clock r = some caller)
    (hid : mintableDeviceId caller body = some deviceId) :
    deviceId ≠ [] ∧ caller.MayMint db deviceId := by
  unfold mintableDeviceId at hid
  obtain ⟨stripped, hstripped, hid⟩ := Option.bind_eq_some_iff.1 hid
  have hne := given_ne_nil hstripped
  rcases verifyAuthWrapper_some hnamed hcaller with ⟨rfl, -⟩ | ⟨t, ht, -, rfl⟩
  · obtain rfl : stripped = deviceId := Option.some.inj hid
    exact ⟨hne, trivial⟩
  · dsimp only at hid
    split_ifs at hid with hreserved hother
    obtain rfl : stripped = deviceId := Option.some.inj hid
    exact ⟨hne, hreserved, t, ht, rfl, (not_not.1 hother).symm⟩

end

/-! ## The invariant -/

/-- What a waiting request has passed. -/
def Work.Passed (db : Db) : Work → Prop
  | .mint caller deviceId => deviceId ≠ [] ∧ caller.MayMint db deviceId
  | .revoke _ | .rotate => True

theorem Work.Passed.grown {db db' : Db} {work : Work} (h : work.Passed db) (hgrown : db.Grown db') :
    work.Passed db' := by
  cases work with
  | mint caller deviceId => exact ⟨h.1, h.2.grown hgrown⟩
  | revoke token => trivial
  | rotate => trivial

/-- Every row was there at startup or was minted, by a caller that may. -/
structure Traced (db₀ : Db) (s : Service) : Prop where
  named : s.db.Named
  rows : ∀ t ∈ s.db.tokens, (∃ t₀ ∈ db₀.tokens, t = { t₀ with revoked := t.revoked } ∧
      (t₀.revoked = true ∨ t₀.deviceId = pamClientDeviceId → t.revoked = true)) ∨
    ∃ m ∈ s.mints, m.token = t.token ∧ m.deviceId = t.deviceId
  mints : ∀ m ∈ s.mints, (∃ t ∈ s.db.tokens, t.token = m.token ∧ t.deviceId = m.deviceId) ∧
    m.caller.MayMint s.db m.deviceId
  back : ∀ t ∈ s.db.tokens, GoesBack db₀.tokens s.mints t.deviceId t.token
  pending : ∀ work ∈ s.pending, work.Passed s.db

namespace Traced

variable {db₀ : Db} {s : Service}

theorem startup (hnamed : db₀.Named) : Traced db₀ (startup db₀) := by
  have hrow (t : Token) (ht : t ∈ (db₀.revokeDeviceTokens pamClientDeviceId).tokens) :
      ∃ t₀ ∈ db₀.tokens, t = { t₀ with revoked := t.revoked } ∧
        (t₀.revoked = true ∨ t₀.deviceId = pamClientDeviceId → t.revoked = true) := by
    obtain ⟨t₀, ht₀, rfl⟩ := Db.mem_revoke.1 ht
    refine ⟨t₀, ht₀, ?_⟩
    split_ifs with hp
    · exact ⟨rfl, fun _ => rfl⟩
    · refine ⟨rfl, fun hor => ?_⟩
      by_contra hrevoked
      simp_all
  refine ⟨fun t ht => ?_, fun t ht => Or.inl (hrow t ht), fun m hm => absurd hm List.not_mem_nil,
    fun t ht => ?_, fun work hwork => absurd hwork List.not_mem_nil⟩
  all_goals
    obtain ⟨t₀, ht₀, hsame, -⟩ := hrow t ht
    rw [hsame]
  · exact hnamed t₀ ht₀
  · have hback : GoesBack db₀.tokens [] t₀.deviceId t₀.token := .startup ht₀ rfl
    exact hback

/-- A transaction that adds no row. -/
theorem withDb (h : Traced db₀ s) {db : Db} (hgrown : s.db.Grown db) (hnone : s.db.NoneNew db) :
    Traced db₀ { s with db } := by
  refine ⟨fun t ht => ?_, fun t ht => ?_, fun m hm => ?_, fun t ht => ?_,
    fun work hwork => (h.pending work hwork).grown hgrown⟩
  · obtain ⟨t₁, ht₁, hsame, -⟩ := hnone t ht
    rw [hsame]
    exact h.named t₁ ht₁
  · obtain ⟨t₁, ht₁, hsame, hrevoked⟩ := hnone t ht
    rcases h.rows t₁ ht₁ with ⟨t₀, ht₀, hsame₀, hrevoked₀⟩ | ⟨m, hm, htoken, hid⟩
    · refine Or.inl ⟨t₀, ht₀, ?_, fun hor => hrevoked (hrevoked₀ hor)⟩
      rw [hsame, hsame₀]
    · refine Or.inr ⟨m, hm, ?_⟩
      rw [hsame]
      exact ⟨htoken, hid⟩
  · obtain ⟨⟨t, ht, htoken, hid⟩, hmay⟩ := h.mints m hm
    obtain ⟨t', ht', hsame, -⟩ := hgrown t ht
    refine ⟨⟨t', ht', ?_⟩, hmay.grown hgrown⟩
    rw [hsame]
    exact ⟨htoken, hid⟩
  · obtain ⟨t₁, ht₁, hsame, -⟩ := hnone t ht
    rw [hsame]
    exact h.back t₁ ht₁

theorem mint (h : Traced db₀ s) {jose : Jose} {deviceId token : Text} {expiresDelta : Option Rat}
    {draw : Draw} {db : Db} {caller : Caller}
    (hpassed : (Work.mint caller deviceId).Passed s.db)
    (hcreate : s.db.createToken jose deviceId expiresDelta draw = some (db, token)) :
    Traced db₀ { s with db, mints := ⟨token, deviceId, caller⟩ :: s.mints } := by
  have hgrown := Db.grown_createToken hcreate
  obtain ⟨hnew, hrows⟩ := Db.createToken_rows hcreate
  have hsub : s.mints ⊆ ⟨token, deviceId, caller⟩ :: s.mints := List.subset_cons_self _ _
  refine ⟨fun t ht => ?_, fun t ht => ?_, fun m hm => ?_, fun t ht => ?_,
    fun work hwork => (h.pending work hwork).grown hgrown⟩
  · rcases hrows t ht with ⟨-, hid⟩ | ⟨t₁, ht₁, hsame, -⟩
    · rw [hid]
      exact hpassed.1
    · rw [hsame]
      exact h.named t₁ ht₁
  · rcases hrows t ht with ⟨htoken, hid⟩ | ⟨t₁, ht₁, hsame, hrevoked⟩
    · exact Or.inr ⟨_, List.mem_cons_self, htoken.symm, hid.symm⟩
    · rcases h.rows t₁ ht₁ with ⟨t₀, ht₀, hsame₀, hrevoked₀⟩ | ⟨m, hm, htoken, hid⟩
      · refine Or.inl ⟨t₀, ht₀, ?_, fun hor => hrevoked (hrevoked₀ hor)⟩
        rw [hsame, hsame₀]
      · refine Or.inr ⟨m, hsub hm, ?_⟩
        rw [hsame]
        exact ⟨htoken, hid⟩
  · rcases List.mem_cons.1 hm with rfl | hm
    · exact ⟨hnew, hpassed.2.grown hgrown⟩
    · obtain ⟨⟨t, ht, htoken, hid⟩, hmay⟩ := h.mints m hm
      obtain ⟨t', ht', hsame, -⟩ := hgrown t ht
      refine ⟨⟨t', ht', ?_⟩, hmay.grown hgrown⟩
      rw [hsame]
      exact ⟨htoken, hid⟩
  · rcases hrows t ht with ⟨htoken, hid⟩ | ⟨t₁, ht₁, hsame, -⟩
    · rw [htoken, hid]
      cases caller with
      | localhostHmac => exact .localhost List.mem_cons_self rfl rfl
      | bearer presented callerId =>
        -- The bearer's own token has the same device id, and goes back already.
        obtain ⟨-, -, t₁, ht₁, htoken₁, hid₁⟩ := hpassed
        have hback := (h.back t₁ ht₁).mono hsub
        rw [htoken₁, hid₁] at hback
        exact .bearer List.mem_cons_self rfl rfl hback
    · rw [hsame]
      exact (h.back t₁ ht₁).mono hsub

variable {jose : Jose} {depth : Nat} {crypto : Crypto}

theorem perform (h : Traced db₀ s) {work : Work} {draw : Draw} {s' : Service}
    (hpassed : work.Passed s.db) (hperform : s.perform jose depth draw work = some s') :
    Traced db₀ s' := by
  cases work with
  | mint caller deviceId =>
    obtain ⟨⟨db, token⟩, hcreate, hs'⟩ := Option.bind_eq_some_iff.1 hperform
    cases hs'
    exact h.mint hpassed hcreate
  | revoke token =>
    cases hperform
    exact h.withDb (Db.grown_revokeToken depth _ token) (Db.noneNew_revokeToken depth _ token)
  | rotate =>
    obtain ⟨db, hrotate, rfl⟩ := Option.map_eq_some_iff.1 hperform
    obtain ⟨⟨db', k⟩, hreplace, rfl⟩ := Option.map_eq_some_iff.1 hrotate
    exact h.withDb (Db.grown_replaceKey hreplace) (Db.noneNew_replaceKey hreplace)

theorem receive (h : Traced db₀ s) {clock : Clock} {r : Request} {endpoint : Endpoint} {work : Work}
    (hwork : Auth.receive jose depth crypto s.db clock r endpoint = some work) :
    work.Passed s.db := by
  cases endpoint with
  | generateToken body =>
    obtain ⟨caller, hcaller, hwork⟩ := Option.bind_eq_some_iff.1 hwork
    obtain ⟨deviceId, hid, hwork⟩ := Option.bind_eq_some_iff.1 hwork
    cases hwork
    exact mayMint h.named hcaller hid
  | revokeToken body =>
    obtain ⟨caller, -, hwork⟩ := Option.bind_eq_some_iff.1 hwork
    obtain ⟨token, -, hwork⟩ := Option.bind_eq_some_iff.1 hwork
    cases hwork
    trivial
  | newSigningKey =>
    obtain ⟨caller, -, hwork⟩ := Option.bind_eq_some_iff.1 hwork
    cases hwork
    trivial

theorem withPending (h : Traced db₀ s) {pending : List Work}
    (hpending : ∀ work ∈ pending, work.Passed s.db) : Traced db₀ { s with pending } :=
  ⟨h.named, h.rows, h.mints, h.back, hpending⟩

theorem step (h : Traced db₀ s) {a : Action} {s' : Service}
    (hstep : s.step jose depth crypto a = some s') : Traced db₀ s' := by
  cases a with
  | receive clock r endpoint =>
    obtain ⟨work, hwork, rfl⟩ := Option.map_eq_some_iff.1 hstep
    refine h.withPending fun w hw => ?_
    rcases List.mem_append.1 hw with hw | hw
    · exact h.pending w hw
    · obtain rfl := List.mem_singleton.1 hw
      exact h.receive hwork
  | perform i draw =>
    obtain ⟨work, hi, hperform⟩ := Option.bind_eq_some_iff.1 hstep
    have hpassed := h.pending work (List.mem_of_getElem? hi)
    exact (h.withPending fun w hw => h.pending w (List.mem_of_mem_eraseIdx hw)).perform hpassed
      hperform
  | fail i =>
    cases hstep
    exact h.withPending fun w hw => h.pending w (List.mem_of_mem_eraseIdx hw)

end Traced

/-! ## Provenance -/

/-- Where the tokens of a service come from that began with a database `db₀`. -/
structure Provenance (jose : Jose) (depth : Nat) (crypto : Crypto) (db₀ : Db) (s : Service) :
    Prop where
  reserved : ∀ t ∈ s.db.tokens, t.revoked = false → t.deviceId = pamClientDeviceId →
    ∃ m ∈ s.mints, m.token = t.token ∧ m.caller = .localhostHmac
  sameDevice : ∀ m ∈ s.mints, ∀ token callerId, m.caller = .bearer token callerId →
    ∃ t ∈ s.db.tokens, t.token = token ∧ t.deviceId = m.deviceId
  back : ∀ t ∈ s.db.tokens, t.revoked = false →
    GoesBack db₀.tokens s.mints t.deviceId t.token
  localAuth : ∀ clock r caller, r.credentials.isSome = true →
    verifyLocalAuth jose depth crypto s.db clock r = some caller →
    ∃ m ∈ s.mints, m.caller = .localhostHmac ∧ caller = .bearer m.token (.str pamClientDeviceId)

/-- `db₀` is the database before the startup revocation. -/
theorem provenance (jose : Jose) (depth : Nat) (crypto : Crypto) {db₀ : Db} {s : Service}
    (hnamed : ∀ t ∈ db₀.tokens, t.deviceId ≠ [])
    (h : Reaches (Service.step jose depth crypto) (startup db₀) s) :
    Provenance jose depth crypto db₀ s := by
  have htraced : Traced db₀ s :=
    h.invariant (Traced.startup hnamed) fun _ _ _ hs _ hstep => hs.step hstep
  have hreserved : ∀ t ∈ s.db.tokens, t.revoked = false → t.deviceId = pamClientDeviceId →
      ∃ m ∈ s.mints, m.token = t.token ∧ m.caller = .localhostHmac := by
    intro t ht hrevoked hid
    rcases htraced.rows t ht with ⟨t₀, -, hsame, hrevoked₀⟩ | ⟨m, hm, htoken, hid'⟩
    · -- A token of the reserved id that was there at startup is revoked.
      have hid₀ : t₀.deviceId = pamClientDeviceId := by
        rw [hsame] at hid
        exact hid
      rw [hrevoked₀ (Or.inr hid₀)] at hrevoked
      cases hrevoked
    · refine ⟨m, hm, htoken, ?_⟩
      have hmay := (htraced.mints m hm).2
      cases hcaller : m.caller with
      | localhostHmac => rfl
      | bearer token callerId =>
        rw [hcaller] at hmay
        exact absurd (hid'.trans hid) hmay.1
  refine ⟨hreserved, fun m hm token callerId hcaller => ?_, fun t ht _ => htraced.back t ht,
    fun clock r caller hcredentials hlocal => ?_⟩
  · have hmay := (htraced.mints m hm).2
    rw [hcaller] at hmay
    exact hmay.2
  · unfold verifyLocalAuth at hlocal
    split_ifs at hlocal
    cases hwrapper : verifyAuthWrapper jose depth crypto s.db clock r with
    | none =>
      rw [hwrapper] at hlocal
      simp at hlocal
    | some caller' =>
      rcases verifyAuthWrapper_some htraced.named hwrapper with ⟨-, hnone⟩ | ⟨t, ht, hrevoked, rfl⟩
      · rw [hnone] at hcredentials
        cases hcredentials
      rw [hwrapper] at hlocal
      dsimp only at hlocal
      split_ifs at hlocal with hid
      obtain ⟨m, hm, htoken, hcaller⟩ := hreserved t ht hrevoked hid
      refine ⟨m, hm, hcaller, ?_⟩
      rw [htoken, ← hid]
      exact (Option.some.inj hlocal).symm

/-- A database with a token of the reserved id. -/
def reservedDb : Db where
  keys := [⟨1, "k".toList, true⟩]
  tokens := [⟨"h.old.s".toList, pamClientDeviceId, 1, false⟩]
  keyIds := List.nodup_singleton _
  keyTexts := List.nodup_singleton _
  tokenTexts := List.nodup_singleton _

/-- A localhost caller mints the reserved id after a startup with an older token of it. -/
theorem provenance_reserved : ∃ (jose : Jose) (crypto : Crypto) (s : Service),
    s.db.tokens = [⟨"h.new.s".toList, pamClientDeviceId, 1, false⟩,
      ⟨"h.old.s".toList, pamClientDeviceId, 1, true⟩] ∧
    Provenance jose 100 crypto reservedDb s := by
  let jose : Jose :=
    ⟨fun _ _ _ => "h.new.s".toList, fun _ _ => .error [], fun _ _ _ => .ok (), fun _ _ _ => .ok ()⟩
  let crypto : Crypto := ⟨fun host => some (host = "127.0.0.1".toList), fun _ => "mac".toList⟩
  let request : Request :=
    { peerHost := some "127.0.0.1".toList, signature := some "mac".toList }
  let acts : List Action := [
    .receive ⟨none, 0, 0⟩ request (.generateToken (some pamClientDeviceId)),
    .perform 0 ⟨"pi".toList, 0, 0, "boot".toList, "jti".toList, "key".toList⟩]
  have hexec : (exec (Service.step jose 100 crypto) (startup reservedDb) acts).any
      (fun s => s.db.tokens = [⟨"h.new.s".toList, pamClientDeviceId, 1, false⟩,
        ⟨"h.old.s".toList, pamClientDeviceId, 1, true⟩]) = true := by
    decide +kernel
  obtain ⟨s, hs, htokens⟩ := (Option.any_eq_true _ _).1 hexec
  have hnamed : ∀ t ∈ reservedDb.tokens, t.deviceId ≠ [] := by decide
  exact ⟨jose, crypto, s, of_decide_eq_true htokens,
    provenance jose 100 crypto hnamed (Reaches.of_exec hs)⟩

end WlanpiCore.Auth
