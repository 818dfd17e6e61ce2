import WlanpiCore.Auth.Presented
import Mathlib.Tactic.Linarith

/-!
# The lifetime of a token

On the boot it was minted on, a token lives by the clock that counts seconds since boot, and the
wall clock has no say. On any other boot the wall clock decides, with a tolerance of thirty seconds
for one that lags behind the issue time and none for expiry (`Db.lifetime_law`).

Two checks of the payload's own times stand in front of this: `exp ≤ iat`, and an expiry in seconds
since boot that is negative. The kernel sets no clock before its epoch, so neither reading is
negative, and a lifetime of a second passes both (`truncate_lt_of_nonneg`).
-/

namespace WlanpiCore.Auth

/-! ## Times -/

theorem truncate_of_nonneg {q : Rat} (h : 0 ≤ q) : truncate q = ⌊q⌋ := by
  rw [truncate, Rat.floor_def', Int.tdiv_eq_ediv_of_nonneg (Rat.num_nonneg.2 h)]

/-- From the epoch on, a second more is a second more when both are truncated. -/
theorem truncate_lt_of_nonneg {q lifetime : Rat} (h : 0 ≤ q) (hlifetime : 1 ≤ lifetime) :
    truncate q < truncate (q + lifetime) := by
  rw [truncate_of_nonneg h, truncate_of_nonneg (by linarith)]
  have hle : q + 1 ≤ q + lifetime := by linarith
  have hfloor := Int.floor_le_floor hle
  rw [Int.floor_add_one] at hfloor
  omega

/-- `datetime.fromtimestamp(q, UTC)` does not raise. -/
def isTimestamp (q : Rat) : Bool := -62135596800 ≤ q ∧ q < 253402300800

theorem truncate_natAbs_lt {q : Rat} (h : isTimestamp q = true) :
    (truncate q).natAbs < 253402300800 := by
  rw [isTimestamp, decide_eq_true_eq] at h
  obtain ⟨hlow, hhigh⟩ := h
  have hden : (0 : ℚ) < q.den := by exact_mod_cast q.den_pos
  have hnum : q * q.den = q.num := Rat.mul_den_eq_num q
  have hhigh' : (q.num : ℚ) < 253402300800 * q.den := by
    rw [← hnum]
    exact mul_lt_mul_of_pos_right hhigh hden
  have hlow' : -(253402300800 * q.den : ℚ) < q.num := by
    have := mul_le_mul_of_nonneg_right hlow hden.le
    rw [hnum] at this
    linarith
  have hhigh'' : q.num < 253402300800 * q.den := by exact_mod_cast hhigh'
  have hlow'' : -(253402300800 * (q.den : Int)) < q.num := by exact_mod_cast hlow'
  rw [truncate, Int.natAbs_tdiv, Int.natAbs_natCast]
  apply Nat.div_lt_of_lt_mul
  have : q.num.natAbs < 253402300800 * q.den := by omega
  rwa [Nat.mul_comm] at this

/-! ## Minting -/

/-- `expires_delta or timedelta(days=settings.ACCESS_TOKEN_EXPIRE_DAYS)`, in seconds. -/
def lifetimeOf (expiresDelta : Option Rat) : Rat :=
  match expiresDelta with
  | some delta => if delta = 0 then accessTokenExpireDays * 86400 else delta
  | none => accessTokenExpireDays * 86400

/-- The header that `create_token` hands to `jwt.encode`. -/
def joseHeader (keyId : Nat) : Claims :=
  [("alg".toList, .str "HS256".toList), ("kid".toList, .str (toString keyId).toList)]

/-- `create_token`. Before its transaction it reads the clocks and the boot id, and raises for a
time that is no `datetime` or for a boot id that is empty. -/
def Db.mint (jose : Jose) (db : Db) (deviceId : Text) (expiresDelta : Option Rat) (draw : Draw) :
    Option (Db × Text) :=
  if isTimestamp draw.wallNow ∧ isTimestamp (draw.wallNow + lifetimeOf expiresDelta) ∧
      draw.bootId ≠ [] then
    db.createToken jose deviceId expiresDelta draw
  else none

/-- A character of the URL-safe base64 alphabet. -/
def isBase64Url (c : Char) : Bool :=
  let n := c.toNat
  (0x41 ≤ n && n ≤ 0x5a) || (0x61 ≤ n && n ≤ 0x7a) || (0x30 ≤ n && n ≤ 0x39) || n = 0x2d || n = 0x5f

/-- A JSON string. -/
def isText (j : Option Json) (t : Text) : Bool :=
  match j with
  | some (.str s) => s = some t
  | _ => false

/-- The base64 of the JSON of a header for HS256. -/
def isHeader (depth : Nat) (header : Text) : Bool :=
  match Base64.urlsafeDecode (padded header) with
  | .error _ => false
  | .ok bytes =>
    match (Text.decode bytes).map (Json.loads depth) with
    | some (.ok (.obj members)) =>
      isText (Json.member members "typ".toList) "JWT".toList &&
        isText (Json.member members "alg".toList) "HS256".toList
    | _ => false

/-- A JWT in the compact form that `jwt.encode` writes: three parts in URL-safe base64 with points
between them, the first of them the header. -/
def Compact (depth : Nat) (token : Text) : Prop :=
  ∃ header payload signature, token = ['.'].intercalate [header, payload, signature] ∧
    (∀ part ∈ [header, payload, signature], part.all isBase64Url = true) ∧
    isHeader depth header = true

theorem isBase64Url_spec {c : Char} (h : isBase64Url c = true) :
    Text.isSpace c = false ∧ c ≠ '.' ∧ c ≠ '\'' ∧ c ≠ '"' := by
  have hne (d : Char) (hd : c.toNat ≠ d.toNat) : c ≠ d := fun heq => hd (heq ▸ rfl)
  simp only [isBase64Url, Bool.or_eq_true, Bool.and_eq_true, decide_eq_true_eq] at h
  refine ⟨?_, hne '.' ?_, hne '\'' ?_, hne '"' ?_⟩
  · rw [Bool.eq_false_iff]
    intro hspace
    simp only [Text.isSpace, Bool.or_eq_true, Bool.and_eq_true, decide_eq_true_eq,
      List.contains_iff_mem, List.mem_cons, List.not_mem_nil, or_false] at hspace
    omega
  all_goals
    simp only [Char.reduceToNat]
    omega

variable {jose : Jose} {depth : Nat}

theorem isText_iff {j : Option Json} {t : Text} : isText j t = true ↔ j = some (.str (some t)) := by
  unfold isText
  split
  · rw [decide_eq_true_eq, Option.some.injEq, Json.str.injEq]
  · rename_i hne
    exact iff_of_false (by simp) fun h => hne _ h

theorem headerOf_of_isHeader {header : Text} (h : isHeader depth header = true) :
    ∃ members, headerOf depth header = .ok (.obj members) ∧
      headerAccepted (.obj members) = true := by
  unfold isHeader at h
  split at h
  · cases h
  · rename_i bytes hbytes
    split at h
    · rename_i members hloads
      obtain ⟨text, htext, hloads⟩ := Option.map_eq_some_iff.1 hloads
      rw [Bool.and_eq_true, isText_iff, isText_iff] at h
      refine ⟨members, ?_, ?_⟩
      · have hdef := @headerOf_eq depth header
        rw [hbytes] at hdef
        dsimp only at hdef
        rw [htext] at hdef
        dsimp only at hdef
        rw [hdef, hloads]
      · simp only [headerAccepted, h.1, h.2, Option.getD_some]
        decide
    · cases h

/-- `_normalize_token` takes a token in compact form as it is. -/
theorem Compact.normalizeToken {token : Text} (h : Compact depth token) :
    normalizeToken depth token = .ok token := by
  obtain ⟨header, payload, signature, htoken, hparts, hheader⟩ := h
  have hchar (part : Text) (hpart : part ∈ [header, payload, signature]) (c : Char)
    (hc : c ∈ part) :
      isBase64Url c = true := List.all_eq_true.1 (hparts part hpart) c hc
  have hmem : ∀ c ∈ token, Text.isSpace c = false ∧ c ≠ '\'' ∧ c ≠ '"' := by
    intro c hc
    have hcases : c = '.' ∨ ∃ part ∈ [header, payload, signature], c ∈ part := by
      rw [htoken] at hc
      simp only [List.intercalate, List.intersperse, List.flatten_cons, List.flatten_nil,
        List.mem_append, List.append_nil, List.mem_cons, List.not_mem_nil,
        or_false, exists_eq_or_imp, exists_eq_left] at hc ⊢
      tauto
    rcases hcases with rfl | ⟨part, hpart, hc⟩
    · decide
    · obtain ⟨hspace, -, hquote, hdouble⟩ := isBase64Url_spec (hchar part hpart c hc)
      exact ⟨hspace, hquote, hdouble⟩
  have hstrip : token.strip = token := Text.strip_id fun c hc => (hmem c hc).1
  have hunquote : unquote token = token := by
    unfold unquote
    split
    · rename_i _ q _
      obtain ⟨-, hquote, hdouble⟩ := hmem q (by simp)
      rw [if_neg (by simp [hquote, hdouble])]
    · rfl
  have hsplit : splitDots token = [header, payload, signature] := by
    rw [htoken]
    apply List.splitOn_intercalate
    · intro part hpart hdot
      exact (isBase64Url_spec (hchar part hpart _ hdot)).2.1 rfl
    · simp
  obtain ⟨members, hheader, haccepted⟩ := headerOf_of_isHeader hheader
  unfold Auth.normalizeToken
  rw [hstrip, hunquote]
  simp only [hsplit, hheader, bind, Except.bind, haccepted, if_true]

/-! ## The key a token was signed with -/

namespace Db

/-- Every key is still there, with its text. -/
def KeysKept (db db' : Db) : Prop := ∀ k ∈ db.keys, ∃ k' ∈ db'.keys, k'.id = k.id ∧ k'.key = k.key

theorem KeysKept.refl (db : Db) : KeysKept db db := fun k hk => ⟨k, hk, rfl, rfl⟩

theorem KeysKept.trans {db db' db'' : Db} (h : KeysKept db db') (h' : KeysKept db' db'') :
    KeysKept db db'' := by
  intro k hk
  obtain ⟨k', hk', hid, hkey⟩ := h k hk
  obtain ⟨k'', hk'', hid', hkey'⟩ := h' k' hk'
  exact ⟨k'', hk'', hid'.trans hid, hkey'.trans hkey⟩

theorem keysKept_of_keys {db db' : Db} (h : db'.keys = db.keys) : KeysKept db db' := by
  intro k hk
  exact ⟨k, h ▸ hk, rfl, rfl⟩

theorem keysKept_replaceKey {db db' : Db} {key : Text} {k : SigningKey}
    (h : db.replaceKey key = some (db', k)) : KeysKept db db' := by
  obtain ⟨-, -, hkeys, -⟩ := replaceKey_some h
  intro k' hk'
  rw [hkeys]
  exact ⟨_, List.mem_cons_of_mem _ (List.mem_map_of_mem hk'), rfl, rfl⟩

theorem keysKept_commit {db db' : Db} {op : Transaction} (h : db.commit jose depth op = some db') :
    KeysKept db db' := by
  cases op with
  | create deviceId expiresDelta draw =>
    obtain ⟨⟨db₁, token⟩, hcreate, rfl⟩ := Option.map_eq_some_iff.1 h
    obtain ⟨db₂, k, hkey, hadd⟩ := createToken_some hcreate
    have hadded := keysKept_of_keys (addToken_some hadd).2.1
    rcases getOrCreateSigningKey_some hkey with ⟨rfl, -⟩ | hreplace
    · exact hadded
    · exact (keysKept_replaceKey hreplace).trans hadded
  | revoke token =>
    cases h
    unfold revokeToken
    cases normalizeToken depth token with
    | error e => exact .refl db
    | ok value => exact keysKept_of_keys rfl
  | revokeDevice deviceId =>
    cases h
    exact keysKept_of_keys rfl
  | rotate key =>
    obtain ⟨⟨db₁, k⟩, hreplace, rfl⟩ := Option.map_eq_some_iff.1 h
    exact keysKept_replaceKey hreplace

theorem keysKept_reaches {db db' : Db} (h : Reaches (commit jose depth) db db') :
    KeysKept db db' := by
  induction h with
  | refl => exact .refl db
  | tail _ _ hstep ih => exact ih.trans (keysKept_commit hstep)

theorem eq_of_keyId {db : Db} {k k' : SigningKey} (hk : k ∈ db.keys) (hk' : k' ∈ db.keys)
    (h : k.id = k'.id) : k = k' :=
  List.inj_on_of_nodup_map db.keyIds hk hk' h

theorem getTokenByValue_of_mem {db : Db} {t : Token} (ht : t ∈ db.tokens) :
    db.getTokenByValue t.token = some t := by
  cases hfind : db.getTokenByValue t.token with
  | none =>
    have := List.find?_eq_none.1 hfind t ht
    simp at this
  | some t' =>
    obtain ⟨ht', htoken⟩ := getTokenByValue_some hfind
    rw [eq_of_token ht' ht htoken]

theorem signingKey_of_mem {db : Db} {t : Token} {k : SigningKey} (hk : k ∈ db.keys)
    (hid : k.id = t.keyId) : db.signingKey t = some k := by
  cases hfind : db.signingKey t with
  | none =>
    have := List.find?_eq_none.1 hfind k hk
    simp [hid] at this
  | some k' =>
    have hk' := List.mem_of_find?_eq_some hfind
    have hid' : k'.id = t.keyId := by simpa using List.find?_some hfind
    rw [eq_of_keyId hk' hk (hid'.trans hid.symm)]

end Db

/-- A live token is judged by its payload. -/
theorem verifyToken_live {db : Db} {clock : Clock} {text : Text} {t : Token} {k : SigningKey}
    {payload : Claims} (hnormal : normalizeToken depth text = .ok t.token) (ht : t ∈ db.tokens)
    (hlive : t.revoked = false) (hk : k ∈ db.keys) (hid : k.id = t.keyId)
    (hactive : k.active = true)
    (hdecode : jose.decode t.token k.key = .ok payload) :
    verifyToken jose depth db clock text = match checkPayload jose clock payload t with
      | .error (.jwt message) => some (.invalid message)
      | .error .raised => none
      | .ok _ => some (validResult payload t) := by
  unfold verifyToken
  rw [hnormal]
  simp only [verifyNormalized, Db.getTokenByValue_of_mem ht, hlive, Db.signingKey_of_mem hk hid,
    hactive, hdecode,
    reported, Except.mapError, bind, Except.bind, pure, Except.pure, Bool.false_eq_true,
    Bool.true_eq_false, if_false]
  cases checkPayload jose clock payload t with
  | error e => cases e <;> rfl
  | ok u => rfl

/-! ## The payload of a new token -/

section NewClaims

variable (deviceId : Text) (lifetime : Rat) (keyId : Nat) (draw : Draw)

@[simp] theorem newClaims_iat :
    (newClaims deviceId lifetime keyId draw).get "iat" = some (.int (truncate draw.wallNow)) := rfl

@[simp] theorem newClaims_exp : (newClaims deviceId lifetime keyId draw).get "exp" =
    some (.int (truncate (draw.wallNow + lifetime))) := rfl

@[simp] theorem newClaims_bid :
    (newClaims deviceId lifetime keyId draw).get "bid" = some (.str draw.bootId) := rfl

@[simp] theorem newClaims_bexp : (newClaims deviceId lifetime keyId draw).get "bexp" =
    some (.float (draw.boottime + lifetime)) := rfl

/-- The claims of a new token are all there, and those about its device and key are right. -/
theorem checkPayload_newClaims {deviceId : Text} (hdevice : deviceId ≠ []) (clock : Clock)
    {t : Token}
    (ht : t.keyId = keyId) :
    checkPayload jose clock (newClaims deviceId lifetime keyId draw) t =
      validateLifetime jose clock (newClaims deviceId lifetime keyId draw) := by
  have hrequired : requiredClaims.find?
      (fun name => ((newClaims deviceId lifetime keyId draw).get name).isNone) = none := rfl
  have hiss : (newClaims deviceId lifetime keyId draw).get "iss" =
      some (.str "wlanpi-core".toList) := rfl
  have hdid : (newClaims deviceId lifetime keyId draw).get "did" = some (.str deviceId) := rfl
  have hkid : (newClaims deviceId lifetime keyId draw).get "kid" =
      some (.str (toString keyId).toList) := rfl
  rw [checkPayload_eq, hrequired, hiss, hdid, hkid]
  simp [Claim.truth, Claim.printsAs, hdevice, ht]

end NewClaims

/-! ## The law -/

/-- The checks of `authlib.jose` are the standard comparisons with the leeway passed. -/
structure Jose.Compares (jose : Jose) (early expired : Text) : Prop where
  iat : ∀ (payload : Claims) (now leeway : Rat) (n : Int), payload.get "iat" = some (.int n) →
    jose.validateIat payload now leeway = if now + leeway < n then .error early else .ok ()
  exp : ∀ (payload : Claims) (now leeway : Rat) (n : Int), payload.get "exp" = some (.int n) →
    jose.validateExp payload now leeway = if n < now - leeway then .error expired else .ok ()

def Accepted (result : Option ValidationResult) : Prop :=
  ∃ payload token deviceId keyId, result = some (.valid payload token deviceId keyId)

/-- How a token is judged at any reading of the boot id and the clocks. -/
def LifetimeLaw (jose : Jose) (depth : Nat) (db : Db) (draw : Draw) (lifetime : Rat) (token : Text)
    (expired : Text) : Prop :=
  ∀ (bootId : Text) (boottime wallTime : Rat),
    let result := verifyToken jose depth db ⟨some bootId, boottime, wallTime⟩ token
    let iat : Rat := truncate draw.wallNow
    let exp : Rat := truncate (draw.wallNow + lifetime)
    (bootId = draw.bootId → (Accepted result ↔ boottime < draw.boottime + lifetime)) ∧
    (bootId ≠ draw.bootId →
      (wallTime + 30 < iat → result = some (.invalid "AUTH_CLOCK_NOT_SET".toList)) ∧
      (iat - 30 ≤ wallTime → wallTime < exp → Accepted result) ∧
      (iat - 30 ≤ wallTime → exp ≤ wallTime →
        result = some (.invalid expired) ∨ result = some (.invalid "Token expired".toList)))

/-- What is asked of the payload of a new token before any clock is read. -/
def PassesGuards (deviceId : Text) (draw : Draw) (lifetime : Rat) : Prop :=
  deviceId ≠ [] ∧ truncate draw.wallNow < truncate (draw.wallNow + lifetime) ∧
    0 ≤ draw.boottime + lifetime

theorem numericClaim_int {payload : Claims} {name : String} {n : Int}
    (h : payload.get name = some (.int n)) (hn : n.natAbs < 253402300800) :
    numericClaim payload name = .ok n := by
  have hlt : n.natAbs < 2 ^ 1024 - 2 ^ 970 := hn.trans (by decide +kernel)
  unfold numericClaim
  rw [h]
  exact if_pos hlt

theorem numericClaim_float {payload : Claims} {name : String} {q : Rat}
    (h : payload.get name = some (.float q)) : numericClaim payload name = .ok q := by
  unfold numericClaim
  rw [h]

section Law

variable {deviceId early expired : Text} {lifetime : Rat} {keyId : Nat} {draw : Draw}

/-- The judgement of the times of a new token, its own times first. -/
theorem validateLifetime_newClaims (hwall : isTimestamp draw.wallNow = true)
    (hexp : isTimestamp (draw.wallNow + lifetime) = true) (hboot : draw.bootId ≠ [])
    (bootId : Text) (boottime wallTime : Rat) :
    validateLifetime jose ⟨some bootId, boottime, wallTime⟩
        (newClaims deviceId lifetime keyId draw) =
      if truncate (draw.wallNow + lifetime) ≤ truncate draw.wallNow then
        .error (.jwt "Invalid token lifetime".toList)
      else if draw.boottime + lifetime < 0 then .error (.jwt "Invalid bexp claim".toList)
      else judgeBoot jose ⟨some bootId, boottime, wallTime⟩ (newClaims deviceId lifetime keyId draw)
        draw.bootId (truncate draw.wallNow) (truncate (draw.wallNow + lifetime))
        (draw.boottime + lifetime) := by
  rw [validateLifetime_eq, numericClaim_int (newClaims_iat ..) (truncate_natAbs_lt hwall),
    numericClaim_int (newClaims_exp ..) (truncate_natAbs_lt hexp)]
  simp only [Except.bind, newClaims_bid, newClaims_bexp, numericClaim_float (newClaims_bexp ..),
    if_neg hboot, Int.cast_le]

/-- The judgement by the wall clock, with the library's comparisons written out. -/
theorem judgeWallTime_newClaims (hjose : jose.Compares early expired) (clock : Clock) :
    judgeWallTime jose clock (newClaims deviceId lifetime keyId draw) (truncate draw.wallNow)
        (truncate (draw.wallNow + lifetime)) =
      if clock.wallTime + clockSkewToleranceSec < truncate draw.wallNow then
        .error (.jwt "AUTH_CLOCK_NOT_SET".toList)
      else if truncate (draw.wallNow + lifetime) < clock.wallTime then .error (.jwt expired)
      else if truncate (draw.wallNow + lifetime) ≤ clock.wallTime then
        .error (.jwt "Token expired".toList)
      else .ok () := by
  rw [judgeWallTime, hjose.iat _ _ _ _ (newClaims_iat ..), hjose.exp _ _ _ _ (newClaims_exp ..),
    sub_zero]
  by_cases hearly : clock.wallTime + clockSkewToleranceSec < truncate draw.wallNow
  · rw [if_pos hearly, if_pos hearly]
  · rw [if_neg hearly, if_neg hearly, if_neg hearly]
    by_cases hlate : (truncate (draw.wallNow + lifetime) : Rat) < clock.wallTime
    · rw [if_pos hlate, if_pos hlate]
      rfl
    · rw [if_neg hlate, if_neg hlate]
      rfl

/-- What the judgement of a payload comes to for the caller. -/
def verdict (payload : Claims) (t : Token) : Except Failure Unit → Option ValidationResult
  | .error (.jwt message) => some (.invalid message)
  | .error .raised => none
  | .ok _ => some (validResult payload t)

theorem verdict_accepted {payload : Claims} {t : Token} {x : Except Failure Unit} :
    Accepted (verdict payload t x) ↔ x = .ok () := by
  cases x with
  | error e =>
    refine iff_of_false ?_ (by simp)
    rintro ⟨payload', token, deviceId, keyId, h⟩
    cases e <;> cases h
  | ok u => exact iff_of_true ⟨_, _, _, _, rfl⟩ rfl

/-- The law holds of a token that is judged by its payload, exactly when the payload passes. -/
theorem lifetimeLaw_iff {db : Db} {token : Text} {t : Token} (hjose : jose.Compares early expired)
    (hwall : isTimestamp draw.wallNow = true)
    (hexp : isTimestamp (draw.wallNow + lifetime) = true) (hboot : draw.bootId ≠ [])
    (hjudged : ∀ clock, verifyToken jose depth db clock token =
      verdict (newClaims deviceId lifetime keyId draw) t
        (checkPayload jose clock (newClaims deviceId lifetime keyId draw) t))
    (ht : t.keyId = keyId) :
    LifetimeLaw jose depth db draw lifetime token expired ↔
      PassesGuards deviceId draw lifetime := by
  constructor
  · -- A reading at which the law has the token accepted.
    intro h
    obtain ⟨hsame, -⟩ := h draw.bootId (draw.boottime + lifetime - 1) 0
    have hok := (hsame rfl).2 (by linarith)
    rw [hjudged, verdict_accepted] at hok
    have hdevice : deviceId ≠ [] := by
      obtain ⟨-, did, hdid, htruth⟩ := checkPayload_ok hok
      cases hdid
      simpa [Claim.truth] using htruth
    rw [checkPayload_newClaims lifetime keyId draw hdevice _ ht,
      validateLifetime_newClaims hwall hexp hboot] at hok
    refine ⟨hdevice, ?_, ?_⟩
    · by_contra hle
      rw [if_pos (not_lt.1 hle)] at hok
      cases hok
    · by_contra hneg
      split_ifs at hok
      exact hneg (not_lt.1 ‹_›)
  · rintro ⟨hdevice, hguard, hbexp⟩ bootId boottime wallTime
    have hcheck : validateLifetime jose ⟨some bootId, boottime, wallTime⟩
        (newClaims deviceId lifetime keyId draw) = _ :=
      validateLifetime_newClaims hwall hexp hboot bootId boottime wallTime
    rw [if_neg (not_le.2 hguard), if_neg (not_lt.2 hbexp)] at hcheck
    dsimp only
    rw [hjudged, checkPayload_newClaims lifetime keyId draw hdevice _ ht, hcheck]
    unfold judgeBoot
    dsimp only
    refine ⟨fun hsame => ?_, fun hother => ?_⟩
    · rw [if_pos hsame.symm, verdict_accepted]
      by_cases hlate : draw.boottime + lifetime ≤ boottime
      · rw [if_pos hlate]
        exact iff_of_false (by simp) (not_lt.2 hlate)
      · rw [if_neg hlate]
        exact iff_of_true rfl (not_le.1 hlate)
    · rw [if_neg (Ne.symm hother), judgeWallTime_newClaims hjose, verdict_accepted]
      dsimp only
      refine ⟨fun hearly => ?_, fun hearly hlive => ?_, fun hearly hlate => ?_⟩
      · rw [if_pos (show wallTime + clockSkewToleranceSec < truncate draw.wallNow from hearly)]
        rfl
      all_goals
        have hearly' : ¬ wallTime + clockSkewToleranceSec < truncate draw.wallNow := by
          simp only [clockSkewToleranceSec]
          linarith
        rw [if_neg hearly']
      · rw [if_neg (by linarith), if_neg (by linarith)]
      · by_cases hstrict : (truncate (draw.wallNow + lifetime) : Rat) < wallTime
        · rw [if_pos hstrict]
          exact Or.inl rfl
        · rw [if_neg hstrict, if_pos hlate]
          exact Or.inr rfl

end Law

/-- A minted token is what `jwt.encode` made of its claims under the active key. -/
theorem Db.mint_some {db db₁ : Db} {deviceId token : Text} {expiresDelta : Option Rat} {draw : Draw}
    (h : db.mint jose deviceId expiresDelta draw = some (db₁, token)) :
    isTimestamp draw.wallNow = true ∧ isTimestamp (draw.wallNow + lifetimeOf expiresDelta) = true ∧
      draw.bootId ≠ [] ∧ db.createToken jose deviceId expiresDelta draw = some (db₁, token) ∧
      ∃ k ∈ db₁.keys, k.active = true ∧ { token, deviceId, keyId := k.id } ∈ db₁.tokens ∧
        token = jose.encode (joseHeader k.id)
          (newClaims deviceId (lifetimeOf expiresDelta) k.id draw) k.key := by
  unfold mint at h
  split_ifs at h with hreads
  refine ⟨hreads.1, hreads.2.1, hreads.2.2, h, ?_⟩
  unfold createToken at h
  simp only [Option.bind_eq_bind, Option.bind_eq_some_iff, Option.pure_def, Option.some.injEq,
    Prod.mk.injEq] at h
  obtain ⟨⟨db₀, k⟩, hkey, db₂, hadd, rfl, htoken⟩ := h
  obtain ⟨-, hkeys, htokens⟩ := addToken_some hadd
  have hk : k ∈ db₀.keys ∧ k.active = true := by
    rcases getOrCreateSigningKey_some hkey with ⟨rfl, hactive⟩ | hreplace
    · have hmem : k ∈ db₀.keys.filter SigningKey.active := by
        rw [hactive]
        exact List.mem_cons_self
      exact List.mem_filter.1 hmem
    · obtain ⟨hactive, -, hkeys, -⟩ := replaceKey_some hreplace
      exact ⟨hkeys ▸ List.mem_cons_self, hactive⟩
  refine ⟨k, hkeys ▸ hk.1, hk.2, ?_, htoken.symm⟩
  rw [htokens, ← htoken]
  exact List.mem_cons_self

/-- The lifetime of a token while it stays live, whatever happens to the store in between. It is the
law for clocks that start at zero and a lifetime of a second, and altogether exactly where the
payload passes the guards. -/
theorem Db.lifetime_law {db db₁ db' : Db} {deviceId token early expired : Text}
    {expiresDelta : Option Rat} {draw : Draw} {t : Token} (hjose : jose.Compares early expired)
    (hdb : Reaches (commit jose depth) empty db)
    (hmint : db.mint jose deviceId expiresDelta draw = some (db₁, token))
    (hcompact : Compact depth token)
    (hdecode : ∀ k ∈ db₁.keys, jose.decode (jose.encode (joseHeader k.id)
        (newClaims deviceId (lifetimeOf expiresDelta) k.id draw) k.key) k.key =
      .ok (newClaims deviceId (lifetimeOf expiresDelta) k.id draw))
    (hlater : Reaches (commit jose depth) db₁ db') (ht : t ∈ db'.tokens) (htoken : t.token = token)
    (hlive : t.revoked = false) :
    (deviceId ≠ [] → 0 ≤ draw.wallNow → 0 ≤ draw.boottime → 1 ≤ lifetimeOf expiresDelta →
      LifetimeLaw jose depth db' draw (lifetimeOf expiresDelta) token expired) ∧
    (LifetimeLaw jose depth db' draw (lifetimeOf expiresDelta) token expired ↔
      PassesGuards deviceId draw (lifetimeOf expiresDelta)) := by
  obtain ⟨hwall, hexp, hboot, hcreate, k, hk, -, hrow, hencode⟩ := mint_some hmint
  have hsafe : db'.Safe := by
    have hcommit : db.commit jose depth (.create deviceId expiresDelta draw) = some db₁ := by
      rw [commit, hcreate]
      rfl
    exact ((safe_empty.reaches hdb).commit hcommit).reaches hlater
  obtain ⟨t', ht', hsame, -⟩ := grown_reaches hlater _ hrow
  obtain rfl : t = t' := eq_of_token ht ht' (by rw [htoken, hsame])
  have hkeyId : t.keyId = k.id := by rw [hsame]
  obtain ⟨k', hk', hactive, hid⟩ := hsafe.live t ht hlive
  have hkey : k'.key = k.key := by
    obtain ⟨k'', hk'', hid'', hkey''⟩ := keysKept_reaches hlater k hk
    rwa [eq_of_keyId hk'' hk' (by rw [hid'', hid, hkeyId])] at hkey''
  have hdecoded : jose.decode t.token k'.key =
      .ok (newClaims deviceId (lifetimeOf expiresDelta) k.id draw) := by
    have := hdecode k hk
    rwa [← hencode, ← htoken, ← hkey] at this
  have hjudged (clock : Clock) : verifyToken jose depth db' clock token =
      verdict (newClaims deviceId (lifetimeOf expiresDelta) k.id draw) t
        (checkPayload jose clock (newClaims deviceId (lifetimeOf expiresDelta) k.id draw) t) := by
    rw [verifyToken_live (htoken ▸ hcompact.normalizeToken) ht hlive hk' hid hactive hdecoded]
    cases checkPayload jose clock _ t with
    | error e => cases e <;> rfl
    | ok u => rfl
  have hiff := lifetimeLaw_iff hjose hwall hexp hboot hjudged hkeyId
  refine ⟨fun hdevice hwall hboottime hlifetime => hiff.2 ⟨hdevice, ?_, by linarith⟩, hiff⟩
  exact truncate_lt_of_nonneg hwall hlifetime

/-! ## At a token -/

/-- `authlib.jose` as far as one token goes. -/
def Jose.only (token : Text) (payload : Claims) : Jose where
  encode _ _ _ := token
  decode value _ := if value = token then .ok payload else .error "bad_signature: ".toList
  validateIat payload now leeway := match payload.get "iat" with
    | some (.int n) => if now + leeway < n then
      .error "invalid_token: The token is not valid as it was issued in the future".toList
        else .ok ()
    | _ => .ok ()
  validateExp payload now leeway := match payload.get "exp" with
    | some (.int n) =>
      if n < now - leeway then .error "expired_token: The token is expired".toList else .ok ()
    | _ => .ok ()

theorem Jose.compares_only (token : Text) (payload : Claims) : (Jose.only token payload).Compares
    "invalid_token: The token is not valid as it was issued in the future".toList
    "expired_token: The token is expired".toList where
  iat payload now leeway n h := by simp only [Jose.only, h]
  exp payload now leeway n h := by simp only [Jose.only, h]

theorem Jose.only_decode (token key key' : Text) (payload header payload' : Claims) :
    (Jose.only token payload).decode ((Jose.only token payload).encode header payload' key) key' =
      .ok payload :=
  if_pos rfl

/-- A first mint, with the wall clock and the clock since boot at the given readings. -/
def firstDraw (wallNow boottime : Rat) : Draw :=
  ⟨"wlanpi".toList, wallNow, boottime, "boot-a".toList, "0011223344556677".toList, "secret".toList⟩

def firstHeader : Text :=
  ["eyJhbGciOiJIUzI1NiIsImtp", "ZCI6IjEiLCJ0eXAiOiJKV1QifQ"].flatMap String.toList

/-- The store after a first mint. -/
def firstStore (token : Text) : Db where
  keys := [⟨1, "secret".toList, true⟩]
  tokens := [{ token, deviceId := "dev".toList, keyId := 1 }]
  keyIds := List.nodup_singleton _
  keyTexts := List.nodup_singleton _
  tokenTexts := List.nodup_singleton _

def minuteToken : Text := ['.'].intercalate [firstHeader,
  ["eyJzdWIiOiJ3bGFucGkiLCJpc3MiOiJ3bGFucGktY29y",
    "ZSIsImRpZCI6ImRldiIsImV4cCI6MTcwMDAwMDA2MCwi",
    "aWF0IjoxNzAwMDAwMDAwLCJraWQiOiIxIiwianRpIjoi",
    "MDAxMTIyMzM0NDU1NjY3NyIsImJpZCI6ImJvb3QtYSIs", "ImJleHAiOjE2MC4wfQ"].flatMap String.toList,
  "TpzkeNP_KMC0MC9eD-NmV_qjgzon5G5DnfEHayQ0dzQ".toList]

theorem mint_first {lifetime : Rat} (wallNow boottime : Rat) (token : Text) (payload : Claims)
    (hreads : isTimestamp wallNow = true ∧ isTimestamp (wallNow + lifetimeOf (some lifetime)) =
      true) :
    Db.empty.mint (Jose.only token payload) "dev".toList (some lifetime)
      (firstDraw wallNow boottime) = some (firstStore token, token) :=
  if_pos ⟨hreads.1, hreads.2, List.cons_ne_nil _ _⟩

/-- A token for a minute, minted 100 s after boot. -/
theorem Db.lifetime_law_minute :
    let draw := firstDraw 1700000000 100
    let jose := Jose.only minuteToken (newClaims "dev".toList (lifetimeOf (some 60)) 1 draw)
    Db.empty.mint jose "dev".toList (some 60) draw = some (firstStore minuteToken, minuteToken) ∧
      LifetimeLaw jose 900 (firstStore minuteToken) draw (lifetimeOf (some 60)) minuteToken
        "expired_token: The token is expired".toList := by
  have hmint := mint_first 1700000000 100 minuteToken
    (newClaims "dev".toList (lifetimeOf (some 60)) 1 (firstDraw 1700000000 100))
    (by decide +kernel : isTimestamp 1700000000 = true ∧
      isTimestamp (1700000000 + lifetimeOf (some 60)) = true)
  refine ⟨hmint,
    (Db.lifetime_law (t := { token := minuteToken, deviceId := "dev".toList, keyId := 1 })
    (Jose.compares_only _ _) (.refl _) hmint ⟨_, _, _, rfl, by decide +kernel, by decide +kernel⟩ ?_
    (.refl _) List.mem_cons_self rfl rfl).1 (by decide) (by decide +kernel) (by decide +kernel)
    (by decide +kernel)⟩
  intro k hk
  obtain rfl : k = ⟨1, "secret".toList, true⟩ := List.mem_singleton.1 hk
  exact Jose.only_decode ..

end WlanpiCore.Auth
