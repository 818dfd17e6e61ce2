import WlanpiCore.Auth.Safety
import WlanpiCore.Lib.PyStr

/-!
# Tokens that a caller presents

What `verify_token` makes of any string, also of one with lone surrogates, as a token in a JSON
frame may have them. The header is read by hand before the library sees the token, and of what
base64, UTF-8 and JSON raise there only `binascii.Error`, `UnicodeDecodeError` and `JSONDecodeError`
are caught. A header with a character that is not ASCII raises a plain `ValueError`, and so does an
integer of too many digits; containers nested too deep raise a `RecursionError`. A token that passes
is then bound to a query, and a surrogate in it raises a `UnicodeEncodeError` there
(`verifyStr_answers_iff`).

On a string without surrogates `verifyStr` is `verifyToken` (`verifyStr_ofText`).
-/

namespace WlanpiCore.Auth

variable {jose : Jose} {depth : Nat}

/-! ## Strings with surrogates -/

/-- `unquote`, on a string. -/
def unquoteStr (s : PyStr) : PyStr :=
  match s with
  | .char 'b' :: q :: rest =>
    if (q = .char '\'' ∨ q = .char '"') ∧ s.getLast? = some q then rest.dropLast else s
  | _ => s

/-- The header's JSON. A surrogate is not ASCII, so base64 raises a plain `ValueError`. -/
def headerOfStr (depth : Nat) (part : PyStr) : Except Failure Json :=
  match PyStr.toText part with
  | some part => headerOf depth part
  | none => .error .raised

/-- `_normalize_token` -/
def normalizeStr (depth : Nat) (token : PyStr) : Except Failure PyStr := do
  let token := unquoteStr (PyStr.strip token)
  match token.splitOn (.char '.') with
  | [header, _, _] =>
    if headerAccepted (← headerOfStr depth header) then .ok token
    else .error (.jwt "Invalid token header".toList)
  | parts => .error (.jwt (s!"Invalid JWT format - expected 3 parts, got {parts.length}").toList)

/-- `verify_token`; `none` is an exception. SQLite takes no surrogate. -/
def verifyStr (jose : Jose) (depth : Nat) (db : Db) (clock : Clock) (token : PyStr) :
    Option ValidationResult :=
  match normalizeStr depth token with
  | .error (.jwt message) => some (.invalid message)
  | .error .raised => none
  | .ok value =>
    match PyStr.toText value with
    | none => none
    | some value => verifyNormalized jose db clock value

/-- The header with its padding put right. -/
def padded (part : Text) : Text :=
  let b64 := part.rdropWhile (· = '=')
  b64 ++ List.replicate ((4 - b64.length % 4) % 4) '='

def Ascii (t : Text) : Prop := ∀ c ∈ t, c.toNat < 0x80

/-- The header raises nothing but what `_normalize_token` catches: it is ASCII, and where it decodes
to a text, `json.loads` raises nothing but a `JSONDecodeError` on that. -/
def HeaderReadable (depth : Nat) (header : Text) : Prop :=
  Ascii header ∧
    ∀ bytes text e, Base64.urlsafeDecode (padded header) = .ok bytes →
      Text.decode bytes = some text →
      Json.loads depth text = .error e → ∃ msg pos, e = .decode msg pos

/-- The header of a presented token, if it has three parts, raises nothing that is not caught, and
if the header is accepted, there is no surrogate in the token. -/
def Readable (depth : Nat) (token : PyStr) : Prop :=
  ∀ header payload signature,
    (unquoteStr (PyStr.strip token)).splitOn (.char '.') = [header, payload, signature] →
    ∃ text, PyStr.toText header = some text ∧ HeaderReadable depth text ∧
      ∀ json, headerOf depth text = .ok json → headerAccepted json = true →
        PyStr.toText (unquoteStr (PyStr.strip token)) ≠ none

/-- A stored, well-formed token that the active key signed. -/
def Genuine (jose : Jose) (depth : Nat) (db : Db) (token : PyStr) : Prop :=
  ∃ t ∈ db.tokens, normalizeStr depth token = .ok (PyStr.ofText t.token) ∧
    ∃ k ∈ db.keys, k.id = t.keyId ∧ k.active = true ∧ ∃ payload, jose.decode t.token k.key =
      .ok payload

/-! ## The header -/

theorem mem_rdropWhile_of_not {p : Char → Bool} {c : Char} {t : Text} (hc : c ∈ t)
    (h : p c = false) : c ∈ t.rdropWhile p := by
  have hsplit := List.takeWhile_append_dropWhile (p := p) (l := t.reverse)
  rw [← List.mem_reverse, ← hsplit, List.mem_append] at hc
  rw [List.rdropWhile, List.mem_reverse]
  refine hc.resolve_left fun htake => ?_
  rw [List.mem_takeWhile_imp htake] at h
  cases h

theorem padded_ascii_iff (header : Text) : Ascii (padded header) ↔ Ascii header := by
  have hpad : ('=').toNat < 0x80 := by decide
  constructor
  · intro h c hc
    by_cases heq : c = '='
    · rw [heq]
      exact hpad
    · exact h c (List.mem_append_left _ (mem_rdropWhile_of_not hc (decide_eq_false heq)))
  · intro h c hc
    rcases List.mem_append.1 hc with hc | hc
    · exact h c ((List.rdropWhile_prefix _ _).subset hc)
    · rw [List.eq_of_mem_replicate hc]
      exact hpad

theorem urlsafeDecode_notAscii_iff (t : Text) :
    Base64.urlsafeDecode t = .error .notAscii ↔ ¬ Ascii t := by
  unfold Base64.urlsafeDecode
  by_cases h : Ascii t
  · have hany : (t.any fun c => 0x80 ≤ c.toNat) = false := by
      rw [List.any_eq_false]
      intro c hc
      simpa using h c hc
    rw [hany, if_neg Bool.false_ne_true]
    cases Base64.scan 0 0 0 t <;> simp [h]
  · have hany : (t.any fun c => 0x80 ≤ c.toNat) = true := by
      unfold Ascii at h
      push Not at h
      simpa using h
    rw [if_pos hany]
    simp [h]

/-- The stages in which the header is read. -/
theorem headerOf_eq (header : Text) :
    headerOf depth header = match Base64.urlsafeDecode (padded header) with
      | .error .notAscii => .error .raised
      | .error .binascii => .error (.jwt "Header validation failed".toList)
      | .ok bytes =>
        match Text.decode bytes with
        | none => .error (.jwt "Header validation failed".toList)
        | some text =>
          match Json.loads depth text with
          | .ok header => .ok header
          | .error (.decode ..) => .error (.jwt "Header validation failed".toList)
          | .error _ => .error .raised := by
  rfl

/-- Reading the header raises what is not caught exactly when the header is not readable. -/
theorem headerOf_raised_iff (header : Text) :
    headerOf depth header = .error .raised ↔ ¬ HeaderReadable depth header := by
  rw [headerOf_eq, HeaderReadable, ← padded_ascii_iff]
  cases hbase : Base64.urlsafeDecode (padded header) with
  | error e =>
    have hascii := urlsafeDecode_notAscii_iff (padded header)
    rw [hbase] at hascii
    cases e with
    | notAscii => simp [hascii.1 rfl]
    | binascii =>
      have : Ascii (padded header) := by simpa using hascii
      simp [this]
  | ok bytes =>
    have hascii : Ascii (padded header) := by
      by_contra h
      rw [(urlsafeDecode_notAscii_iff _).2 h] at hbase
      cases hbase
    cases htext : Text.decode bytes with
    | none => simp [hascii, htext]
    | some text =>
      cases hloads : Json.loads depth text with
      | ok j => simp [hascii, htext, hloads]
      | error e => cases e <;> simp [hascii, htext, hloads]

/-- The outcome of normalising: no three parts, or what becomes of the header. -/
theorem normalizeStr_parts (depth : Nat) (token : PyStr) :
    (∃ header payload signature,
      (unquoteStr (PyStr.strip token)).splitOn (.char '.') = [header, payload, signature] ∧
      normalizeStr depth token = (headerOfStr depth header).bind fun json =>
        if headerAccepted json then .ok (unquoteStr (PyStr.strip token))
        else .error (.jwt "Invalid token header".toList)) ∨
    (∀ header payload signature,
      (unquoteStr (PyStr.strip token)).splitOn (.char '.') ≠ [header, payload, signature]) ∧
      ∃ message, normalizeStr depth token = .error (.jwt message) := by
  unfold normalizeStr
  dsimp only
  split
  · rename_i header payload signature hparts
    exact .inl ⟨header, payload, signature, hparts, rfl⟩
  · rename_i hparts
    exact .inr ⟨fun header payload signature heq => hparts header payload signature heq, _, rfl⟩

/-! ## The checks of the payload -/

/-- The judgement by the wall clock. -/
def judgeWallTime (jose : Jose) (clock : Clock) (payload : Claims) (iat exp : Rat) :
    Except Failure Unit :=
  if clock.wallTime + clockSkewToleranceSec < iat then .error (.jwt "AUTH_CLOCK_NOT_SET".toList)
  else (reported (jose.validateIat payload clock.wallTime clockSkewToleranceSec)).bind fun _ =>
    (reported (jose.validateExp payload clock.wallTime 0)).bind fun _ =>
      if exp ≤ clock.wallTime then .error (.jwt "Token expired".toList) else .ok ()

/-- The judgement of a token with a boot id. -/
def judgeBoot (jose : Jose) (clock : Clock) (payload : Claims) (bid : Text) (iat exp bexp : Rat) :
    Except Failure Unit :=
  match clock.bootId with
  | none => .error .raised
  | some bootId =>
    if bid = bootId then
      if bexp ≤ clock.boottime then .error (.jwt "Token expired".toList) else .ok ()
    else judgeWallTime jose clock payload iat exp

/-- `_validate_lifetime`, check after check. -/
theorem validateLifetime_eq (clock : Clock) (payload : Claims) :
    validateLifetime jose clock payload =
      (numericClaim payload "iat").bind fun iat => (numericClaim payload "exp").bind fun exp =>
        if exp ≤ iat then .error (.jwt "Invalid token lifetime".toList)
        else match payload.get "bid", payload.get "bexp" with
          | none, none => judgeWallTime jose clock payload iat exp
          | some (.str bid), some _ =>
            if bid = [] then .error (.jwt "Invalid bid claim".toList)
            else (numericClaim payload "bexp").bind fun bexp =>
              if bexp < 0 then .error (.jwt "Invalid bexp claim".toList)
              else judgeBoot jose clock payload bid iat exp bexp
          | some _, some _ => .error (.jwt "Invalid bid claim".toList)
          | _, _ => .error (.jwt "Invalid boot lifetime claims".toList) := by
  rfl

/-- The checks before the times, check after check. -/
theorem checkPayload_eq (clock : Clock) (payload : Claims) (t : Token) :
    checkPayload jose clock payload t =
      match requiredClaims.find? fun name => (payload.get name).isNone with
      | some name => .error (.jwt ("Missing required claim: ".toList ++ name.toList))
      | none =>
        match payload.get "iss" with
        | some (.str iss) =>
          if iss ≠ "wlanpi-core".toList then .error (.jwt "Invalid issuer".toList)
          else if (payload.get "did").any (·.truth) = false then
            .error (.jwt "Invalid device ID".toList)
          else if (payload.get "kid").any (·.printsAs t.keyId) = false then
            .error (.jwt "Invalid signing key claim".toList)
          else validateLifetime jose clock payload
        | _ => .error (.jwt "Invalid issuer".toList) := by
  rfl

/-- No exception but those that `verify_token` reports. -/
def Reported {α : Type} (x : Except Failure α) : Prop := x ≠ .error .raised

theorem Reported.bind {α β : Type} {x : Except Failure α} {f : α → Except Failure β}
    (hx : Reported x) (hf : ∀ a, Reported (f a)) : Reported (x.bind f) := by
  cases x with
  | ok a => exact hf a
  | error e =>
    intro h
    apply hx
    cases h
    rfl

theorem reported_jwt {α : Type} (message : Text) :
    Reported (.error (.jwt message) : Except Failure α) := by
  intro h
  cases h

theorem reported_ok {α : Type} (a : α) : Reported (.ok a : Except Failure α) := by
  intro h
  cases h

theorem reported_reported {α : Type} (x : Except Text α) : Reported (reported x) := by
  cases x with
  | ok a => exact reported_ok a
  | error e => exact reported_jwt e

theorem reported_numericClaim (payload : Claims) (name : String) :
    Reported (numericClaim payload name) := by
  unfold numericClaim
  dsimp only
  split
  · split_ifs
    · exact reported_ok _
    · exact reported_jwt _
  · exact reported_ok _
  · exact reported_jwt _

theorem Reported.ite {α : Type} {p : Prop} [Decidable p] {x y : Except Failure α} (hx : Reported x)
    (hy : Reported y) : Reported (if p then x else y) := by
  by_cases h : p
  · rwa [if_pos h]
  · rwa [if_neg h]

theorem reported_judgeWallTime (clock : Clock) (payload : Claims) (iat exp : Rat) :
    Reported (judgeWallTime jose clock payload iat exp) := by
  apply (reported_jwt _).ite
  apply (reported_reported _).bind
  intro _
  apply (reported_reported _).bind
  intro _
  exact (reported_jwt _).ite (reported_ok _)

/-- Where the boot id can be read, the checks of the times raise nothing else. -/
theorem reported_validateLifetime {clock : Clock} (h : clock.bootId ≠ none) (payload : Claims) :
    Reported (validateLifetime jose clock payload) := by
  obtain ⟨bootId, hboot⟩ := Option.ne_none_iff_exists'.1 h
  rw [validateLifetime_eq]
  apply (reported_numericClaim _ _).bind
  intro iat
  apply (reported_numericClaim _ _).bind
  intro exp
  apply (reported_jwt _).ite
  split
  · exact reported_judgeWallTime clock payload iat exp
  · apply (reported_jwt _).ite
    apply (reported_numericClaim _ _).bind
    intro bexp
    apply (reported_jwt _).ite
    unfold judgeBoot
    rw [hboot]
    exact ((reported_jwt _).ite (reported_ok _)).ite (reported_judgeWallTime clock payload iat exp)
  · exact reported_jwt _
  · exact reported_jwt _

theorem reported_checkPayload {clock : Clock} (h : clock.bootId ≠ none) (payload : Claims)
    (t : Token) : Reported (checkPayload jose clock payload t) := by
  rw [checkPayload_eq]
  split
  · exact reported_jwt _
  · split
    · apply (reported_jwt _).ite
      apply (reported_jwt _).ite
      apply (reported_jwt _).ite
      exact reported_validateLifetime h payload
    · exact reported_jwt _

/-! ## Any string -/

theorem verifyNormalized_ne_none {db : Db} {clock : Clock} (h : clock.bootId ≠ none)
    (value : Text) : verifyNormalized jose db clock value ≠ none := by
  intro hnone
  unfold verifyNormalized at hnone
  cases hrow : db.getTokenByValue value with
  | none => simp [hrow] at hnone
  | some t =>
    simp only [hrow] at hnone
    split_ifs at hnone
    cases hkey : db.signingKey t with
    | none => simp [hkey] at hnone
    | some k =>
      simp only [hkey] at hnone
      split_ifs at hnone
      have hchecks : Reported ((reported (jose.decode value k.key)).bind fun payload =>
          (checkPayload jose clock payload t).bind fun _ => .ok payload) := by
        apply (reported_reported _).bind
        intro payload
        apply (reported_checkPayload h payload t).bind
        intro _
        exact reported_ok payload
      split at hnone
      · cases hnone
      · rename_i hraised
        exact hchecks hraised
      · cases hnone

theorem verifyStr_none_iff {db : Db} {clock : Clock} (h : clock.bootId ≠ none) (token : PyStr) :
    verifyStr jose depth db clock token = none ↔ ¬ Readable depth token := by
  unfold verifyStr Readable
  rcases normalizeStr_parts depth token with
    ⟨header, payload, signature, hparts, hnormal⟩ | ⟨hparts, message, hnormal⟩
  · have hiff : (∀ header' payload' signature',
        (unquoteStr (PyStr.strip token)).splitOn (.char '.') = [header', payload', signature'] →
        ∃ text, PyStr.toText header' = some text ∧ HeaderReadable depth text ∧
          ∀ json, headerOf depth text = .ok json → headerAccepted json = true →
            PyStr.toText (unquoteStr (PyStr.strip token)) ≠ none) ↔
        ∃ text, PyStr.toText header = some text ∧ HeaderReadable depth text ∧
          ∀ json, headerOf depth text = .ok json → headerAccepted json = true →
            PyStr.toText (unquoteStr (PyStr.strip token)) ≠ none := by
      constructor
      · intro hall
        exact hall _ _ _ hparts
      · intro hone header' payload' signature' heq
        rw [hparts] at heq
        cases heq
        exact hone
    rw [hiff, hnormal, headerOfStr]
    cases htext : PyStr.toText header with
    | none => simp [Except.bind]
    | some text =>
      have hraised : headerOf depth text = .error .raised ↔ ¬ HeaderReadable depth text :=
        headerOf_raised_iff text
      cases hheader : headerOf depth text with
      | error e =>
        rw [hheader] at hraised
        cases e with
        | jwt message => simpa [Except.bind, hheader] using hraised
        | raised => simpa [Except.bind, hheader] using hraised
      | ok json =>
        have hreadable : HeaderReadable depth text := by simpa [hheader] using hraised
        by_cases haccepted : headerAccepted json = true
        · cases hvalue : PyStr.toText (unquoteStr (PyStr.strip token)) with
          | none => simp [Except.bind, hheader, haccepted, hvalue]
          | some value =>
            simpa [Except.bind, hheader, haccepted, hvalue, hreadable] using
              verifyNormalized_ne_none h value
        · simp [Except.bind, hheader, haccepted, hreadable]
  · rw [hnormal]
    exact iff_of_false (by simp) (not_not.2 fun header payload signature heq =>
      absurd heq (hparts header payload signature))

/-- `verify_token` gives a result, and an invalid one unless the token is genuine. -/
def Answers (jose : Jose) (depth : Nat) (db : Db) (clock : Clock) (token : PyStr) : Prop :=
  ∃ result, verifyStr jose depth db clock token = some result ∧
    (¬ Genuine jose depth db token → ∃ error, result = .invalid error)

theorem genuine_of_verifyStr {db : Db} {clock : Clock} {token : PyStr} {payload : Claims}
    {value : Text} {deviceId : Claim} {keyId : Nat}
    (h : verifyStr jose depth db clock token = some (.valid payload value deviceId keyId)) :
    Genuine jose depth db token := by
  unfold verifyStr at h
  cases hnormal : normalizeStr depth token with
  | error e => cases e <;> rw [hnormal] at h <;> simp at h
  | ok normalized =>
    rw [hnormal] at h
    dsimp only at h
    cases htext : PyStr.toText normalized with
    | none =>
      rw [htext] at h
      cases h
    | some text =>
      rw [htext] at h
      obtain ⟨t, ht, k, hk, rfl, -, hid, hactive, hdecode, -⟩ := verifyNormalized_found h
      exact ⟨t, ht, by rw [hnormal, PyStr.ofText_of_toText htext], k, hk, hid, hactive, payload,
        hdecode⟩

/-- Where the database and the clocks work, `verify_token` answers for exactly the strings that are
readable; for every other string it raises. -/
theorem verifyStr_answers_iff (jose : Jose) (depth : Nat) (db : Db) (bootId : Text)
    (boottime wallTime : Rat) (token : PyStr) :
    Answers jose depth db ⟨some bootId, boottime, wallTime⟩ token ↔ Readable depth token := by
  have hraises : verifyStr jose depth db ⟨some bootId, boottime, wallTime⟩ token = none ↔
      ¬ Readable depth token := verifyStr_none_iff (by simp) token
  constructor
  · rintro ⟨result, hresult, -⟩
    by_contra h
    rw [hraises.2 h] at hresult
    cases hresult
  · intro h
    obtain ⟨result, hresult⟩ := Option.ne_none_iff_exists'.1 fun hnone => hraises.1 hnone h
    refine ⟨result, hresult, fun hgenuine => ?_⟩
    cases result with
    | invalid error => exact ⟨error, rfl⟩
    | valid payload value deviceId keyId => exact absurd (genuine_of_verifyStr hresult) hgenuine

/-- A header that is not ASCII. -/
theorem verifyStr_answers_not_all : ¬ ∀ (jose : Jose) (depth : Nat) (db : Db) (bootId : Text)
    (boottime wallTime : Rat) (token : PyStr),
    Answers jose depth db ⟨some bootId, boottime, wallTime⟩ token := by
  intro h
  obtain ⟨result, hresult, -⟩ := h ⟨fun _ _ _ => [], fun _ _ => .error [], fun _ _ _ => .ok (),
    fun _ _ _ => .ok ()⟩ 900 .empty "boot".toList 0 0 (PyStr.ofText "é.e30.x".toList)
  have hnone : verifyStr ⟨fun _ _ _ => [], fun _ _ => .error [], fun _ _ _ => .ok (),
      fun _ _ _ => .ok ()⟩ 900 .empty ⟨some "boot".toList, 0, 0⟩ (PyStr.ofText "é.e30.x".toList) =
      none := by
    rw [verifyStr_none_iff (by simp)]
    intro hreadable
    obtain ⟨text, htext, hheader, -⟩ := hreadable (PyStr.ofText "é".toList)
      (PyStr.ofText "e30".toList) (PyStr.ofText "x".toList) (by decide)
    rw [PyStr.toText_ofText] at htext
    cases htext
    exact absurd (hheader.1 'é' (by decide)) (by decide)
  rw [hnone] at hresult
  cases hresult

/-! ## Strings without surrogates -/

theorem unquoteStr_ofText (t : Text) : unquoteStr (PyStr.ofText t) = PyStr.ofText (unquote t) := by
  have hlast : (PyStr.ofText t).getLast? = t.getLast?.map .char := List.getLast?_map
  unfold unquote
  split
  · rename_i q rest
    have hq : (PyChar.char q = .char '\'' ∨ PyChar.char q = .char '"') ↔ q = '\'' ∨ q = '"' := by
      simp
    have hend : (PyStr.ofText ('b' :: q :: rest)).getLast? = some (.char q) ↔
        ('b' :: q :: rest).getLast? = some q := by
      rw [hlast]
      simp [Option.map_eq_some_iff]
    show (if (PyChar.char q = .char '\'' ∨ PyChar.char q = .char '"') ∧
      (PyStr.ofText ('b' :: q :: rest)).getLast? = some (.char q) then (PyStr.ofText rest).dropLast
      else _) = _
    by_cases h : (q = '\'' ∨ q = '"') ∧ ('b' :: q :: rest).getLast? = some q
    · rw [if_pos (by rw [hq, hend]; exact h), if_pos h]
      exact List.map_dropLast.symm
    · rw [if_neg (by rw [hq, hend]; exact h), if_neg h]
  · rename_i hne
    rcases t with _ | ⟨c, _ | ⟨d, rest⟩⟩
    · rfl
    · simp [unquoteStr, PyStr.ofText]
    · have hc : c ≠ 'b' := fun heq => hne d rest (by rw [heq])
      simp [unquoteStr, PyStr.ofText, hc]

theorem normalizeStr_ofText (token : Text) :
    normalizeStr depth (PyStr.ofText token) = (normalizeToken depth token).map PyStr.ofText := by
  unfold normalizeStr normalizeToken
  dsimp only
  rw [PyStr.strip_ofText, unquoteStr_ofText, PyStr.splitOn_ofText]
  unfold splitDots
  rcases (unquote token.strip).splitOn '.' with
    _ | ⟨header, _ | ⟨payload, _ | ⟨signature, _ | ⟨fourth, rest⟩⟩⟩⟩
  · rfl
  · rfl
  · rfl
  · show (headerOfStr depth (PyStr.ofText header)).bind _ = _
    rw [headerOfStr, PyStr.toText_ofText]
    dsimp only
    cases headerOf depth header with
    | error e => rfl
    | ok json =>
      simp only [bind, Except.bind]
      split_ifs <;> rfl
  · simp [Except.map]

/-- On a text, the model of strings and the model of texts agree. -/
theorem verifyStr_ofText (jose : Jose) (depth : Nat) (db : Db) (clock : Clock) (token : Text) :
    verifyStr jose depth db clock (PyStr.ofText token) = verifyToken jose depth db clock token := by
  unfold verifyStr verifyToken
  rw [normalizeStr_ofText]
  cases normalizeToken depth token with
  | error e => cases e <;> rfl
  | ok value =>
    simp only [Except.map, PyStr.toText_ofText]

end WlanpiCore.Auth
