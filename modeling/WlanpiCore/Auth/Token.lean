import WlanpiCore.Lib.Base64
import WlanpiCore.Lib.Json
import Mathlib.Data.Rat.Floor

/-!
# Tokens

`TokenManager`: the tables of signing keys and tokens, the transactions that change them, and
`verify_token`. A transaction is a function on the database that fails or commits; what is random
or read from a clock is an argument. `Jose` stands for `authlib.jose`. Times are rational numbers.

The three `UNIQUE` columns are fields of `Db`, so a transaction that would break one fails.
-/

namespace WlanpiCore.Auth

/-! ## JWT claims -/

/-- A value in the payload of a JWT. -/
inductive Claim where
  | str (t : Text)
  | int (n : Int)
  | float (q : Rat)
  /-- Any other value, what `str` makes of it and whether it is true. -/
  | other (printed : Text) (truth : Bool)

def Claim.truth : Claim → Bool
  | .str t => t ≠ []
  | .int n => n ≠ 0
  | .float q => q ≠ 0
  | .other _ truth => truth

/-- `str(claim) == str(n)`. A float is printed with a point or an exponent. -/
def Claim.printsAs (n : Nat) : Claim → Bool
  | .str t => t = (toString n).toList
  | .int i => i = n
  | .float _ => false
  | .other printed _ => printed = (toString n).toList

abbrev Claims := List (Text × Claim)

def Claims.get (payload : Claims) (name : String) : Option Claim := payload.lookup name.toList

/-- `authlib.jose`: JWTs signed with HS256, and the checks of `iat` and `exp` with a leeway. An
error is the text of a `JoseError`. -/
structure Jose where
  encode : (header payload : Claims) → (key : Text) → Text
  decode : (token key : Text) → Except Text Claims
  validateIat : Claims → (now leeway : Rat) → Except Text Unit
  validateExp : Claims → (now leeway : Rat) → Except Text Unit

/-! ## Normalising -/

/-- What a method raises: a `JWTError` or `JoseError`, which `verify_token` reports, or anything
else. -/
inductive Failure where
  | jwt (message : Text)
  | raised

/-- `token.split(".")` -/
def splitDots (t : Text) : List Text := t.splitOn '.'

/-- How the `repr` of a `bytes` object begins. -/
def unquote (t : Text) : Text :=
  match t with
  | 'b' :: q :: rest =>
    if (q = '\'' ∨ q = '"') ∧ t.getLast? = some q then rest.dropLast else t
  | _ => t

/-- The header's JSON. -/
def headerOf (depth : Nat) (part : Text) : Except Failure Json :=
  let b64 := part.rdropWhile (· = '=')
  let invalid := Failure.jwt "Header validation failed".toList
  match Base64.urlsafeDecode (b64 ++ List.replicate ((4 - b64.length % 4) % 4) '=') with
  | .error .notAscii => .error .raised
  | .error .binascii => .error invalid
  | .ok bytes =>
    match Text.decode bytes with
    | none => .error invalid
    | some text =>
      match Json.loads depth text with
      | .ok header => .ok header
      | .error (.decode ..) => .error invalid
      | .error _ => .error .raised

def headerAccepted : Json → Bool
  | .obj members =>
    let typ := (Json.member members "typ".toList).getD (.str (some "JWT".toList))
    (match typ with
      | .str (some t) => t.map Char.toUpper = "JWT".toList
      | _ => false) &&
    (match Json.member members "alg".toList with
      | some (.str (some t)) => t = "HS256".toList
      | _ => false)
  | _ => false

/-- `_normalize_token`; `depth` is the room for nested containers in the header. -/
def normalizeToken (depth : Nat) (token : Text) : Except Failure Text := do
  let token := unquote token.strip
  match splitDots token with
  | [header, _, _] =>
    if headerAccepted (← headerOf depth header) then .ok token
    else .error (.jwt "Invalid token header".toList)
  | parts => .error (.jwt (s!"Invalid JWT format - expected 3 parts, got {parts.length}").toList)

/-! ## The tables -/

structure SigningKey where
  id : Nat
  key : Text
  active : Bool
  deriving DecidableEq

structure Token where
  token : Text
  deviceId : Text
  keyId : Nat
  revoked : Bool := false
  deriving DecidableEq

structure Db where
  keys : List SigningKey
  tokens : List Token
  keyIds : (keys.map SigningKey.id).Nodup
  keyTexts : (keys.map SigningKey.key).Nodup
  tokenTexts : (tokens.map Token.token).Nodup

namespace Db

/-- The tables as they are created. -/
def empty : Db := ⟨[], [], List.nodup_nil, List.nodup_nil, List.nodup_nil⟩

/-- `UPDATE tokens SET revoked = 1 WHERE ...` -/
def revoke (db : Db) (p : Token → Bool) : Db where
  keys := db.keys
  tokens := db.tokens.map fun t => if p t then { t with revoked := true } else t
  keyIds := db.keyIds
  keyTexts := db.keyTexts
  tokenTexts := by
    have htexts : (db.tokens.map fun t => if p t then { t with revoked := true } else t).map
        Token.token = db.tokens.map Token.token := by
      rw [List.map_map]
      apply List.map_congr_left
      intro t _
      by_cases hp : p t = true <;> simp [hp]
    exact htexts ▸ db.tokenTexts

/-- `UPDATE signing_keys SET active = 0 WHERE active` -/
def deactivateKeys (db : Db) : Db where
  keys := db.keys.map ({ · with active := false })
  tokens := db.tokens
  keyIds := by
    rw [List.map_map]
    exact db.keyIds
  keyTexts := by
    rw [List.map_map]
    exact db.keyTexts
  tokenTexts := db.tokenTexts

/-- The id SQLite gives a new key. -/
def nextKeyId (db : Db) : Nat := (db.keys.map SigningKey.id).foldr max 0 + 1

theorem lt_nextKeyId (db : Db) {k : SigningKey} (hk : k ∈ db.keys) : k.id < db.nextKeyId := by
  have hle : ∀ l : List Nat, ∀ n ∈ l, n ≤ l.foldr max 0 := by
    intro l
    induction l with
    | nil => simp
    | cons m l ih =>
      intro n hn
      rcases List.mem_cons.1 hn with rfl | hn
      · exact le_max_left _ _
      · exact (ih n hn).trans (le_max_right _ _)
  exact Nat.lt_succ_of_le (hle _ _ (List.mem_map_of_mem hk))

/-- Insert an active key; `none` is an `IntegrityError`. -/
def addKey (db : Db) (key : Text) : Option Db :=
  if h : key ∈ db.keys.map SigningKey.key then none
  else some {
    keys := ⟨db.nextKeyId, key, true⟩ :: db.keys
    tokens := db.tokens
    keyIds := by
      rw [List.map_cons, List.nodup_cons]
      refine ⟨fun hid => ?_, db.keyIds⟩
      obtain ⟨k, hk, hid⟩ := List.mem_map.1 hid
      exact (db.lt_nextKeyId hk).ne hid
    keyTexts := List.nodup_cons.2 ⟨h, db.keyTexts⟩
    tokenTexts := db.tokenTexts }

/-- Insert a token; `none` is an `IntegrityError`. -/
def addToken (db : Db) (t : Token) : Option Db :=
  if h : t.token ∈ db.tokens.map Token.token then none
  else some {
    keys := db.keys
    tokens := t :: db.tokens
    keyIds := db.keyIds
    keyTexts := db.keyTexts
    tokenTexts := List.nodup_cons.2 ⟨h, db.tokenTexts⟩ }

/-- `get_token_by_value` -/
def getTokenByValue (db : Db) (value : Text) : Option Token :=
  db.tokens.find? fun t => t.token = value

/-- `token_model.signing_key` -/
def signingKey (db : Db) (t : Token) : Option SigningKey := db.keys.find? fun k => k.id = t.keyId

/-! ## Transactions -/

/-- A new active key, in the place of every other one; the tokens of the others are revoked. -/
def replaceKey (db : Db) (key : Text) : Option (Db × SigningKey) :=
  let deactivated := db.deactivateKeys
  let id := deactivated.nextKeyId
  (deactivated.addKey key).map fun added =>
    (added.revoke fun t => t.keyId ≠ id ∧ t.revoked = false, ⟨id, key, true⟩)

/-- `_get_or_create_signing_key`; `key` is the text a new key would get. `none` is also the
`MultipleResultsFound` for two active keys. -/
def getOrCreateSigningKey (db : Db) (key : Text) : Option (Db × SigningKey) :=
  match db.keys.filter SigningKey.active with
  | [k] => some (db, k)
  | [] => db.replaceKey key
  | _ => none

/-- `rotate_key` -/
def rotateKey (db : Db) (key : Text) : Option Db := (db.replaceKey key).map Prod.fst

/-- `revoke_device_tokens` -/
def revokeDeviceTokens (db : Db) (deviceId : Text) : Db :=
  db.revoke fun t => t.deviceId = deviceId ∧ t.revoked = false

end Db

/-- What `create_token` draws and reads. A reading of the wall clock is in whole microseconds, as
`datetime.fromtimestamp` keeps them. -/
structure Draw where
  hostname : Text
  wallNow : Rat
  boottime : Rat
  bootId : Text
  jti : Text
  key : Text

/-- `ACCESS_TOKEN_EXPIRE_DAYS` -/
def accessTokenExpireDays : Rat := 7

/-- `int` of a number. -/
def truncate (q : Rat) : Int := Int.tdiv q.num q.den

/-- The payload of a new token. -/
def newClaims (deviceId : Text) (lifetime : Rat) (keyId : Nat) (draw : Draw) : Claims :=
  [("sub".toList, .str draw.hostname), ("iss".toList, .str "wlanpi-core".toList),
    ("did".toList, .str deviceId), ("exp".toList, .int (truncate (draw.wallNow + lifetime))),
    ("iat".toList, .int (truncate draw.wallNow)), ("kid".toList, .str (toString keyId).toList),
    ("jti".toList, .str draw.jti), ("bid".toList, .str draw.bootId),
    ("bexp".toList, .float (draw.boottime + lifetime))]

section

variable (jose : Jose) (depth : Nat)

/-- The transaction of `create_token`, with the JWT it returns. When it fails with an
`IntegrityError` the method tries again, at most twice. -/
def Db.createToken (db : Db) (deviceId : Text) (expiresDelta : Option Rat) (draw : Draw) :
    Option (Db × Text) := do
  let lifetime := match expiresDelta with
    | some delta => if delta = 0 then accessTokenExpireDays * 86400 else delta
    | none => accessTokenExpireDays * 86400
  let (db, key) ← db.getOrCreateSigningKey draw.key
  let token := jose.encode
    [("alg".toList, .str "HS256".toList), ("kid".toList, .str (toString key.id).toList)]
    (newClaims deviceId lifetime key.id draw) key.key
  let db ← db.addToken { token, deviceId, keyId := key.id }
  return (db, token)

/-- `revoke_token`, where it does not raise. -/
def Db.revokeToken (db : Db) (token : Text) : Db :=
  match normalizeToken depth token with
  | .ok value => db.revoke fun t => t.token = value ∧ t.revoked = false
  | .error _ => db

/-! ## Verifying -/

/-- The clocks, and the boot id unless it cannot be read. -/
structure Clock where
  bootId : Option Text
  boottime : Rat
  wallTime : Rat

/-- A number that `math.isfinite` can take: an `int` must fit a float. -/
def numericClaim (payload : Claims) (name : String) : Except Failure Rat :=
  let invalid := Failure.jwt ("Invalid ".toList ++ name.toList ++ " claim".toList)
  match payload.get name with
  | some (.int n) => if n.natAbs < 2 ^ 1024 - 2 ^ 970 then .ok n else .error invalid
  | some (.float q) => .ok q
  | _ => .error invalid

def clockSkewToleranceSec : Rat := 30

/-- `except JoseError` -/
def reported {α : Type} : Except Text α → Except Failure α := Except.mapError .jwt

/-- `_validate_lifetime` -/
def validateLifetime (clock : Clock) (payload : Claims) : Except Failure Unit := do
  let iat ← numericClaim payload "iat"
  let exp ← numericClaim payload "exp"
  if exp ≤ iat then throw (.jwt "Invalid token lifetime".toList)
  let byWallTime : Except Failure Unit := do
    if clock.wallTime + clockSkewToleranceSec < iat then throw (.jwt "AUTH_CLOCK_NOT_SET".toList)
    reported (jose.validateIat payload clock.wallTime clockSkewToleranceSec)
    reported (jose.validateExp payload clock.wallTime 0)
    if exp ≤ clock.wallTime then throw (.jwt "Token expired".toList)
  match payload.get "bid", payload.get "bexp" with
  | none, none => byWallTime
  | some (.str bid), some _ =>
    if bid = [] then throw (.jwt "Invalid bid claim".toList)
    let bexp ← numericClaim payload "bexp"
    if bexp < 0 then throw (.jwt "Invalid bexp claim".toList)
    match clock.bootId with
    | none => throw .raised
    | some bootId =>
      if bid = bootId then
        if bexp ≤ clock.boottime then throw (.jwt "Token expired".toList)
      else byWallTime
  | some _, some _ => throw (.jwt "Invalid bid claim".toList)
  | _, _ => throw (.jwt "Invalid boot lifetime claims".toList)

/-- The claims that `verify_token` wants. -/
def requiredClaims : List String := ["sub", "iss", "did", "kid", "jti", "iat", "exp"]

/-- The checks of a payload that was signed with the key of a token. -/
def checkPayload (clock : Clock) (payload : Claims) (t : Token) : Except Failure Unit := do
  match requiredClaims.find? fun name => (payload.get name).isNone with
  | some name => throw (.jwt ("Missing required claim: ".toList ++ name.toList))
  | none => pure ()
  match payload.get "iss" with
  | some (.str iss) => if iss ≠ "wlanpi-core".toList then throw (.jwt "Invalid issuer".toList)
  | _ => throw (.jwt "Invalid issuer".toList)
  if (payload.get "did").any (·.truth) = false then throw (.jwt "Invalid device ID".toList)
  if (payload.get "kid").any (·.printsAs t.keyId) = false then
    throw (.jwt "Invalid signing key claim".toList)
  validateLifetime jose clock payload

/-- A `TokenValidationResult`. -/
inductive ValidationResult where
  | valid (payload : Claims) (token : Text) (deviceId : Claim) (keyId : Nat)
  | invalid (error : Text)

/-- A valid result. `__post_init__` takes the device id from the payload if the row has none. -/
def validResult (payload : Claims) (t : Token) : ValidationResult :=
  .valid payload t.token
    (if t.deviceId ≠ [] then .str t.deviceId else (payload.get "did").getD (.str [])) t.keyId

/-- `verify_token` from the database on; `none` is an exception. -/
def verifyNormalized (db : Db) (clock : Clock) (value : Text) : Option ValidationResult :=
  match db.getTokenByValue value with
  | none => some (.invalid "Token not found".toList)
  | some t =>
    if t.revoked then some (.invalid "Token revoked".toList)
    else match db.signingKey t with
      | none => some (.invalid "Invalid signing key".toList)
      | some key =>
        if key.active = false then some (.invalid "Invalid signing key".toList)
        else match (do
            let payload ← reported (jose.decode value key.key)
            checkPayload jose clock payload t
            return payload) with
          | .error (.jwt message) => some (.invalid message)
          | .error .raised => none
          | .ok payload => some (validResult payload t)

/-- `verify_token` on a text; `none` is an exception. -/
def verifyToken (db : Db) (clock : Clock) (token : Text) : Option ValidationResult :=
  match normalizeToken depth token with
  | .error (.jwt message) => some (.invalid message)
  | .error .raised => none
  | .ok value => verifyNormalized jose db clock value

end

end WlanpiCore.Auth
