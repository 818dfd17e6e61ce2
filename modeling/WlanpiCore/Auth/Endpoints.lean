import WlanpiCore.Auth.Safety

/-!
# The token endpoints

How a request is authenticated (`verify_auth_wrapper` and its parts), what the endpoints that mint,
revoke and rotate then ask for, and the service that runs them. A request that was let in waits in
`pending` until its transaction is committed, so other requests may come between the two.
-/

namespace WlanpiCore.Auth

/-! ## Requests -/

/-- What the authentication reads of a request. -/
structure Request where
  /-- `request.client.host` -/
  peerHost : Option Text := none
  /-- `X-Real-IP` -/
  realIp : Option Text := none
  /-- What `HTTPBearer` makes of the `Authorization` header. -/
  credentials : Option Text := none
  authorization : Text := []
  /-- `X-Request-Signature` -/
  signature : Option Text := none
  /-- Method, path, query string and body, as `verify_hmac` joins them. -/
  canonical : Text := []

/-- What the authentication computes with: `ip_address(host).is_loopback`, `none` where that
raises, and the HMAC under the shared secret. -/
structure Crypto where
  isLoopback : Text → Option Bool
  hmac : Text → Text

/-- A header that is there and not empty. -/
def given (t : Option Text) : Option Text := t.filter (· ≠ [])

/-- `is_localhost_request` -/
def isLocalhostRequest (crypto : Crypto) (r : Request) : Bool :=
  let peer := given r.peerHost
  if peer.any fun host => crypto.isLoopback host ≠ some true then false
  else match (given r.realIp).or peer with
    | none => false
    | some host => crypto.isLoopback host = some true

inductive Caller where
  /-- The token presented and the device id it was found to have. -/
  | bearer (token : Text) (deviceId : Claim)
  | localhostHmac

/-- `verify_hmac`; `none` is an `HTTPException`. -/
def verifyHmac (crypto : Crypto) (r : Request) : Option Caller :=
  if isLocalhostRequest crypto r = false then none
  else match given r.signature with
    | none => none
    | some signature => if signature = crypto.hmac r.canonical then some .localhostHmac else none

section

variable (jose : Jose) (depth : Nat) (crypto : Crypto)

/-- `verify_jwt_token` -/
def verifyJwtToken (db : Db) (clock : Clock) (r : Request) : Option Caller :=
  match r.credentials with
  | none => none
  | some token =>
    match verifyToken jose depth db clock token with
    | some (.valid _ token deviceId _) => some (.bearer token deviceId)
    | _ => none

/-- `authorization.split(maxsplit=1)[0].lower() == "bearer"` -/
def namesBearer (authorization : Text) : Bool :=
  ((authorization.dropWhile Text.isSpace).takeWhile fun c => !Text.isSpace c).map Char.toLower =
    "bearer".toList

/-- `verify_auth_wrapper` -/
def verifyAuthWrapper (db : Db) (clock : Clock) (r : Request) : Option Caller :=
  if r.credentials.isSome then verifyJwtToken jose depth db clock r
  else if namesBearer r.authorization then none
  else if (given r.signature).isSome then verifyHmac crypto r
  else none

/-- `PAM_CLIENT_DEVICE_ID` -/
def pamClientDeviceId : Text := "wlanpi-webui".toList

/-- `verify_local_auth` -/
def verifyLocalAuth (db : Db) (clock : Clock) (r : Request) : Option Caller :=
  if isLocalhostRequest crypto r = false then none
  else match verifyAuthWrapper jose depth crypto db clock r with
    | some (.bearer token (.str deviceId)) =>
      if deviceId = pamClientDeviceId then some (.bearer token (.str deviceId)) else none
    | some (.bearer _ _) => none
    | caller => if r.credentials.isSome then none else caller

/-! ## Endpoints -/

/-- `_require_device_id` -/
def requireDeviceId (deviceId : Option Text) : Option Text :=
  given (some (deviceId.getD []).strip)

/-- The device id that `generate_token` mints for. -/
def mintableDeviceId (caller : Caller) (body : Option Text) : Option Text := do
  let deviceId ← requireDeviceId body
  match caller with
  | .localhostHmac => some deviceId
  | .bearer _ (.str callerId) =>
    if deviceId = pamClientDeviceId then none
    else if deviceId ≠ callerId then none
    else some deviceId
  | .bearer _ _ => none

/-- The token that the `DELETE` of a bearer revokes. -/
def revocableToken (r : Request) (caller : Caller) (body : Option Text) : Option Text := do
  let deviceId ← requireDeviceId body
  match caller with
  | .bearer _ (.str callerId) =>
    if deviceId ≠ callerId then none
    else match (r.authorization.splitOnP Text.isSpace).filter (· ≠ []) with
      | [scheme, token] => if scheme.map Char.toLower = "bearer".toList then some token else none
      | _ => none
  | _ => none

/-- A call of an endpoint, with the `device_id` of its body. -/
inductive Endpoint where
  | generateToken (deviceId : Option Text)
  | revokeToken (deviceId : Option Text)
  | newSigningKey

/-- What a request that was let in is to do. -/
inductive Work where
  | mint (caller : Caller) (deviceId : Text)
  | revoke (token : Text)
  | rotate

/-- What an endpoint does up to its transaction. -/
def receive (db : Db) (clock : Clock) (r : Request) : Endpoint → Option Work
  | .generateToken body => do
    let caller ← verifyAuthWrapper jose depth crypto db clock r
    return .mint caller (← mintableDeviceId caller body)
  | .revokeToken body => do
    let caller ← verifyJwtToken jose depth db clock r
    return .revoke (← revocableToken r caller body)
  | .newSigningKey => do
    let _ ← verifyHmac crypto r
    return .rotate

/-! ## The service -/

/-- A token and who asked for it. Only statements use these. -/
structure Mint where
  token : Text
  deviceId : Text
  caller : Caller

structure Service where
  db : Db
  pending : List Work := []
  mints : List Mint := []

/-- After `_revoke_pam_client_tokens`. -/
def startup (db : Db) : Service := { db := db.revokeDeviceTokens pamClientDeviceId }

/-- The transaction of a request commits. -/
def Service.perform (s : Service) (draw : Draw) : Work → Option Service
  | .mint caller deviceId => do
    let (db, token) ← s.db.createToken jose deviceId (some (accessTokenExpireDays * 86400)) draw
    return { s with db, mints := ⟨token, deviceId, caller⟩ :: s.mints }
  | .revoke token => some { s with db := s.db.revokeToken depth token }
  | .rotate => (s.db.rotateKey draw.key).map fun db => { s with db }

inductive Action where
  | receive (clock : Clock) (r : Request) (endpoint : Endpoint)
  /-- One of the waiting requests commits its transaction. -/
  | perform (i : Nat) (draw : Draw)
  /-- One of them fails. -/
  | fail (i : Nat)

def Service.step (s : Service) : Action → Option Service
  | .receive clock r endpoint =>
    (Auth.receive jose depth crypto s.db clock r endpoint).map fun work =>
      { s with pending := s.pending ++ [work] }
  | .perform i draw => do
    let work ← s.pending[i]?
    { s with pending := s.pending.eraseIdx i }.perform jose depth draw work
  | .fail i => some { s with pending := s.pending.eraseIdx i }

end

end WlanpiCore.Auth
