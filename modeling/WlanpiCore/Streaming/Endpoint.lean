import WlanpiCore.Auth.Safety
import WlanpiCore.Lib.Prog
import WlanpiCore.Streaming.Manager

/-!
# The capture WebSocket's endpoint

`websocket_endpoint` and `_authenticate` as programs that receive frames and call the connection
manager. A run leaves the list of its calls; any of them may raise, and so may every receive. What
the calls do is the manager's own model.

**Theorem (`endpoint_calls`).** Whatever the client sends and whatever raises, the calls of one
socket are these: `connect`; then either a refusal, which is events and the close, or one
`authenticate` followed by commands; and `disconnect` last, exactly once. In the second case the
first frame has a token that is stored, is not revoked and has an active key. So no command reaches
the manager before the socket's token was verified, and every socket that was accepted is cleaned
up.
-/

namespace WlanpiCore.Streaming.Endpoint

open Prog

/-- The exceptions that the endpoint tells apart. -/
inductive Exc where
  | webSocketDisconnect
  | runtimeError
  /-- `receive_text` on a binary frame. -/
  | keyError
  | typeError
  | timeoutError
  | jsonDecodeError
  /-- An `asyncio.CancelledError`, which is no `Exception`. -/
  | cancelled
  | other
  deriving DecidableEq

/-- What `receive_text` returns or raises. -/
inductive Frame where
  | text (t : Text)
  | raises (e : Exc)

/-- A call of the endpoint. -/
inductive Effect where
  | connect
  | close (code : Nat)
  | event (e : Event)
  | authenticate (did : Text)
  | supportedFrequencies
  | configure (iface : Iface) (config : CaptureInterfaceConfig)
  | start (interfaces : Json) (pcapFilter : Json)
  | stop
  | subscribe (sessionId : Json)
  | unsubscribe
  | listSessions
  | disconnect

/-- What the endpoint takes from outside: the stack of the JSON scanner, the token manager with the
database and the clock as it finds them and an exception of the session, pydantic, how Python prints
a value, and the exceptions of the endpoint's calls, by their number. -/
structure Env where
  depth : Nat
  jose : Auth.Jose
  db : Auth.Db
  clock : Auth.Clock
  sessionFault : Option Exc
  captureConfigurations : Json → Option (List (Iface × CaptureInterfaceConfig))
  format : Json → Text
  faults : Nat → Option Exc

/-- A program of the endpoint; its state is the calls so far. -/
abbrev Calls (α : Type) : Type := Prog (List Effect) Exc α

/-- `WS_AUTH_CLOSE_CODE` -/
def wsAuthCloseCode : Nat := 4401

section

variable (E : Env)

/-- A call, made whether or not it raises. -/
def call (e : Effect) : Calls Unit := fun calls =>
  match E.faults calls.length with
  | none => (.ok (), calls ++ [e])
  | some exc => (.error exc, calls ++ [e])

def sendMessageEvent (event code : String) (message : Text) : Calls Unit :=
  call E (.event (messageEvent event code message))

/-- `_reject` -/
def reject (code message : String) : Calls Unit := do
  sendMessageEvent E "error" code message.toList
  attempt (call E (.close wsAuthCloseCode)) fun e =>
    if e = .runtimeError then pure () else raise e

/-- `json.loads`. The `ValueError` of a long integer and a `RecursionError` are no
`JSONDecodeError`. -/
def loads (t : Text) : Except Exc Json :=
  match Json.loads E.depth t with
  | .ok data => .ok data
  | .error (.decode _ _) => .error .jsonDecodeError
  | .error _ => .error .other

def receive : Frame → Except Exc Text
  | .text t => .ok t
  | .raises e => .error e

/-- `result.device_id or (result.payload or {}).get("did")`, if it is a text with characters. -/
def identity (payload : Auth.Claims) (deviceId : Auth.Claim) : Option Text :=
  match (if deviceId.truth then some deviceId else payload.get "did") with
  | some (.str (c :: cs)) => some (c :: cs)
  | _ => none

/-- The text of a member; the only value that compares equal to a text. -/
def textOf (members : List (Option Text × Json)) (key : String) : Option Text :=
  match Json.member members key.toList with
  | some (.str s) => s
  | _ => none

/-- `verify_token`, called by `_authenticate` -/
def verifyToken (token : Text) : Except Exc Auth.ValidationResult :=
  match E.sessionFault with
  | some exc => .error exc
  | none =>
    match Auth.verifyToken E.jose E.depth E.db E.clock token with
    | some result => .ok result
    | none => .error .other

/-- `_authenticate`, once the first frame is JSON. -/
def authenticateData (data : Json) : Calls Bool := do
  let refuse (code message : String) : Calls Bool := do
    reject E code message
    return false
  match data with
  | .obj members =>
    if textOf members "command" ≠ some "auth".toList then
      refuse "AUTH_REQUIRED" "Authenticate first: \x7b\"command\": \"auth\", \"token\": ...\x7d."
    else match Json.member members "token".toList with
      -- No token of the database has a lone surrogate.
      | some (.str none) => refuse "AUTH_FAILED" "Token verification failed."
      | some (.str (some (c :: token))) =>
        match verifyToken E (c :: token) with
        | .error e =>
          if e = .cancelled then raise e else refuse "AUTH_FAILED" "Token verification failed."
        | .ok (.invalid _) => refuse "AUTH_FAILED" "Token verification failed."
        | .ok (.valid payload _ deviceId _) =>
          match identity payload deviceId with
          | none => refuse "AUTH_FAILED" "Token carries no device identity."
          | some did => do
            call E (.authenticate did)
            call E (.event ⟨"status", "AUTH_OK", .obj [(some "did".toList, .ofText did)]⟩)
            return true
      | _ => refuse "AUTH_FAILED" "Auth message carries no token."
  | _ => refuse "AUTH_REQUIRED" "Authenticate first: \x7b\"command\": \"auth\", \"token\": ...\x7d."

/-- `_authenticate` -/
def authenticate (tokenInUrl : Bool) (first : Frame) : Calls Bool := do
  if tokenInUrl then
    reject E "AUTH_TOKEN_IN_URL" ("Tokens are not accepted in the URL (it is logged); " ++
      "send \x7b\"command\": \"auth\", \"token\": ...\x7d as the first message.")
    return false
  else match (receive first).bind (loads E) with
    | .ok data => authenticateData E data
    | .error .timeoutError => do
      reject E "AUTH_TIMEOUT" "No auth message received in time."
      return false
    | .error e =>
      if e ∈ [.jsonDecodeError, .keyError, .typeError] then do
        reject E "AUTH_REQUIRED" "First message must be valid JSON auth."
        return false
      else raise e

/-- `data.get(key)` -/
def get (members : List (Option Text × Json)) (key : String) : Json :=
  (Json.member members key.toList).getD .null

def configureAll : List (Iface × CaptureInterfaceConfig) → Calls Unit
  | [] => pure ()
  | (iface, config) :: configs => do
    call E (.configure iface config)
    configureAll configs

/-- The dispatch on a command's name. -/
def dispatch (members : List (Option Text × Json)) : Calls Unit :=
  let named (name : String) : Bool :=
    decide (textOf members "command" = some name.toList)
  if named "get_supported_frequencies" then call E .supportedFrequencies
  else if named "configure" then
    match E.captureConfigurations (get members "interfaces") with
    | none =>
      sendMessageEvent E "error" "CONFIG_INVALID" "Invalid capture interface configuration.".toList
    | some configs => do
      configureAll E configs
      sendMessageEvent E "config" "CONFIG_APPLIED"
        ("Configured: ".toList ++ List.intercalate ", ".toList (configs.map Prod.fst))
  else if named "start" then
    call E (.start ((Json.member members "interfaces".toList).getD (.arr []))
      (get members "pcap_filter"))
  else if named "stop" then call E .stop
  else if named "subscribe" then call E (.subscribe (get members "session_id"))
  else if named "unsubscribe" then call E .unsubscribe
  else if named "list_sessions" then call E .listSessions
  else if named "auth" then
    sendMessageEvent E "status" "ALREADY_AUTHENTICATED"
      "This connection is already authenticated.".toList
  else
    sendMessageEvent E "error" "UNKNOWN_COMMAND"
      ("Unsupported command: ".toList ++ E.format (get members "command"))

/-- One round of the loop. -/
def handleFrame (frame : Frame) : Calls Unit :=
  match (receive frame).bind (loads E) with
  | .error .jsonDecodeError =>
    sendMessageEvent E "error" "INVALID_JSON" "Received data is not valid JSON.".toList
  | .error e => raise e
  | .ok (.obj members) => dispatch E members
  | .ok _ =>
    sendMessageEvent E "error" "COMMAND_INVALID" "Capture command must be a JSON object.".toList

/-- The loop over the frames. After the last one the client is gone. -/
def handleFrames : List Frame → Calls Unit
  | [] => raise .webSocketDisconnect
  | frame :: frames => do
    handleFrame E frame
    handleFrames frames

/-- `websocket_endpoint`. Every `Exception` of the `try` is caught, and the `finally` follows. -/
def websocketEndpoint (tokenInUrl : Bool) (first : Frame) (frames : List Frame) : Calls Unit := do
  call E .connect
  ensuring
    (attempt
      (do
        if ← authenticate E tokenInUrl first then
          handleFrames E frames)
      fun e => if e = .cancelled then raise e else pure ())
    (call E .disconnect)

end

/-! ## What may be called when -/

/-- Calls for a socket that is refused. -/
def Effect.refusing : Effect → Bool
  | .event e => e.event = "error"
  | .close code => code = wsAuthCloseCode
  | _ => false

/-- Calls for a socket that is authenticated. -/
def Effect.serving : Effect → Bool
  | .event _ | .supportedFrequencies | .configure _ _ | .start _ _ | .stop | .subscribe _
  | .unsubscribe | .listSessions => true
  | _ => false

/-- The first frame asks for authentication, and its token is that of a stored row with the identity
`did`. -/
def Verified (E : Env) (first : Frame) (did : Text) : Prop :=
  ∃ text members token payload row, first = .text text ∧
    Json.loads E.depth text = .ok (.obj members) ∧ textOf members "command" = some "auth".toList ∧
    textOf members "token" = some token ∧
    Auth.normalizeToken E.depth token = .ok row.token ∧ Auth.Verified E.db payload row ∧
    (did = row.deviceId ∨ row.deviceId = [] ∧ payload.get "did" = some (.str did))

/-- However `x` ends, it adds calls that satisfy `Q`. -/
def Adds {α : Type} (x : Calls α) (Q : Except Exc α → List Effect → Prop) : Prop :=
  ∀ calls, Ends x calls fun r calls' => ∃ added, calls' = calls ++ added ∧ Q r added

section Rules

variable {E : Env} {α β : Type}

theorem Adds.mono {x : Calls α} {Q R : Except Exc α → List Effect → Prop} (h : Adds x Q)
    (hQR : ∀ r added, Q r added → R r added) : Adds x R := by
  intro calls
  obtain ⟨added, hcalls, hQ⟩ := h calls
  exact ⟨added, hcalls, hQR _ _ hQ⟩

theorem adds_pure {a : α} {Q : Except Exc α → List Effect → Prop} (h : Q (.ok a) []) :
    Adds (pure a) Q :=
  fun calls => ⟨[], (List.append_nil calls).symm, h⟩

theorem adds_raise {e : Exc} {Q : Except Exc α → List Effect → Prop} (h : Q (.error e) []) :
    Adds (raise e) Q :=
  fun calls => ⟨[], (List.append_nil calls).symm, h⟩

theorem adds_call (e : Effect) : Adds (call E e) fun _ added => added = [e] := by
  intro calls
  unfold Ends call
  split
  · exact ⟨[e], rfl, rfl⟩
  · exact ⟨[e], rfl, rfl⟩

/-- What the parts add, one after the other; the second part only where the first returned. -/
theorem Adds.bind {x : Calls α} {f : α → Calls β} {Q : Except Exc α → List Effect → Prop}
    {R : Except Exc β → List Effect → Prop} (hx : Adds x Q)
    (hf : ∀ a added, Q (.ok a) added → Adds (f a) fun r more => R r (added ++ more))
    (herror : ∀ e added, Q (.error e) added → R (.error e) added) : Adds (x >>= f) R := by
  intro calls
  rw [ends_bind]
  obtain ⟨added, hcalls, hQ⟩ := hx calls
  rcases h : x calls with ⟨e | a, calls'⟩
  · rw [h] at hcalls hQ
    rw [Ends, h]
    exact ⟨added, hcalls, herror e added hQ⟩
  · rw [h] at hcalls hQ
    obtain ⟨more, hmore, hR⟩ := hf a added hQ calls'
    rw [Ends, h]
    have hcalls' : calls' = calls ++ added := hcalls
    refine ⟨added ++ more, ?_, hR⟩
    rw [hmore, hcalls', List.append_assoc]

theorem Adds.attempt {x : Calls α} {handler : Exc → Calls α}
    {Q R : Except Exc α → List Effect → Prop} (hx : Adds x Q)
    (hok : ∀ a added, Q (.ok a) added → R (.ok a) added)
    (hhandler : ∀ e added, Q (.error e) added → Adds (handler e) fun r more =>
      R r (added ++ more)) :
    Adds (Prog.attempt x handler) R := by
  intro calls
  rw [ends_attempt]
  obtain ⟨added, hcalls, hQ⟩ := hx calls
  rcases h : x calls with ⟨e | a, calls'⟩
  · rw [h] at hcalls hQ
    obtain ⟨more, hmore, hR⟩ := hhandler e added hQ calls'
    rw [Ends, h]
    have hcalls' : calls' = calls ++ added := hcalls
    refine ⟨added ++ more, ?_, hR⟩
    rw [hmore, hcalls', List.append_assoc]
  · rw [h] at hcalls hQ
    rw [Ends, h]
    exact ⟨added, hcalls, hok a added hQ⟩

/-- Calls of one kind, in any number. -/
def AddsOnly (p : Effect → Bool) (x : Calls α) : Prop := Adds x fun _ added => added.all p = true

theorem AddsOnly.bind {p : Effect → Bool} {x : Calls α} {f : α → Calls β} (hx : AddsOnly p x)
    (hf : ∀ a, AddsOnly p (f a)) : AddsOnly p (x >>= f) :=
  Adds.bind hx (fun a added hadded => (hf a).mono fun _ more hmore => by
    rw [List.all_append, hadded, hmore]
    rfl) fun _ _ h => h

theorem addsOnly_call {p : Effect → Bool} {e : Effect} (h : p e = true) : AddsOnly p (call E e) :=
  (adds_call e).mono fun _ _ hadded => by simp [hadded, h]

theorem addsOnly_pure {p : Effect → Bool} (a : α) : AddsOnly p (pure a : Calls α) := adds_pure rfl

theorem addsOnly_raise {p : Effect → Bool} (e : Exc) : AddsOnly p (raise e : Calls α) :=
  adds_raise rfl

end Rules

/-! ## The parts -/

section Parts

variable {E : Env}

theorem reject_adds (code message : String) : AddsOnly Effect.refusing (reject E code message) := by
  refine .bind (addsOnly_call rfl) fun _ => ?_
  refine Adds.attempt (addsOnly_call rfl) (fun _ _ h => h) fun e added hadded => ?_
  split_ifs
  · exact adds_pure (by simpa using hadded)
  · exact adds_raise (by simpa using hadded)

theorem configureAll_adds (configs : List (Iface × CaptureInterfaceConfig)) :
    AddsOnly Effect.serving (configureAll E configs) := by
  induction configs with
  | nil => exact addsOnly_pure ()
  | cons config configs ih =>
    obtain ⟨iface, config⟩ := config
    exact .bind (addsOnly_call rfl) fun _ => ih

theorem dispatch_adds (members : List (Option Text × Json)) :
    AddsOnly Effect.serving (dispatch E members) := by
  unfold dispatch
  dsimp only
  split_ifs
  · exact addsOnly_call rfl
  · split
    · exact addsOnly_call rfl
    · exact .bind (configureAll_adds _) fun _ => addsOnly_call rfl
  all_goals exact addsOnly_call rfl

theorem handleFrame_adds (frame : Frame) : AddsOnly Effect.serving (handleFrame E frame) := by
  unfold handleFrame
  split
  · exact addsOnly_call rfl
  · exact addsOnly_raise _
  · exact dispatch_adds _
  · exact addsOnly_call rfl

/-- Every run of the loop, by induction on the frames. -/
theorem handleFrames_adds (frames : List Frame) :
    AddsOnly Effect.serving (handleFrames E frames) := by
  induction frames with
  | nil => exact addsOnly_raise _
  | cons frame frames ih => exact .bind (handleFrame_adds frame) fun _ => ih

/-- How an authentication ends: with calls that refuse the socket and no `True`, or verified. -/
def Admits (E : Env) (first : Frame) (r : Except Exc Bool) (added : List Effect) : Prop :=
  added.all Effect.refusing = true ∧ r ≠ .ok true ∨
    ∃ did rest, Verified E first did ∧ added = .authenticate did :: rest ∧
      rest.all Effect.serving = true

theorem refuse_admits (first : Frame) (code message : String) :
    Adds (do reject E code message; return false) (Admits E first) := by
  refine Adds.bind (reject_adds code message) (fun _ added hadded => ?_) fun e added hadded => ?_
  · exact adds_pure (Or.inl ⟨by simpa using hadded, by simp⟩)
  · exact Or.inl ⟨hadded, by simp⟩

theorem identity_row {payload : Auth.Claims} {row : Auth.Token} {token did : Text}
    {deviceId : Auth.Claim} {keyId : Nat}
    (hresult : Auth.validResult payload row = .valid payload token deviceId keyId)
    (h : identity payload deviceId = some did) :
    did = row.deviceId ∨ row.deviceId = [] ∧ payload.get "did" = some (.str did) := by
  have hnonempty (claim : Option Auth.Claim) (hclaim : (match claim with
      | some (.str (c :: cs)) => some (c :: cs)
      | _ => none) = some did) : claim = some (.str did) := by
    split at hclaim
    · rw [Option.some.inj hclaim]
    · cases hclaim
  have hchosen := hnonempty _ h
  unfold Auth.validResult at hresult
  injection hresult with _ _ hdevice _
  by_cases hrow : row.deviceId = []
  · refine Or.inr ⟨hrow, ?_⟩
    rw [if_neg (not_not.2 hrow)] at hdevice
    cases hdid : payload.get "did" with
    | none =>
      rw [hdid] at hdevice hchosen
      subst hdevice
      simp [Auth.Claim.truth] at hchosen
    | some claim =>
      rw [hdid] at hdevice hchosen
      obtain rfl : claim = deviceId := hdevice
      split_ifs at hchosen
      · exact hchosen
      · exact hchosen
  · rw [if_pos hrow] at hdevice
    subst hdevice
    rw [if_pos (by simpa [Auth.Claim.truth] using hrow)] at hchosen
    injection hchosen with hchosen
    injection hchosen with hchosen
    exact Or.inl hchosen.symm

theorem verifyToken_row {token value did : Text} {payload : Auth.Claims} {deviceId : Auth.Claim}
    {keyId : Nat} (h : verifyToken E token = .ok (.valid payload value deviceId keyId))
    (hidentity : identity payload deviceId = some did) :
    ∃ row, Auth.normalizeToken E.depth token = .ok row.token ∧ Auth.Verified E.db payload row ∧
      (did = row.deviceId ∨ row.deviceId = [] ∧ payload.get "did" = some (.str did)) := by
  unfold verifyToken at h
  split at h
  · cases h
  · split at h
    · rename_i hverify
      obtain ⟨row, hnormal, hrow, hresult⟩ :=
        Auth.verifyToken_valid (hverify.trans (congrArg some (Except.ok.inj h)))
      exact ⟨row, hnormal, hrow, identity_row hresult hidentity⟩
    · cases h

/-- The calls for an identity that was found. -/
theorem admit_admits {first : Frame} {did : Text} (h : Verified E first did) :
    Adds (do
      call E (.authenticate did)
      call E (.event ⟨"status", "AUTH_OK", .obj [(some "did".toList, .ofText did)]⟩)
      return true) (Admits E first) := by
  refine Adds.bind (adds_call _) (fun _ added hadded => ?_) fun e added hadded => ?_
  · subst hadded
    refine Adds.bind (adds_call _) (fun _ more hmore => ?_) fun e more hmore => ?_
    · subst hmore
      exact adds_pure (Or.inr ⟨did, _, h, rfl, rfl⟩)
    · subst hmore
      exact Or.inr ⟨did, _, h, rfl, rfl⟩
  · subst hadded
    exact Or.inr ⟨did, [], h, rfl, rfl⟩

theorem raise_admits (first : Frame) (e : Exc) : Adds (raise e : Calls Bool) (Admits E first) :=
  adds_raise (Or.inl ⟨rfl, by simp⟩)

theorem authenticateData_admits {t : Text} {data : Json} (hdata : Json.loads E.depth t = .ok data) :
    Adds (authenticateData E data) (Admits E (.text t)) := by
  unfold authenticateData
  cases data with
  | obj members =>
    dsimp only
    by_cases hcommand : textOf members "command" = some "auth".toList
    · rw [if_neg (not_not.2 hcommand)]
      split
      · exact refuse_admits _ _ _
      · rename_i c token htoken
        have htext : textOf members "token" = some (c :: token) := by
          rw [textOf, htoken]
        split
        · split_ifs
          · exact raise_admits _ _
          · exact refuse_admits _ _ _
        · exact refuse_admits _ _ _
        · rename_i payload value deviceId keyId hverify
          cases hidentity : identity payload deviceId with
          | none => exact refuse_admits _ _ _
          | some did =>
            obtain ⟨row, hnormal, hrow, hdid⟩ := verifyToken_row hverify hidentity
            exact admit_admits
              ⟨t, members, c :: token, payload, row, rfl, hdata, hcommand, htext, hnormal,
                hrow, hdid⟩
      · exact refuse_admits _ _ _
    · rw [if_pos hcommand]
      exact refuse_admits _ _ _
  | _ => exact refuse_admits _ _ _

theorem loads_ok {t : Text} {data : Json} (h : loads E t = .ok data) :
    Json.loads E.depth t = .ok data := by
  unfold loads at h
  split at h
  · rename_i hloads
    rw [hloads, Except.ok.inj h]
  · cases h
  · cases h

theorem authenticate_admits (tokenInUrl : Bool) (first : Frame) :
    Adds (authenticate E tokenInUrl first) (Admits E first) := by
  unfold authenticate
  split_ifs
  · exact refuse_admits _ _ _
  · cases first with
    | raises e =>
      have hbind : (receive (.raises e)).bind (loads E) = .error e := rfl
      rw [hbind]
      cases e with
      | timeoutError => exact refuse_admits _ _ _
      | keyError | typeError | jsonDecodeError => exact refuse_admits _ _ _
      | webSocketDisconnect | runtimeError | cancelled | other => exact raise_admits _ _
    | text t =>
      have hbind : (receive (.text t)).bind (loads E) = loads E t := rfl
      rw [hbind]
      cases hloads : loads E t with
      | ok data => exact authenticateData_admits (loads_ok hloads)
      | error e =>
        cases e with
        | timeoutError => exact refuse_admits _ _ _
        | keyError | typeError | jsonDecodeError => exact refuse_admits _ _ _
        | webSocketDisconnect | runtimeError | cancelled | other => exact raise_admits _ _

theorem ensuring_calls {α : Type} (x : Calls α) (y : Calls Unit) (calls : List Effect) :
    (ensuring x y calls).2 = (y (x calls).2).2 := by
  unfold ensuring
  rcases x calls with ⟨r, calls'⟩
  dsimp only
  split
  · rename_i hy
    rw [hy]
  · rename_i hy
    rw [hy]

/-- The calls between `connect` and `disconnect`. -/
def Body (E : Env) (first : Frame) (body : List Effect) : Prop :=
  body.all Effect.refusing = true ∨
    ∃ did rest, Verified E first did ∧ body = .authenticate did :: rest ∧
      rest.all Effect.serving = true

theorem served_adds (tokenInUrl : Bool) (first : Frame) (frames : List Frame) :
    Adds (do
      if ← authenticate E tokenInUrl first then
        handleFrames E frames) fun _ body => Body E first body := by
  refine Adds.bind (authenticate_admits tokenInUrl first) (fun admitted added h => ?_)
    fun _ added h => h.imp And.left id
  cases admitted with
  | false =>
    refine adds_pure ?_
    rw [List.append_nil]
    exact h.imp And.left id
  | true =>
    rcases h with ⟨-, hne⟩ | ⟨did, rest, hverified, rfl, hrest⟩
    · exact absurd rfl hne
    · refine (handleFrames_adds frames).mono fun _ more hmore => ?_
      refine Or.inr ⟨did, rest ++ more, hverified, rfl, ?_⟩
      rw [List.all_append, hrest, hmore]
      rfl

theorem body_adds (tokenInUrl : Bool) (first : Frame) (frames : List Frame) :
    Adds (Prog.attempt
      (do
        if ← authenticate E tokenInUrl first then
          handleFrames E frames)
      fun e => if e = .cancelled then raise e else pure ()) fun _ body => Body E first body := by
  refine Adds.attempt (served_adds tokenInUrl first frames) (fun _ _ h => h) fun e added h => ?_
  split_ifs
  · exact adds_raise (by simpa using h)
  · exact adds_pure (by simpa using h)

/-- **The calls of one socket**, whatever the client sends and whatever raises. -/
theorem endpoint_calls (E : Env) (tokenInUrl : Bool) (first : Frame) (frames : List Frame) :
    (websocketEndpoint E tokenInUrl first frames []).2 = [.connect] ∧ E.faults 0 ≠ none ∨
      ∃ body, (websocketEndpoint E tokenInUrl first frames []).2 =
        .connect :: body ++ [.disconnect] ∧ Body E first body := by
  cases hfault : E.faults 0 with
  | some exc =>
    have hconnect : call E .connect [] = (.error exc, [.connect]) := by
      simp [call, hfault]
    refine Or.inl ⟨?_, by simp⟩
    unfold websocketEndpoint
    rw [bind_error hconnect]
  | none =>
    have hconnect : call E .connect [] = (.ok (), [.connect]) := by
      simp [call, hfault]
    obtain ⟨body, hbody, hshape⟩ := body_adds (E := E) tokenInUrl first frames [.connect]
    refine Or.inr ⟨body, ?_, hshape⟩
    unfold websocketEndpoint
    rw [bind_ok hconnect]
    set x := Prog.attempt (do
        if ← authenticate E tokenInUrl first then
          handleFrames E frames) (fun e => if e = .cancelled then raise e else pure ())
    obtain ⟨last, hlast, rfl⟩ := adds_call (E := E) .disconnect (x [.connect]).2
    rw [ensuring_calls, hlast, hbody]
    rfl

end Parts

end WlanpiCore.Streaming.Endpoint
