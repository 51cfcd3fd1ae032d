import Mathlib.Data.List.Basic
import NodeAgent.Chainio.Abi
import NodeAgent.Library.Interaction
import NodeAgent.Supervision.State

/-!
# The local HTTP surface

`supervision::server`, with the token check of `supervision::auth`.  A handler
is a program over acquisitions of the state's lock, and the token gate wraps a
handler into another one.  The web framework is a parameter: which requests a
route matches, what the extractors make of one, how a value is serialized, and
every answer that no handler gives.
-/

namespace NodeAgent.Supervision

open Chainio Interaction

inductive Method
  | get
  | post
deriving DecidableEq

/-- A request as it was received; header names are in lower case. -/
structure HttpRequest where
  method : String
  path : String
  headers : List (String × Bytes)
  body : Bytes

/-- The first value of a header. -/
def HttpRequest.header (request : HttpRequest) (name : String) : Option Bytes :=
  request.headers.lookup name

structure Response where
  status : Nat
  headers : List (String × Bytes)
  body : Bytes
deriving DecidableEq

inductive JsonValue
  | null
  | number (value : Nat)
  | text (value : String)
  | array (items : List JsonValue)
  | object (fields : List (String × JsonValue))

/-- A field that is skipped when it is absent. -/
def optionalField (name : String) (value : Option String) :
    List (String × JsonValue) :=
  match value with
  | some text => [(name, .text text)]
  | none => []

def Health.serialize (health : Health) : JsonValue :=
  .object <|
    [("state", .text health.state.asStr),
      ("heartbeat_age_secs",
        match health.heartbeatAgeSecs with
        | some age => .number age
        | none => .null),
      ("active_jobs", .number health.activeJobs),
      ("max_concurrent", .number health.maxConcurrent),
      ("reputation_bps", .number health.reputationBps)] ++
      optionalField "last_error" health.lastError ++
      optionalField "alert" health.alert

/-- The dedup key stays inside. -/
def PendingSignatureRequest.serialize (entry : PendingSignatureRequest) :
    JsonValue :=
  .object <|
    [("id", .number entry.id),
      ("intent", .text entry.intent),
      ("to", .text entry.target),
      ("calldata", .text entry.calldata),
      ("value_wei", .text entry.valueWei),
      ("chain_id", .number entry.chainId),
      ("context", .text entry.context),
      ("expires_block", .text entry.expiresBlock),
      ("status", .text entry.status)] ++
      optionalField "tx_hash" entry.txHash

structure Axum where
  matchesPath : String → HttpRequest → Bool
  accepts : Method → HttpRequest → Bool
  /-- The answer to a request that reaches no handler. -/
  unrouted : HttpRequest → Response
  /-- The `Path` and `Json` extractors of the observe handler, or their
  rejection. -/
  observeArgs : HttpRequest → Except Response (Nat × String)
  render : JsonValue → Bytes
  /-- What is done to every response, as to drop the body for `HEAD`. -/
  finish : HttpRequest → Response → Response

def Axum.json (axum : Axum) (status : Nat) (value : JsonValue) : Response where
  status := status
  headers := [("content-type", utf8 "application/json")]
  body := axum.render value

/-- The acquisitions of the state's lock, and the wall clock. -/
inductive ServerOp
  | read
  | clock
  | pause
  | resume
  | markRequestObserved (id : Nat) (txHash : String)
deriving DecidableEq

abbrev ServerAnswer : ServerOp → Type
  | .read => AgentState
  | .clock => Nat
  | .pause => Unit
  | .resume => Unit
  | .markRequestObserved _ _ => Bool

/-- The operations at the wall-clock time `now`. -/
def serverHandle (now : Nat) (state : AgentState) :
    (op : ServerOp) → ServerAnswer op × AgentState
  | .read => (state, state)
  | .clock => (now, state)
  | .pause => ((), state.pause)
  | .resume => ((), state.resume)
  | .markRequestObserved id txHash => state.markRequestObserved id txHash now

abbrev Handler := HttpRequest → Program ServerOp ServerAnswer Response

/-- `AgentState::health`, while the state is read. -/
def currentHealth : Program ServerOp ServerAnswer Health := do
  let state ← Program.perform ServerOp.read
  let now ← Program.perform ServerOp.clock
  return state.healthAt now

/-- Marker the open `/health` shows in place of the real error text. -/
def REDACTED_LAST_ERROR : String :=
  "error recorded; details on authenticated GET /health/detail"

def redacted (snapshot : Health) : Health :=
  if snapshot.lastError.isSome then
    { snapshot with lastError := some REDACTED_LAST_ERROR }
  else snapshot

variable (axum : Axum)

def health : Handler := fun _ => do
  let snapshot ← currentHealth
  return axum.json 200 (redacted snapshot).serialize

def healthDetail : Handler := fun _ => do
  let snapshot ← currentHealth
  return axum.json 200 snapshot.serialize

def status : Handler := fun _ => do
  let state ← Program.perform ServerOp.read
  return axum.json 200 (.text state.lifecycle.asStr)

def pause : Handler := fun request => do
  Program.perform ServerOp.pause
  status axum request

def resume : Handler := fun request => do
  Program.perform ServerOp.resume
  status axum request

def listSignatureRequests : Handler := fun _ => do
  let state ← Program.perform ServerOp.read
  return axum.json 200
    (.array (state.signatureRequests.map PendingSignatureRequest.serialize))

def observeSignatureRequest : Handler := fun request =>
  match axum.observeArgs request with
  | .error rejection => return rejection
  | .ok (id, txHash) => do
      match ← Program.perform (ServerOp.markRequestObserved id txHash) with
      | true => return axum.json 200 (.text "observed")
      | false => return axum.json 404 (.text "unknown request id")

structure SupervisionAuth where
  token : String
deriving DecidableEq

/-- The lengths are compared first, then all bytes. -/
def SupervisionAuth.verify (auth : SupervisionAuth) (presented : Bytes) :
    Bool :=
  let expected := utf8 auth.token
  if expected.length ≠ presented.length then false
  else expected == presented

/-- `HeaderValue::to_str`: visible ASCII only. -/
def headerText (value : Bytes) : Option Bytes :=
  if value.all fun byte => byte = 0x09 ∨ 0x20 ≤ byte ∧ byte < 0x7f then
    some value
  else none

/-- The token a request presents. -/
def presentedToken (request : HttpRequest) : Option Bytes := do
  let value ← request.header "authorization"
  let text ← headerText value
  text.dropPrefix? (utf8 "Bearer ")

def unauthorized : Response :=
  axum.json 401 (.text "missing or invalid supervision token")

def requireToken (auth : SupervisionAuth) (next : Handler) : Handler :=
  fun request =>
    match presentedToken request with
    | some token =>
        if auth.verify token then next request
        else return unauthorized axum
    | none => return unauthorized axum

structure Route where
  path : String
  method : Method
  handler : Handler

abbrev Router := List Route

def Router.new : Router := []

def Router.route (router : Router) (path : String) (method : Method)
    (handler : Handler) : Router :=
  router ++ [⟨path, method, handler⟩]

/-- Wrap the handlers of the routes that were added so far. -/
def Router.routeLayer (router : Router) (layer : Handler → Handler) : Router :=
  router.map fun route => { route with handler := layer route.handler }

def Router.merge (router other : Router) : Router := router ++ other

/-- The routes behind the token gate. -/
def gated (auth : SupervisionAuth) : Router :=
  Router.new
    |>.route "/health/detail" .get (healthDetail axum)
    |>.route "/status" .get (status axum)
    |>.route "/pause" .post (pause axum)
    |>.route "/resume" .post (resume axum)
    |>.route "/signature-requests" .get (listSignatureRequests axum)
    |>.route "/signature-requests/:id/observed" .post
      (observeSignatureRequest axum)
    |>.routeLayer (requireToken axum auth)

/-- `server::router`. -/
def router (auth : SupervisionAuth) : Router :=
  Router.new
    |>.route "/health" .get (health axum)
    |>.merge (gated axum auth)

/-- Serve one request: the matching route's handler runs, layers included. -/
def serve (auth : SupervisionAuth) : Handler := fun request =>
  match (router axum auth).find? fun route =>
      axum.matchesPath route.path request &&
        axum.accepts route.method request with
  | some route => do
      let response ← route.handler request
      return axum.finish request response
  | none => return axum.unrouted request

/-- The request carries `Bearer` and the token. -/
def Authorized (auth : SupervisionAuth) (request : HttpRequest) : Prop :=
  request.header "authorization" = some (utf8 "Bearer " ++ utf8 auth.token)

theorem verify_eq {auth : SupervisionAuth} {presented : Bytes}
    (verified : auth.verify presented = true) :
    presented = utf8 auth.token := by
  simp only [SupervisionAuth.verify] at verified
  split at verified
  · cases verified
  · exact (beq_iff_eq.mp verified).symm

theorem presentedToken_authorized {auth : SupervisionAuth}
    {request : HttpRequest} {token : Bytes}
    (presented : presentedToken request = some token)
    (verified : auth.verify token = true) : Authorized auth request := by
  obtain rfl := verify_eq verified
  obtain ⟨value, header, rest⟩ := Option.bind_eq_some_iff.mp presented
  obtain ⟨text, visible, stripped⟩ := Option.bind_eq_some_iff.mp rest
  have same : text = value := by
    rw [headerText] at visible
    split at visible
    · exact (Option.some.inj visible).symm
    · cases visible
  obtain ⟨bearer, split, isBearer⟩ :=
    List.dropPrefix?_eq_some_iff.mp stripped
  rw [beq_iff_eq] at isBearer
  rw [Authorized, header, ← same, split, isBearer]

theorem requireToken_anonymous {auth : SupervisionAuth} {request : HttpRequest}
    (anonymous : ¬Authorized auth request) (next : Handler) :
    requireToken axum auth next request = return unauthorized axum := by
  rw [requireToken]
  split
  · rename_i token presented
    apply if_neg
    intro verified
    exact anonymous (presentedToken_authorized presented verified)
  · rfl

theorem mem_router {auth : SupervisionAuth} {route : Route}
    (member : route ∈ router axum auth) :
    route.handler = health axum ∨
      ∃ next, route.handler = requireToken axum auth next := by
  rcases List.mem_append.mp member with isOpen | gated
  · left
    rw [List.mem_singleton.mp isOpen]
  · right
    obtain ⟨inner, -, rfl⟩ := List.mem_map.mp gated
    exact ⟨inner.handler, rfl⟩

/-- Without the token a request is answered without looking at the state, or
by the open health check. -/
theorem serve_anonymous {auth : SupervisionAuth} {request : HttpRequest}
    (anonymous : ¬Authorized auth request) :
    (∃ response, serve axum auth request = return response) ∨
      serve axum auth request = do
        let response ← health axum request
        return axum.finish request response := by
  rw [serve]
  split
  · rename_i route found
    rcases mem_router axum (List.mem_of_find?_eq_some found) with
      isOpen | ⟨next, behind⟩
    · right
      rw [isOpen]
    · left
      rw [behind, requireToken_anonymous axum anonymous]
      exact ⟨_, rfl⟩
  · exact Or.inl ⟨_, rfl⟩

/-- Two states agree on everything the open health check shows. -/
structure SameHealth (now : Nat) (state other : AgentState) : Prop where
  fields : { state.healthAt now with lastError := none } =
    { other.healthAt now with lastError := none }
  failed : state.lastError.isSome = other.lastError.isSome

theorem SameHealth.redacted {now : Nat} {state other : AgentState}
    (same : SameHealth now state other) :
    Supervision.redacted (state.healthAt now) =
      Supervision.redacted (other.healthAt now) := by
  have shown (agent : AgentState) :
      Supervision.redacted (agent.healthAt now) =
        { { agent.healthAt now with lastError := none } with
          lastError :=
            if agent.lastError.isSome then some REDACTED_LAST_ERROR
            else none } := by
    cases error : agent.lastError <;>
      simp [Supervision.redacted, AgentState.healthAt, error]
  rw [shown state, shown other, same.fields, same.failed]

/-- The request is blind and inert: it takes the lock for reading only, leaves
the state as it is, and its response is the same in all states of the same
health. -/
structure Blind (auth : SupervisionAuth) (request : HttpRequest) : Prop where
  readsOnly : ∀ op, (serve axum auth request).Issues op →
    op = .read ∨ op = .clock
  inert : ∀ now state,
    ((serve axum auth request).runOn (serverHandle now) state).2 = state
  blind : ∀ now state other, SameHealth now state other →
    ((serve axum auth request).runOn (serverHandle now) state).1 =
      ((serve axum auth request).runOn (serverHandle now) other).1

/-- A request without the token is blind and inert. -/
theorem anonymous_isBlind {auth : SupervisionAuth} {request : HttpRequest}
    (anonymous : ¬Authorized auth request) : Blind axum auth request := by
  rcases serve_anonymous axum anonymous with ⟨response, constant⟩ | isOpen
  · constructor
    · intro op issued
      rw [constant] at issued
      cases issued
    · intro now state
      rw [constant]
      rfl
    · intro now state other same
      rw [constant]
      rfl
  · constructor
    · intro op issued
      rw [isOpen] at issued
      rcases issued with read | ⟨state, clock | ⟨now, nothing⟩⟩
      · exact Or.inl read.symm
      · exact Or.inr clock.symm
      · cases nothing
    · intro now state
      rw [isOpen]
      rfl
    · intro now state other same
      rw [isOpen]
      change axum.finish request (axum.json 200
          (Supervision.redacted (state.healthAt now)).serialize) =
        axum.finish request (axum.json 200
          (Supervision.redacted (other.healthAt now)).serialize)
      rw [same.redacted]

mutual

/-- The text of a value whose strings need no escapes. -/
def JsonValue.plain : JsonValue → String
  | .null => "null"
  | .number value => toString value
  | .text value => "\"" ++ value ++ "\""
  | .array items => "[" ++ plainItems items ++ "]"
  | .object fields => "\x7b" ++ plainFields fields ++ "\x7d"

def plainItems : List JsonValue → String
  | [] => ""
  | [item] => item.plain
  | item :: rest => item.plain ++ "," ++ plainItems rest

def plainFields : List (String × JsonValue) → String
  | [] => ""
  | [(name, value)] => "\"" ++ name ++ "\":" ++ value.plain
  | (name, value) :: rest =>
      "\"" ++ name ++ "\":" ++ value.plain ++ "," ++ plainFields rest

end

def sampleAxum : Axum where
  matchesPath pattern request :=
    let segments := request.path.splitOn "/"
    let expected := pattern.splitOn "/"
    segments.length = expected.length &&
      (expected.zip segments).all fun (part, segment) =>
        if part.startsWith ":" then segment ≠ "" else part = segment
  accepts
    | .get, request => request.method = "GET" || request.method = "HEAD"
    | .post, request => request.method = "POST"
  unrouted _ := ⟨404, [], []⟩
  observeArgs _ := .error ⟨415, [], []⟩
  render value := utf8 value.plain
  finish request response :=
    if request.method = "HEAD" then { response with body := [] } else response

def healthProbe : HttpRequest := ⟨"GET", "/health", [], []⟩

theorem anonymous_isBlind_probe :
    Blind sampleAxum ⟨"deadbeef"⟩ healthProbe :=
  anonymous_isBlind sampleAxum (Option.some_ne_none _ ·.symm)

end NodeAgent.Supervision
