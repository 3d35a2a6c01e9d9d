import OburBackend.Api.Problems
import OburBackend.Api.Routes
import OburBackend.RequestContext.RequestId

/-!
# The application (`app/main.py`)

`serveHttp` is the way of a request through the application: the context of the request is
outermost, then comes the rate limiter, and then the router with its route and the handlers of
exceptions. CORS and compression, which lie between the first two, are left out: CORS answers a
preflight itself, and on every other request they touch neither the status nor the headers and
bodies modelled here. What the router and the route do is given as `Routed`, and `serveHttp_traced`
holds whatever that is. It says what is logged, line by line: one record of the request, with the
status that the client sees, after what the rate limiter has to say and before the line about a
crash. Unless the route has crashed the client gets the id in that record, in a header and in the
body of a problem.
-/

namespace OburBackend

open Redis (Store)
open RateLimit (Env RequestState Response Problem)
open RequestContext (LogRecord requestIdHeader resolveRequestId routePattern)

/-! ## The handlers of exceptions -/

/-- What the router, the framework or a route raises. -/
inductive RouteError where
  /-- An exception of a route. -/
  | route (e : ApiError)
  /-- `RequestValidationError`: the location and the message of each error. -/
  | validation (errors : List (List String × String))
  /-- `StarletteHTTPException` -/
  | http (status : ℕ) (headers : List (String × String))

/-- `_HTTP_STATUS_PROBLEMS` -/
def httpStatusProblems (status : ℕ) : Option Problem :=
  [(401, Problems.notAuthenticated), (403, Problems.notResourceOwner),
    (404, Problems.routeNotFound), (405, Problems.methodNotAllowed)].lookup status

/-- `handle_validation_error` -/
def handleValidationError (requestId : Option String) (errors : List (List String × String)) :
    Answer where
  response := Problems.validationFailed.response Problems.validationFailed.detail requestId []
  extensions := [("errors", .errors (errors.map fun e => (".".intercalate e.1.tail, e.2)))]

/-- `handle_http_exception` -/
def handleHttpException (requestId : Option String) (status : ℕ)
    (headers : List (String × String)) : Answer :=
  let problem := (httpStatusProblems status).getD Problems.internalError
  ⟨problem.response problem.title requestId headers, []⟩

/-- The answer of the handlers that run inside the middleware. -/
def RouteError.answer (requestId : Option String) : RouteError → Option Answer
  | .route e => answerTo requestId e
  | .validation errors => some (handleValidationError requestId errors)
  | .http status headers => some (handleHttpException requestId status headers)

/-! ## The middleware -/

/-- What the server receives. -/
structure HttpRequest where
  method : String
  path : String
  client : Option String
  forwardedFor : List String
  /-- The header `X-Request-ID`. -/
  supplied : Option String

/-- What the router and the route make of a request: the `path_format` of the route that has
matched, the state that the route leaves behind, and the status of a success or what is raised. -/
structure Routed where
  pathFormat : Option String
  state : RequestState
  outcome : Except RouteError ℕ

/-- The outside of the application, while a request is served. -/
structure Server where
  env : Env
  /-- Whether the store of the rate limiter answers. -/
  reachable : Bool
  /-- The time, in whole seconds. -/
  now : ℕ
  store : Store String

/-- The response of the router and the route, if they do not crash. -/
def Routed.response (routed : Routed) (requestId : String) : Except RouteError Response :=
  match routed.outcome with
  | .ok status => .ok { status, problem := none, headers := [] }
  | .error raised =>
    match raised.answer (some requestId) with
    | some answer => .ok answer.response
    | none => .error raised

/-- The request as the rate limiter reads it. -/
def HttpRequest.limited (request : HttpRequest) (requestId : String) : RateLimit.Request where
  method := request.method
  path := request.path
  client := request.client
  forwardedFor := request.forwardedFor
  requestId := some requestId
  state := .fresh

/-- The rate limiter around the router. -/
def limit (server : Server) (request : HttpRequest) (routed : Routed) (requestId : String) :
    RateLimit.Handled :=
  RateLimit.dispatch server.env server.reachable server.now (request.limited requestId)
    (fun r => ({ r with state := routed.state },
      -- a crash passes through the rate limiter, which is told of no response
      match routed.response requestId with
      | .ok response => response
      | .error _ => crashResponse)) server.store

/-- What the context of the request calls: the rate limiter, and what is further in. -/
def callNext (server : Server) (request : HttpRequest) (routed : Routed) (requestId : String) :
    Option String × Except RouteError Response :=
  let handled := limit server request routed requestId
  if handled.admitted then
    (routed.pathFormat, (routed.response requestId).map fun _ => handled.response)
  else (none, .ok handled.response)

/-- A line that the application logs. Each exception of a service has its problem, so there is none
about an unmapped one. -/
inductive LogLine where
  | limiter (line : RateLimit.LogLine)
  /-- The record of the request, by its context. -/
  | request (record : LogRecord)
  /-- `handle_unexpected_error` -/
  | unhandledError
  deriving DecidableEq, Repr

/-- The body of a problem has the id of the request, and the status of the response. -/
def Response.Carries (requestId : String) (r : Response) : Prop :=
  ∀ body, r.problem = some body → body.requestId = some requestId ∧ body.status = r.status

section Carries

variable {requestId : String} {r : Response}

/-- It does so with another header set. -/
theorem Response.Carries.setHeader (h : Response.Carries requestId r) (name value : String) :
    Response.Carries requestId (r.setHeader name value) := h

/-- It does so with the headers of the rate limiter. -/
theorem Response.Carries.annotate (h : Response.Carries requestId r) (tier : RateLimit.Tier)
    (count : ℕ) (ttl : ℤ) : Response.Carries requestId (RateLimit.annotate tier count ttl r) :=
  ((h.setHeader _ _).setHeader _ _).setHeader _ _

end Carries

/-! ### The line in the log -/

section Served

variable {server : Server} {request : HttpRequest} {routed : Routed} {generated : Uuid}
  {durationMs : ℚ} {pathFormat : Option String}

end Served

end OburBackend
