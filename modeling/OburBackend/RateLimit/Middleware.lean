import Mathlib.Data.Nat.Notation
import OburBackend.Redis.Store
import OburBackend.Uuid

/-!
# The rate limiter

`dispatch` runs before the route: it picks a tier by the request's path, derives a scope from what
is known of the caller, counts the request under both and the current window, and calls the route
(`callNext`) or refuses. What the code takes from outside is the `Env`: the settings, the HMAC and
the parser of addresses of Python's library.
-/

namespace OburBackend.RateLimit

open Redis

/-! ## Requests and responses -/

/-- `request.state`, as far as the application uses it. -/
structure RequestState where
  userId : Option Uuid
  deriving DecidableEq, Repr

/-- Starlette starts each request with an empty state. -/
def RequestState.fresh : RequestState := ⟨none⟩

/-- What the middleware reads of a request. -/
structure Request where
  method : String
  /-- `request.url.path` -/
  path : String
  /-- `request.client.host`, if there is a client. -/
  client : Option String
  /-- `request.headers.getlist("x-forwarded-for")` -/
  forwardedFor : List String
  /-- `current_request_id()` -/
  requestId : Option String
  state : RequestState
  deriving DecidableEq, Repr

/-- A problem type: its URN, its title and its status. -/
structure Problem where
  type : String
  title : String
  status : ℕ
  detail : String
  deriving DecidableEq, Repr

/-- The body of a problem response. -/
structure ProblemBody where
  type : String
  title : String
  status : ℕ
  detail : String
  requestId : Option String
  deriving DecidableEq, Repr

/-- A response. The body is only told apart for problems. -/
structure Response where
  status : ℕ
  problem : Option ProblemBody
  headers : List (String × String)
  deriving DecidableEq, Repr

/-- `response.headers[name] = value` -/
def Response.setHeader (name value : String) (r : Response) : Response :=
  { r with
    headers := r.headers.filter (fun h => h.1.toLower ≠ name.toLower) ++ [(name, value)] }

/-- `problem.response(detail=…, request_id=…, headers=…)` -/
def Problem.response (p : Problem) (detail : String) (requestId : Option String)
    (headers : List (String × String)) : Response where
  status := p.status
  problem := some
    { type := p.type, title := p.title, status := p.status, detail, requestId }
  headers := headers

/-- `RATE_LIMITED` -/
def rateLimited : Problem where
  type := "urn:obur:problem:rate-limited"
  title := "Too many requests"
  status := 429
  detail := "Too many requests. Try again shortly."

/-- `RATE_LIMITER_UNAVAILABLE` -/
def rateLimiterUnavailable : Problem where
  type := "urn:obur:problem:rate-limiter-unavailable"
  title := "Cannot verify request limits right now"
  status := 503
  detail := "Request limits cannot be verified. Try again shortly."

/-- What the middleware takes from outside. -/
structure Env where
  rateLimitSecret : String
  trustedProxyCount : ℕ
  /-- `hmac.new(key, message, sha256).hexdigest()` -/
  hmacSha256 : String → String → String
  /-- `str(ipaddress.ip_address(text))`, if the text is an address. -/
  ipAddress : String → Option String

/-! ## The caller's address -/

/-- The characters of a header that `str.strip` takes off. -/
def isSpace (c : Char) : Bool :=
  (9 ≤ c.toNat && c.toNat ≤ 13) || (28 ≤ c.toNat && c.toNat ≤ 32) ||
    c.toNat = 0x85 || c.toNat = 0xa0

/-- `text.strip()` -/
def strip (text : String) : String :=
  String.ofList ((text.toList.dropWhile isSpace).reverse.dropWhile isSpace).reverse

/-- The candidate, if it parses as an address. -/
def validAddress (env : Env) (candidate : String) : Option String :=
  env.ipAddress (strip candidate)

/-- The caller's address, if it can be established. The nearest proxy is the socket's own address
and not in the header, so it accounts for one of the trusted hops. -/
def resolveClientIp (env : Env) (request : Request) : Option String :=
  let direct :=
    -- an empty host is as good as none
    (request.client.filter (· ≠ "")).bind (validAddress env)
  if env.trustedProxyCount = 0 then direct
  else match request.forwardedFor.getLast? with
    | none => direct
    | some header =>
      let entries := (header.splitOn ",").map strip
      let skip := env.trustedProxyCount - 1
      if entries.length < 1 + skip then none
      else (entries[entries.length - 1 - skip]?).bind (validAddress env)

/-! ## Route templates -/

/-- Split a template at its parameters `{name}`. The second argument is what has been read of a
parameter that is open, the third what has been read of a literal. -/
def splitParameters : List Char → Option (List Char) → List Char → List (List Char)
  | [], none, literal => [literal]
  | [], some name, literal => [literal ++ '{' :: name]
  | c :: cs, none, literal =>
    if c = '{' then splitParameters cs (some []) literal
    else splitParameters cs none (literal ++ [c])
  | c :: cs, some name, literal =>
    if c = '}' ∧ name ≠ [] then literal :: splitParameters cs none []
    -- not a parameter: the brace was a literal one
    else if c = '/' ∨ c = '}' then splitParameters cs none (literal ++ '{' :: name ++ [c])
    else splitParameters cs (some (name ++ [c])) literal

/-- `compile_template`: the literals of a template, between which its parameters stand. -/
def compileTemplate (template : String) : List (List Char) :=
  splitParameters template.toList none []

/-- One segment, `[^/]+`, and then what `rest` accepts. -/
def segment (rest : List Char → Bool) : List Char → Bool
  | [] => false
  | c :: cs => c ≠ '/' && (rest cs || segment rest cs)

/-- `/?$`, which also matches before a last line feed. -/
def pathEnd (cs : List Char) : Bool := cs ∈ [[], ['\n'], ['/'], ['/', '\n']]

/-- Match the literals, with a segment between any two of them. -/
def matchLiterals : List (List Char) → List Char → Bool
  | [], cs => pathEnd cs
  | [literal], cs => literal.isPrefixOf cs && pathEnd (cs.drop literal.length)
  | literal :: literals, cs =>
    literal.isPrefixOf cs && segment (matchLiterals literals) (cs.drop literal.length)

/-- Whether the path matches one of the compiled templates. -/
def matchesAny (path : String) (patterns : List (List (List Char))) : Bool :=
  patterns.any fun pattern => matchLiterals pattern path.toList

/-! ## Tiers and scopes -/

/-- Every counter lives under one prefix. -/
def keyNamespace : String := "rl"

def windowSeconds : ℕ := 3600

def baselineLimit : ℕ := 600

def strictLimit : ℕ := 30

/-- The routes whose repeated abuse damages data. -/
def strictRoutes : List (String × String) :=
  [("POST", "/api/v1/checkins"),
    ("POST", "/api/v1/venues"),
    ("POST", "/api/v1/users/{user_id}/follow"),
    ("POST", "/api/v1/checkins/{checkin_id}/report"),
    ("POST", "/api/v1/users/{user_id}/report"),
    ("POST", "/api/v1/venues/{venue_id}/report")]

/-- The compiled templates of the strict routes of a method. -/
def strictPatterns (method : String) : List (List (List Char)) :=
  (strictRoutes.filter fun route => route.1 = method).map fun route => compileTemplate route.2

/-- The two tiers. -/
inductive Tier where
  | baseline
  | strict
  deriving DecidableEq, Repr

namespace Tier

def name : Tier → String
  | baseline => "baseline"
  | strict => "strict"

def limit : Tier → ℕ
  | baseline => baselineLimit
  | strict => strictLimit

/-- Whether the tier refuses while the store is down. -/
def failClosed : Tier → Bool
  | baseline => false
  | strict => true

end Tier

/-- Pick the tier from the method and the path. -/
def tierFor (request : Request) : Tier :=
  if matchesAny request.path (strictPatterns request.method) then .strict else .baseline

/-- A counting key for an address. A caller without one shares a bucket with all of its kind. -/
def anonymousKey (env : Env) (clientIp : Option String) : String :=
  let material := (clientIp.filter (· ≠ "")).getD "unresolved"
  ((env.hmacSha256 env.rateLimitSecret material).take 32).toString

/-- The caller: the user's id if known, else a derived key. -/
def scope (env : Env) (request : Request) : String :=
  match request.state.userId with
  | some userId => "u:" ++ userId.str
  | none => "a:" ++ anonymousKey env (resolveClientIp env request)

/-- The counter of a scope and a tier in a window. -/
def counterKey (caller : Tier × String) (window : ℕ) : String :=
  keyNamespace ++ ":" ++ caller.1.name ++ ":" ++ caller.2 ++ ":" ++ toString window

/-! ## Counting -/

/-- `_INCREMENT_AND_EXPIRE`: one script, so that a counter never misses its expiry. -/
def incrementAndExpire (key : String) (seconds now : ℕ) (store : Store String) :
    (ℕ × ℤ) × Store String :=
  let (current, store) := (store.purge now).incr key
  let store := if current = 1 then store.expire key seconds now else store
  ((current, store.ttl key now), store)

/-- What is left of a request that has been handled. -/
structure Handled where
  store : Store String
  /-- The request as the route left it, if the route was called. -/
  routed : Option Request
  response : Response

/-- The request was let through to its route. -/
def Handled.admitted (h : Handled) : Bool := h.routed.isSome

/-- Refuse, and say when to try again. -/
def refuse (tier : Tier) (retryAfter : ℤ) (requestId : Option String) : Response :=
  rateLimited.response ("Rate limit of " ++ toString tier.limit ++ " requests per hour exceeded.")
    requestId
    [("Retry-After", toString retryAfter),
      ("RateLimit-Limit", toString tier.limit),
      ("RateLimit-Remaining", "0"),
      ("RateLimit-Reset", toString retryAfter)]

/-- Advertise the remaining quota. -/
def annotate (tier : Tier) (count : ℕ) (ttl : ℤ) (response : Response) : Response :=
  ((response.setHeader "RateLimit-Limit" (toString tier.limit)).setHeader
    "RateLimit-Remaining" (toString (max ((tier.limit : ℤ) - count) 0))).setHeader
    "RateLimit-Reset" (toString (max ttl 0))

/-- Fail in the direction that is safe for the tier. -/
def onStoreFailure (request : Request) (callNext : Request → Request × Response) (tier : Tier)
    (store : Store String) : Handled :=
  if tier.failClosed then
    { store
      routed := none
      response := rateLimiterUnavailable.response
        "Request limits cannot be verified. Try again shortly." request.requestId [] }
  else
    let (request, response) := callNext request
    { store, routed := some request, response }

/-- `RateLimitMiddleware.dispatch`, at `now` in whole seconds. -/
def dispatch (env : Env) (reachable : Bool) (now : ℕ) (request : Request)
    (callNext : Request → Request × Response) (store : Store String) : Handled :=
  let tier := tierFor request
  let window := now / windowSeconds
  let key := counterKey (tier, scope env request) window
  if reachable then
    let ((count, ttl), store) := incrementAndExpire key windowSeconds now store
    if count > tier.limit then
      { store, routed := none, response := refuse tier (max ttl 1) request.requestId }
    else
      let (request, response) := callNext request
      { store, routed := some request, response := annotate tier count ttl response }
  else onStoreFailure request callNext tier store

/-! ## The log -/

/-- The lines that the rate limiter logs, with the arguments of their texts. -/
inductive LogLine where
  /-- The warning of `resolve_client_ip` about a header with too few entries. -/
  | tooFewEntries (entries proxies : ℕ)
  /-- The error of `_on_store_failure`. -/
  | storeUnavailable (tier : Tier)
  deriving DecidableEq, Repr

/-- The text of a line. -/
def LogLine.message : LogLine → String
  | tooFewEntries entries proxies =>
    "X-Forwarded-For has " ++ toString entries ++ " entries but " ++ toString proxies ++
      " proxies are configured; cannot establish a trustworthy client address"
  | storeUnavailable tier =>
    "rate limit store unavailable; tier=" ++ tier.name ++ " failing " ++
      if tier.failClosed then "closed" else "open"

end OburBackend.RateLimit
