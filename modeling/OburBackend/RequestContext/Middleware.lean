import Mathlib.Data.Rat.Init
import OburBackend.RateLimit.Middleware
import OburBackend.Text.Substitution

/-!
# The request's id and its log lines (`app/middleware/request_context.py`)

`dispatch` runs outermost: it adopts the id that the client sends, if the pattern of valid ids
matches it, or makes one, calls what is further in with it, and writes it to the log line and to the
response. The line also carries the route's template; where no route has matched, it carries the
path, less what looks like an identifier.
-/

namespace OburBackend.RequestContext

open Text
open RateLimit (Response)

/-- What the middleware reads of a request. -/
structure Request where
  method : String
  /-- `request.url.path` -/
  path : String
  /-- `request.headers.get("X-Request-ID")` -/
  supplied : Option String
  deriving DecidableEq, Repr

/-- `REQUEST_ID_HEADER` -/
def requestIdHeader : String := "X-Request-ID"

/-- `[A-Za-z0-9_-]` -/
def isIdChar (c : Char) : Bool := c.isAlphanum || c = '_' || c = '-'

/-- `_VALID_REQUEST_ID` -/
def validRequestId : Regex := .seq .bol (.seq (.between 8 64 (.char isIdChar)) .eol)

/-- `_resolve_request_id`; `generated` is the `uuid4` it makes where it needs one. -/
def resolveRequestId (request : Request) (generated : Uuid) : String :=
  match request.supplied with
  | none => generated.hex
  | some supplied =>
    if (validRequestId.matchStart supplied.toList).isSome then supplied else generated.hex

/-! ## The route in the log -/

/-- `[0-9a-fA-F]` -/
def isHexDigit (c : Char) : Bool :=
  c.isDigit || decide ('a' ≤ c ∧ c ≤ 'f') || decide ('A' ≤ c ∧ c ≤ 'F')

/-- `_REDACTED_SEGMENT` -/
def redactedSegment : Regex :=
  .seq (.lookbehind fun c => decide (c = '/')) <| .seq
    (.alt
      (.all
        [.times 8 (.char isHexDigit), .lit '-', .times 4 (.char isHexDigit), .lit '-',
          .times 4 (.char isHexDigit), .lit '-', .times 4 (.char isHexDigit), .lit '-',
          .times 12 (.char isHexDigit)])
      (.alt (.plus (.char Char.isDigit)) (.atLeast 16 (.char isHexDigit))))
    (.lookahead (.alt (.lit '/') .eol))

/-- `_IDENTIFIER_PLACEHOLDER` -/
def identifierPlaceholder : String := "{id}"

/-- `_REDACTED_SEGMENT.sub(_IDENTIFIER_PLACEHOLDER, path)` -/
def redact (path : String) : String :=
  String.ofList (redactedSegment.sub identifierPlaceholder.toList path.toList)

/-- `text.rstrip("/")` -/
def rstripSlash (text : String) : String :=
  String.ofList (text.toList.reverse.dropWhile (· = '/')).reverse

/-- `text.rsplit("/", depth)[0]` -/
def beforeLastSlashes (text : String) (depth : ℕ) : String :=
  let segments := text.splitOn "/"
  "/".intercalate (segments.take (max (segments.length - depth) 1))

/-- `_with_router_prefix` -/
def withRouterPrefix (path template : String) : String :=
  let depth := template.toList.count '/'
  if depth = 0 then path else beforeLastSlashes (rstripSlash path) depth ++ template

/-- `_route_pattern`; `pathFormat` is the one of the route that has matched. -/
def routePattern (request : Request) (pathFormat : Option String) : String :=
  match pathFormat with
  | some template => withRouterPrefix request.path template
  | none => redact request.path

/-! ## The log -/

/-- `_fields` -/
structure Fields where
  requestId : String
  method : String
  route : String
  status : ℕ
  durationMs : ℚ
  deriving DecidableEq, Repr

structure LogRecord where
  message : String
  fields : Fields
  deriving DecidableEq, Repr

/-- `RequestContextMiddleware.dispatch`. What is further in is called with the id, and ends in a
response or an exception; the matched route is known then. -/
def dispatch {ε : Type} (request : Request) (generated : Uuid) (durationMs : ℚ)
    (callNext : String → Option String × Except ε Response) :
    List LogRecord × Except ε Response :=
  let requestId := resolveRequestId request generated
  let (pathFormat, outcome) := callNext requestId
  let fields (status : ℕ) : Fields :=
    { requestId, method := request.method, route := routePattern request pathFormat, status,
      durationMs }
  match outcome with
  | .error e => ([⟨"request failed", fields 500⟩], .error e)
  | .ok response =>
    ([⟨"request completed", fields response.status⟩],
      .ok (response.setHeader requestIdHeader requestId))

end OburBackend.RequestContext
