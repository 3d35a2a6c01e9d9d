import OburBackend.RateLimit.Middleware
import OburBackend.Service.Moderation

/-!
# Problems (`app/core/problems.py`, `app/core/problem_mapping.py`)

An exception that a route raises is answered with a problem, or it is a crash. `problemFor` is the
mapping, by the class alone; `detailFor` and `extensionsFor` add what two of the classes carry. The
exceptions of the model have their message only, and the value stands at its end (`carriedValue`).
No message is told (`answerTo_congr`), and the answers of the mapping are a client's errors
(`status_of_answerTo`).
-/

namespace OburBackend

open RateLimit (Problem Response)

/-! ## The problem types -/

/-- `_URN_PREFIX` -/
def urnPrefix : String := "urn:obur:problem:"

/-- `Problem(slug, title, status_code, detail)` -/
def RateLimit.Problem.make (slug title : String) (status : ℕ) (detail : String) : Problem where
  type := urnPrefix ++ slug
  title := title
  status := status
  detail := if detail = "" then title else detail

namespace Problems

/-! ### Not found -/

def checkinNotFound : Problem :=
  .make "checkin-not-found" "Checkin not found" 404
    "No check-in with that id is visible to you."

def listNotFound : Problem :=
  .make "list-not-found" "List not found" 404 "No list with that id is visible to you."

def venueNotFound : Problem :=
  .make "venue-not-found" "Venue not found" 404 "No venue with that id exists."

def venueNotEligibleForVerification : Problem :=
  .make "venue-not-eligible-for-verification" "Venue not yet eligible for verification" 409
    "This venue hasn't reached the required number of independent check-ins yet."

def venueSaveNotFound : Problem :=
  .make "venue-save-not-found" "Venue save not found" 404
    "No saved venue with that id is visible to you."

def listItemNotFound : Problem :=
  .make "list-item-not-found" "List item not found" 404 "That list does not contain the item."

def venueCategoryNotFound : Problem :=
  .make "venue-category-not-found" "Venue category not found" 404
    "No venue category with that id exists."

def relationshipNotFound : Problem :=
  .make "relationship-not-found" "Relationship not found" 404
    "That relationship does not exist."

def contentReportNotFound : Problem :=
  .make "content-report-not-found" "Content report not found" 404
    "No content report with that id exists."

def venueReportNotFound : Problem :=
  .make "venue-report-not-found" "Venue report not found" 404
    "No venue report with that id exists."

def userNotFound : Problem :=
  .make "user-not-found" "User not found" 404 "No user with that id exists."

/-! ### Authorisation -/

def notResourceOwner : Problem :=
  .make "not-resource-owner" "Not the owner of this resource" 403
    "You can only change your own content."

def adminRequired : Problem :=
  .make "admin-required" "Admin privileges required" 403
    "This endpoint requires an administrator."

def accountSuspended : Problem :=
  .make "account-suspended" "This account is suspended" 403 "This account is suspended."

def notAuthenticated : Problem :=
  .make "not-authenticated" "Invalid or expired session" 401 "Sign in to continue."

def invalidWebhookSignature : Problem :=
  .make "invalid-webhook-signature" "Invalid webhook signature" 401
    "The webhook signature did not verify."

/-! ### Conflict -/

def usernameTaken : Problem :=
  .make "username-taken" "Username already taken" 409
    "That username belongs to another account."

def duplicateVenueNearby : Problem :=
  .make "duplicate-venue-nearby" "A venue already exists nearby" 409
    "A venue already exists within 50 metres. Resubmit with confirm_duplicate to add it anyway."

def duplicateListItem : Problem :=
  .make "duplicate-list-item" "Venue is already in this list" 409
    "That venue is already in this list."

/-! ### Rejected input -/

def validationFailed : Problem :=
  .make "validation-failed" "Request validation failed" 422 "One or more fields are invalid."

def futureVisitDate : Problem :=
  .make "future-visit-date" "Visit date is in the future" 422
    "A visit cannot be dated in the future."

def selfFollow : Problem :=
  .make "self-follow" "Cannot follow yourself" 422 "You cannot follow your own account."

def notAFollower : Problem :=
  .make "not-a-follower" "That user does not follow you" 422 "That user does not follow you."

def selfBlock : Problem :=
  .make "self-block" "Cannot block yourself" 422 "You cannot block your own account."

def selfMute : Problem :=
  .make "self-mute" "Cannot mute yourself" 422 "You cannot mute your own account."

/-! ### Too many requests -/

def usernameChangedTooRecently : Problem :=
  .make "username-changed-too-recently" "Username changed too recently" 429
    "Your username was changed too recently to change again."

/-! ### Raised by the framework, and by the server -/

def routeNotFound : Problem :=
  .make "route-not-found" "No such endpoint" 404 "No endpoint matches that path."

def methodNotAllowed : Problem :=
  .make "method-not-allowed" "Method not allowed for this endpoint" 405
    "That method is not allowed on this endpoint."

def internalError : Problem :=
  .make "internal-error" "Something went wrong" 500 "An unexpected error occurred."

end Problems

/-! ## The mapping -/

/-- `DOMAIN_PROBLEMS`. It has an entry for every class that the code raises. -/
def ErrorClass.problem : ErrorClass → Problem
  -- check-ins
  | .checkinNotFound => Problems.checkinNotFound
  | .notCheckinOwner => Problems.notResourceOwner
  | .futureVisitDate => Problems.futureVisitDate
  -- lists
  | .listNotFound => Problems.listNotFound
  | .listItemNotFound => Problems.listItemNotFound
  | .notListOwner => Problems.notResourceOwner
  | .duplicateListItem => Problems.duplicateListItem
  -- venues
  | .venueNotFound => Problems.venueNotFound
  | .venueCategoryNotFound => Problems.venueCategoryNotFound
  | .duplicateVenueNearby => Problems.duplicateVenueNearby
  | .venueNotEligibleForVerification => Problems.venueNotEligibleForVerification
  | .venueSaveNotFound => Problems.venueSaveNotFound
  | .notVenueSaveOwner => Problems.notResourceOwner
  -- the social graph
  | .followNotFound => Problems.relationshipNotFound
  | .notAFollower => Problems.notAFollower
  | .selfFollow => Problems.selfFollow
  | .closeFriendNotFound => Problems.relationshipNotFound
  | .likeNotFound => Problems.relationshipNotFound
  | .bookmarkNotFound => Problems.relationshipNotFound
  | .blockNotFound => Problems.relationshipNotFound
  | .selfBlock => Problems.selfBlock
  | .muteNotFound => Problems.relationshipNotFound
  | .selfMute => Problems.selfMute
  -- reporting
  | .contentReportNotFound => Problems.contentReportNotFound
  -- the account
  | .usernameTaken => Problems.usernameTaken
  | .usernameChangedTooRecently => Problems.usernameChangedTooRecently
  | .accountNotFrozen => Problems.notResourceOwner
  | .userNotFound => Problems.userNotFound
  -- authentication
  | .invalidToken => Problems.notAuthenticated
  | .invalidWebhookSignature => Problems.invalidWebhookSignature

/-- `problem_for`: an exception of another class has no problem. -/
def problemFor : ApiError → Option Problem
  | .service (.domain cls _) => some cls.problem
  | .venueReportNotFound _ => some Problems.venueReportNotFound
  | _ => none

/-- The value that an exception carries, where its message is `constant` with the value after it. -/
def carriedValue (constant message : String) : String :=
  String.ofList (message.toList.drop constant.length)

/-- The message of `UsernameChangedTooRecentlyError`, without `allowed_at`. -/
def allowedAtMessage : String := "username can be changed again at "

/-- The message of `DuplicateVenueNearbyError`, without `nearby_venue_id`. -/
def nearbyVenueMessage : String := "a venue already exists near this location: "

/-- `detail_for`. The date of an ISO timestamp is what stands before its `T`. -/
def detailFor (e : ApiError) (problem : Problem) : String :=
  match e with
  | .service (.domain .usernameChangedTooRecently message) =>
    "Your username can be changed again on " ++
      String.ofList ((carriedValue allowedAtMessage message).toList.takeWhile (· ≠ 'T')) ++ "."
  | _ => problem.detail

/-- The value of an extension member: a text, or the field errors of a validation. -/
inductive Member where
  | text (value : String)
  | errors (fields : List (String × String))
  deriving DecidableEq, Repr

/-- `extensions_for` -/
def extensionsFor : ApiError → List (String × Member)
  | .service (.domain .duplicateVenueNearby message) =>
    [("nearby_venue_id", .text (carriedValue nearbyVenueMessage message))]
  | .service (.domain .usernameChangedTooRecently message) =>
    [("retry_at", .text (carriedValue allowedAtMessage message))]
  | _ => []

/-- The value is what follows the constant part of the message. -/
theorem carriedValue_append (constant value : String) :
    carriedValue constant (constant ++ value) = value := by
  rw [carriedValue, String.toList_append, ← String.length_toList, List.drop_left,
    String.ofList_toList]

/-! ## What a client is told -/

/-- A response, and the extension members of its body. -/
structure Answer where
  response : Response
  extensions : List (String × Member)
  deriving DecidableEq, Repr

/-- The problem of `ProblemError`, which `get_current_user` and `require_admin` raise. -/
def problemOfCode (code : String) : Problem :=
  if code = "admin-required" then Problems.adminRequired else Problems.accountSuspended

/-- `handle_problem` and `handle_domain_error`: the answer to what a route has raised. There is no
handler for an exception of another class. -/
def answerTo (requestId : Option String) (e : ApiError) : Option Answer :=
  match e with
  | .service (.problem code) =>
    let problem := problemOfCode code
    some ⟨problem.response problem.detail requestId [], []⟩
  | e => (problemFor e).map fun problem =>
      ⟨problem.response (detailFor e problem) requestId [], extensionsFor e⟩

/-- `handle_unexpected_error`: the answer to a crash. It is made outside of every middleware, where
no request has an id. -/
def crashResponse : Response :=
  Problems.internalError.response Problems.internalError.detail none []

/-- The status of the answer to what a route has raised. -/
def ApiError.status (e : ApiError) : ℕ :=
  ((answerTo none e).map (·.response.status)).getD crashResponse.status

/-- A client is not told the message of an exception: two of one class are answered alike, unless
the class is one of the two that carry a value. -/
theorem answerTo_congr {cls : ErrorClass} (hname : cls ≠ .usernameChangedTooRecently)
    (hvenue : cls ≠ .duplicateVenueNearby) (requestId : Option String) (message message' : String) :
    answerTo requestId (.service (.domain cls message)) =
      answerTo requestId (.service (.domain cls message')) := by
  cases cls with
  | usernameChangedTooRecently => exact absurd rfl hname
  | duplicateVenueNearby => exact absurd rfl hvenue
  | _ => rfl

/-- A decimal has digits only, and zeros before them. -/
theorem isDigit_of_mem_padded {k n : ℕ} {c : Char} (h : c ∈ (Date.padded k n).toList) :
    c.isDigit = true := by
  rw [Date.padded, String.toList_append, String.toList_ofList, List.mem_append] at h
  rcases h with h | h
  · rw [List.eq_of_mem_replicate h]
    rfl
  · have hdigits : c ∈ Nat.toDigits 10 n := by rwa [← Nat.toList_repr]
    exact Nat.isDigit_of_mem_toDigits (by decide) (by decide) hdigits

/-- A date has no `T` in it. -/
theorem ne_of_mem_str {d : Date} {c : Char} (h : c ∈ d.str.toList) : c ≠ 'T' := by
  rintro rfl
  simp only [Date.str, String.toList_append, List.mem_append] at h
  rcases h with (((h | h) | h) | h) | h
  · exact absurd (isDigit_of_mem_padded h) (by decide)
  · exact absurd h (by decide)
  · exact absurd (isDigit_of_mem_padded h) (by decide)
  · exact absurd h (by decide)
  · exact absurd (isDigit_of_mem_padded h) (by decide)

/-- The date of a moment stands before the `T` of its ISO form. -/
theorem takeWhile_isoformat (t : Timestamp) :
    String.ofList ((isoformat t).toList.takeWhile (· ≠ 'T')) =
      (Date.ofDays (t / 1000000 / 86400)).str := by
  have hdate (d : Date) (rest : String) :
      String.ofList ((d.str ++ ("T" ++ rest)).toList.takeWhile (· ≠ 'T')) = d.str := by
    have htoList : (d.str ++ ("T" ++ rest)).toList = d.str.toList ++ 'T' :: rest.toList := by
      rw [String.toList_append, String.toList_append]
      rfl
    rw [htoList, List.takeWhile_append_of_pos fun c hc => decide_eq_true (ne_of_mem_str hc),
      List.takeWhile_cons_of_neg (by simp), List.append_nil, String.ofList_toList]
  simp only [isoformat, String.append_assoc, hdate]

/-- The detail shows the date of the message. -/
theorem detailFor_of_message (message : String) (problem : Problem) :
    detailFor (.service (.domain .usernameChangedTooRecently message)) problem =
      "Your username can be changed again on " ++
        String.ofList ((carriedValue allowedAtMessage message).toList.takeWhile (· ≠ 'T')) ++
        "." := rfl

/-- The answer to a refused change of a username names the date from which it is possible. -/
theorem detailFor_usernameChangedTooRecently (allowedAt : Timestamp) (problem : Problem) :
    detailFor (.service (.domain .usernameChangedTooRecently
        (allowedAtMessage ++ isoformat allowedAt))) problem =
      "Your username can be changed again on " ++
        (Date.ofDays (allowedAt / 1000000 / 86400)).str ++ "." := by
  rw [detailFor_of_message, carriedValue_append, takeWhile_isoformat]

/-! ### Statuses -/

/-- Every exception of the domain is mapped to a client's error. -/
theorem ErrorClass.status_problem (cls : ErrorClass) :
    400 ≤ cls.problem.status ∧ cls.problem.status < 500 := by
  cases cls <;> decide

/-- The exceptions that have an answer of their own are a client's errors. -/
theorem status_of_answerTo {requestId : Option String} {e : ApiError} {answer : Answer}
    (h : answerTo requestId e = some answer) :
    400 ≤ answer.response.status ∧ answer.response.status < 500 := by
  unfold answerTo at h
  split at h
  · obtain rfl := Option.some.inj h
    show 400 ≤ (problemOfCode _).status ∧ (problemOfCode _).status < 500
    rw [problemOfCode]
    split <;> decide
  · obtain ⟨problem, hproblem, rfl⟩ := Option.map_eq_some_iff.mp h
    unfold problemFor at hproblem
    split at hproblem
    · obtain rfl := Option.some.inj hproblem
      exact ErrorClass.status_problem _
    · obtain rfl := Option.some.inj hproblem
      exact (by decide : 400 ≤ 404 ∧ 404 < 500)
    · cases hproblem

end OburBackend
