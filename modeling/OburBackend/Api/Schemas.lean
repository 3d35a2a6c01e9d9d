import OburBackend.Payload.Schemas
import OburBackend.Service.Venue
import OburBackend.Service.VenueCategory
import OburBackend.Service.Webhook

/-!
# The schemas of the routes (`app/schemas`)

The rest of the request schemas, and the response schemas. A response whose fields are all the
columns of a row is the row itself.
-/

namespace OburBackend

/-! ## Requests -/

/-- `DEFAULT_LIMIT`, `MAX_LIMIT` -/
def defaultLimit : ℕ := 20
def maxLimit : ℕ := 100

/-- The query parameters of a listing. -/
structure Pagination where
  limit : ℕ := defaultLimit
  offset : ℕ := 0
  limit_accepted : 1 ≤ limit ∧ limit ≤ maxLimit := by decide

/-- `ListCreateRequest` -/
structure ListCreateRequest where
  title : String
  description : Option String := none
  visibility : String := Visibility.pub
  title_accepted : 1 ≤ title.length ∧ title.length ≤ maxTitleLength := by decide
  description_accepted : ∀ text ∈ description, text.length ≤ maxDescriptionLength := by decide
  visibility_accepted : visibility ∈ Visibility.allowed := by decide

/-- `ListItemCreateRequest` -/
structure ListItemCreateRequest where
  venueId : Uuid
  afterItemId : Option Uuid := none

/-- `ListItemMoveRequest` -/
structure ListItemMoveRequest where
  afterItemId : Option Uuid := none

/-- `VenueCreateRequest` -/
structure VenueCreateRequest where
  name : String
  lat : ℚ
  lng : ℚ
  categoryId : Uuid
  district : String
  addressNote : Option String := none
  googlePlacesId : Option String := none
  city : Option String := none
  countryCode : Option String := none
  timezone : Option String := none
  confirmDuplicate : Bool := false
  name_accepted : 1 ≤ name.length ∧ name.length ≤ 255 := by decide
  lat_accepted : -90 ≤ lat ∧ lat ≤ 90
  lng_accepted : -180 ≤ lng ∧ lng ≤ 180
  district_accepted : 1 ≤ district.length ∧ district.length ≤ 255 := by decide
  countryCode_accepted : ∀ code ∈ countryCode, code.length = 2 := by decide

/-- The call of `create_venue` that the route makes with the payload. -/
def VenueCreateRequest.args (request : VenueCreateRequest) (addedBy : Uuid) : VenueCreate where
  name := request.name
  lat := request.lat
  lng := request.lng
  categoryId := request.categoryId
  addedBy
  district := request.district
  addressNote := request.addressNote
  googlePlacesId := request.googlePlacesId
  city := request.city
  countryCode := request.countryCode
  timezone := request.timezone
  confirmDuplicate := request.confirmDuplicate

/-- `VenueSaveCreateRequest` -/
structure VenueSaveCreateRequest where
  venueId : Uuid
  type : VenueSaveType
  visibility : String := Visibility.priv
  visibility_accepted : visibility ∈ Visibility.allowed := by decide

/-- `VenueSaveUpdateRequest` -/
structure VenueSaveUpdateRequest where
  visibility : Field String := none
  visibility_accepted : visibility.Within (· ∈ Visibility.allowed) := by decide

/-- `_MAX_DETAILS_LENGTH` -/
def maxDetailsLength : ℕ := 2000

/-- `_details_required_for_other`: a text of white space counts as none. -/
def detailsRequiredForOther (isOther : Bool) (details : Option String) : Bool :=
  !isOther || details.any fun text => stripName text ≠ ""

/-- `ContentReportCreateRequest` -/
structure ContentReportCreateRequest where
  reason : ContentReportReason
  details : Option String := none
  details_accepted : ∀ text ∈ details, text.length ≤ maxDetailsLength := by decide
  details_required : detailsRequiredForOther (decide (reason = .other)) details = true := by decide

/-- `VenueReportCreateRequest` -/
structure VenueReportCreateRequest where
  reason : VenueReportReason
  details : Option String := none
  details_accepted : ∀ text ∈ details, text.length ≤ maxDetailsLength := by decide
  details_required : detailsRequiredForOther (decide (reason = .other)) details = true := by decide

/-! ## Responses -/

/-- `UserResponse` -/
structure UserResponse where
  id : Uuid
  displayName : String
  username : String
  email : Option String
  bio : Option String
  avatarUrl : Option String
  city : Option String
  countryCode : Option String
  locale : String
  timezone : Option String
  role : String
  status : UserStatus
  createdAt : Timestamp
  deriving DecidableEq, Repr

/-- `UserResponse.model_validate` -/
def User.response (u : User) : UserResponse where
  id := u.id
  displayName := u.displayName
  username := u.username
  email := u.email
  bio := u.bio
  avatarUrl := u.avatarUrl
  city := u.city
  countryCode := u.countryCode
  locale := u.locale
  timezone := u.timezone
  role := u.role
  status := u.status
  createdAt := u.createdAt

/-- `UserSummaryResponse` -/
structure UserSummaryResponse where
  id : Uuid
  displayName : String
  username : String
  bio : Option String
  avatarUrl : Option String
  deriving DecidableEq, Repr

/-- `UserSummaryResponse.model_validate` -/
def User.summary (u : User) : UserSummaryResponse where
  id := u.id
  displayName := u.displayName
  username := u.username
  bio := u.bio
  avatarUrl := u.avatarUrl

/-- `CheckinResponse` -/
structure CheckinResponse where
  id : Uuid
  userId : Uuid
  venueId : Uuid
  ratingTaste : ℤ
  ratingService : ℤ
  ratingAmbiance : ℤ
  ratingValue : ℤ
  note : Option String
  photoUrl : Option String
  visibility : String
  visitedAt : Date
  visitedTz : String
  createdAt : Timestamp
  deriving DecidableEq, Repr

/-- `CheckinResponse.model_validate` -/
def Checkin.response (c : Checkin) : CheckinResponse where
  id := c.id
  userId := c.userId
  venueId := c.venueId
  ratingTaste := c.ratingTaste
  ratingService := c.ratingService
  ratingAmbiance := c.ratingAmbiance
  ratingValue := c.ratingValue
  note := c.note
  photoUrl := c.photoUrl
  visibility := c.visibility
  visitedAt := c.visitedAt
  visitedTz := c.visitedTz
  createdAt := c.createdAt

/-- `VenueResponse` -/
structure VenueResponse extends Venue where
  categoryName : Option String := none

/-- `NotificationResponse` -/
structure NotificationResponse where
  id : Uuid
  type : NotificationType
  actorId : Option Uuid
  targetType : NotificationTargetType
  targetId : Uuid
  readAt : Option Timestamp
  createdAt : Timestamp
  deriving DecidableEq, Repr

/-- `NotificationResponse.model_validate` -/
def Notification.response (n : Notification) : NotificationResponse where
  id := n.id
  type := n.type
  actorId := n.actorId
  targetType := n.targetType
  targetId := n.targetId
  readAt := n.readAt
  createdAt := n.createdAt

/-- `UnreadNotificationCountResponse` -/
structure UnreadNotificationCountResponse where
  unreadCount : ℕ
  deriving DecidableEq, Repr

/-- The body of a response that is not an error. -/
inductive Reply where
  | noContent
  | user (u : UserResponse)
  | summaries (us : List UserSummaryResponse)
  | checkin (c : CheckinResponse)
  | checkins (cs : List CheckinResponse)
  | list (l : VenueList)
  | lists (ls : List VenueList)
  | listItem (item : ListItem)
  | listItems (items : List ListItem)
  | venueSave (save : VenueSave)
  | venueSaves (saves : List VenueSave)
  | venue (v : VenueResponse)
  | venues (vs : List VenueResponse)
  | categories (nodes : List CategoryNode)
  | notifications (ns : List NotificationResponse)
  | unreadCount (count : UnreadNotificationCountResponse)
  | contentReport (r : ContentReport)
  | contentReports (rs : List ContentReport)
  | venueReport (r : VenueReport)
  | venueReports (rs : List VenueReport)
  | ack (response : WebhookAckResponse)

end OburBackend
