import Mathlib.Data.Rat.Defs
import OburBackend.Uuid
import OburBackend.Sql.Table

/-!
# The rows of the database

One structure for each model of `app/models`, with its columns, and `Db`, the tables they make up.
A column whose values a `CHECK` or the code itself limits to a few constants is an inductive type.
`visibility` and `role` stay text: the rule that reads them has a branch for every other text. A
text here is any, and the database takes none with U+0000: what a request does with one that comes
in is a matter of its own (`Model/Texts.lean`, `Prog.within`).

The primary key of a table is a function of its row, so that a `Sql.Table` of the rows cannot hold
two with the same key. The other constraints are checked by the statements (`Model/Tables.lean`).
-/

namespace OburBackend

/-- A moment, in microseconds since the start of 1970 in UTC. -/
abbrev Timestamp := ℕ

/-- A calendar date. -/
structure Date where
  year : ℕ
  month : ℕ
  day : ℕ
  deriving DecidableEq, Repr

namespace Date

/-- `d > d'`. -/
def after (d d' : Date) : Bool :=
  decide (d'.year < d.year) || d.year == d'.year &&
    (decide (d'.month < d.month) || d.month == d'.month && decide (d'.day < d.day))

/-- `n` in decimal with at least `k` digits. -/
def padded (k n : ℕ) : String :=
  let digits := toString n
  String.ofList (List.replicate (k - digits.length) '0') ++ digits

/-- `str(d)`: the ISO form. -/
def str (d : Date) : String := padded 4 d.year ++ "-" ++ padded 2 d.month ++ "-" ++ padded 2 d.day

/-- The date `n` days after 1970-01-01. Years are counted from March, so that a leap day is the last
day of its year, in eras of 400 years. -/
def ofDays (n : ℕ) : Date :=
  let era := (n + 719468) / 146097
  let dayOfEra := (n + 719468) % 146097
  let yearOfEra := (dayOfEra - dayOfEra / 1460 + dayOfEra / 36524 - dayOfEra / 146096) / 365
  let dayOfYear := dayOfEra - (365 * yearOfEra + yearOfEra / 4 - yearOfEra / 100)
  let fromMarch := (5 * dayOfYear + 2) / 153
  let month := if fromMarch < 10 then fromMarch + 3 else fromMarch - 9
  { year := yearOfEra + era * 400 + if month ≤ 2 then 1 else 0
    month
    day := dayOfYear - (153 * fromMarch + 2) / 5 + 1 }

example : ofDays 19782 = ⟨2024, 2, 29⟩ := by decide

end Date

/-- `timedelta(days=n)` -/
def days (n : ℕ) : ℕ := n * 86400000000

/-- `t.isoformat()`: the fraction of the second is left out when it is zero. -/
def isoformat (t : Timestamp) : String :=
  let seconds := t / 1000000
  let fraction := if t % 1000000 = 0 then "" else "." ++ Date.padded 6 (t % 1000000)
  (Date.ofDays (seconds / 86400)).str ++ "T" ++ Date.padded 2 (seconds / 3600 % 24) ++ ":" ++
    Date.padded 2 (seconds / 60 % 60) ++ ":" ++ Date.padded 2 (seconds % 60) ++ fraction ++ "+00:00"

/-! ## Constants -/

namespace UserRole

def user : String := "user"
def admin : String := "admin"

end UserRole

/-- `User.status`: where an account stands. -/
inductive UserStatus where
  | active
  | frozen
  | suspended
  deriving DecidableEq, Repr

/-- The stored text of a status. -/
def UserStatus.text : UserStatus → String
  | .active => "active"
  | .frozen => "frozen"
  | .suspended => "suspended"

namespace Visibility

def pub : String := "public"
def closeFriends : String := "close_friends"
def priv : String := "private"

/-- The values the `CHECK` constraints allow. -/
def allowed : List String := [pub, closeFriends, priv]

@[simp] theorem closeFriends_ne_pub : closeFriends ≠ pub := by decide
@[simp] theorem closeFriends_ne_priv : closeFriends ≠ priv := by decide
@[simp] theorem priv_ne_pub : priv ≠ pub := by decide
@[simp] theorem priv_ne_closeFriends : priv ≠ closeFriends := by decide

end Visibility

/-- `MIN_RATING`, `MAX_RATING` -/
def minRating : ℤ := 1
def maxRating : ℤ := 4

inductive VenueSaveType where
  | visited
  | wishlist
  | favorite
  deriving DecidableEq, Repr

inductive NotificationType where
  | newFollower
  | checkinLike
  | listLike
  deriving DecidableEq, Repr

inductive NotificationTargetType where
  | checkin
  | list
  | user
  deriving DecidableEq, Repr

inductive ContentReportTargetType where
  | checkin
  | user
  deriving DecidableEq, Repr

inductive ContentReportReason where
  | spam
  | harassment
  | hateSpeech
  | sensitiveContent
  | violence
  | fakeAccount
  | other
  deriving DecidableEq, Repr

inductive VenueReportReason where
  | wrongAddress
  | wrongName
  | permanentlyClosed
  | duplicate
  | other
  deriving DecidableEq, Repr

inductive ReportStatus where
  | pending
  | dismissed
  | actioned
  deriving DecidableEq, Repr

/-! ## Rows -/

/-- `users` -/
structure User where
  id : Uuid
  authProvider : String
  authProviderId : String
  displayName : String
  username : String
  usernameChangedAt : Option Timestamp
  email : Option String
  bio : Option String
  avatarUrl : Option String
  city : Option String
  countryCode : Option String
  locale : String
  timezone : Option String
  role : String
  status : UserStatus
  createdAt : Timestamp
  deriving DecidableEq, Repr

/-- `DEFAULT_LOCALE` -/
def defaultLocale : String := "tr"

/-- A new `users` row: the given columns, and the server's defaults for the rest. -/
def User.create (id : Uuid) (authProvider authProviderId username displayName : String)
    (now : Timestamp) : User where
  id := id
  authProvider := authProvider
  authProviderId := authProviderId
  displayName := displayName
  username := username
  usernameChangedAt := none
  email := none
  bio := none
  avatarUrl := none
  city := none
  countryCode := none
  locale := defaultLocale
  timezone := none
  role := UserRole.user
  status := .active
  createdAt := now

/-- `follows`: `followerId` follows `followingId`. -/
structure Follow where
  followerId : Uuid
  followingId : Uuid
  createdAt : Timestamp
  deriving DecidableEq, Repr

/-- `close_friends`: `userId` has added `friendId`, one of their followers. -/
structure CloseFriend where
  userId : Uuid
  friendId : Uuid
  createdAt : Timestamp
  deriving DecidableEq, Repr

/-- `blocks`: `blockerId` has blocked `blockedId`. -/
structure Block where
  blockerId : Uuid
  blockedId : Uuid
  createdAt : Timestamp
  deriving DecidableEq, Repr

/-- `mutes`: `userId` has muted `mutedId`. -/
structure Mute where
  userId : Uuid
  mutedId : Uuid
  createdAt : Timestamp
  deriving DecidableEq, Repr

/-- `venue_categories` -/
structure VenueCategory where
  id : Uuid
  slug : String
  parentId : Option Uuid
  deriving DecidableEq, Repr

/-- `venues`. The coordinates are rationals, which every stored float is. -/
structure Venue where
  id : Uuid
  name : String
  lat : ℚ
  lng : ℚ
  addressNote : Option String
  googlePlacesId : Option String
  addedBy : Option Uuid
  categoryId : Uuid
  city : Option String
  countryCode : Option String
  timezone : Option String
  district : Option String
  isVerified : Bool
  isActive : Bool
  isSuspended : Bool
  createdAt : Timestamp
  deriving DecidableEq

/-- `checkins` -/
structure Checkin where
  id : Uuid
  userId : Uuid
  venueId : Uuid
  ratingTaste : ℤ
  ratingService : ℤ
  ratingAmbiance : ℤ
  ratingValue : ℤ
  note : Option String
  photoUrl : Option String
  visibility : String
  visitedAt : Date
  visitedTz : String
  deletedAt : Option Timestamp
  createdAt : Timestamp
  deriving DecidableEq, Repr

/-- `lists`: the model `List` of the source. -/
structure VenueList where
  id : Uuid
  userId : Uuid
  title : String
  description : Option String
  visibility : String
  createdAt : Timestamp
  deriving DecidableEq, Repr

/-- `list_items` -/
structure ListItem where
  id : Uuid
  listId : Uuid
  venueId : Uuid
  position : String
  createdAt : Timestamp
  deriving DecidableEq, Repr

/-- `venue_saves` -/
structure VenueSave where
  id : Uuid
  userId : Uuid
  venueId : Uuid
  type : VenueSaveType
  visibility : String
  createdAt : Timestamp
  deriving DecidableEq, Repr

/-- A like or a bookmark of a user on a target: the rows of `checkin_likes`, `list_likes`,
`checkin_bookmarks` and `list_bookmarks` differ only in what the target is. -/
structure Mark where
  userId : Uuid
  targetId : Uuid
  createdAt : Timestamp
  deriving DecidableEq, Repr

abbrev CheckinLike := Mark
abbrev ListLike := Mark
abbrev CheckinBookmark := Mark
abbrev ListBookmark := Mark

/-- `notifications` -/
structure Notification where
  id : Uuid
  userId : Uuid
  type : NotificationType
  actorId : Option Uuid
  targetType : NotificationTargetType
  targetId : Uuid
  readAt : Option Timestamp
  createdAt : Timestamp
  deriving DecidableEq, Repr

/-- `content_reports` -/
structure ContentReport where
  id : Uuid
  reporterId : Option Uuid
  targetType : ContentReportTargetType
  targetId : Uuid
  reason : ContentReportReason
  details : Option String
  status : ReportStatus
  resolvedBy : Option Uuid
  resolvedAt : Option Timestamp
  createdAt : Timestamp
  deriving DecidableEq, Repr

/-- `venue_reports` -/
structure VenueReport where
  id : Uuid
  reporterId : Option Uuid
  venueId : Uuid
  reason : VenueReportReason
  details : Option String
  status : ReportStatus
  resolvedBy : Option Uuid
  resolvedAt : Option Timestamp
  createdAt : Timestamp
  deriving DecidableEq, Repr

/-! ## Primary keys of two columns -/

def Follow.key (r : Follow) : Uuid × Uuid := (r.followerId, r.followingId)
def CloseFriend.key (r : CloseFriend) : Uuid × Uuid := (r.userId, r.friendId)
def Block.key (r : Block) : Uuid × Uuid := (r.blockerId, r.blockedId)
def Mute.key (r : Mute) : Uuid × Uuid := (r.userId, r.mutedId)
def Mark.key (r : Mark) : Uuid × Uuid := (r.userId, r.targetId)

/-- The committed data, or the data as one statement sees it. -/
structure Db where
  users : Sql.Table User.id
  follows : Sql.Table Follow.key
  closeFriends : Sql.Table CloseFriend.key
  blocks : Sql.Table Block.key
  mutes : Sql.Table Mute.key
  venueCategories : Sql.Table VenueCategory.id
  venues : Sql.Table Venue.id
  checkins : Sql.Table Checkin.id
  lists : Sql.Table VenueList.id
  listItems : Sql.Table ListItem.id
  venueSaves : Sql.Table VenueSave.id
  checkinLikes : Sql.Table Mark.key
  listLikes : Sql.Table Mark.key
  checkinBookmarks : Sql.Table Mark.key
  listBookmarks : Sql.Table Mark.key
  notifications : Sql.Table Notification.id
  contentReports : Sql.Table ContentReport.id
  venueReports : Sql.Table VenueReport.id

/-- The database right after the migrations. -/
def Db.empty : Db :=
  ⟨.empty, .empty, .empty, .empty, .empty, .empty, .empty, .empty, .empty, .empty, .empty, .empty,
    .empty, .empty, .empty, .empty, .empty, .empty⟩

inductive TableName where
  | users
  | follows
  | closeFriends
  | blocks
  | mutes
  | venueCategories
  | venues
  | checkins
  | lists
  | listItems
  | venueSaves
  | checkinLikes
  | listLikes
  | checkinBookmarks
  | listBookmarks
  | notifications
  | contentReports
  | venueReports
  deriving DecidableEq, Repr

end OburBackend
