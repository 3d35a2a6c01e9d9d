import OburBackend.Model.Rls

/-!
# The tables as statements see them

For each table: where it lives in `Db`, the constraints of a new row (`CHECK`, unique and foreign
keys), what `ON DELETE CASCADE` and `ON DELETE SET NULL` take along with a deletion, its policies,
and the locks of its rows.
-/

namespace OburBackend

open Sql

/-- A lock a transaction holds: on a row, by its key, or on a value under a unique constraint. -/
inductive Lock where
  | row (table : TableName) (key : List Uuid)
  | unique (table : TableName) (ids : List Uuid) (texts : List String)
  deriving DecidableEq, Repr

/-- The label of a statement: its command, its table and the ids it is about. -/
structure Stmt where
  verb : Verb
  table : TableName
  params : List Uuid
  deriving DecidableEq, Repr

/-- A table of the schema. -/
abbrev DbTable {ρ π : Type} (key : ρ → π) := TableDef Db Lock Identity Stmt key

/-! ## Constraints -/

section Constraints

variable (db : Db)

/-- The foreign key to `users`. -/
def Db.hasUser (id : Uuid) : Bool := (db.users.get id).isSome

/-- The nullable foreign key to `users`. -/
def Db.hasUser? : Option Uuid → Bool
  | none => true
  | some id => db.hasUser id

def Db.hasCategory (id : Uuid) : Bool := (db.venueCategories.get id).isSome
def Db.hasVenue (id : Uuid) : Bool := (db.venues.get id).isSome
def Db.hasCheckin (id : Uuid) : Bool := (db.checkins.get id).isSome
def Db.hasList (id : Uuid) : Bool := (db.lists.get id).isSome

/-- No other row of `t` agrees with `r` on the values of a unique constraint. -/
def uniqueIn {ρ π β : Type} [DecidableEq π] [DecidableEq β] {key : ρ → π} (t : Table key)
    (value : ρ → Option β) (r : ρ) : Bool :=
  !t.any fun x => decide (key x ≠ key r) && (decide (value x = value r) && (value r).isSome)

/-- `ck_<table>_visibility_allowed` -/
def visibilityAllowed (visibility : String) : Bool := decide (visibility ∈ Visibility.allowed)

/-- `ck_checkins_<column>_range` -/
def ratingInRange (rating : ℤ) : Bool := decide (minRating ≤ rating ∧ rating ≤ maxRating)

/-- `ck_<table>_details_required_for_other` -/
def detailsGiven (isOther : Bool) (details : Option String) : Bool :=
  !isOther || details.any (· ≠ "")

def usersConstraints (u : User) : Bool :=
  uniqueIn db.users (fun x => some (x.authProvider, x.authProviderId)) u &&
    (uniqueIn db.users (fun x => some x.username) u && uniqueIn db.users User.email u)

def followsConstraints (r : Follow) : Bool :=
  decide (r.followerId ≠ r.followingId) && (db.hasUser r.followerId && db.hasUser r.followingId)

/-- The foreign key to `follows`: the friend follows the user. -/
def closeFriendsConstraints (r : CloseFriend) : Bool :=
  (db.follows.get (r.friendId, r.userId)).isSome

def blocksConstraints (r : Block) : Bool :=
  decide (r.blockerId ≠ r.blockedId) && (db.hasUser r.blockerId && db.hasUser r.blockedId)

def mutesConstraints (r : Mute) : Bool :=
  decide (r.userId ≠ r.mutedId) && (db.hasUser r.userId && db.hasUser r.mutedId)

def venueCategoriesConstraints (r : VenueCategory) : Bool :=
  uniqueIn db.venueCategories (fun x => some x.slug) r && r.parentId.all db.hasCategory

def venuesConstraints (v : Venue) : Bool :=
  db.hasUser? v.addedBy &&
    (db.hasCategory v.categoryId && uniqueIn db.venues Venue.googlePlacesId v)

def checkinsConstraints (c : Checkin) : Bool :=
  [c.ratingTaste, c.ratingService, c.ratingAmbiance, c.ratingValue].all ratingInRange &&
    (visibilityAllowed c.visibility && (db.hasUser c.userId && db.hasVenue c.venueId))

def listsConstraints (l : VenueList) : Bool :=
  visibilityAllowed l.visibility && db.hasUser l.userId

def listItemsConstraints (r : ListItem) : Bool :=
  uniqueIn db.listItems (fun x => some (x.listId, x.venueId)) r &&
    (db.hasList r.listId && db.hasVenue r.venueId)

def venueSavesConstraints (r : VenueSave) : Bool :=
  uniqueIn db.venueSaves (fun x => some (x.userId, x.venueId, x.type)) r &&
    (visibilityAllowed r.visibility && (db.hasUser r.userId && db.hasVenue r.venueId))

def checkinMarksConstraints (r : Mark) : Bool := db.hasUser r.userId && db.hasCheckin r.targetId
def listMarksConstraints (r : Mark) : Bool := db.hasUser r.userId && db.hasList r.targetId

def notificationsConstraints (r : Notification) : Bool :=
  db.hasUser r.userId && db.hasUser? r.actorId

/-- `UNIQUE (reporter_id, target_type, target_id)`, where a `NULL` reporter conflicts with
nobody. -/
def ContentReport.target (r : ContentReport) : Option (Uuid × ContentReportTargetType × Uuid) :=
  r.reporterId.map fun reporter => (reporter, r.targetType, r.targetId)

def contentReportsConstraints (r : ContentReport) : Bool :=
  uniqueIn db.contentReports ContentReport.target r &&
    (detailsGiven (decide (r.reason = .other)) r.details &&
      (db.hasUser? r.reporterId && db.hasUser? r.resolvedBy))

/-- `UNIQUE (reporter_id, venue_id)` -/
def VenueReport.target (r : VenueReport) : Option (Uuid × Uuid) :=
  r.reporterId.map fun reporter => (reporter, r.venueId)

def venueReportsConstraints (r : VenueReport) : Bool :=
  uniqueIn db.venueReports VenueReport.target r &&
    (detailsGiven (decide (r.reason = .other)) r.details &&
      (db.hasUser? r.reporterId && (db.hasUser? r.resolvedBy && db.hasVenue r.venueId)))

end Constraints

/-! ## Deletions and what they take along -/

/-- Delete follows; a `close_friends` row goes with the follow it rests on. -/
def eraseFollows (p : Follow → Bool) (db : Db) : Db :=
  { db with
    follows := db.follows.erase p
    closeFriends := db.closeFriends.erase fun r => (db.follows.get (r.friendId, r.userId)).any p }

/-- Delete check-ins, with their likes and bookmarks. -/
def eraseCheckins (p : Checkin → Bool) (db : Db) : Db :=
  { db with
    checkins := db.checkins.erase p
    checkinLikes := db.checkinLikes.erase fun r => (db.checkins.get r.targetId).any p
    checkinBookmarks := db.checkinBookmarks.erase fun r => (db.checkins.get r.targetId).any p }

/-- Delete lists, with their items, likes and bookmarks. -/
def eraseLists (p : VenueList → Bool) (db : Db) : Db :=
  { db with
    lists := db.lists.erase p
    listItems := db.listItems.erase fun r => (db.lists.get r.listId).any p
    listLikes := db.listLikes.erase fun r => (db.lists.get r.targetId).any p
    listBookmarks := db.listBookmarks.erase fun r => (db.lists.get r.targetId).any p }

/-- The user `id` is one of those that are deleted. -/
def Db.goes (db : Db) (p : User → Bool) (id : Uuid) : Bool := (db.users.get id).any p

/-- Delete users, with everything personal to them. A venue loses its attribution and a report its
reporter and its resolver, and both stay. -/
def eraseUsers (p : User → Bool) (db : Db) : Db :=
  let gone := db.goes p
  let db := eraseFollows (fun r => gone r.followerId || gone r.followingId) db
  let db := eraseCheckins (fun c => gone c.userId) db
  let db := eraseLists (fun l => gone l.userId) db
  { db with
    users := db.users.erase p
    blocks := db.blocks.erase fun r => gone r.blockerId || gone r.blockedId
    mutes := db.mutes.erase fun r => gone r.userId || gone r.mutedId
    venueSaves := db.venueSaves.erase fun r => gone r.userId
    checkinLikes := db.checkinLikes.erase fun r => gone r.userId
    listLikes := db.listLikes.erase fun r => gone r.userId
    checkinBookmarks := db.checkinBookmarks.erase fun r => gone r.userId
    listBookmarks := db.listBookmarks.erase fun r => gone r.userId
    notifications := db.notifications.erase fun r => gone r.userId || r.actorId.any gone
    venues := db.venues.modify (fun _ => true)
      (fun v => { v with addedBy := v.addedBy.filter (!gone ·) }) fun _ => rfl
    contentReports := db.contentReports.modify (fun _ => true)
      (fun r => { r with
        reporterId := r.reporterId.filter (!gone ·)
        resolvedBy := r.resolvedBy.filter (!gone ·) }) fun _ => rfl
    venueReports := db.venueReports.modify (fun _ => true)
      (fun r => { r with
        reporterId := r.reporterId.filter (!gone ·)
        resolvedBy := r.resolvedBy.filter (!gone ·) }) fun _ => rfl }

/-! ## The tables -/

/-- The lock of a row and the label of a statement on it, for a key of one id. -/
def rowLock (table : TableName) (id : Uuid) : Lock := .row table [id]
def rowStmt (table : TableName) (verb : Verb) (id : Uuid) : Stmt := ⟨verb, table, [id]⟩

/-- The same for a key of two ids. -/
def pairLock (table : TableName) (k : Uuid × Uuid) : Lock := .row table [k.1, k.2]
def pairStmt (table : TableName) (verb : Verb) (k : Uuid × Uuid) : Stmt := ⟨verb, table, [k.1, k.2]⟩

def users : DbTable User.id where
  read := Db.users
  write f db := { db with users := f db.users }
  erase := eraseUsers
  policy := usersPolicy
  constraints := usersConstraints
  lock := rowLock .users
  unique u :=
    [.unique .users [] ["auth", u.authProvider, u.authProviderId],
      .unique .users [] ["username", u.username]] ++
      (u.email.map fun e => Lock.unique .users [] ["email", e]).toList
  stmt := rowStmt .users

def follows : DbTable Follow.key where
  read := Db.follows
  write f db := { db with follows := f db.follows }
  erase := eraseFollows
  policy := followsPolicy
  constraints := followsConstraints
  lock := pairLock .follows
  stmt := pairStmt .follows

def closeFriends : DbTable CloseFriend.key where
  read := Db.closeFriends
  write f db := { db with closeFriends := f db.closeFriends }
  erase p db := { db with closeFriends := db.closeFriends.erase p }
  policy := closeFriendsPolicy
  constraints := closeFriendsConstraints
  lock := pairLock .closeFriends
  stmt := pairStmt .closeFriends

def blocks : DbTable Block.key where
  read := Db.blocks
  write f db := { db with blocks := f db.blocks }
  erase p db := { db with blocks := db.blocks.erase p }
  policy := blocksPolicy
  constraints := blocksConstraints
  lock := pairLock .blocks
  stmt := pairStmt .blocks

def mutes : DbTable Mute.key where
  read := Db.mutes
  write f db := { db with mutes := f db.mutes }
  erase p db := { db with mutes := db.mutes.erase p }
  policy := mutesPolicy
  constraints := mutesConstraints
  lock := pairLock .mutes
  stmt := pairStmt .mutes

def venueCategories : DbTable VenueCategory.id where
  read := Db.venueCategories
  write f db := { db with venueCategories := f db.venueCategories }
  erase p db := { db with venueCategories := db.venueCategories.erase p }
  referenced db r :=
    db.venueCategories.any (fun x => decide (x.parentId = some r.id)) ||
      db.venues.any fun v => decide (v.categoryId = r.id)
  policy _ _ := venueCategoriesPolicy
  constraints := venueCategoriesConstraints
  lock := rowLock .venueCategories
  unique r := [.unique .venueCategories [] [r.slug]]
  stmt := rowStmt .venueCategories

def venues : DbTable Venue.id where
  read := Db.venues
  write f db := { db with venues := f db.venues }
  erase p db := { db with venues := db.venues.erase p }
  referenced db v :=
    db.checkins.any (fun c => decide (c.venueId = v.id)) ||
      (db.listItems.any (fun r => decide (r.venueId = v.id)) ||
        (db.venueSaves.any (fun r => decide (r.venueId = v.id)) ||
          db.venueReports.any fun r => decide (r.venueId = v.id)))
  policy := venuesPolicy
  constraints := venuesConstraints
  lock := rowLock .venues
  unique v := (v.googlePlacesId.map fun g => Lock.unique .venues [] [g]).toList
  stmt := rowStmt .venues

def checkins : DbTable Checkin.id where
  read := Db.checkins
  write f db := { db with checkins := f db.checkins }
  erase := eraseCheckins
  policy := checkinsPolicy
  constraints := checkinsConstraints
  lock := rowLock .checkins
  stmt := rowStmt .checkins

def lists : DbTable VenueList.id where
  read := Db.lists
  write f db := { db with lists := f db.lists }
  erase := eraseLists
  policy := listsPolicy
  constraints := listsConstraints
  lock := rowLock .lists
  stmt := rowStmt .lists

def listItems : DbTable ListItem.id where
  read := Db.listItems
  write f db := { db with listItems := f db.listItems }
  erase p db := { db with listItems := db.listItems.erase p }
  policy := listItemsPolicy
  constraints := listItemsConstraints
  lock := rowLock .listItems
  unique r := [.unique .listItems [r.listId, r.venueId] []]
  stmt := rowStmt .listItems

def VenueSaveType.text : VenueSaveType → String
  | .visited => "visited"
  | .wishlist => "wishlist"
  | .favorite => "favorite"

def venueSaves : DbTable VenueSave.id where
  read := Db.venueSaves
  write f db := { db with venueSaves := f db.venueSaves }
  erase p db := { db with venueSaves := db.venueSaves.erase p }
  policy := venueSavesPolicy
  constraints := venueSavesConstraints
  lock := rowLock .venueSaves
  unique r := [.unique .venueSaves [r.userId, r.venueId] [r.type.text]]
  stmt := rowStmt .venueSaves

def checkinLikes : DbTable Mark.key where
  read := Db.checkinLikes
  write f db := { db with checkinLikes := f db.checkinLikes }
  erase p db := { db with checkinLikes := db.checkinLikes.erase p }
  policy := checkinLikesPolicy
  constraints := checkinMarksConstraints
  lock := pairLock .checkinLikes
  stmt := pairStmt .checkinLikes

def listLikes : DbTable Mark.key where
  read := Db.listLikes
  write f db := { db with listLikes := f db.listLikes }
  erase p db := { db with listLikes := db.listLikes.erase p }
  policy := listLikesPolicy
  constraints := listMarksConstraints
  lock := pairLock .listLikes
  stmt := pairStmt .listLikes

def checkinBookmarks : DbTable Mark.key where
  read := Db.checkinBookmarks
  write f db := { db with checkinBookmarks := f db.checkinBookmarks }
  erase p db := { db with checkinBookmarks := db.checkinBookmarks.erase p }
  policy := checkinBookmarksPolicy
  constraints := checkinMarksConstraints
  lock := pairLock .checkinBookmarks
  stmt := pairStmt .checkinBookmarks

def listBookmarks : DbTable Mark.key where
  read := Db.listBookmarks
  write f db := { db with listBookmarks := f db.listBookmarks }
  erase p db := { db with listBookmarks := db.listBookmarks.erase p }
  policy := listBookmarksPolicy
  constraints := listMarksConstraints
  lock := pairLock .listBookmarks
  stmt := pairStmt .listBookmarks

def notifications : DbTable Notification.id where
  read := Db.notifications
  write f db := { db with notifications := f db.notifications }
  erase p db := { db with notifications := db.notifications.erase p }
  policy := notificationsPolicy
  constraints := notificationsConstraints
  lock := rowLock .notifications
  stmt := rowStmt .notifications

def ContentReportTargetType.text : ContentReportTargetType → String
  | .checkin => "checkin"
  | .user => "user"

def contentReports : DbTable ContentReport.id where
  read := Db.contentReports
  write f db := { db with contentReports := f db.contentReports }
  erase p db := { db with contentReports := db.contentReports.erase p }
  policy := contentReportsPolicy
  constraints := contentReportsConstraints
  lock := rowLock .contentReports
  unique r :=
    (r.target.map fun t => Lock.unique .contentReports [t.1, t.2.2] [t.2.1.text]).toList
  stmt := rowStmt .contentReports

def venueReports : DbTable VenueReport.id where
  read := Db.venueReports
  write f db := { db with venueReports := f db.venueReports }
  erase p db := { db with venueReports := db.venueReports.erase p }
  policy := venueReportsPolicy
  constraints := venueReportsConstraints
  lock := rowLock .venueReports
  unique r := (r.target.map fun t => Lock.unique .venueReports [t.1, t.2] []).toList
  stmt := rowStmt .venueReports

/-! ## Where a statement on a table reads and writes -/

section Fields

variable (me : Identity) (db : Db)

@[simp] theorem users_read : users.read db = db.users := rfl
@[simp] theorem follows_read : follows.read db = db.follows := rfl
@[simp] theorem closeFriends_read : closeFriends.read db = db.closeFriends := rfl
@[simp] theorem blocks_read : blocks.read db = db.blocks := rfl
@[simp] theorem mutes_read : mutes.read db = db.mutes := rfl
@[simp] theorem venueCategories_read : venueCategories.read db = db.venueCategories := rfl
@[simp] theorem venues_read : venues.read db = db.venues := rfl
@[simp] theorem checkins_read : checkins.read db = db.checkins := rfl
@[simp] theorem lists_read : lists.read db = db.lists := rfl
@[simp] theorem listItems_read : listItems.read db = db.listItems := rfl
@[simp] theorem venueSaves_read : venueSaves.read db = db.venueSaves := rfl
@[simp] theorem checkinLikes_read : checkinLikes.read db = db.checkinLikes := rfl
@[simp] theorem listLikes_read : listLikes.read db = db.listLikes := rfl
@[simp] theorem checkinBookmarks_read : checkinBookmarks.read db = db.checkinBookmarks := rfl
@[simp] theorem listBookmarks_read : listBookmarks.read db = db.listBookmarks := rfl
@[simp] theorem notifications_read : notifications.read db = db.notifications := rfl
@[simp] theorem contentReports_read : contentReports.read db = db.contentReports := rfl
@[simp] theorem venueReports_read : venueReports.read db = db.venueReports := rfl

@[simp] theorem users_policy : users.policy me db = usersPolicy me db := rfl
@[simp] theorem follows_policy : follows.policy me db = followsPolicy me db := rfl
@[simp] theorem closeFriends_policy : closeFriends.policy me db = closeFriendsPolicy me db := rfl
@[simp] theorem blocks_policy : blocks.policy me db = blocksPolicy me db := rfl
@[simp] theorem mutes_policy : mutes.policy me db = mutesPolicy me db := rfl
@[simp] theorem venueCategories_policy :
    venueCategories.policy me db = venueCategoriesPolicy := rfl
@[simp] theorem venues_policy : venues.policy me db = venuesPolicy me db := rfl
@[simp] theorem checkins_policy : checkins.policy me db = checkinsPolicy me db := rfl
@[simp] theorem lists_policy : lists.policy me db = listsPolicy me db := rfl
@[simp] theorem listItems_policy : listItems.policy me db = listItemsPolicy me db := rfl
@[simp] theorem venueSaves_policy : venueSaves.policy me db = venueSavesPolicy me db := rfl
@[simp] theorem checkinLikes_policy : checkinLikes.policy me db = checkinLikesPolicy me db := rfl
@[simp] theorem listLikes_policy : listLikes.policy me db = listLikesPolicy me db := rfl
@[simp] theorem checkinBookmarks_policy :
    checkinBookmarks.policy me db = checkinBookmarksPolicy me db := rfl
@[simp] theorem listBookmarks_policy : listBookmarks.policy me db = listBookmarksPolicy me db := rfl
@[simp] theorem notifications_policy : notifications.policy me db = notificationsPolicy me db := rfl
@[simp] theorem contentReports_policy :
    contentReports.policy me db = contentReportsPolicy me db := rfl
@[simp] theorem venueReports_policy : venueReports.policy me db = venueReportsPolicy me db := rfl

end Fields

end OburBackend
