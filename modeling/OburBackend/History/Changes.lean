import OburBackend.Api.Endpoints

/-!
# What the application writes

`Change` lists the writes that the routes send, table by table: which rows they add, what they set
of a stored row, and whether they delete. `New` is the set of ids that `uuid.uuid4()` may hand out,
so that a row with another id is one that was there before. `History/Services.lean` shows that every
service writes nothing else; what the requests keep over whole runs is then a matter of `Change`
alone.
-/

namespace OburBackend

open Sql

/-- The ids of the request's new rows are among those that `New` allows. -/
def Ctx.Draws (c : Ctx) (New : Uuid → Prop) : Prop := ∀ n, New (c.uuid4 n)

/-- So are they after signing in has drawn the first one. -/
theorem Ctx.Draws.resolved {c : Ctx} {New : Uuid → Prop} (h : c.Draws New) :
    c.resolved.Draws New := fun n => h (n + 1)

/-! ## Edits

What a statement may do to a stored row. -/

/-- The same account: who it belongs to and its role. -/
structure User.SameAccount (u u' : User) : Prop where
  id : u'.id = u.id
  authProvider : u'.authProvider = u.authProvider
  authProviderId : u'.authProviderId = u.authProviderId
  role : u'.role = u.role

/-- The same venue, except that it may have lost its attribution, and may have become verified,
closed or suspended. -/
structure Venue.Moderated (v v' : Venue) : Prop where
  rest : v' = { v with
    addedBy := v'.addedBy
    isVerified := v'.isVerified
    isActive := v'.isActive
    isSuspended := v'.isSuspended }
  addedBy : v'.addedBy = v.addedBy ∨ v'.addedBy = none
  isVerified : v.isVerified = true → v'.isVerified = true
  isActive : v'.isActive = true → v.isActive = true
  isSuspended : v.isSuspended = true → v'.isSuspended = true

/-- The same visit of the same user, which stays deleted once it is. -/
structure Checkin.SameVisit (c c' : Checkin) : Prop where
  id : c'.id = c.id
  userId : c'.userId = c.userId
  venueId : c'.venueId = c.venueId
  visitedTz : c'.visitedTz = c.visitedTz
  createdAt : c'.createdAt = c.createdAt
  deletedAt : c.deletedAt.isSome = true → c'.deletedAt.isSome = true

/-- The same list of the same user. -/
structure VenueList.SameList (l l' : VenueList) : Prop where
  id : l'.id = l.id
  userId : l'.userId = l.userId
  createdAt : l'.createdAt = l.createdAt

/-- The same venue on the same list. -/
structure ListItem.SameEntry (r r' : ListItem) : Prop where
  id : r'.id = r.id
  listId : r'.listId = r.listId
  venueId : r'.venueId = r.venueId
  createdAt : r'.createdAt = r.createdAt

/-- The same save of the same user. -/
structure VenueSave.SameSave (r r' : VenueSave) : Prop where
  id : r'.id = r.id
  userId : r'.userId = r.userId
  venueId : r'.venueId = r.venueId
  type : r'.type = r.type
  createdAt : r'.createdAt = r.createdAt

/-- The same notification, which stays read once it is. -/
structure Notification.MoreRead (n n' : Notification) : Prop where
  rest : n' = { n with readAt := n'.readAt }
  readAt : n.readAt.isSome = true → n'.readAt.isSome = true

/-- A resolution that is not undone: the report does not become pending again. -/
structure Resolution.Later (x x' : Resolution) : Prop where
  status : x.status ≠ .pending → x'.status ≠ .pending
  resolvedAt : x.resolvedAt.isSome = true → x'.resolvedAt.isSome = true

/-- The same report, which may have lost its reporter, with a later resolution. -/
structure ContentReport.Kept (r r' : ContentReport) : Prop where
  rest : r' = { r with
    reporterId := r'.reporterId
    status := r'.status
    resolvedBy := r'.resolvedBy
    resolvedAt := r'.resolvedAt }
  reporterId : r'.reporterId = r.reporterId ∨ r'.reporterId = none
  resolution : r.resolution.Later r'.resolution

structure VenueReport.Kept (r r' : VenueReport) : Prop where
  rest : r' = { r with
    reporterId := r'.reporterId
    status := r'.status
    resolvedBy := r'.resolvedBy
    resolvedAt := r'.resolvedAt }
  reporterId : r'.reporterId = r.reporterId ∨ r'.reporterId = none
  resolution : r.resolution.Later r'.resolution

/-- The columns that a resolution sends are never those of a pending report. -/
theorem Resolution.later_merge {loaded new : Resolution} (hstatus : new.status ≠ .pending)
    (hat : new.resolvedAt.isSome = true) (stored : Resolution) :
    stored.Later (loaded.merge new stored) where
  status h := by
    simp only [merge]
    split
    · exact h
    · exact hstatus
  resolvedAt h := by
    simp only [merge]
    split
    · exact h
    · exact hat

/-! ## The rules of the tables -/

section Rules

variable (New : Uuid → Prop)

def userRules : ChangeRules User where
  add u := New u.id ∧ u.role = UserRole.user
  edit := User.SameAccount
  delete := True

/-- Rows that are added and deleted, and never changed. -/
def relationRules {ρ : Type} : ChangeRules ρ where
  add _ := True
  edit _ _ := False
  delete := True

def venueRules : ChangeRules Venue where
  add v := New v.id ∧ v.isVerified = false ∧ v.isActive = true ∧ v.isSuspended = false
  edit := Venue.Moderated
  delete := False

def checkinRules : ChangeRules Checkin where
  add c := New c.id ∧ c.deletedAt = none
  edit := Checkin.SameVisit
  delete := True

def listRules : ChangeRules VenueList where
  add l := New l.id
  edit := VenueList.SameList
  delete := True

def listItemRules : ChangeRules ListItem where
  add r := New r.id
  edit := ListItem.SameEntry
  delete := True

def venueSaveRules : ChangeRules VenueSave where
  add r := New r.id
  edit := VenueSave.SameSave
  delete := True

def notificationRules : ChangeRules Notification where
  add n := New n.id ∧ n.readAt = none
  edit := Notification.MoreRead
  delete := False

def contentReportRules : ChangeRules ContentReport where
  add r := New r.id ∧ r.resolution = .pending
  edit := ContentReport.Kept
  delete := False

def venueReportRules : ChangeRules VenueReport where
  add r := New r.id ∧ r.resolution = .pending
  edit := VenueReport.Kept
  delete := False

/-- The writes of the application, by a session with the identity `me` on the data `db`. -/
inductive Change (me : Identity) (db : Db) (wr : Write Db Lock) : Prop where
  | users (h : users.Changes (userRules New) me db wr)
  | follows (h : follows.Changes relationRules me db wr)
  | closeFriends (h : closeFriends.Changes relationRules me db wr)
  | blocks (h : blocks.Changes relationRules me db wr)
  | mutes (h : mutes.Changes relationRules me db wr)
  | venues (h : venues.Changes (venueRules New) me db wr)
  /-- `rls_verify_venue_if_eligible` -/
  | verify {venueId : Uuid} {minCheckins : ℕ}
      (h : wr.effect = setVerified ((db.venues.select
        (eligible db venueId minCheckins)).map Venue.id))
  | checkins (h : checkins.Changes (checkinRules New) me db wr)
  | lists (h : lists.Changes (listRules New) me db wr)
  | listItems (h : listItems.Changes (listItemRules New) me db wr)
  | venueSaves (h : venueSaves.Changes (venueSaveRules New) me db wr)
  | checkinLikes (h : checkinLikes.Changes relationRules me db wr)
  | listLikes (h : listLikes.Changes relationRules me db wr)
  | checkinBookmarks (h : checkinBookmarks.Changes relationRules me db wr)
  | listBookmarks (h : listBookmarks.Changes relationRules me db wr)
  | notifications (h : notifications.Changes (notificationRules New) me db wr)
  | contentReports (h : contentReports.Changes (contentReportRules New) me db wr)
  | venueReports (h : venueReports.Changes (venueReportRules New) me db wr)
  /-- The statements of `rls_purge_interactions_between` -/
  | purgeCheckinLikes {p : Mark → Bool} (h : wr = checkinLikes.definerDeleteWrite db p)
  | purgeListLikes {p : Mark → Bool} (h : wr = listLikes.definerDeleteWrite db p)
  | purgeCheckinBookmarks {p : Mark → Bool} (h : wr = checkinBookmarks.definerDeleteWrite db p)
  | purgeListBookmarks {p : Mark → Bool} (h : wr = listBookmarks.definerDeleteWrite db p)
  | purgeNotifications {p : Notification → Bool} (h : wr = notifications.definerDeleteWrite db p)
  /-- An `UPDATE` that matches nothing. -/
  | nothing (h : wr.effect = id)

end Rules

end OburBackend
