import OburBackend.Sql.Evolution
import OburBackend.History.Requests
import OburBackend.Account.Deletion

/-!
# What requests can never undo

`Past New db db'` says what the data `db'` still shows of the data `db` from which some requests
started: accounts keep their identity and their role, venues and reports stay, and no check-in is
undeleted, no notification unread, no report unresolved. Every allowed write keeps it
(`Past.write`), so it holds after any interleaving of any requests (`past_of_exec`).
-/

namespace OburBackend

open Sql

/-! ## The edits compose -/

section Edits

/-- An account is the same as itself. -/
@[refl] theorem User.SameAccount.refl (u : User) : u.SameAccount u := ⟨rfl, rfl, rfl, rfl⟩

/-- A venue that nobody moderates keeps its flags. -/
@[refl] theorem Venue.Moderated.refl (v : Venue) : v.Moderated v :=
  ⟨rfl, .inl rfl, fun h => h, fun h => h, fun h => h⟩

/-- A check-in is the same visit as itself. -/
@[refl] theorem Checkin.SameVisit.refl (c : Checkin) : c.SameVisit c :=
  ⟨rfl, rfl, rfl, rfl, rfl, fun h => h⟩

/-- A list is the same list as itself. -/
@[refl] theorem VenueList.SameList.refl (l : VenueList) : l.SameList l := ⟨rfl, rfl, rfl⟩

/-- An item is the same entry as itself. -/
@[refl] theorem ListItem.SameEntry.refl (r : ListItem) : r.SameEntry r := ⟨rfl, rfl, rfl, rfl⟩

/-- A save is the same save as itself. -/
@[refl] theorem VenueSave.SameSave.refl (r : VenueSave) : r.SameSave r :=
  ⟨rfl, rfl, rfl, rfl, rfl⟩

/-- A notification that nobody reads is not less read. -/
@[refl] theorem Notification.MoreRead.refl (n : Notification) : n.MoreRead n :=
  ⟨rfl, fun h => h⟩

/-- Reading a notification keeps its id. -/
theorem Notification.MoreRead.id {n n' : Notification} (h : n.MoreRead n') : n'.id = n.id := by
  rw [h.rest]

/-- A report that nobody resolves is kept. -/
@[refl] theorem ContentReport.Kept.refl (r : ContentReport) : r.Kept r :=
  ⟨rfl, .inl rfl, ⟨fun h => h, fun h => h⟩⟩

/-- So is a report on a venue. -/
@[refl] theorem VenueReport.Kept.refl (r : VenueReport) : r.Kept r :=
  ⟨rfl, .inl rfl, ⟨fun h => h, fun h => h⟩⟩

/-- Two edits of an account leave it the same. -/
theorem User.SameAccount.trans {u v w : User} (h : u.SameAccount v) (h' : v.SameAccount w) :
    u.SameAccount w :=
  ⟨h'.id.trans h.id, h'.authProvider.trans h.authProvider,
    h'.authProviderId.trans h.authProviderId, h'.role.trans h.role⟩

/-- A flag that one moderation sets the next one does not clear. -/
theorem Venue.Moderated.trans {u v w : Venue} (h : u.Moderated v) (h' : v.Moderated w) :
    u.Moderated w where
  rest := by
    rw [h'.rest, h.rest]
  addedBy := by
    rcases h'.addedBy with h' | h'
    · rw [h']
      exact h.addedBy
    · exact .inr h'
  isVerified hu := h'.isVerified (h.isVerified hu)
  isActive hw := h.isActive (h'.isActive hw)
  isSuspended hu := h'.isSuspended (h.isSuspended hu)

/-- Two edits of a check-in leave its user and venue, and what is deleted stays deleted. -/
theorem Checkin.SameVisit.trans {u v w : Checkin} (h : u.SameVisit v) (h' : v.SameVisit w) :
    u.SameVisit w :=
  ⟨h'.id.trans h.id, h'.userId.trans h.userId, h'.venueId.trans h.venueId,
    h'.visitedTz.trans h.visitedTz, h'.createdAt.trans h.createdAt,
    fun hu => h'.deletedAt (h.deletedAt hu)⟩

/-- Two edits of a list leave its owner. -/
theorem VenueList.SameList.trans {u v w : VenueList} (h : u.SameList v) (h' : v.SameList w) :
    u.SameList w :=
  ⟨h'.id.trans h.id, h'.userId.trans h.userId, h'.createdAt.trans h.createdAt⟩

/-- Two moves of an item leave its list and its venue. -/
theorem ListItem.SameEntry.trans {u v w : ListItem} (h : u.SameEntry v) (h' : v.SameEntry w) :
    u.SameEntry w :=
  ⟨h'.id.trans h.id, h'.listId.trans h.listId, h'.venueId.trans h.venueId,
    h'.createdAt.trans h.createdAt⟩

/-- Two edits of a save leave its user and its venue. -/
theorem VenueSave.SameSave.trans {u v w : VenueSave} (h : u.SameSave v) (h' : v.SameSave w) :
    u.SameSave w :=
  ⟨h'.id.trans h.id, h'.userId.trans h.userId, h'.venueId.trans h.venueId, h'.type.trans h.type,
    h'.createdAt.trans h.createdAt⟩

/-- What has been read stays read. -/
theorem Notification.MoreRead.trans {u v w : Notification} (h : u.MoreRead v)
    (h' : v.MoreRead w) : u.MoreRead w where
  rest := by
    rw [h'.rest, h.rest]
  readAt hu := h'.readAt (h.readAt hu)

/-- What has been resolved stays resolved. -/
theorem Resolution.Later.trans {u v w : Resolution} (h : u.Later v) (h' : v.Later w) :
    u.Later w := ⟨fun hu => h'.status (h.status hu), fun hu => h'.resolvedAt (h.resolvedAt hu)⟩

/-- Two steps keep a report's content and its resolution. -/
theorem ContentReport.Kept.trans {u v w : ContentReport} (h : u.Kept v) (h' : v.Kept w) :
    u.Kept w where
  rest := by
    rw [h'.rest, h.rest]
  reporterId := by
    rcases h'.reporterId with h' | h'
    · rw [h']
      exact h.reporterId
    · exact .inr h'
  resolution := h.resolution.trans h'.resolution

/-- And those of a report on a venue. -/
theorem VenueReport.Kept.trans {u v w : VenueReport} (h : u.Kept v) (h' : v.Kept w) :
    u.Kept w where
  rest := by
    rw [h'.rest, h.rest]
  reporterId := by
    rcases h'.reporterId with h' | h'
    · rw [h']
      exact h.reporterId
    · exact .inr h'
  resolution := h.resolution.trans h'.resolution

end Edits

/-! ## The relation -/

/-- What the data shows of the data `db` from which the requests have started. -/
structure Past (New : Uuid → Prop) (db db' : Db) : Prop where
  users : (userRules New).Evolves db.users db'.users
  venueCategories : db'.venueCategories = db.venueCategories
  venues : (venueRules New).Evolves db.venues db'.venues
  venuesStay : (venueRules New).Persists db.venues db'.venues
  checkins : (checkinRules New).Evolves db.checkins db'.checkins
  lists : (listRules New).Evolves db.lists db'.lists
  listItems : (listItemRules New).Evolves db.listItems db'.listItems
  venueSaves : (venueSaveRules New).Evolves db.venueSaves db'.venueSaves
  notifications : (notificationRules New).Evolves db.notifications db'.notifications
  contentReports : (contentReportRules New).Evolves db.contentReports db'.contentReports
  contentReportsStay : (contentReportRules New).Persists db.contentReports db'.contentReports
  venueReports : (venueReportRules New).Evolves db.venueReports db'.venueReports
  venueReportsStay : (venueReportRules New).Persists db.venueReports db'.venueReports

section Past

variable {New : Uuid → Prop} {db db' db'' : Db} {me : Identity} {wr : Write Db Lock}

/-- The data show all of themselves. -/
theorem Past.refl (db : Db) : Past New db db where
  users := .refl _
  venueCategories := rfl
  venues := .refl _
  venuesStay := .refl _
  checkins := .refl _
  lists := .refl _
  listItems := .refl _
  venueSaves := .refl _
  notifications := .refl _
  contentReports := .refl _
  contentReportsStay := .refl _
  venueReports := .refl _
  venueReportsStay := .refl _

/-- What two stretches of a run keep, they keep together. -/
theorem Past.trans (h : Past New db db') (h' : Past New db' db'') : Past New db db'' where
  users := h.users.trans User.SameAccount.trans h'.users
  venueCategories := h'.venueCategories.trans h.venueCategories
  venues := h.venues.trans Venue.Moderated.trans h'.venues
  venuesStay := h.venuesStay.trans Venue.Moderated.trans h'.venuesStay
  checkins := h.checkins.trans Checkin.SameVisit.trans h'.checkins
  lists := h.lists.trans VenueList.SameList.trans h'.lists
  listItems := h.listItems.trans ListItem.SameEntry.trans h'.listItems
  venueSaves := h.venueSaves.trans VenueSave.SameSave.trans h'.venueSaves
  notifications := h.notifications.trans Notification.MoreRead.trans h'.notifications
  contentReports := h.contentReports.trans ContentReport.Kept.trans h'.contentReports
  contentReportsStay := h.contentReportsStay.trans ContentReport.Kept.trans h'.contentReportsStay
  venueReports := h.venueReports.trans VenueReport.Kept.trans h'.venueReports
  venueReportsStay := h.venueReportsStay.trans VenueReport.Kept.trans h'.venueReportsStay

/-! ### One write -/

/-- `ON DELETE SET NULL` leaves a reference or clears it. -/
theorem filter_eq_self_or_none (reference : Option Uuid) (p : Uuid → Bool) :
    reference.filter p = reference ∨ reference.filter p = none := by
  cases reference with
  | none => exact .inl rfl
  | some id =>
    cases h : p id with
    | true => exact .inl (by simp [h])
    | false => exact .inr (by simp [h])

/-- A venue outlives the account that added it. -/
theorem Venue.moderated_without (v : Venue) (p : Uuid → Bool) :
    v.Moderated { v with addedBy := v.addedBy.filter p } where
  rest := rfl
  addedBy := filter_eq_self_or_none _ p
  isVerified h := h
  isActive h := h
  isSuspended h := h

/-- A report outlives the account that made it. -/
theorem ContentReport.kept_without (r : ContentReport) (p : Uuid → Bool) :
    r.Kept { r with
      reporterId := r.reporterId.filter p
      resolvedBy := r.resolvedBy.filter p } where
  rest := rfl
  reporterId := filter_eq_self_or_none _ p
  resolution := ⟨fun h => h, fun h => h⟩

/-- So does a report on a venue. -/
theorem VenueReport.kept_without (r : VenueReport) (p : Uuid → Bool) :
    r.Kept { r with
      reporterId := r.reporterId.filter p
      resolvedBy := r.resolvedBy.filter p } where
  rest := rfl
  reporterId := filter_eq_self_or_none _ p
  resolution := ⟨fun h => h, fun h => h⟩

/-- What a deletion of users leaves of the past. -/
theorem past_eraseUsers (p : User → Bool) (db : Db) : Past New db (eraseUsers p db) where
  users := .of_subset fun _ hx => (Table.mem_erase.mp hx).1
  venueCategories := rfl
  venues := ChangeRules.evolves_modify (by exact fun _ => rfl) fun v =>
    .inr (Venue.moderated_without v _)
  venuesStay := ChangeRules.persists_modify (by exact fun _ => rfl) fun v =>
    .inr (Venue.moderated_without v _)
  checkins := .of_subset fun _ hx => (Table.mem_erase.mp hx).1
  lists := .of_subset fun _ hx => (Table.mem_erase.mp hx).1
  listItems := .of_subset fun _ hx => (Table.mem_erase.mp hx).1
  venueSaves := .of_subset fun _ hx => (Table.mem_erase.mp hx).1
  notifications := .of_subset fun _ hx => (Table.mem_erase.mp hx).1
  contentReports := ChangeRules.evolves_modify (by exact fun _ => rfl) fun r =>
    .inr (ContentReport.kept_without r _)
  contentReportsStay := ChangeRules.persists_modify (by exact fun _ => rfl) fun r =>
    .inr (ContentReport.kept_without r _)
  venueReports := ChangeRules.evolves_modify (by exact fun _ => rfl) fun r =>
    .inr (VenueReport.kept_without r _)
  venueReportsStay := ChangeRules.persists_modify (by exact fun _ => rfl) fun r =>
    .inr (VenueReport.kept_without r _)

/-- Adding, editing or deleting accounts keeps the past of all tables, the cascades included. -/
theorem past_users (h : users.Changes (userRules New) me db' wr) (t : Db) :
    Past New t (wr.effect t) := by
  have hrows := h.evolves ⟨fun _ _ => rfl, fun _ _ => rfl⟩ t
  rcases h.effect with ⟨g, hg⟩ | ⟨p, hp⟩
  · rw [hg] at hrows ⊢
    exact { Past.refl t with users := hrows }
  · rw [hp]
    exact past_eraseUsers p t

/-- So does adding or editing venues. -/
theorem past_venues (h : venues.Changes (venueRules New) me db' wr) (t : Db) :
    Past New t (wr.effect t) := by
  have hrows := h.evolves ⟨fun _ _ => rfl, fun _ _ => rfl⟩ t
  have hstay := h.persists ⟨fun _ _ => rfl, fun _ _ => rfl⟩ id t
  obtain ⟨g, hg⟩ := h.effect_write fun _ => rfl
  rw [hg] at hrows hstay ⊢
  exact { Past.refl t with venues := hrows, venuesStay := hstay }

/-- `rls_verify_venue_if_eligible` sets a flag and clears none. -/
theorem past_setVerified (ids : List Uuid) (t : Db) : Past New t (setVerified ids t) := by
  have hverified (v : Venue) : v.Moderated { v with isVerified := true } :=
    ⟨rfl, .inl rfl, fun _ => rfl, fun h => h, fun h => h⟩
  exact { Past.refl t with
    venues := ChangeRules.evolves_modify (by exact fun _ => rfl) fun v => .inr (hverified v)
    venuesStay := ChangeRules.persists_modify (by exact fun _ => rfl) fun v => .inr (hverified v) }

/-- So does adding, editing or deleting lists. -/
theorem past_lists (h : lists.Changes (listRules New) me db' wr) (t : Db) :
    Past New t (wr.effect t) := by
  have hrows := h.evolves ⟨fun _ _ => rfl, fun _ _ => rfl⟩ t
  rcases h.effect with ⟨g, hg⟩ | ⟨p, hp⟩
  · rw [hg] at hrows ⊢
    exact { Past.refl t with lists := hrows }
  · rw [hp] at hrows ⊢
    exact { Past.refl t with
      lists := hrows
      listItems := .of_subset fun _ hx => (Table.mem_erase.mp hx).1 }

/-- Every write of the application keeps the past. -/
theorem past_change (h : Change New me db' wr) (t : Db) : Past New t (wr.effect t) := by
  cases h with
  | users h => exact past_users h t
  | venues h => exact past_venues h t
  | verify h =>
    rw [h]
    exact past_setVerified _ t
  | lists h => exact past_lists h t
  | follows h =>
    rcases h.effect with ⟨g, hg⟩ | ⟨p, hp⟩
    · rw [hg]
      exact { Past.refl t with }
    · rw [hp]
      exact { Past.refl t with }
  | closeFriends h | blocks h | mutes h | checkinLikes h | listLikes h | checkinBookmarks h
  | listBookmarks h =>
    -- The past says nothing of these tables.
    obtain ⟨g, hg⟩ := h.effect_write fun _ => rfl
    rw [hg]
    exact { Past.refl t with }
  | purgeCheckinLikes h | purgeListLikes h | purgeCheckinBookmarks h | purgeListBookmarks h =>
    rw [h]
    exact { Past.refl t with }
  | checkins h =>
    have hrows := h.evolves ⟨fun _ _ => rfl, fun _ _ => rfl⟩ t
    rcases h.effect with ⟨g, hg⟩ | ⟨p, hp⟩
    · rw [hg] at hrows ⊢
      exact { Past.refl t with checkins := hrows }
    · rw [hp] at hrows ⊢
      exact { Past.refl t with checkins := hrows }
  | listItems h =>
    have hrows := h.evolves ⟨fun _ _ => rfl, fun _ _ => rfl⟩ t
    obtain ⟨g, hg⟩ := h.effect_write fun _ => rfl
    rw [hg] at hrows ⊢
    exact { Past.refl t with listItems := hrows }
  | venueSaves h =>
    have hrows := h.evolves ⟨fun _ _ => rfl, fun _ _ => rfl⟩ t
    obtain ⟨g, hg⟩ := h.effect_write fun _ => rfl
    rw [hg] at hrows ⊢
    exact { Past.refl t with venueSaves := hrows }
  | notifications h =>
    have hrows := h.evolves ⟨fun _ _ => rfl, fun _ _ => rfl⟩ t
    obtain ⟨g, hg⟩ := h.effect_write fun _ => rfl
    rw [hg] at hrows ⊢
    exact { Past.refl t with notifications := hrows }
  | purgeNotifications h =>
    rw [h]
    exact { Past.refl t with
      notifications := .of_subset fun _ hx => (Table.mem_erase.mp hx).1 }
  | contentReports h =>
    have hrows := h.evolves ⟨fun _ _ => rfl, fun _ _ => rfl⟩ t
    have hstay := h.persists ⟨fun _ _ => rfl, fun _ _ => rfl⟩ id t
    obtain ⟨g, hg⟩ := h.effect_write fun _ => rfl
    rw [hg] at hrows hstay ⊢
    exact { Past.refl t with contentReports := hrows, contentReportsStay := hstay }
  | venueReports h =>
    have hrows := h.evolves ⟨fun _ _ => rfl, fun _ _ => rfl⟩ t
    have hstay := h.persists ⟨fun _ _ => rfl, fun _ _ => rfl⟩ id t
    obtain ⟨g, hg⟩ := h.effect_write fun _ => rfl
    rw [hg] at hrows hstay ⊢
    exact { Past.refl t with venueReports := hrows, venueReportsStay := hstay }
  | nothing h =>
    rw [h]
    exact .refl t

end Past

/-! ## Whole runs -/

/-- Requests that run side by side, each on a connection of its own. -/
abbrev Requests (ι : Type) := World ι Db Lock Identity Stmt ApiError Reply

/-- The requests before the first statement. -/
def requests {ι : Type} [DecidableEq ι] (b : Backend) (db : Db) (calls : ι → Call) : Requests ι :=
  World.start db fun i => Session.start none (handle b (calls i))

/-- No stored row has this id. -/
structure Db.Unused (db : Db) (id : Uuid) : Prop where
  users : db.users.get id = none
  venues : db.venues.get id = none
  checkins : db.checkins.get id = none
  lists : db.lists.get id = none
  listItems : db.listItems.get id = none
  venueSaves : db.venueSaves.get id = none
  notifications : db.notifications.get id = none

section Runs

variable {ι : Type} [DecidableEq ι] [Fintype ι] {b : Backend} {db : Db} {calls : ι → Call}
  {sched : List ι} {w : Requests ι}

/-- One of the requests draws this id for a new row. -/
def Drawn (calls : ι → Call) (id : Uuid) : Prop := ∃ i n, (calls i).ctx.uuid4 n = id

omit [DecidableEq ι] [Fintype ι] in
/-- The ids that a request draws are among those that all the requests draw. -/
theorem draws_drawn (calls : ι → Call) (i : ι) : (calls i).ctx.Draws (Drawn calls) :=
  fun n => ⟨i, n, rfl⟩

/-- Whatever the requests and the order of their statements. -/
theorem past_of_exec (hexec : (requests b db calls).exec sched = some w) :
    Past (Drawn calls) db w.committed := by
  have hsafe (i : ι) : (handle b (calls i)).Safe (fun _ => True) (Past (Drawn calls) db)
      fun _ => True :=
    (writes_handle (draws_drawn calls i)).safe
      (fun _ _ _ _ _ h t ht => ht.trans (past_change h t)) fun _ _ => trivial
  have hstart : (requests b db calls).Guarded (fun _ _ => True) (Past (Drawn calls) db) :=
    ⟨.refl db, fun i => .start trivial (hsafe i)⟩
  exact (hstart.exec hexec).committed

end Runs

/-- Whatever requests of whatever callers run interleaved, an account that is stored afterwards was
stored before, with the same id, the same identity at the provider and the same role, or one of the
requests has created it as a plain user. -/
theorem accounts_of_exec {ι : Type} [DecidableEq ι] [Fintype ι] (b : Backend) (db : Db)
    (calls : ι → Call) (sched : List ι) (w : Requests ι)
    (hexec : (requests b db calls).exec sched = some w) (u' : User) (hu' : u' ∈ w.committed.users) :
    (∃ u ∈ db.users, u.SameAccount u') ∨ u'.role = UserRole.user ∧ Drawn calls u'.id := by
  obtain ⟨u, hu, hbecame⟩ := (past_of_exec hexec).users u' hu'
  have hsame : u.SameAccount u' := hbecame.edit User.SameAccount.refl
  rcases hu with hu | ⟨hid, hrole⟩
  · exact .inl ⟨u, hu, hsame⟩
  · exact .inr ⟨hsame.role.trans hrole, hsame.id ▸ hid⟩

/-- A call with the token of `sub` whose new rows have the id `id`. -/
def Call.signedIn (sub : String) (id : Uuid) (endpoint : UserEndpoint) : Call :=
  { ctx := .fixed 0 id, request := ⟨.ok sub⟩, acceptLanguage := none, endpoint := .user endpoint }

/-- Two first requests of one user at once, of which one is overtaken by the other. -/
def firstCalls (i : Bool) : Call := .signedIn "sub_1" (if i then 1 else 2) .getMe

def firstSched : List Bool := [true, false, true, true, true, true, true, false, false, false]

/-- Two first requests on an empty database: the account is new and plain. -/
theorem accounts_of_exec_firstCalls :
    ∃ w, (requests .plain .empty firstCalls).exec firstSched = some w ∧
      ∀ u ∈ w.committed.users,
        (∃ u₀ ∈ Db.empty.users, u₀.SameAccount u) ∨
          u.role = UserRole.user ∧ Drawn firstCalls u.id :=
  ⟨_, rfl, accounts_of_exec .plain .empty firstCalls firstSched _ rfl⟩

/-- No venue and no report is ever lost, deletions of accounts included. A venue is edited by
moderation only: it may lose its attribution, and it may become verified, closed or suspended, and
none of that is undone. A report may lose its reporter, and once it is resolved it does not become
pending again. -/
theorem moderation_of_exec {ι : Type} [DecidableEq ι] [Fintype ι] (b : Backend) (db : Db)
    (calls : ι → Call) (sched : List ι) (w : Requests ι)
    (hexec : (requests b db calls).exec sched = some w) :
    (∀ v ∈ db.venues, ∃ v' ∈ w.committed.venues, v.Moderated v') ∧
      (∀ r ∈ db.contentReports, ∃ r' ∈ w.committed.contentReports, r.Kept r') ∧
      ∀ r ∈ db.venueReports, ∃ r' ∈ w.committed.venueReports, r.Kept r' := by
  have hpast := past_of_exec hexec
  refine ⟨fun v hv => ?_, fun r hr => ?_, fun r hr => ?_⟩
  · obtain ⟨v', hv', hbecame⟩ := hpast.venuesStay v hv
    exact ⟨v', hv', hbecame.edit Venue.Moderated.refl⟩
  · obtain ⟨r', hr', hbecame⟩ := hpast.contentReportsStay r hr
    exact ⟨r', hr', hbecame.edit ContentReport.Kept.refl⟩
  · obtain ⟨r', hr', hbecame⟩ := hpast.venueReportsStay r hr
    exact ⟨r', hr', hbecame.edit VenueReport.Kept.refl⟩

/-- Ada deletes her account, in the middle of which bob reports her venue. -/
def leavingCalls (i : Bool) : Call :=
  if i then .signedIn "sub_1" 7 .deleteMe
  else .signedIn "sub_2" 8 (.reportVenue 4 { reason := .wrongAddress })

def leavingSched : List Bool :=
  [true, false, true, true, false, false, false, true, false, false, true]

/-- Requests among which an account leaves: the venue and the reports stay. -/
theorem moderation_of_exec_leavingCalls :
    ∃ w, (requests .plain leavingDb leavingCalls).exec leavingSched = some w ∧
      (∀ v ∈ leavingDb.venues, ∃ v' ∈ w.committed.venues, v.Moderated v') ∧
      (∀ r ∈ leavingDb.contentReports, ∃ r' ∈ w.committed.contentReports, r.Kept r') ∧
      ∀ r ∈ leavingDb.venueReports, ∃ r' ∈ w.committed.venueReports, r.Kept r' :=
  ⟨_, rfl, moderation_of_exec .plain leavingDb leavingCalls leavingSched _ rfl⟩

/-- What a row is about does not change while it is stored: a check-in, a list or a save keeps its
user and its venue, a list item its list and its venue, and a notification everything but the time
at which it was read. A deleted check-in stays deleted, and a notification that was read stays
read. -/
theorem content_of_exec {ι : Type} [DecidableEq ι] [Fintype ι] (b : Backend) (db : Db)
    (calls : ι → Call) (sched : List ι) (w : Requests ι)
    (hexec : (requests b db calls).exec sched = some w)
    (hfresh : ∀ i n, db.Unused ((calls i).ctx.uuid4 n)) :
    (∀ c ∈ db.checkins, ∀ c' ∈ w.committed.checkins, c'.id = c.id → c.SameVisit c') ∧
      (∀ l ∈ db.lists, ∀ l' ∈ w.committed.lists, l'.id = l.id → l.SameList l') ∧
      (∀ r ∈ db.listItems, ∀ r' ∈ w.committed.listItems, r'.id = r.id → r.SameEntry r') ∧
      (∀ r ∈ db.venueSaves, ∀ r' ∈ w.committed.venueSaves, r'.id = r.id → r.SameSave r') ∧
      ∀ n ∈ db.notifications, ∀ n' ∈ w.committed.notifications, n'.id = n.id → n.MoreRead n' := by
  have hpast := past_of_exec hexec
  -- A drawn id is not the id of a row that was there before.
  have hold {ρ : Type} {key : ρ → Uuid} {t : Table key} {id : Uuid} (hid : Drawn calls id)
      (hnone : ∀ i n, t.get ((calls i).ctx.uuid4 n) = none) {r : ρ} (hr : r ∈ t) : id ≠ key r := by
    obtain ⟨i, n, rfl⟩ := hid
    exact (Table.get_eq_none.mp (hnone i n) r hr).symm
  refine ⟨fun c hc c' hc' hid => ?_, fun l hl l' hl' hid => ?_, fun r hr r' hr' hid => ?_,
    fun r hr r' hr' hid => ?_, fun n hn n' hn' hid => ?_⟩
  · exact (hpast.checkins.of_key (fun _ _ h => h.id)
      (fun _ h => hold h.1 (fun i n => (hfresh i n).checkins) hc) hc hc' hid).edit
      Checkin.SameVisit.refl
  · exact (hpast.lists.of_key (fun _ _ h => h.id)
      (fun _ h => hold h (fun i n => (hfresh i n).lists) hl) hl hl' hid).edit
      VenueList.SameList.refl
  · exact (hpast.listItems.of_key (fun _ _ h => h.id)
      (fun _ h => hold h (fun i n => (hfresh i n).listItems) hr) hr hr' hid).edit
      ListItem.SameEntry.refl
  · exact (hpast.venueSaves.of_key (fun _ _ h => h.id)
      (fun _ h => hold h (fun i n => (hfresh i n).venueSaves) hr) hr hr' hid).edit
      VenueSave.SameSave.refl
  · exact (hpast.notifications.of_key (fun _ _ h => h.id)
      (fun _ h => hold h.1 (fun i n => (hfresh i n).notifications) hn) hn hn' hid).edit
      Notification.MoreRead.refl

/-- Ada's venue and check-in, and a list with the venue, a save of it and a notification about bob's
like. -/
def editingDb : Db :=
  { leavingDb with
    lists := Table.empty.insert
      { id := 10, userId := 1, title := "Favourites", description := none
        visibility := Visibility.pub, createdAt := 0 }
    listItems := Table.empty.insert
      { id := 11, listId := 10, venueId := 4, position := "a1", createdAt := 0 }
    venueSaves := Table.empty.insert
      { id := 12, userId := 1, venueId := 4, type := .wishlist, visibility := Visibility.priv
        createdAt := 0 }
    notifications := Table.empty.insert
      { id := 13, userId := 1, type := .checkinLike, actorId := some 2, targetType := .checkin
        targetId := 5, readAt := none, createdAt := 0 } }

/-- Ada edits all of them at once. -/
def editingCalls : Fin 5 → Call
  | 0 =>
    .signedIn "sub_1" 20 (.updateCheckin 5
      { ratingTaste := some (some 4), visibility := some (some Visibility.pub) })
  | 1 =>
    .signedIn "sub_1" 20 (.updateList 10
      { title := some (some "Best of all"), visibility := some (some Visibility.pub) })
  | 2 =>
    { Call.signedIn "sub_1" 20 (.moveListItem 10 11 {}) with
      ctx := { Ctx.fixed 0 20 with generateKeyBetween := fun _ _ => some "a0" } }
  | 3 => .signedIn "sub_1" 20 (.updateVenueSave 12 { visibility := some (some Visibility.pub) })
  | 4 => .signedIn "sub_1" 20 .markAllNotificationsRead

def editingSched : List (Fin 5) :=
  (List.replicate 6 [0, 1, 2, 3, 4]).flatten ++ [3, 2, 1, 0, 2, 2]

/-- Every row stays, edited. -/
theorem content_of_exec_editingCalls :
    ∃ w, (requests .plain editingDb editingCalls).exec editingSched = some w ∧
      w.committed.checkins.rows.map (fun c => (c.id, c.ratingTaste)) = [(5, 4)] ∧
      w.committed.lists.rows.map (fun l => (l.id, l.title)) = [(10, "Best of all")] ∧
      w.committed.listItems.rows.map (fun r => (r.id, r.position)) = [(11, "a0")] ∧
      w.committed.venueSaves.rows.map (fun r => (r.id, r.visibility)) = [(12, Visibility.pub)] ∧
      w.committed.notifications.rows.map (fun n => (n.id, n.readAt)) = [(13, some 0)] ∧
      (∀ c ∈ editingDb.checkins, ∀ c' ∈ w.committed.checkins, c'.id = c.id → c.SameVisit c') ∧
      (∀ l ∈ editingDb.lists, ∀ l' ∈ w.committed.lists, l'.id = l.id → l.SameList l') ∧
      (∀ r ∈ editingDb.listItems, ∀ r' ∈ w.committed.listItems, r'.id = r.id → r.SameEntry r') ∧
      (∀ r ∈ editingDb.venueSaves, ∀ r' ∈ w.committed.venueSaves, r'.id = r.id → r.SameSave r') ∧
      ∀ n ∈ editingDb.notifications, ∀ n' ∈ w.committed.notifications, n'.id = n.id →
        n.MoreRead n' :=
  have hfresh : ∀ (i : Fin 5) (n : ℕ), editingDb.Unused ((editingCalls i).ctx.uuid4 n)
    | 0, _ | 1, _ | 2, _ | 3, _ | 4, _ => ⟨rfl, rfl, rfl, rfl, rfl, rfl, rfl⟩
  ⟨_, rfl, rfl, rfl, rfl, rfl, rfl,
    content_of_exec .plain editingDb editingCalls editingSched _ rfl hfresh⟩

end OburBackend
