import OburBackend.Account.SigningIn
import OburBackend.Api.Endpoints
import OburBackend.Sql.Views

/-!
# What the answers to readers depend on

The row policies are to hide rows, and not only to leave them out of an answer: what they hide must
not show in any other way. `SameView` relates the databases that a caller cannot tell apart, the
blocks that the policy functions look up past the policies included. Every route that only reads
answers alike on such databases (`answer_of_sameView`). A service that looked at rows the caller
does not see, in a count, an order, a page or an error, would not.
-/

namespace OburBackend

open Sql

/-- What `rls_list_blocked_users` selects from, past the policies. -/
def rlsListBlockedUsers (me : Identity) (db : Db) : List (User × Block) :=
  join db.users.rows (db.blocks.select fun b => decide (me = some b.blockerId))
    fun u b => decide (b.blockedId = u.id)

/-- The caller cannot tell the databases apart: it sees the same rows of each table, is blocked from
the same users, and has blocked the same ones. -/
structure SameView (me : Identity) (db db' : Db) : Prop where
  users : users.seen me db = users.seen me db'
  venueCategories : venueCategories.seen me db = venueCategories.seen me db'
  venues : venues.seen me db = venues.seen me db'
  checkins : checkins.seen me db = checkins.seen me db'
  lists : lists.seen me db = lists.seen me db'
  listItems : listItems.seen me db = listItems.seen me db'
  venueSaves : venueSaves.seen me db = venueSaves.seen me db'
  checkinBookmarks : checkinBookmarks.seen me db = checkinBookmarks.seen me db'
  listBookmarks : listBookmarks.seen me db = listBookmarks.seen me db'
  follows : follows.seen me db = follows.seen me db'
  closeFriends : closeFriends.seen me db = closeFriends.seen me db'
  mutes : mutes.seen me db = mutes.seen me db'
  notifications : notifications.seen me db = notifications.seen me db'
  contentReports : contentReports.seen me db = contentReports.seen me db'
  venueReports : venueReports.seen me db = venueReports.seen me db'
  blocked : ∀ v, me = some v → ∀ u, db.Blocked u v ↔ db'.Blocked u v
  blockedUsers : rlsListBlockedUsers me db = rlsListBlockedUsers me db'

/-! ## The conditions of the listings -/

namespace SameView

variable {me : Identity} {db db' : Db}

/-- The caller tells no account apart: each is visible in both or in neither. -/
theorem accountIsVisible (h : SameView me db db') (id : Uuid) :
    accountIsVisible me db id = accountIsVisible me db' id := by
  rw [OburBackend.accountIsVisible, TableDef.rows_congr h.users fun _ => rfl]
  rfl

/-- Nor who is a close friend of whom. -/
theorem closeFriendOfOwnerExists (h : SameView me db db') (ownerId viewerId : Uuid) :
    closeFriendOfOwnerExists me db ownerId viewerId =
      closeFriendOfOwnerExists me db' ownerId viewerId := by
  rw [OburBackend.closeFriendOfOwnerExists, TableDef.rows_congr h.closeFriends fun _ => rfl]
  rfl

/-- The condition of the listings is the same on both. -/
theorem listable (h : SameView me db db') (viewer : Option User) (own : User → Bool)
    (ownerId : Uuid) (visibility : String) :
    listable me db viewer own ownerId visibility =
      listable me db' viewer own ownerId visibility := by
  cases viewer with
  | none => rfl
  | some v =>
    simp only [OburBackend.listable, h.closeFriendOfOwnerExists]

/-- So is that of the bookmark listings. -/
theorem bookmarkListable (h : SameView me db db') (userId ownerId : Uuid) (visibility : String) :
    bookmarkListable me db userId ownerId visibility =
      bookmarkListable me db' userId ownerId visibility := by
  simp only [OburBackend.bookmarkListable, h.closeFriendOfOwnerExists]

end SameView

/-! ## The services -/

section Services

variable {me : Identity} {viewer : Option User}

/-- The program answers alike on databases that the caller cannot tell apart. -/
abbrev AlikeFor (me : Identity) {ε α : Type} (p : Prog Db Lock Identity Stmt ε α) : Prop :=
  p.ReadsUpTo (SameView me) me

/-- Taking the one row of a result depends on nothing else. -/
theorem alikeFor_scalarOneOrNone {ρ : Type} (rows : List ρ) :
    AlikeFor me (scalarOneOrNone rows) := by
  match rows with
  | [] | [_] | _ :: _ :: _ => trivial

/-- Whether somebody is a close friend is answered alike. -/
theorem alikeFor_isCloseFriend (ownerId viewerId : Uuid) :
    AlikeFor me (isCloseFriend ownerId viewerId) := by
  have hrows : AlikeFor me (select closeFriends .closeFriends [ownerId, viewerId] fun r =>
      decide (r.userId = ownerId) && decide (r.friendId = viewerId)) :=
    Prog.readsUpTo_query fun _ _ h => TableDef.rows_congr h.closeFriends fun _ => rfl
  exact hrows.bind fun rows => (alikeFor_scalarOneOrNone rows).bind fun _ => trivial

/-- So is whether the caller may view what an owner shows to some. -/
theorem alikeFor_canView (hme : me = viewer.map User.id) (ownerId : Uuid) (visibility : String) :
    AlikeFor me (canView ownerId visibility viewer) := by
  unfold canView
  split
  · trivial
  · refine Prog.ReadsUpTo.bind ?_ fun blocked => ?_
    · cases viewer with
      | none => trivial
      | some v =>
        refine Prog.readsUpTo_query fun db db' h => ?_
        simp only [rlsIsBlockedPair_some, h.blocked v.id hme ownerId]
    split_ifs
    · trivial
    · trivial
    · trivial
    · cases viewer with
      | none => trivial
      | some v => exact alikeFor_isCloseFriend ownerId v.id
    · trivial

/-- A row by its id, and then only to whom `can_view` lets see it. -/
theorem alikeFor_guarded (hme : me = viewer.map User.id) {α : Type} {ownerId : Uuid}
    {visibility : String} {found notFound : Service α} (hfound : AlikeFor me found)
    (hnot : AlikeFor me notFound) :
    AlikeFor me (do
      let allowed ← canView ownerId visibility viewer
      if allowed then found else notFound) := by
  refine (alikeFor_canView hme _ _).bind fun allowed => ?_
  cases allowed with
  | true => exact hfound
  | false => exact hnot

/-- A check-in is found on both, with the same content, or on neither. -/
theorem alikeFor_getCheckin (hme : me = viewer.map User.id) (checkinId : Uuid) :
    AlikeFor me (getCheckin checkinId viewer) := by
  refine (TableDef.readsUpTo_get (fun _ _ h => h.checkins) checkinId).bind fun found => ?_
  cases found with
  | none => trivial
  | some checkin =>
    dsimp only
    split
    · trivial
    · exact alikeFor_guarded hme trivial trivial

/-- So is a list. -/
theorem alikeFor_getList (hme : me = viewer.map User.id) (listId : Uuid) :
    AlikeFor me (getList listId viewer) := by
  refine (TableDef.readsUpTo_get (fun _ _ h => h.lists) listId).bind fun found => ?_
  cases found with
  | none => trivial
  | some venueList => exact alikeFor_guarded hme trivial trivial

/-- So is a save. -/
theorem alikeFor_getVenueSave (hme : me = viewer.map User.id) (venueSaveId : Uuid) :
    AlikeFor me (getVenueSave venueSaveId viewer) := by
  refine (TableDef.readsUpTo_get (fun _ _ h => h.venueSaves) venueSaveId).bind fun found => ?_
  cases found with
  | none => trivial
  | some save => exact alikeFor_guarded hme trivial trivial

/-- So is a venue. -/
theorem alikeFor_getVenue (venueId : Uuid) : AlikeFor me (getVenue venueId) := by
  refine (TableDef.readsUpTo_get (fun _ _ h => h.venues) venueId).bind fun found => ?_
  cases found <;> trivial

/-- A page of a venue's check-ins is the same on both. -/
theorem alikeFor_listCheckinsForVenue (plan : Plan Checkin) (venueId : Uuid) (limit offset : ℕ) :
    AlikeFor me (listCheckinsForVenue plan venueId viewer limit offset) :=
  Prog.readsUpTo_query fun _ _ h => by
    simp only [TableDef.rows_eq_filter_seen, h.checkins, h.accountIsVisible, h.listable]

/-- So is a page of a user's check-ins. -/
theorem alikeFor_listCheckinsForUser (plan : Plan Checkin) (userId : Uuid) (limit offset : ℕ) :
    AlikeFor me (listCheckinsForUser plan userId viewer limit offset) :=
  Prog.readsUpTo_query fun _ _ h => by
    simp only [TableDef.rows_eq_filter_seen, h.checkins, h.accountIsVisible, h.listable]

/-- So is a page of a user's lists. -/
theorem alikeFor_listListsForUser (plan : Plan VenueList) (userId : Uuid) (limit offset : ℕ) :
    AlikeFor me (listListsForUser plan userId viewer limit offset) :=
  Prog.readsUpTo_query fun _ _ h => by
    simp only [TableDef.rows_eq_filter_seen, h.lists, h.listable]

/-- So is a page of a user's saves. -/
theorem alikeFor_listVenueSavesForUser (plan : Plan VenueSave) (userId : Uuid)
    (type : Option VenueSaveType) (limit offset : ℕ) :
    AlikeFor me (listVenueSavesForUser plan userId type viewer limit offset) :=
  Prog.readsUpTo_query fun _ _ h => by
    simp only [TableDef.rows_eq_filter_seen, h.venueSaves, h.listable]

/-- So is a page of a list's items. -/
theorem alikeFor_listItemsForList (plan : Plan ListItem) (listId : Uuid) (limit offset : ℕ) :
    AlikeFor me (listItemsForList plan listId limit offset) :=
  Prog.readsUpTo_query fun _ _ h => by
    simp only [TableDef.rows_eq_filter_seen, h.listItems]

/-- So is a page of the venues. -/
theorem alikeFor_listVenues (plan : Plan Venue) (limit offset : ℕ) :
    AlikeFor me (listVenues plan limit offset) :=
  Prog.readsUpTo_query fun _ _ h => by
    simp only [TableDef.rows_eq_filter_seen, h.venues]

/-- So is a page of a search, whatever the order of its results is. -/
theorem alikeFor_searchVenues (search : NameSearch) (text : String) (limit offset : ℕ) :
    AlikeFor me (searchVenues search text limit offset) :=
  Prog.readsUpTo_query fun _ _ h => by
    simp only [TableDef.rows_eq_filter_seen, h.venues]

/-- So is a page of the caller's bookmarked check-ins. -/
theorem alikeFor_listBookmarkedCheckins (plan : Plan (Checkin × CheckinBookmark)) (userId : Uuid)
    (limit offset : ℕ) :
    AlikeFor me (listBookmarkedCheckins plan userId limit offset) :=
  Prog.readsUpTo_query fun _ _ h => by
    simp only [TableDef.rows_eq_filter_seen, h.checkins, h.checkinBookmarks,
      h.bookmarkListable]

/-- So is a page of the caller's bookmarked lists. -/
theorem alikeFor_listBookmarkedLists (plan : Plan (VenueList × ListBookmark)) (userId : Uuid)
    (limit offset : ℕ) :
    AlikeFor me (listBookmarkedLists plan userId limit offset) :=
  Prog.readsUpTo_query fun _ _ h => by
    simp only [TableDef.rows_eq_filter_seen, h.lists, h.listBookmarks,
      h.bookmarkListable]

/-- So is a page of followers, and one of those a user follows. -/
theorem alikeFor_listFollows (user other : Follow → Uuid) (plan : Plan (User × Follow))
    (userId : Uuid) (limit offset : ℕ) :
    AlikeFor me (listFollows user other plan userId limit offset) :=
  Prog.readsUpTo_query fun _ _ h => by
    simp only [TableDef.rows_eq_filter_seen, h.users, h.follows, h.accountIsVisible]

/-- So is a page of close friends. -/
theorem alikeFor_listCloseFriends (plan : Plan (User × CloseFriend)) (userId : Uuid)
    (limit offset : ℕ) :
    AlikeFor me (listCloseFriends plan userId limit offset) :=
  Prog.readsUpTo_query fun _ _ h => by
    simp only [TableDef.rows_eq_filter_seen, h.users, h.closeFriends]

/-- So is a page of muted users. -/
theorem alikeFor_listMutedUsers (plan : Plan (User × Mute)) (userId : Uuid) (limit offset : ℕ) :
    AlikeFor me (listMutedUsers plan userId limit offset) :=
  Prog.readsUpTo_query fun _ _ h => by
    simp only [TableDef.rows_eq_filter_seen, h.users, h.mutes]

/-- The rows of the bypass are compared as a whole. -/
theorem alikeFor_listBlockedUsers (plan : Plan (User × Block)) (limit offset : ℕ) :
    AlikeFor me (listBlockedUsers plan limit offset) :=
  Prog.readsUpTo_query fun _ _ h =>
    congrArg (fun rows => (page limit offset (orderByDesc (fun p => p.2.createdAt) plan rows)).map
      Prod.fst) h.blockedUsers

/-- So is a page of notifications. -/
theorem alikeFor_listNotifications (plan : Plan Notification) (userId : Uuid) (limit offset : ℕ) :
    AlikeFor me (listNotifications plan userId limit offset) :=
  Prog.readsUpTo_query fun _ _ h => by
    simp only [TableDef.rows_eq_filter_seen, h.notifications]

/-- The number of unread ones counts no notification that is hidden. -/
theorem alikeFor_countUnreadNotifications (userId : Uuid) :
    AlikeFor me (countUnreadNotifications userId) :=
  Prog.readsUpTo_query fun _ _ h => by
    simp only [unreadNotifications, TableDef.rows_eq_filter_seen, h.notifications]

/-- A page of the reports on content is the same on both. -/
theorem alikeFor_listContentReports (plan : Plan ContentReport) (status : Option ReportStatus)
    (limit offset : ℕ) :
    AlikeFor me (listContentReports plan status limit offset) :=
  Prog.readsUpTo_query fun _ _ h => by
    simp only [TableDef.rows_eq_filter_seen, h.contentReports]

/-- So is a page of the reports on venues. -/
theorem alikeFor_listVenueReports (plan : Plan VenueReport) (status : Option ReportStatus)
    (limit offset : ℕ) :
    AlikeFor me (listVenueReports plan status limit offset) :=
  Prog.readsUpTo_query fun _ _ h => by
    simp only [TableDef.rows_eq_filter_seen, h.venueReports]

/-- So is the tree of categories with its names. -/
theorem alikeFor_listCategoryTree (collation : String → String → Bool) (plan : Plan VenueCategory)
    (namesPlan : Plan VenueCategoryTranslation)
    (translations : Table VenueCategoryTranslation.key) (locale : String) (fuel : ℕ) :
    AlikeFor me (listCategoryTree collation plan namesPlan translations locale fuel) := by
  refine Prog.ReadsUpTo.bind (Prog.readsUpTo_query fun _ _ h => ?_) fun _ => trivial
  simp only [TableDef.rows_eq_filter_seen, h.venueCategories]

end Services

/-! ## The routes -/

/-- The route is one with the method `GET`. -/
def UserEndpoint.isRead : UserEndpoint → Bool
  | .getMe | .listMyBookmarkedCheckins _ | .listMyBookmarkedLists _ | .listCloseFriends _
  | .listBlockedUsers _ | .listMutedUsers _ | .listNotifications _ | .getUnreadNotificationCount =>
    true
  | _ => false

def AdminEndpoint.isRead : AdminEndpoint → Bool
  | .listContentReports .. | .listVenueReports .. => true
  | _ => false

def Endpoint.isRead : Endpoint → Bool
  | .user e => e.isRead
  | .viewer _ | .anonymous _ => true
  | .admin e => e.isRead
  | .handleClerkWebhook _ => false

section Routes

variable {me : Identity} {b : Backend} {c : Ctx}

/-- Every route of the users that only reads answers alike. -/
theorem alikeFor_userEndpoint {user : User} {e : UserEndpoint} (hread : e.isRead = true) :
    AlikeFor me (e.run b c user) := by
  cases e with
  | getMe => trivial
  | listMyBookmarkedCheckins page =>
    exact ((alikeFor_listBookmarkedCheckins _ _ _ _).mapError _).bind fun _ => trivial
  | listMyBookmarkedLists page =>
    exact ((alikeFor_listBookmarkedLists _ _ _ _).mapError _).bind fun _ => trivial
  | listCloseFriends page =>
    exact ((alikeFor_listCloseFriends _ _ _ _).mapError _).bind fun _ => trivial
  | listBlockedUsers page =>
    exact ((alikeFor_listBlockedUsers _ _ _).mapError _).bind fun _ => trivial
  | listMutedUsers page =>
    exact ((alikeFor_listMutedUsers _ _ _ _).mapError _).bind fun _ => trivial
  | listNotifications page =>
    exact ((alikeFor_listNotifications _ _ _ _).mapError _).bind fun _ => trivial
  | getUnreadNotificationCount =>
    exact ((alikeFor_countUnreadNotifications _).mapError _).bind fun _ => trivial
  | _ => cases hread

/-- So does every route that a viewer may call without signing in. -/
theorem alikeFor_viewerEndpoint {acceptLanguage : Option String} {viewer : Option User}
    (hme : me = viewer.map User.id) (e : ViewerEndpoint) :
    AlikeFor me (e.run b c acceptLanguage viewer) := by
  cases e with
  | listUserCheckins userId page =>
    exact ((alikeFor_listCheckinsForUser _ _ _ _).mapError _).bind fun _ => trivial
  | listUserLists userId page =>
    exact ((alikeFor_listListsForUser _ _ _ _).mapError _).bind fun _ => trivial
  | listUserVenueSaves userId type page =>
    exact ((alikeFor_listVenueSavesForUser _ _ _ _ _).mapError _).bind fun _ => trivial
  | getCheckin checkinId =>
    exact ((alikeFor_getCheckin hme _).mapError _).bind fun _ => trivial
  | getList listId =>
    exact ((alikeFor_getList hme _).mapError _).bind fun _ => trivial
  | listItems listId page =>
    exact ((alikeFor_getList hme _).mapError _).bind fun _ =>
      ((alikeFor_listItemsForList _ _ _ _).mapError _).bind fun _ => trivial
  | getVenueSave venueSaveId =>
    exact ((alikeFor_getVenueSave hme _).mapError _).bind fun _ => trivial
  | listVenueCheckins venueId page =>
    exact ((alikeFor_listCheckinsForVenue _ _ _ _).mapError _).bind fun _ => trivial
  | listVenues q page =>
    cases q with
    | none => exact ((alikeFor_listVenues _ _ _).mapError _).bind fun _ => trivial
    | some text => exact ((alikeFor_searchVenues _ _ _ _).mapError _).bind fun _ => trivial
  | getVenue venueId =>
    exact ((alikeFor_getVenue _).mapError _).bind fun _ => trivial
  | listVenueCategories =>
    refine ((alikeFor_listCategoryTree _ _ _ _ _ _).mapError _).bind fun tree => ?_
    cases tree <;> trivial

/-- So does every route of the administrators that only reads. -/
theorem alikeFor_adminEndpoint {admin : User} {e : AdminEndpoint} (hread : e.isRead = true) :
    AlikeFor me (e.run b c admin) := by
  cases e with
  | listContentReports status page =>
    exact ((alikeFor_listContentReports _ _ _ _).mapError _).bind fun _ => trivial
  | listVenueReports status page =>
    exact ((alikeFor_listVenueReports _ _ _ _).mapError _).bind fun _ => trivial
  | _ => cases hread

/-- And every public one. -/
theorem alikeFor_publicEndpoint (e : PublicEndpoint) : AlikeFor me (e.run b) := by
  cases e with
  | listFollowers userId page =>
    exact ((alikeFor_listFollows _ _ _ _ _ _).mapError _).bind fun _ => trivial
  | listFollowing userId page =>
    exact ((alikeFor_listFollows _ _ _ _ _ _).mapError _).bind fun _ => trivial

end Routes

/-! ## Signing in -/

/-- The rows with the identity of the token. -/
def Db.accountsOf (db : Db) (request : Request) : List User :=
  match request.claims with
  | .error _ => []
  | .ok sub => db.users.select (User.hasIdentity sub)

/-- How signing in ends where the token has an account. A frozen one is not reactivated: its
`UPDATE` still runs without an identity. -/
def Db.signIn (db : Db) (request : Request) : Except PyError User :=
  match request.claims with
  | .error message => .error (.domain .invalidToken message)
  | .ok _ =>
    match db.accountsOf request with
    | [user] =>
      match user.status with
      | .active => .ok user
      | .suspended => .error (.problem "account-suspended")
      | .frozen => .error (.database .staleData)
    | _ => .error .multipleResultsFound

/-- The identity under which a request runs. -/
def Call.identity (call : Call) (db : Db) : Identity :=
  match call.endpoint with
  | .anonymous _ => none
  | _ => (db.signIn call.request).toOption.map User.id

/-- A valid token has an account: a first request would create it. -/
def Db.Knows (db : Db) (request : Request) : Prop :=
  ∀ sub, request.claims = .ok sub → db.accountsOf request ≠ []

section SigningIn

variable {c : Ctx} {request : Request} {db db' : Db}

/-- The connection of a request that has signed in, or failed to. -/
def Db.signedIn (db : Db) (request : Request) : Conn Db Identity :=
  ⟨(db.signIn request).toOption.map User.id, db, db⟩

/-- For a known account signing in ends as `Db.signIn` says, on the data of `Db.signedIn`. -/
theorem run_getCurrentUser_of_knows (hknown : db.Knows request) :
    (getCurrentUser c request).run (Conn.start none db) =
      (db.signIn request, db.signedIn request) := by
  obtain ⟨claims⟩ := request
  cases claims with
  | error message => rfl
  | ok sub =>
    have hrows : users.rows none db (User.hasIdentity sub) = db.accountsOf ⟨.ok sub⟩ := by
      rw [TableDef.rows_eq_filter]
      exact List.filter_eq_self.mpr fun u _ =>
        (TableDef.visible_eq_true _).mpr (usersPolicy_select_none db u)
    have hfind : (findUser sub).run (Conn.start none db) =
        (scalarOneOrNone (db.accountsOf ⟨.ok sub⟩)).run (Conn.start none db) := by
      rw [← hrows]
      rfl
    have hsome := hknown sub rfl
    simp only [getCurrentUser, resolveUser, verifySession, Prog.pure_eq, Prog.bind_eq,
      Prog.ret_bind, Db.signedIn, Db.signIn]
    rw [Prog.run_bind, Prog.run_bind, hfind]
    generalize db.accountsOf ⟨.ok sub⟩ = found at hsome ⊢
    rcases found with _ | ⟨user, _ | ⟨other, rest⟩⟩
    · exact absurd rfl hsome
    · simp only [scalarOneOrNone, Prog.pure_eq, Prog.run_ret]
      cases hstatus : user.status with
      | active => rfl
      | suspended => rfl
      | frozen =>
        simp only [reduceCtorEq, if_false, if_true]
        rw [Prog.run_bind, run_reactivateAccount hstatus]
        rfl
    · rfl

/-- A request with an optional caller goes on as nobody if its token is invalid or its account is
suspended. -/
def orNobody : Except PyError User → Except PyError (Option User)
  | .ok user => .ok (some user)
  | .error (.problem _) => .ok none
  | .error (.domain .invalidToken _) => .ok none
  | .error e => .error e

/-- Whoever is signed in where that is optional is the account that signed in, if any. -/
theorem orNobody_eq_ok {r : Except PyError User} {viewer : Option User}
    (h : orNobody r = .ok viewer) : r.toOption = viewer := by
  unfold orNobody at h
  split at h
  · exact Except.ok.inj h
  · exact Except.ok.inj h
  · exact Except.ok.inj h
  · cases h

/-- Signing in where that is optional ends with the account, or with nobody. -/
theorem run_getOptionalCurrentUser_of_knows (hknown : db.Knows request) :
    (getOptionalCurrentUser c request).run (Conn.start none db) =
      (orNobody (db.signIn request), db.signedIn request) := by
  rw [getOptionalCurrentUser, Prog.run_recover, Prog.bind_eq, Prog.run_bind,
    run_getCurrentUser_of_knows hknown]
  cases hsign : db.signIn request with
  | ok user => rfl
  | error e =>
    have hconn : db.signedIn request = Conn.start none db := by
      rw [Db.signedIn, hsign]
      rfl
    rw [hconn]
    cases e with
    | domain cls message => cases cls <;> rfl
    | _ => rfl

/-- An administrators' route refuses everybody else after the same sign-in. -/
theorem run_requireAdmin_of_knows (hknown : db.Knows request) :
    (requireAdmin c request).run (Conn.start none db) =
      ((db.signIn request).bind fun user =>
        if user.role ≠ UserRole.admin then .error (.problem "admin-required") else .ok user,
        db.signedIn request) := by
  rw [requireAdmin, Prog.bind_eq, Prog.run_bind, run_getCurrentUser_of_knows hknown]
  cases db.signIn request with
  | error e => rfl
  | ok user =>
    dsimp only [Except.bind]
    split <;> rfl

/-- A handler behind a dependency that ends alike on both databases. -/
theorem outcome_call_bind {α : Type} {me : Identity} {p : Service α} {f : α → Handler Reply}
    {r : Except PyError α} (hrun : p.run (Conn.start none db) = (r, ⟨me, db, db⟩))
    (hrun' : p.run (Conn.start none db') = (r, ⟨me, db', db'⟩))
    (hf : ∀ a, r = .ok a → AlikeFor me (f a)) (hview : SameView me db db') :
    (Handler.call p >>= f).outcome none db = (Handler.call p >>= f).outcome none db' := by
  rw [Prog.outcome, Prog.outcome, Prog.bind_eq, Prog.run_bind, Prog.run_bind, Handler.call,
    Prog.run_mapError, Prog.run_mapError, hrun, hrun']
  cases r with
  | error e => rfl
  | ok a => exact (hf a rfl).run hview

end SigningIn

/-- What a caller cannot see has no influence on what it is answered: on databases that it cannot
tell apart, a request of a route that only reads is answered alike, with the same rows in the same
order on the same page, the same count or the same error. -/
theorem answer_of_sameView (b : Backend) (call : Call) (db db' : Db)
    (hread : call.endpoint.isRead = true) (hknown : db.Knows call.request)
    (haccount : db'.accountsOf call.request = db.accountsOf call.request)
    (hview : SameView (call.identity db) db db') :
    (handle b call).outcome none db = (handle b call).outcome none db' := by
  obtain ⟨ctx, request, acceptLanguage, endpoint⟩ := call
  have hknown' : db'.Knows request := fun sub hsub => haccount ▸ hknown sub hsub
  have hsign : db'.signIn request = db.signIn request := by
    rw [Db.signIn, haccount]
    rfl
  have hconn' : db'.signedIn request = ⟨(db.signIn request).toOption.map User.id, db', db'⟩ := by
    rw [Db.signedIn, hsign]
  cases endpoint with
  | user e =>
    refine outcome_call_bind (run_getCurrentUser_of_knows hknown) ?_
      (fun user _ => alikeFor_userEndpoint hread) hview
    rw [run_getCurrentUser_of_knows hknown', hsign, hconn']
  | viewer e =>
    refine outcome_call_bind (run_getOptionalCurrentUser_of_knows hknown) ?_
      (fun viewer hviewer => alikeFor_viewerEndpoint ?_ e) hview
    · rw [run_getOptionalCurrentUser_of_knows hknown', hsign, hconn']
    · exact congrArg (Option.map User.id) (orNobody_eq_ok hviewer)
  | admin e =>
    refine outcome_call_bind (run_requireAdmin_of_knows hknown) ?_
      (fun admin _ => alikeFor_adminEndpoint hread) hview
    rw [run_requireAdmin_of_knows hknown', hsign, hconn']
  | anonymous e => exact (alikeFor_publicEndpoint e).run hview
  | handleClerkWebhook webhook => cases hread

/-- A user with a public list and a private one of some title, and somebody who looks. -/
def diaryDb (title : String) : Db :=
  { Db.empty with
    users := (Table.empty.insert (User.create 1 "clerk" "sub_1" "ada" "Ada" 0)).insert
      (User.create 2 "clerk" "sub_2" "bob" "Bob" 0)
    lists := (Table.empty.insert ⟨3, 1, "Kahve", none, Visibility.pub, 0⟩).insert
      ⟨4, 1, title, none, Visibility.priv, 0⟩ }

def diaryCall : Call where
  ctx := .fixed 0 5
  request := ⟨.ok "sub_2"⟩
  acceptLanguage := none
  endpoint := .viewer (.listUserLists 1 {})

/-- Two diaries that bob may not read: his listing of them answers alike. -/
theorem answer_of_sameView_diary :
    (handle .plain diaryCall).outcome none (diaryDb "Doktor") =
      (handle .plain diaryCall).outcome none (diaryDb "Avukat") := by
  have hidentity : diaryCall.identity (diaryDb "Doktor") = some 2 := by decide
  have hview : SameView (some 2) (diaryDb "Doktor") (diaryDb "Avukat") :=
    ⟨by decide, by decide, by decide, by decide, by decide, by decide, by decide, by decide,
      by decide, by decide, by decide, by decide, by decide, by decide, by decide,
      fun _ _ _ => Iff.rfl, rfl⟩
  exact answer_of_sameView .plain diaryCall (diaryDb "Doktor") (diaryDb "Avukat") rfl
    (by
      rintro _ ⟨⟩
      decide)
    rfl (hidentity ▸ hview)

end OburBackend
