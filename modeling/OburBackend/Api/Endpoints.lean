import OburBackend.Api.Schemas
import OburBackend.Service.Inbox
import OburBackend.Service.Moderation

/-!
# The routes (`app/api/v1`)

A route first resolves its dependencies. The endpoints are grouped by the dependency that decides on
whose behalf they run, and carry what else the route takes from the request: `UserEndpoint` depends
on `get_current_user`, `ViewerEndpoint` on `get_optional_current_user`, directly or through
`resolve_locale`, and `AdminEndpoint` on `require_admin`. `PublicEndpoint` depends on nobody, and a
webhook resolves its own identity. `handle` is the whole of a request.
-/

namespace OburBackend

open Sql

/-- What the routes take from outside, beside the `Ctx` of the request: the extensions and the
collation of the database, the orders in which it meets the rows of a result, the names of the
categories, which no route writes, and the depth of recursion that the interpreter allows. -/
structure Backend where
  geography : Geography
  nameSearch : NameSearch
  collation : String → String → Bool
  translations : Table VenueCategoryTranslation.key
  recursionLimit : ℕ
  categoryPlan : Plan VenueCategory
  translationPlan : Plan VenueCategoryTranslation
  venuePlan : Plan Venue
  checkinPlan : Plan Checkin
  listPlan : Plan VenueList
  venueSavePlan : Plan VenueSave
  bookmarkedCheckinPlan : Plan (Checkin × CheckinBookmark)
  bookmarkedListPlan : Plan (VenueList × ListBookmark)
  followPlan : Plan (User × Follow)
  closeFriendPlan : Plan (User × CloseFriend)
  mutePlan : Plan (User × Mute)
  blockPlan : Plan (User × Block)
  notificationPlan : Plan Notification
  contentReportPlan : Plan ContentReport
  venueReportPlan : Plan VenueReport

/-- A database that meets rows in the order of their table, and finds no two places near. -/
def Backend.plain : Backend where
  geography := ⟨fun _ _ _ => false, .sequential⟩
  nameSearch := ⟨id, fun _ _ _ => false, fun _ _ => 0, .sequential⟩
  collation a b := decide (a ≤ b)
  translations := .empty
  recursionLimit := 1000
  categoryPlan := .sequential
  translationPlan := .sequential
  venuePlan := .sequential
  checkinPlan := .sequential
  listPlan := .sequential
  venueSavePlan := .sequential
  bookmarkedCheckinPlan := .sequential
  bookmarkedListPlan := .sequential
  followPlan := .sequential
  closeFriendPlan := .sequential
  mutePlan := .sequential
  blockPlan := .sequential
  notificationPlan := .sequential
  contentReportPlan := .sequential
  venueReportPlan := .sequential

/-! ## The endpoints of signed-in users -/

inductive UserEndpoint where
  | getMe
  | updateMe (payload : UserUpdateRequest)
  | freezeMe
  | deleteMe
  | listMyBookmarkedCheckins (page : Pagination)
  | listMyBookmarkedLists (page : Pagination)
  | createVenue (payload : VenueCreateRequest)
  | createCheckin (payload : CheckinCreateRequest)
  | updateCheckin (checkinId : Uuid) (payload : CheckinUpdateRequest)
  | deleteCheckin (checkinId : Uuid)
  | likeCheckin (checkinId : Uuid)
  | unlikeCheckin (checkinId : Uuid)
  | bookmarkCheckin (checkinId : Uuid)
  | unbookmarkCheckin (checkinId : Uuid)
  | followUser (userId : Uuid)
  | unfollowUser (userId : Uuid)
  | removeFollower (followerId : Uuid)
  | addCloseFriend (friendId : Uuid)
  | removeCloseFriend (friendId : Uuid)
  | listCloseFriends (page : Pagination)
  | blockUser (userId : Uuid)
  | unblockUser (userId : Uuid)
  | listBlockedUsers (page : Pagination)
  | muteUser (userId : Uuid)
  | unmuteUser (userId : Uuid)
  | listMutedUsers (page : Pagination)
  | createList (payload : ListCreateRequest)
  | updateList (listId : Uuid) (payload : ListUpdateRequest)
  | deleteList (listId : Uuid)
  | addListItem (listId : Uuid) (payload : ListItemCreateRequest)
  | moveListItem (listId itemId : Uuid) (payload : ListItemMoveRequest)
  | removeListItem (listId itemId : Uuid)
  | likeList (listId : Uuid)
  | unlikeList (listId : Uuid)
  | bookmarkList (listId : Uuid)
  | unbookmarkList (listId : Uuid)
  | saveVenue (payload : VenueSaveCreateRequest)
  | updateVenueSave (venueSaveId : Uuid) (payload : VenueSaveUpdateRequest)
  | deleteVenueSave (venueSaveId : Uuid)
  | listNotifications (page : Pagination)
  | getUnreadNotificationCount
  | markAllNotificationsRead
  | reportCheckin (checkinId : Uuid) (payload : ContentReportCreateRequest)
  | reportUser (userId : Uuid) (payload : ContentReportCreateRequest)
  | reportVenue (venueId : Uuid) (payload : VenueReportCreateRequest)

/-- What a route returns with the status 204, once its service has returned. -/
def Handler.noContent {α : Type} (p : Service α) : Handler Reply := do
  let _ ← Handler.call p
  return .noContent

namespace UserEndpoint

/-- The handler of a signed-in user. -/
def run (b : Backend) (c : Ctx) (currentUser : User) : UserEndpoint → Handler Reply
  | getMe => return .user currentUser.response
  | updateMe payload => do
    let updated ← Handler.call (updateProfile c currentUser payload.toProfileChanges)
    return .user updated.response
  | freezeMe => do
    let frozen ← Handler.call (freezeAccount currentUser)
    return .user frozen.response
  | deleteMe => .noContent (deleteAccount currentUser.id)
  | listMyBookmarkedCheckins page => do
    let checkins ← Handler.call
      (listBookmarkedCheckins b.bookmarkedCheckinPlan currentUser.id page.limit page.offset)
    return .checkins (checkins.map Checkin.response)
  | listMyBookmarkedLists page => do
    let lists ← Handler.call
      (listBookmarkedLists b.bookmarkedListPlan currentUser.id page.limit page.offset)
    return .lists lists
  | createVenue payload => do
    let venue ← Handler.call
      (OburBackend.createVenue c b.geography (payload.args currentUser.id))
    return .venue { toVenue := venue }
  | createCheckin payload => do
    let checkin ← Handler.call (OburBackend.createCheckin c (payload.args currentUser.id))
    return .checkin checkin.response
  | updateCheckin checkinId payload => do
    let checkin ← Handler.call
      (OburBackend.updateCheckin c checkinId currentUser payload.toCheckinUpdates)
    return .checkin checkin.response
  | deleteCheckin checkinId => .noContent (softDeleteCheckin c checkinId currentUser)
  | likeCheckin checkinId => .noContent (OburBackend.likeCheckin c checkinId currentUser)
  | unlikeCheckin checkinId => .noContent (OburBackend.unlikeCheckin checkinId currentUser)
  | bookmarkCheckin checkinId => .noContent (OburBackend.bookmarkCheckin c checkinId currentUser)
  | unbookmarkCheckin checkinId =>
    .noContent (OburBackend.unbookmarkCheckin checkinId currentUser)
  | followUser userId => .noContent (OburBackend.followUser c currentUser.id userId)
  | unfollowUser userId => .noContent (OburBackend.unfollowUser currentUser.id userId)
  | removeFollower followerId =>
    .noContent (OburBackend.removeFollower currentUser.id followerId)
  | addCloseFriend friendId => .noContent (OburBackend.addCloseFriend c currentUser.id friendId)
  | removeCloseFriend friendId =>
    .noContent (OburBackend.removeCloseFriend currentUser.id friendId)
  | listCloseFriends page => do
    let friends ← Handler.call
      (OburBackend.listCloseFriends b.closeFriendPlan currentUser.id page.limit page.offset)
    return .summaries (friends.map User.summary)
  | blockUser userId => .noContent (createBlock c currentUser.id userId)
  | unblockUser userId => .noContent (removeBlock currentUser.id userId)
  | listBlockedUsers page => do
    let blocked ← Handler.call (OburBackend.listBlockedUsers b.blockPlan page.limit page.offset)
    return .summaries (blocked.map User.summary)
  | muteUser userId => .noContent (createMute c currentUser.id userId)
  | unmuteUser userId => .noContent (removeMute currentUser.id userId)
  | listMutedUsers page => do
    let muted ← Handler.call
      (OburBackend.listMutedUsers b.mutePlan currentUser.id page.limit page.offset)
    return .summaries (muted.map User.summary)
  | createList payload => do
    let venueList ← Handler.call
      (OburBackend.createList c currentUser.id payload.title payload.description
        payload.visibility)
    return .list venueList
  | updateList listId payload => do
    let venueList ← Handler.call
      (OburBackend.updateList listId currentUser payload.toListUpdates)
    return .list venueList
  | deleteList listId => .noContent (OburBackend.deleteList listId currentUser)
  | addListItem listId payload => do
    let item ← Handler.call
      (OburBackend.addListItem c listId currentUser payload.venueId payload.afterItemId)
    return .listItem item
  | moveListItem listId itemId payload => do
    let item ← Handler.call
      (OburBackend.moveListItem c listId itemId currentUser payload.afterItemId)
    return .listItem item
  | removeListItem listId itemId =>
    .noContent (OburBackend.removeListItem listId itemId currentUser)
  | likeList listId => .noContent (OburBackend.likeList c listId currentUser)
  | unlikeList listId => .noContent (OburBackend.unlikeList listId currentUser)
  | bookmarkList listId => .noContent (OburBackend.bookmarkList c listId currentUser)
  | unbookmarkList listId => .noContent (OburBackend.unbookmarkList listId currentUser)
  | saveVenue payload => do
    let save ← Handler.call
      (VenueSave.saveVenue c currentUser.id payload.venueId payload.type payload.visibility)
    return .venueSave save
  | updateVenueSave venueSaveId payload => do
    let save ← Handler.call
      (OburBackend.updateVenueSave venueSaveId currentUser payload.visibility)
    return .venueSave save
  | deleteVenueSave venueSaveId =>
    .noContent (OburBackend.deleteVenueSave venueSaveId currentUser)
  | listNotifications page => do
    let notifications ← Handler.call
      (OburBackend.listNotifications b.notificationPlan currentUser.id page.limit page.offset)
    return .notifications (notifications.map Notification.response)
  | getUnreadNotificationCount => do
    let count ← Handler.call (countUnreadNotifications currentUser.id)
    return .unreadCount ⟨count⟩
  | markAllNotificationsRead =>
    .noContent (OburBackend.markAllNotificationsRead c currentUser.id)
  | reportCheckin checkinId payload =>
    .noContent (createContentReport c currentUser .checkin checkinId payload.reason
      payload.details)
  | reportUser userId payload =>
    .noContent (createContentReport c currentUser .user userId payload.reason payload.details)
  | reportVenue venueId payload =>
    .noContent (createVenueReport c currentUser.id venueId payload.reason payload.details)

end UserEndpoint

/-! ## The endpoints with an optional viewer -/

inductive ViewerEndpoint where
  | listUserCheckins (userId : Uuid) (page : Pagination)
  | listUserLists (userId : Uuid) (page : Pagination)
  | listUserVenueSaves (userId : Uuid) (type : Option VenueSaveType) (page : Pagination)
  | getCheckin (checkinId : Uuid)
  | getList (listId : Uuid)
  | listItems (listId : Uuid) (page : Pagination)
  | getVenueSave (venueSaveId : Uuid)
  | listVenueCheckins (venueId : Uuid) (page : Pagination)
  | listVenues (q : Option String) (page : Pagination)
  | getVenue (venueId : Uuid)
  | listVenueCategories

/-- `_with_category_names` -/
def withCategoryNames (b : Backend) (locale : String) (venues : List Venue) :
    List VenueResponse :=
  let names := resolveNames b.translationPlan b.translations locale
  venues.map fun venue => { toVenue := venue, categoryName := names venue.categoryId }

namespace ViewerEndpoint

/-- The handler for a viewer who may not be signed in. -/
def run (b : Backend) (c : Ctx) (acceptLanguage : Option String) (viewer : Option User) :
    ViewerEndpoint → Handler Reply
  | listUserCheckins userId page => do
    let checkins ← Handler.call
      (listCheckinsForUser b.checkinPlan userId viewer page.limit page.offset)
    return .checkins (checkins.map Checkin.response)
  | listUserLists userId page => do
    let lists ← Handler.call
      (listListsForUser b.listPlan userId viewer page.limit page.offset)
    return .lists lists
  | listUserVenueSaves userId type page => do
    let saves ← Handler.call
      (listVenueSavesForUser b.venueSavePlan userId type viewer page.limit page.offset)
    return .venueSaves saves
  | getCheckin checkinId => do
    let checkin ← Handler.call (OburBackend.getCheckin checkinId viewer)
    return .checkin checkin.response
  | getList listId => do
    let venueList ← Handler.call (OburBackend.getList listId viewer)
    return .list venueList
  | listItems listId page => do
    let _ ← Handler.call (OburBackend.getList listId viewer)
    let items ← Handler.call (listItemsForList c.itemPlan listId page.limit page.offset)
    return .listItems items
  | getVenueSave venueSaveId => do
    let save ← Handler.call (OburBackend.getVenueSave venueSaveId viewer)
    return .venueSave save
  | listVenueCheckins venueId page => do
    let checkins ← Handler.call
      (listCheckinsForVenue b.checkinPlan venueId viewer page.limit page.offset)
    return .checkins (checkins.map Checkin.response)
  | listVenues q page => do
    let venues ← match q with
      | some text => Handler.call (searchVenues b.nameSearch text page.limit page.offset)
      | none => Handler.call (OburBackend.listVenues b.venuePlan page.limit page.offset)
    return .venues (withCategoryNames b (resolveLocale acceptLanguage viewer) venues)
  | getVenue venueId => do
    let venue ← Handler.call (OburBackend.getVenue venueId)
    let names := resolveNames b.translationPlan b.translations (resolveLocale acceptLanguage viewer)
    return .venue { toVenue := venue, categoryName := names venue.categoryId }
  | listVenueCategories => do
    match ← Handler.call (listCategoryTree b.collation b.categoryPlan b.translationPlan
        b.translations (resolveLocale acceptLanguage viewer) b.recursionLimit) with
    | some tree => return .categories tree
    | none => .raise .recursionError

end ViewerEndpoint

/-! ## The endpoints of administrators (`app/api/v1/admin.py`) -/

inductive AdminEndpoint where
  | purgeCheckin (checkinId : Uuid)
  | verifyVenue (venueId : Uuid)
  | closeVenue (venueId : Uuid)
  | suspendVenue (venueId : Uuid)
  | suspendUser (userId : Uuid)
  | listContentReports (status : Option ReportStatus) (page : Pagination)
  | dismissContentReport (reportId : Uuid)
  | actionContentReport (reportId : Uuid)
  | listVenueReports (status : Option ReportStatus) (page : Pagination)
  | dismissVenueReport (reportId : Uuid)
  | actionVenueReport (reportId : Uuid)

namespace AdminEndpoint

/-- The handler of an administrator. -/
def run (b : Backend) (c : Ctx) (admin : User) : AdminEndpoint → Handler Reply
  | purgeCheckin checkinId => .noContent (hardDeleteCheckin checkinId)
  | verifyVenue venueId => do
    let venue ← Handler.call (verifyVenueByAdmin venueId)
    return .venue { toVenue := venue }
  | closeVenue venueId => do
    let venue ← Handler.call (OburBackend.closeVenue venueId)
    return .venue { toVenue := venue }
  | suspendVenue venueId => do
    let venue ← Handler.call (OburBackend.suspendVenue venueId)
    return .venue { toVenue := venue }
  | suspendUser userId => do
    let user ← Handler.call (suspendAccount userId)
    return .user user.response
  | listContentReports status page => do
    let reports ← Handler.call
      (OburBackend.listContentReports b.contentReportPlan status page.limit page.offset)
    return .contentReports reports
  | dismissContentReport reportId => do
    let report ← Handler.call (OburBackend.dismissContentReport c reportId admin.id)
    return .contentReport report
  | actionContentReport reportId => do
    let report ← Handler.call (OburBackend.actionContentReport c reportId admin.id)
    return .contentReport report
  | listVenueReports status page => do
    let reports ← Handler.call
      (OburBackend.listVenueReports b.venueReportPlan status page.limit page.offset)
    return .venueReports reports
  | dismissVenueReport reportId => do
    let report ← OburBackend.dismissVenueReport c reportId admin.id
    return .venueReport report
  | actionVenueReport reportId => do
    let report ← OburBackend.actionVenueReport c reportId admin.id
    return .venueReport report

end AdminEndpoint

/-! ## The endpoints that ask for nobody -/

inductive PublicEndpoint where
  | listFollowers (userId : Uuid) (page : Pagination)
  | listFollowing (userId : Uuid) (page : Pagination)

namespace PublicEndpoint

/-- The handler without an identity. -/
def run (b : Backend) : PublicEndpoint → Handler Reply
  | listFollowers userId page => do
    let followers ← Handler.call
      (OburBackend.listFollowers b.followPlan userId page.limit page.offset)
    return .summaries (followers.map User.summary)
  | listFollowing userId page => do
    let following ← Handler.call
      (OburBackend.listFollowing b.followPlan userId page.limit page.offset)
    return .summaries (following.map User.summary)

end PublicEndpoint

/-! ## Requests -/

inductive Endpoint where
  | user (e : UserEndpoint)
  | viewer (e : ViewerEndpoint)
  | admin (e : AdminEndpoint)
  | anonymous (e : PublicEndpoint)
  | handleClerkWebhook (webhook : WebhookRequest)

/-- A request that has reached its route. -/
structure Call where
  ctx : Ctx
  request : Request
  acceptLanguage : Option String
  endpoint : Endpoint

/-- The context of a request once its dependencies are resolved: its first new id was for a new
account. -/
def Ctx.resolved (c : Ctx) : Ctx := { c with uuid4 := fun n => c.uuid4 (n + 1) }

/-- The dependencies of the route, and its handler. -/
def handle (b : Backend) (call : Call) : Handler Reply :=
  match call.endpoint with
  | .user e => do
    let currentUser ← Handler.call (getCurrentUser call.ctx call.request)
    e.run b call.ctx.resolved currentUser
  | .viewer e => do
    let viewer ← Handler.call (getOptionalCurrentUser call.ctx call.request)
    e.run b call.ctx.resolved call.acceptLanguage viewer
  | .admin e => do
    let admin ← Handler.call (requireAdmin call.ctx call.request)
    e.run b call.ctx.resolved admin
  | .anonymous e => e.run b
  | .handleClerkWebhook webhook => do
    let response ← Handler.call (OburBackend.handleClerkWebhook call.ctx webhook)
    return .ack response

end OburBackend
