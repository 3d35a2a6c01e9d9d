import Mathlib.Algebra.Order.Ring.Unbundled.Rat
import Mathlib.Data.String.Basic
import OburBackend.Service.List
import OburBackend.Service.Reaction
import OburBackend.Service.Venue
import OburBackend.Sql.Paging

/-!
# The pages of a listing

Every listing is one ordered query and takes its page by `LIMIT` and `OFFSET`. The column it is
ordered by is unique in none of them, so the pages of a listing hold every row once as long as no
page ends between two rows with the same time of creation, similarity or position
(`Listing.onceEach_iff_not_straddles`).
-/

namespace OburBackend

open Sql

/-- The paginated listings. -/
inductive Listing where
  | allVenues
  | venuesByName (search : NameSearch) (text : String)
  | checkinsForVenue (venueId : Uuid) (viewer : Option User)
  | checkinsForUser (targetUserId : Uuid) (viewer : Option User)
  | listsForUser (targetUserId : Uuid) (viewer : Option User)
  | itemsForList (listId : Uuid)
  | venueSavesForUser (targetUserId : Uuid) (type : Option VenueSaveType) (viewer : Option User)
  | bookmarkedCheckins (userId : Uuid)
  | bookmarkedLists (userId : Uuid)
  | followersOf (userId : Uuid)
  | followedBy (userId : Uuid)
  | closeFriendsOf (userId : Uuid)
  | notificationsFor (userId : Uuid)
  | mutedUsers (userId : Uuid)
  | blockedUsers
  | contentReportQueue (status : Option ReportStatus)
  | venueReportQueue (status : Option ReportStatus)

namespace Listing

/-- The rows of the query of a listing. -/
def Row : Listing → Type
  | allVenues | venuesByName .. => Venue
  | checkinsForVenue .. | checkinsForUser .. => Checkin
  | listsForUser .. => VenueList
  | itemsForList .. => ListItem
  | venueSavesForUser .. => VenueSave
  | bookmarkedCheckins .. => Checkin × CheckinBookmark
  | bookmarkedLists .. => VenueList × ListBookmark
  | followersOf .. | followedBy .. => User × Follow
  | closeFriendsOf .. => User × CloseFriend
  | notificationsFor .. => Notification
  | mutedUsers .. => User × Mute
  | blockedUsers => User × Block
  | contentReportQueue .. => ContentReport
  | venueReportQueue .. => VenueReport

/-- What a listing returns of its rows. -/
def Item : Listing → Type
  | allVenues | venuesByName .. => Venue
  | checkinsForVenue .. | checkinsForUser .. | bookmarkedCheckins .. => Checkin
  | listsForUser .. | bookmarkedLists .. => VenueList
  | itemsForList .. => ListItem
  | venueSavesForUser .. => VenueSave
  | followersOf .. | followedBy .. | closeFriendsOf .. | mutedUsers .. | blockedUsers => User
  | notificationsFor .. => Notification
  | contentReportQueue .. => ContentReport
  | venueReportQueue .. => VenueReport

/-- A page of the listing: the service behind it. -/
def fetch : (l : Listing) → Plan l.Row → ℕ → ℕ → Service (List l.Item)
  | allVenues => listVenues
  | venuesByName search text => fun plan => searchVenues { search with plan } text
  | checkinsForVenue venueId viewer => fun plan => listCheckinsForVenue plan venueId viewer
  | checkinsForUser targetUserId viewer => fun plan => listCheckinsForUser plan targetUserId viewer
  | listsForUser targetUserId viewer => fun plan => listListsForUser plan targetUserId viewer
  | itemsForList listId => fun plan => listItemsForList plan listId
  | venueSavesForUser targetUserId type viewer => fun plan =>
    listVenueSavesForUser plan targetUserId type viewer
  | bookmarkedCheckins userId => fun plan => listBookmarkedCheckins plan userId
  | bookmarkedLists userId => fun plan => listBookmarkedLists plan userId
  | followersOf userId => fun plan => listFollowers plan userId
  | followedBy userId => fun plan => listFollowing plan userId
  | closeFriendsOf userId => fun plan => listCloseFriends plan userId
  | notificationsFor userId => fun plan => listNotifications plan userId
  | mutedUsers userId => fun plan => listMutedUsers plan userId
  | blockedUsers => listBlockedUsers
  | contentReportQueue status => fun plan => listContentReports plan status
  | venueReportQueue status => fun plan => listVenueReports plan status

end Listing

/-! ## What the listings select -/

section

variable {me : Identity} {db : Db}

/-- A list stays without repetitions under `id`. -/
theorem nodup_map_id {α : Type} {l : List α} (h : l.Nodup) : (l.map id).Nodup := by
  rwa [List.map_id]

/-- Rows that are joined by their id, with rows of which no two have the same other end. -/
theorem nodup_join_of_other {α ρ : Type} {xs : List α} {rs : List ρ} {id : α → Uuid}
    {other : ρ → Uuid} (hxs : xs.Nodup) (hrs : rs.Nodup)
    (hother : ∀ r ∈ rs, ∀ r' ∈ rs, other r = other r' → r = r') :
    ((join xs rs fun x r => decide (other r = id x)).map Prod.fst).Nodup := by
  refine nodup_join_map_fst hxs hrs fun u _ r hr r' hr' hon hon' => hother r hr r' hr' ?_
  exact (of_decide_eq_true hon).trans (of_decide_eq_true hon').symm

/-- The rows of a table with a key of two columns, of which the condition fixes the one. -/
theorem eq_of_other_eq {ρ : Type} {key : ρ → Uuid × Uuid} {T : DbTable key} {p : ρ → Bool}
    {own other : ρ → Uuid} {userId : Uuid}
    (hkey : ∀ r r', own r = own r' → other r = other r' → key r = key r')
    (hp : ∀ r, p r = true → own r = userId) :
    ∀ r ∈ T.rows me db p, ∀ r' ∈ T.rows me db p, other r = other r' → r = r' := by
  intro r hr r' hr' heq
  obtain ⟨hr, hpr, -⟩ := T.mem_rows.mp hr
  obtain ⟨hr', hpr', -⟩ := T.mem_rows.mp hr'
  exact Table.eq_of_key_eq hr hr' (hkey r r' ((hp r hpr).trans (hp r' hpr').symm) heq)

/-- The users at the end `user` of the follows whose end `other` is the given one are different. -/
theorem nodup_follows {user other : Follow → Uuid} {userId : Uuid}
    (hkey : ∀ r r', other r = other r' → user r = user r' → Follow.key r = Follow.key r') :
    ((join (users.rows me db fun _ => true)
      (follows.rows me db fun r => decide (other r = userId) && accountIsVisible me db (user r))
      fun u r => decide (user r = u.id)).map Prod.fst).Nodup := by
  have hp : ∀ r, (decide (other r = userId) && accountIsVisible me db (user r)) = true →
      other r = userId := by
    intro r hr
    rw [Bool.and_eq_true, decide_eq_true_eq] at hr
    exact hr.1
  exact nodup_join_of_other users.rows_nodup follows.rows_nodup (eq_of_other_eq hkey hp)

end

/-- The query of a listing, without its page: which rows the viewer sees and how they are
ordered. -/
def Listing.selection (me : Identity) (db : Db) : (l : Listing) → Selection l.Row l.Item
  | allVenues => .desc Venue.createdAt id (venues.rows me db fun _ => true)
    (nodup_map_id venues.rows_nodup)
  | venuesByName search text =>
    let unaccentedQuery := search.immutableUnaccent text
    .desc (fun v => search.wordSimilarity unaccentedQuery (search.immutableUnaccent v.name)) id
      (venues.rows me db fun v =>
        search.wordSimilar minNameSimilarity unaccentedQuery (search.immutableUnaccent v.name))
      (nodup_map_id venues.rows_nodup)
  | checkinsForVenue venueId viewer => .desc Checkin.createdAt id
    (checkins.rows me db fun c =>
      decide (c.venueId = venueId) && (c.deletedAt.isNone && (accountIsVisible me db c.userId &&
        listable me db viewer (isOwnerOrAdmin c.userId) c.userId c.visibility)))
    (nodup_map_id checkins.rows_nodup)
  | checkinsForUser targetUserId viewer => .desc Checkin.createdAt id
    (checkins.rows me db fun c =>
      decide (c.userId = targetUserId) && (c.deletedAt.isNone && (accountIsVisible me db c.userId &&
        listable me db viewer (isOwnerOrAdmin targetUserId) c.userId c.visibility)))
    (nodup_map_id checkins.rows_nodup)
  | listsForUser targetUserId viewer => .desc VenueList.createdAt id
    (lists.rows me db fun l => decide (l.userId = targetUserId) &&
      listable me db viewer (isOwnerOrAdmin targetUserId) l.userId l.visibility)
    (nodup_map_id lists.rows_nodup)
  | itemsForList listId => .asc ListItem.position id
    (listItems.rows me db fun r => decide (r.listId = listId)) (nodup_map_id listItems.rows_nodup)
  | venueSavesForUser targetUserId type viewer => .desc VenueSave.createdAt id
    (venueSaves.rows me db fun r =>
      decide (r.userId = targetUserId) && (type.all (fun t => decide (r.type = t)) &&
        listable me db viewer (isOwnerOrAdmin targetUserId) r.userId r.visibility))
    (nodup_map_id venueSaves.rows_nodup)
  | bookmarkedCheckins userId => .desc (fun p => p.2.createdAt) Prod.fst
    (join
      (checkins.rows me db fun c =>
        c.deletedAt.isNone && bookmarkListable me db userId c.userId c.visibility)
      (checkinBookmarks.rows me db fun b => decide (b.userId = userId))
      fun c b => decide (b.targetId = c.id))
    (nodup_join_of_other checkins.rows_nodup checkinBookmarks.rows_nodup
      (eq_of_other_eq (fun _ _ h h' => Prod.ext h h') fun _ => of_decide_eq_true))
  | bookmarkedLists userId => .desc (fun p => p.2.createdAt) Prod.fst
    (join (lists.rows me db fun l => bookmarkListable me db userId l.userId l.visibility)
      (listBookmarks.rows me db fun b => decide (b.userId = userId))
      fun l b => decide (b.targetId = l.id))
    (nodup_join_of_other lists.rows_nodup listBookmarks.rows_nodup
      (eq_of_other_eq (fun _ _ h h' => Prod.ext h h') fun _ => of_decide_eq_true))
  | followersOf userId => .desc (fun p => p.2.createdAt) Prod.fst
    (join (users.rows me db fun _ => true)
      (follows.rows me db fun r =>
        decide (r.followingId = userId) && accountIsVisible me db r.followerId)
      fun u r => decide (r.followerId = u.id))
    (nodup_follows fun _ _ h h' => Prod.ext h' h)
  | followedBy userId => .desc (fun p => p.2.createdAt) Prod.fst
    (join (users.rows me db fun _ => true)
      (follows.rows me db fun r =>
        decide (r.followerId = userId) && accountIsVisible me db r.followingId)
      fun u r => decide (r.followingId = u.id))
    (nodup_follows fun _ _ h h' => Prod.ext h h')
  | closeFriendsOf userId => .desc (fun p => p.2.createdAt) Prod.fst
    (join (users.rows me db fun _ => true)
      (closeFriends.rows me db fun r => decide (r.userId = userId))
      fun u r => decide (r.friendId = u.id))
    (nodup_join_of_other users.rows_nodup closeFriends.rows_nodup
      (eq_of_other_eq (fun _ _ h h' => Prod.ext h h') fun _ => of_decide_eq_true))
  | notificationsFor userId => .desc Notification.createdAt id
    (notifications.rows me db fun n => decide (n.userId = userId))
    (nodup_map_id notifications.rows_nodup)
  | mutedUsers userId => .desc (fun p => p.2.createdAt) Prod.fst
    (join (users.rows me db fun _ => true) (mutes.rows me db fun r => decide (r.userId = userId))
      fun u r => decide (r.mutedId = u.id))
    (nodup_join_of_other users.rows_nodup mutes.rows_nodup
      (eq_of_other_eq (fun _ _ h h' => Prod.ext h h') fun _ => of_decide_eq_true))
  | blockedUsers => .desc (fun p => p.2.createdAt) Prod.fst
    (join db.users.rows (db.blocks.select fun b => decide (me = some b.blockerId))
      fun u b => decide (b.blockedId = u.id))
    (nodup_join_of_other db.users.rows_nodup (db.blocks.select_nodup _) (by
      intro r hr r' hr' heq
      obtain ⟨hr, hme⟩ := Table.mem_select.mp hr
      obtain ⟨hr', hme'⟩ := Table.mem_select.mp hr'
      refine Table.eq_of_key_eq hr hr' (Prod.ext (Option.some.inj ?_) heq)
      exact (of_decide_eq_true hme).symm.trans (of_decide_eq_true hme')))
  | contentReportQueue status => .desc ContentReport.createdAt id
    (contentReports.rows me db fun r => status.all fun s => decide (r.status = s))
    (nodup_map_id contentReports.rows_nodup)
  | venueReportQueue status => .desc VenueReport.createdAt id
    (venueReports.rows me db fun r => status.all fun s => decide (r.status = s))
    (nodup_map_id venueReports.rows_nodup)

namespace Listing

/-- Every listing takes its page of what it selects. -/
theorem outcome_fetch (l : Listing) (plan : Plan l.Row) (limit offset : ℕ) (me : Identity)
    (db : Db) :
    (l.fetch plan limit offset).outcome me db =
      .ok ((l.selection me db).page plan limit offset) := by
  cases l with
  | allVenues | venuesByName | checkinsForVenue | checkinsForUser | listsForUser | itemsForList
  | venueSavesForUser | notificationsFor | contentReportQueue | venueReportQueue =>
    exact congrArg Except.ok (List.map_id _).symm
  | bookmarkedCheckins | bookmarkedLists | followersOf | followedBy | closeFriendsOf | mutedUsers
  | blockedUsers => rfl

/-- Whoever reads the listing page after page until a page is empty gets every visible row exactly
once. -/
def OnceEach (l : Listing) (me : Identity) (db : Db) (limit : ℕ) : Prop :=
  ∀ plans : ℕ → Plan l.Row, ∃ pages : ℕ → List l.Item,
    (∀ i, (l.fetch (plans i) limit (i * limit)).outcome me db = .ok (pages i)) ∧
    ∃ items, Collects pages items ∧ items.Nodup ∧
      ∀ b, b ∈ items ↔ b ∈ (l.selection me db).rows.map (l.selection me db).item

/-- The pages of a listing are those of what it selects. -/
theorem onceEach_iff_selection {l : Listing} {me : Identity} {db : Db} {limit : ℕ} :
    l.OnceEach me db limit ↔ (l.selection me db).OnceEach limit := by
  refine forall_congr' fun plans => ?_
  constructor
  · rintro ⟨pages, hpages, hitems⟩
    have hfun : pages = fun i => (l.selection me db).page (plans i) limit (i * limit) :=
      funext fun i => Except.ok.inj ((hpages i).symm.trans (l.outcome_fetch ..))
    rwa [hfun] at hitems
  · intro hitems
    exact ⟨_, fun i => l.outcome_fetch .., hitems⟩

/-- For every listing, database and viewer: the pages of a size hold every visible row exactly once,
however each query arranges the rows that tie, if and only if no page ends inside a group of rows
that tie. -/
theorem onceEach_iff_not_straddles (l : Listing) (me : Identity) (db : Db) {limit : ℕ}
    (hlimit : 1 ≤ limit) :
    l.OnceEach me db limit ↔ ¬ (l.selection me db).Straddles limit := by
  rw [onceEach_iff_selection]
  exact (l.selection me db).onceEach_iff hlimit

end Listing

/-! ### Two branches of a chain -/

/-- A branch of a chain, which has the name of all the others. -/
def branch (id : Uuid) (createdAt : Timestamp) : Venue where
  id
  name := "Moda Kahve"
  lat := 41
  lng := 29
  addressNote := none
  googlePlacesId := none
  addedBy := none
  categoryId := 3
  city := none
  countryCode := none
  timezone := none
  district := none
  isVerified := false
  isActive := true
  isSuspended := false
  createdAt

def chainDb : Db :=
  { Db.empty with venues := Table.empty.insert (branch 1 0) |>.insert (branch 2 60) }

/-- A search in which a name is as similar as can be to itself. -/
def exactSearch : NameSearch where
  immutableUnaccent name := name
  wordSimilar _ query name := decide (query = name)
  wordSimilarity query name := if query = name then 1 else 0
  plan := .sequential

/-- One page holds both branches. -/
theorem onceEach_iff_not_straddles_chain :
    (Listing.venuesByName exactSearch "Moda Kahve").OnceEach none chainDb 2 := by
  refine (Listing.onceEach_iff_not_straddles _ none chainDb (by decide)).mpr ?_
  rintro ⟨v, -, n, hlow, hhigh⟩
  have hall := Nat.lt_of_lt_of_le hhigh List.countP_le_length
  have hrows :
      ((Listing.venuesByName exactSearch "Moda Kahve").selection none chainDb).rows.length = 2 := by
    decide
  omega

/-- On pages of one venue each, a branch can come twice. -/
theorem not_onceEach_chain :
    ¬ (Listing.venuesByName exactSearch "Moda Kahve").OnceEach none chainDb 1 := by
  rw [Listing.onceEach_iff_selection, Selection.onceEach_iff _ Nat.one_pos, not_not]
  refine ⟨branch 1 0, ?_, 1, ?_, ?_⟩
  · have hfound : branch 1 0 ∈
        venues.rows none chainDb fun v => decide ("Moda Kahve" = v.name) := by
      decide
    exact hfound
  · decide
  · decide

end OburBackend
