import OburBackend.Service.List
import OburBackend.Service.Social

/-!
# Likes, bookmarks and content reports

`app/services/like.py`, `bookmark.py` and `content_report.py`. Each resolves its target through
`get_checkin` or `get_list` first, so that nobody reacts to what they cannot see.

The four kinds of mark share their shape. `addMark` is what the functions do once the target is
resolved, `removeMark` the whole of their inverses; a like also notifies the owner of the target.
-/

namespace OburBackend

open Sql

section Marks

variable (T : DbTable Mark.key)

/-- The common part of `like_*` and `bookmark_*`: `notify` is what is flushed after the new row. -/
def addMark (c : Ctx) (userId targetId : Uuid) (notify : Service Unit) : Service Mark := do
  match ← T.get (userId, targetId) with
  | some existing => return existing
  | none =>
    T.insert { userId, targetId, createdAt := c.now }
    notify
    commit
    refresh T (userId, targetId)

/-- The common part of `unlike_*` and `unbookmark_*`. -/
def removeMark (userId targetId : Uuid) (error : ErrorClass) (message : String) :
    Service Unit := do
  match ← T.get (userId, targetId) with
  | none => raiseDomain error message
  | some _ =>
    T.delete (userId, targetId)
    commit

end Marks

/-- The notification of a like, unless the target is one's own. -/
def notifyLike (c : Ctx) (ownerId : Uuid) (type : NotificationType) (actorId : Uuid)
    (targetType : NotificationTargetType) (targetId : Uuid) : Service Unit := do
  if ownerId ≠ actorId then
    let _ ← createNotification c ownerId type (some actorId) targetType targetId

/-! ## Likes -/

/-- `like_checkin` -/
def likeCheckin (c : Ctx) (checkinId : Uuid) (currentUser : User) : Service CheckinLike := do
  let checkin ← getCheckin checkinId (some currentUser)
  addMark checkinLikes c currentUser.id checkinId
    (notifyLike c checkin.userId .checkinLike currentUser.id .checkin checkinId)

/-- `unlike_checkin` -/
def unlikeCheckin (checkinId : Uuid) (currentUser : User) : Service Unit :=
  removeMark checkinLikes currentUser.id checkinId .likeNotFound
    ("user " ++ currentUser.id.str ++ " has not liked checkin " ++ checkinId.str)

/-- `like_list` -/
def likeList (c : Ctx) (listId : Uuid) (currentUser : User) : Service ListLike := do
  let venueList ← getList listId (some currentUser)
  addMark listLikes c currentUser.id listId
    (notifyLike c venueList.userId .listLike currentUser.id .list listId)

/-- `unlike_list` -/
def unlikeList (listId : Uuid) (currentUser : User) : Service Unit :=
  removeMark listLikes currentUser.id listId .likeNotFound
    ("user " ++ currentUser.id.str ++ " has not liked list " ++ listId.str)

/-! ## Bookmarks -/

/-- `bookmark_checkin` -/
def bookmarkCheckin (c : Ctx) (checkinId : Uuid) (currentUser : User) :
    Service CheckinBookmark := do
  let _ ← getCheckin checkinId (some currentUser)
  addMark checkinBookmarks c currentUser.id checkinId (return ())

/-- `unbookmark_checkin` -/
def unbookmarkCheckin (checkinId : Uuid) (currentUser : User) : Service Unit :=
  removeMark checkinBookmarks currentUser.id checkinId .bookmarkNotFound
    ("user " ++ currentUser.id.str ++ " has not bookmarked checkin " ++ checkinId.str)

/-- `bookmark_list` -/
def bookmarkList (c : Ctx) (listId : Uuid) (currentUser : User) : Service ListBookmark := do
  let _ ← getList listId (some currentUser)
  addMark listBookmarks c currentUser.id listId (return ())

/-- `unbookmark_list` -/
def unbookmarkList (listId : Uuid) (currentUser : User) : Service Unit :=
  removeMark listBookmarks currentUser.id listId .bookmarkNotFound
    ("user " ++ currentUser.id.str ++ " has not bookmarked list " ++ listId.str)

/-- The visibility conditions of a listing of one's own bookmarks. -/
def bookmarkListable (me : Identity) (db : Db) (userId ownerId : Uuid) (visibility : String) :
    Bool :=
  decide (visibility = Visibility.pub) || (decide (ownerId = userId) ||
    decide (visibility = Visibility.closeFriends) && closeFriendOfOwnerExists me db ownerId userId)

/-- `list_bookmarked_checkins` -/
def listBookmarkedCheckins (plan : Plan (Checkin × CheckinBookmark)) (userId : Uuid)
    (limit offset : ℕ) : Service (List Checkin) :=
  query ⟨.select, .checkinBookmarks, [userId]⟩ fun me db =>
    let rows := join
      (checkins.rows me db fun c =>
        c.deletedAt.isNone && bookmarkListable me db userId c.userId c.visibility)
      (checkinBookmarks.rows me db fun b => decide (b.userId = userId))
      fun c b => decide (b.targetId = c.id)
    (page limit offset (orderByDesc (fun p => p.2.createdAt) plan rows)).map Prod.fst

/-- `list_bookmarked_lists` -/
def listBookmarkedLists (plan : Plan (VenueList × ListBookmark)) (userId : Uuid)
    (limit offset : ℕ) : Service (List VenueList) :=
  query ⟨.select, .listBookmarks, [userId]⟩ fun me db =>
    let rows := join
      (lists.rows me db fun l => bookmarkListable me db userId l.userId l.visibility)
      (listBookmarks.rows me db fun b => decide (b.userId = userId))
      fun l b => decide (b.targetId = l.id)
    (page limit offset (orderByDesc (fun p => p.2.createdAt) plan rows)).map Prod.fst

/-! ## Content reports -/

/-- `create_content_report` -/
def createContentReport (c : Ctx) (reporter : User) (targetType : ContentReportTargetType)
    (targetId : Uuid) (reason : ContentReportReason) (details : Option String) :
    Service ContentReport := do
  let found ← scalarOneOrNone (← select contentReports .contentReports [reporter.id, targetId]
    fun r => decide (r.reporterId = some reporter.id) &&
      (decide (r.targetType = targetType) && decide (r.targetId = targetId)))
  match found with
  | some report => return report
  | none =>
    if targetType = .checkin then
      let _ ← getCheckin targetId (some reporter)
    let report : ContentReport :=
      { id := c.uuid4 0, reporterId := some reporter.id, targetType, targetId, reason, details
        status := .pending, resolvedBy := none, resolvedAt := none, createdAt := c.now }
    contentReports.insert report
    commit
    refresh contentReports report.id

/-- `list_content_reports` -/
def listContentReports (plan : Plan ContentReport) (status : Option ReportStatus)
    (limit offset : ℕ) : Service (List ContentReport) :=
  query ⟨.select, .contentReports, []⟩ fun me db =>
    page limit offset <| orderByDesc ContentReport.createdAt plan <|
      contentReports.rows me db fun r => status.all fun s => decide (r.status = s)

end OburBackend
