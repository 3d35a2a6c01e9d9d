import OburBackend.History.Services

/-!
# Every request writes the changes of the application

The services of `History/Services.lean` continued, with the relationships, the reactions, the
notifications and the reports, and then the routes: `writes_handle` is the statement for a whole
request.
-/

namespace OburBackend

open Sql Prog

variable {New : Uuid → Prop} {A : Identity → Prop} {c : Ctx}

/-! ## Relationships -/

/-- A new notification has a drawn id. -/
theorem writes_createNotification (hc : c.Draws New) (userId : Uuid) (type : NotificationType)
    (actorId : Option Uuid) (targetType : NotificationTargetType) (targetId : Uuid) :
    (createNotification c userId type actorId targetType targetId).Writes (Change New) A :=
  (TableDef.writes_insert (R := notificationRules New) ⟨hc 0, rfl⟩ fun _ _ _ =>
    .notifications).bind fun _ => trivial

/-- A follow adds its row and a notification. -/
theorem writes_followUser (hc : c.Draws New) (followerId followingId : Uuid) :
    (followUser c followerId followingId).Writes (Change New) A := by
  unfold followUser
  split
  · trivial
  · refine (writes_get _).bind fun found => ?_
    cases found with
    | some existing => trivial
    | none =>
      exact (TableDef.writes_insert (R := relationRules) trivial fun _ _ _ => .follows).bind
        fun _ => (writes_createNotification hc _ _ _ _ _).bind fun _ => writes_commit_refresh

/-- An unfollow deletes the row. -/
theorem writes_unfollowUser (followerId followingId : Uuid) :
    (unfollowUser followerId followingId).Writes (Change New) A := by
  refine (writes_get _).bind fun found => ?_
  cases found with
  | none => trivial
  | some _ =>
    exact (TableDef.writes_delete (R := relationRules) trivial fun _ _ _ => .follows).bind
      fun _ => writes_commit

/-- Adding a close friend adds one row. -/
theorem writes_addCloseFriend (userId friendId : Uuid) :
    (addCloseFriend c userId friendId).Writes (Change New) A := by
  refine (writes_get _).bind fun found => ?_
  cases found with
  | some existing => trivial
  | none =>
    refine (writes_get _).bind fun follow => ?_
    cases follow with
    | none => trivial
    | some _ =>
      exact (TableDef.writes_insert (R := relationRules) trivial fun _ _ _ => .closeFriends).bind
        fun _ => writes_commit_refresh

/-- Removing one deletes it. -/
theorem writes_removeCloseFriend (userId friendId : Uuid) :
    (removeCloseFriend userId friendId).Writes (Change New) A := by
  refine (writes_get _).bind fun found => ?_
  cases found with
  | none => trivial
  | some _ =>
    exact (TableDef.writes_delete (R := relationRules) trivial fun _ _ _ => .closeFriends).bind
      fun _ => writes_commit

/-- A mute adds one row. -/
theorem writes_createMute (userId mutedId : Uuid) :
    (createMute c userId mutedId).Writes (Change New) A := by
  unfold createMute
  split
  · trivial
  · refine (writes_get _).bind fun found => ?_
    cases found with
    | some existing => trivial
    | none =>
      exact (TableDef.writes_insert (R := relationRules) trivial fun _ _ _ => .mutes).bind
        fun _ => writes_commit_refresh

/-- Removing it deletes the row. -/
theorem writes_removeMute (userId mutedId : Uuid) :
    (removeMute userId mutedId).Writes (Change New) A := by
  refine (writes_get _).bind fun found => ?_
  cases found with
  | none => trivial
  | some _ =>
    exact (TableDef.writes_delete (R := relationRules) trivial fun _ _ _ => .mutes).bind
      fun _ => writes_commit

/-- A statement of a `SECURITY DEFINER` function. -/
theorem writes_definerDelete {ρ π : Type} {key : ρ → π} [DecidableEq π] {T : DbTable key}
    {st : Stmt} {p : Db → ρ → Bool}
    (h : ∀ me db, Change New me db (T.definerDeleteWrite db (p db))) :
    (T.definerDelete st p : Service Unit).Writes (Change New) A := by
  refine ⟨?_, trivial, fun _ => trivial⟩
  rintro me db _ ⟨⟩
  exact h me db

/-- The purge deletes marks and notifications between the two. -/
theorem writes_rlsPurgeInteractionsBetween (userA userB : Uuid) :
    (rlsPurgeInteractionsBetween userA userB).Writes (Change New) A :=
  (writes_definerDelete fun _ _ => .purgeCheckinLikes rfl).bind fun _ =>
    (writes_definerDelete fun _ _ => .purgeListLikes rfl).bind fun _ =>
    (writes_definerDelete fun _ _ => .purgeCheckinBookmarks rfl).bind fun _ =>
    (writes_definerDelete fun _ _ => .purgeListBookmarks rfl).bind fun _ =>
    writes_definerDelete fun _ _ => .purgeNotifications rfl

/-- A block deletes the follows between the two. -/
theorem writes_deleteFollow (k : Uuid × Uuid) :
    (follows.delete k : Service Unit).Writes (Change New) A :=
  TableDef.writes_delete (R := relationRules) trivial fun _ _ _ => .follows

/-- All that a block writes are changes. -/
theorem writes_createBlock (blockerId blockedId : Uuid) :
    (createBlock c blockerId blockedId).Writes (Change New) A := by
  unfold createBlock
  split
  · trivial
  · refine (writes_get _).bind fun found => ?_
    cases found with
    | some existing => trivial
    | none =>
      have hback (back : Option Follow) : (do
          rlsPurgeInteractionsBetween blockerId blockedId
          if back.isSome then
            follows.delete (blockedId, blockerId)
          commit
          refresh blocks (blockerId, blockedId) : Service Block).Writes (Change New) A := by
        refine (writes_rlsPurgeInteractionsBetween _ _).bind fun _ => ?_
        split
        · exact (writes_deleteFollow _).bind fun _ => writes_commit_refresh
        · exact writes_commit_refresh
      refine (TableDef.writes_insert (R := relationRules) trivial fun _ _ _ => .blocks).bind
        fun _ => (writes_get _).bind fun forth => ?_
      split
      · exact (writes_deleteFollow _).bind fun _ => (writes_get _).bind hback
      · exact (writes_get _).bind hback

/-- Removing it deletes its row. -/
theorem writes_removeBlock (blockerId blockedId : Uuid) :
    (removeBlock blockerId blockedId).Writes (Change New) A := by
  refine (writes_get _).bind fun found => ?_
  cases found with
  | none => trivial
  | some _ =>
    exact (TableDef.writes_delete (R := relationRules) trivial fun _ _ _ => .blocks).bind
      fun _ => writes_commit

/-! ## Reactions -/

section Marks

variable {T : DbTable Mark.key}
  (hT : ∀ me db wr, T.Changes relationRules me db wr → Change New me db wr)

include hT

/-- A like or a bookmark adds its row and what it notifies. -/
theorem writes_addMark {userId targetId : Uuid} {notify : Service Unit}
    (hnotify : notify.Writes (Change New) A) :
    (addMark T c userId targetId notify).Writes (Change New) A := by
  refine (writes_get _).bind fun found => ?_
  cases found with
  | some existing => trivial
  | none =>
    exact (TableDef.writes_insert (R := relationRules) trivial hT).bind fun _ =>
      hnotify.bind fun _ => writes_commit_refresh

/-- Taking it back deletes the row. -/
theorem writes_removeMark {userId targetId : Uuid} {error : ErrorClass} {message : String} :
    (removeMark T userId targetId error message).Writes (Change New) A := by
  refine (writes_get _).bind fun found => ?_
  cases found with
  | none => trivial
  | some _ =>
    exact (TableDef.writes_delete (R := relationRules) trivial hT).bind fun _ => writes_commit

end Marks

/-- The notification of a like has a drawn id. -/
theorem writes_notifyLike (hc : c.Draws New) (ownerId : Uuid) (type : NotificationType)
    (actorId : Uuid) (targetType : NotificationTargetType) (targetId : Uuid) :
    (notifyLike c ownerId type actorId targetType targetId).Writes (Change New) A := by
  unfold notifyLike
  split
  · exact (writes_createNotification hc _ _ _ _ _).bind fun _ => trivial
  · trivial

/-- Liking a check-in adds a like, and at most a notification. -/
theorem writes_likeCheckin (hc : c.Draws New) (checkinId : Uuid) (u : User) :
    (likeCheckin c checkinId u).Writes (Change New) A :=
  (readOnly_getCheckin _ _).writes.bind fun _ =>
    writes_addMark (fun _ _ _ => .checkinLikes) (writes_notifyLike hc _ _ _ _ _)

/-- So does liking a list. -/
theorem writes_likeList (hc : c.Draws New) (listId : Uuid) (u : User) :
    (likeList c listId u).Writes (Change New) A :=
  (readOnly_getList _ _).writes.bind fun _ =>
    writes_addMark (fun _ _ _ => .listLikes) (writes_notifyLike hc _ _ _ _ _)

/-- Bookmarking a check-in adds a bookmark. -/
theorem writes_bookmarkCheckin (checkinId : Uuid) (u : User) :
    (bookmarkCheckin c checkinId u).Writes (Change New) A :=
  (readOnly_getCheckin _ _).writes.bind fun _ =>
    writes_addMark (fun _ _ _ => .checkinBookmarks) trivial

/-- So does bookmarking a list. -/
theorem writes_bookmarkList (listId : Uuid) (u : User) :
    (bookmarkList c listId u).Writes (Change New) A :=
  (readOnly_getList _ _).writes.bind fun _ =>
    writes_addMark (fun _ _ _ => .listBookmarks) trivial

/-! ## Notifications -/

/-- Marking as read, one row after the other. -/
theorem writes_readEach (now : Timestamp) (ids : List Uuid) :
    (notifications.updateEach (Notification.read now) (Notification.read_id now) ids
      : Service Unit).Writes (Change New) A := by
  have hedit : ∀ n n', Notification.read now n = some n' → (notificationRules New).edit n n' := by
    rintro n _ ⟨⟩
    exact ⟨rfl, fun _ => rfl⟩
  have hone (id : Uuid) : (notifications.updateIfThere id (Notification.read now)
      (Notification.read_id now) : Service Unit).Writes (Change New) A := by
    refine ⟨fun me db wr h => ?_, trivial, fun _ => trivial⟩
    rcases notifications.updateIfThereWrite_eq_ok h with h | ⟨-, rfl⟩
    · exact .notifications (.update hedit h)
    · exact .nothing rfl
  have hall (ids : List Uuid) : (ids.foldr (fun id rest => (notifications.updateIfThere id
      (Notification.read now) (Notification.read_id now)).bind fun _ => rest)
      (.ret ()) : Service Unit).Writes (Change New) A := by
    induction ids with
    | nil => trivial
    | cons id ids ih => exact (hone id).bind fun _ => ih
  match ids with
  | [] => trivial
  | [id] => exact TableDef.writes_update hedit fun _ _ _ => .notifications
  | id :: id' :: ids => exact hall (id :: id' :: ids)

/-- Marking all as read edits the caller's notifications. -/
theorem writes_markAllNotificationsRead (userId : Uuid) :
    (markAllNotificationsRead c userId).Writes (Change New) A :=
  (writes_query _ _).bind fun _ => (writes_readEach _ _).bind fun _ => writes_commit

/-! ## Reports -/

/-- A new report has a drawn id and is pending. -/
theorem writes_createContentReport (hc : c.Draws New) (reporter : User)
    (targetType : ContentReportTargetType) (targetId : Uuid) (reason : ContentReportReason)
    (details : Option String) :
    (createContentReport c reporter targetType targetId reason details).Writes (Change New) A := by
  refine writes_select.bind fun rows => (writes_scalarOneOrNone rows).bind fun found => ?_
  cases found with
  | some report => trivial
  | none =>
    dsimp only
    split
    · exact (readOnly_getCheckin _ _).writes.bind fun _ =>
        (TableDef.writes_insert (R := contentReportRules New) ⟨hc 0, rfl⟩ fun _ _ _ =>
          .contentReports).bind fun _ => writes_commit_refresh
    · exact (TableDef.writes_insert (R := contentReportRules New) ⟨hc 0, rfl⟩ fun _ _ _ =>
        .contentReports).bind fun _ => writes_commit_refresh

/-- So it is with a report on a venue. -/
theorem writes_createVenueReport (hc : c.Draws New) (reporterId venueId : Uuid)
    (reason : VenueReportReason) (details : Option String) :
    (createVenueReport c reporterId venueId reason details).Writes (Change New) A := by
  refine writes_select.bind fun rows => (writes_scalarOneOrNone rows).bind fun found => ?_
  cases found with
  | some report => trivial
  | none =>
    exact (readOnly_getVenue _).writes.bind fun _ =>
      (TableDef.writes_insert (R := venueReportRules New) ⟨hc 0, rfl⟩ fun _ _ _ =>
        .venueReports).bind fun _ => writes_commit_refresh

/-- A resolution is an edit of its report, if `R` allows it. -/
theorem writes_saveResolution {ρ : Type} {key : ρ → Uuid} {T : DbTable key} {R : ChangeRules ρ}
    {reportId : Uuid} {loaded new : Resolution} {resolution : ρ → Resolution}
    {withResolution : ρ → Resolution → ρ} {hkey : ∀ r x, key (withResolution r x) = key r}
    (hT : ∀ me db wr, T.Changes R me db wr → Change New me db wr)
    (hedit : ∀ r, R.edit r (withResolution r (loaded.merge new (resolution r)))) :
    (saveResolution T reportId loaded new resolution withResolution hkey).Writes
      (Change New) A := by
  unfold saveResolution
  split
  · refine (TableDef.writes_update ?_ hT).bind fun _ => writes_commit_refresh
    rintro r _ ⟨⟩
    exact hedit r
  · exact writes_commit_refresh

/-- A report is resolved, and never made pending again. -/
theorem writes_resolveContentReport (reportId adminId : Uuid) {status : ReportStatus}
    (hstatus : status ≠ .pending) :
    (resolveContentReport c reportId adminId status).Writes (Change New) A := by
  refine (writes_get _).bind fun found => ?_
  cases found with
  | none => trivial
  | some report =>
    exact writes_saveResolution (R := contentReportRules New) (fun _ _ _ => .contentReports)
      fun r => ⟨rfl, .inl rfl, Resolution.later_merge hstatus rfl _⟩

/-- So it is with a report on a venue. -/
theorem writes_resolveVenueReport (reportId adminId : Uuid) {status : ReportStatus}
    (hstatus : status ≠ .pending) :
    (resolveVenueReport c reportId adminId status).Writes (Change New) A := by
  refine (writes_get _).bind fun found => ?_
  cases found with
  | none => trivial
  | some report =>
    exact (writes_saveResolution (R := venueReportRules New) (fun _ _ _ => .venueReports)
      fun r => ⟨rfl, .inl rfl, Resolution.later_merge hstatus rfl _⟩).mapError _

/-! ## Routes -/

section Routes

variable {α : Type}

/-- A service, and what the route makes of its result. -/
theorem writes_call {p : Service α} (hp : p.Writes (Change New) A) (f : α → Reply) :
    (do return f (← Handler.call p) : Handler Reply).Writes (Change New) A :=
  (hp.mapError _).bind fun _ => trivial

/-- An answer without content writes what the service does. -/
theorem writes_noContent {p : Service α} (hp : p.Writes (Change New) A) :
    (Handler.noContent p).Writes (Change New) A := (hp.mapError _).bind fun _ => trivial

end Routes

variable {b : Backend}

/-- Each route of a signed-in user writes changes only. -/
theorem UserEndpoint.writes_run (hc : c.Draws New) (u : User) (e : UserEndpoint) :
    (e.run b c u).Writes (Change New) A := by
  cases e with
  | getMe => trivial
  | updateMe => exact writes_call (writes_updateProfile _ _) _
  | freezeMe => exact writes_call (writes_freezeAccount _) _
  | deleteMe => exact writes_noContent (writes_deleteAccount _)
  | listMyBookmarkedCheckins | listMyBookmarkedLists | listCloseFriends | listBlockedUsers
  | listMutedUsers | listNotifications | getUnreadNotificationCount =>
    exact writes_call (writes_query _ _) _
  | createVenue => exact writes_call (writes_createVenue hc _ _) _
  | createCheckin => exact writes_call (writes_createCheckin hc _) _
  | updateCheckin => exact writes_call (writes_updateCheckin _ _ _) _
  | deleteCheckin => exact writes_noContent (writes_softDeleteCheckin _ _)
  | likeCheckin => exact writes_noContent (writes_likeCheckin hc _ _)
  | unlikeCheckin => exact writes_noContent (writes_removeMark fun _ _ _ => .checkinLikes)
  | bookmarkCheckin => exact writes_noContent (writes_bookmarkCheckin _ _)
  | unbookmarkCheckin => exact writes_noContent (writes_removeMark fun _ _ _ => .checkinBookmarks)
  | followUser => exact writes_noContent (writes_followUser hc _ _)
  | unfollowUser => exact writes_noContent (writes_unfollowUser _ _)
  | removeFollower => exact writes_noContent (writes_unfollowUser _ _)
  | addCloseFriend => exact writes_noContent (writes_addCloseFriend _ _)
  | removeCloseFriend => exact writes_noContent (writes_removeCloseFriend _ _)
  | blockUser => exact writes_noContent (writes_createBlock _ _)
  | unblockUser => exact writes_noContent (writes_removeBlock _ _)
  | muteUser => exact writes_noContent (writes_createMute _ _)
  | unmuteUser => exact writes_noContent (writes_removeMute _ _)
  | createList => exact writes_call (writes_createList hc _ _ _ _) _
  | updateList => exact writes_call (writes_updateList _ _ _) _
  | deleteList => exact writes_noContent (writes_deleteList _ _)
  | addListItem => exact writes_call (writes_addListItem hc _ _ _ _) _
  | moveListItem => exact writes_call (writes_moveListItem _ _ _ _) _
  | removeListItem => exact writes_noContent (writes_removeListItem _ _ _)
  | likeList => exact writes_noContent (writes_likeList hc _ _)
  | unlikeList => exact writes_noContent (writes_removeMark fun _ _ _ => .listLikes)
  | bookmarkList => exact writes_noContent (writes_bookmarkList _ _)
  | unbookmarkList => exact writes_noContent (writes_removeMark fun _ _ _ => .listBookmarks)
  | saveVenue => exact writes_call (writes_saveVenue_save hc _ _ _ _) _
  | updateVenueSave => exact writes_call (writes_updateVenueSave _ _ _) _
  | deleteVenueSave => exact writes_noContent (writes_deleteVenueSave _ _)
  | markAllNotificationsRead => exact writes_noContent (writes_markAllNotificationsRead _)
  | reportCheckin | reportUser =>
    exact writes_noContent (writes_createContentReport hc _ _ _ _ _)
  | reportVenue => exact writes_noContent (writes_createVenueReport hc _ _ _ _)

/-- Looking up a save writes nothing. -/
theorem readOnly_getVenueSave (venueSaveId : Uuid) (viewer : Option User) :
    (getVenueSave venueSaveId viewer).ReadOnly := by
  refine (readOnly_get venueSaveId).bind fun found => ?_
  cases found with
  | none => trivial
  | some save =>
    refine (readOnly_canView _ _ _).bind fun allowed => ?_
    cases allowed <;> trivial

/-- A service of queries, and what the route makes of its result. -/
theorem readOnly_call {α : Type} {p : Service α} (hp : p.ReadOnly) {f : α → Handler Reply}
    (hf : ∀ a, (f a).ReadOnly) : (Handler.call p >>= f).ReadOnly := (hp.mapError _).bind hf

/-- The endpoints with an optional viewer only read. -/
theorem ViewerEndpoint.readOnly_run (acceptLanguage : Option String) (viewer : Option User)
    (e : ViewerEndpoint) : (e.run b c acceptLanguage viewer).ReadOnly := by
  cases e with
  | listUserCheckins | listUserLists | listUserVenueSaves | listVenueCheckins =>
    exact readOnly_call (readOnly_query _ _) fun _ => trivial
  | getCheckin => exact readOnly_call (readOnly_getCheckin _ _) fun _ => trivial
  | getList => exact readOnly_call (readOnly_getList _ _) fun _ => trivial
  | listItems =>
    exact readOnly_call (readOnly_getList _ _) fun _ =>
      readOnly_call (readOnly_query _ _) fun _ => trivial
  | getVenueSave => exact readOnly_call (readOnly_getVenueSave _ _) fun _ => trivial
  | listVenues q =>
    cases q with
    | none => exact readOnly_call (readOnly_query _ _) fun _ => trivial
    | some text => exact readOnly_call (readOnly_query _ _) fun _ => trivial
  | getVenue => exact readOnly_call (readOnly_getVenue _) fun _ => trivial
  | listVenueCategories =>
    exact readOnly_call (p := listCategoryTree _ _ _ _ _ _) (fun _ _ => trivial) fun tree => by
      cases tree <;> trivial

/-- So do the endpoints that ask for nobody. -/
theorem PublicEndpoint.readOnly_run (e : PublicEndpoint) : (e.run b).ReadOnly := by
  cases e with
  | listFollowers | listFollowing => exact readOnly_call (readOnly_query _ _) fun _ => trivial

/-- Each route of an administrator writes changes only. -/
theorem AdminEndpoint.writes_run (admin : User) (e : AdminEndpoint) :
    (e.run b c admin).Writes (Change New) A := by
  cases e with
  | purgeCheckin => exact writes_noContent (writes_hardDeleteCheckin _)
  | verifyVenue => exact writes_call (writes_verifyVenueByAdmin _) _
  | closeVenue => exact writes_call (writes_closeVenue _) _
  | suspendVenue => exact writes_call (writes_suspendVenue _) _
  | suspendUser => exact writes_call (writes_suspendAccount _) _
  | listContentReports | listVenueReports => exact writes_call (writes_query _ _) _
  | dismissContentReport | actionContentReport =>
    exact writes_call (writes_resolveContentReport _ _ (by decide)) _
  | dismissVenueReport | actionVenueReport =>
    exact (writes_resolveVenueReport _ _ (by decide)).bind fun _ => trivial

/-- A request writes nothing but the changes of the application. -/
theorem writes_handle {call : Call} (hc : call.ctx.Draws New) :
    (handle b call).Writes (Change New) fun _ => True := by
  have hsignsIn : SignsIn call.ctx (Change New) fun _ => True := signsIn_change hc fun _ => trivial
  unfold handle
  cases call.endpoint with
  | user e =>
    exact ((hsignsIn.getCurrentUser _).mapError _).bind fun u =>
      e.writes_run hc.resolved u
  | viewer e =>
    exact ((hsignsIn.getOptionalCurrentUser _).mapError _).bind fun viewer =>
      (e.readOnly_run _ viewer).writes
  | admin e =>
    exact ((hsignsIn.requireAdmin _).mapError _).bind fun admin =>
      e.writes_run admin
  | anonymous e => exact e.readOnly_run.writes
  | handleClerkWebhook webhook =>
    exact writes_call (writes_handleClerkWebhook hc (fun _ => trivial) webhook) _

end OburBackend
