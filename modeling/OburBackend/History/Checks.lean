import OburBackend.Sql.Checks
import OburBackend.History.Constraints

/-!
# Every service checks, writes and commits

One lemma for each service function that writes (`checked_*`): its exceptions of `app/exceptions`
come before its first statement that changes anything, what it raises later are errors of the
database, and it has committed when it returns. The verification of a venue that follows a new
check-in is the exception: nothing commits it.
-/

namespace OburBackend

open Sql Prog TableDef

/-- The exceptions that the application raises itself, and maps to a problem. -/
def PyError.IsRefusal : PyError → Prop
  | .domain _ _ | .problem _ => True
  | _ => False

def ApiError.IsRefusal : ApiError → Prop
  | .service e => e.IsRefusal
  | .venueReportNotFound _ => True
  | .recursionError => False

section Services

variable {ρ π : Type} {key : ρ → π} [DecidableEq π] {T : DbTable key} {c : Ctx}
  {V : Identity → Db → Write Db Lock → Prop}

/-- What the database raises is no refusal of the application. -/
theorem not_isRefusal_database (e : DbError) : ¬ PyError.IsRefusal (OfDbError.ofDbError e) := nofun

/-- Reading back what has been written finds it, or fails. -/
theorem neverRaises_refresh (k : π) : (refresh T k).NeverRaises PyError.IsRefusal := by
  intro me s
  change NeverRaises PyError.IsRefusal (Prog.bind (.ret (T.lookup me s k)) _)
  cases T.lookup me s k with
  | none => exact fun h => h
  | some r => trivial

/-- A service that commits and reads back has come to its end. -/
theorem finishes_commit_refresh (k : π) :
    (commit >>= fun _ => refresh T k : Service ρ).Finishes PyError.IsRefusal V :=
  finishes_commit_bind (neverRaises_refresh k) (readOnly_refresh T k).commits

/-- So has one that adds a row first. -/
theorem finishes_insert_refresh (r : ρ) (k : π) :
    (T.insert r >>= fun _ => commit >>= fun _ => refresh T k : Service ρ).Finishes
      PyError.IsRefusal V :=
  (neverRaises_insert not_isRefusal_database r).bind_finishes fun _ => finishes_commit_refresh k

/-- Or edits one. -/
theorem finishes_update_refresh {k : π} {f : ρ → Option ρ}
    {hf : ∀ r r', f r = some r' → key r' = key r} :
    (T.update k f hf >>= fun _ => commit >>= fun _ => refresh T k : Service ρ).Finishes
      PyError.IsRefusal V :=
  (neverRaises_update not_isRefusal_database).bind_finishes fun _ => finishes_commit_refresh k

/-- Or deletes one, and commits. -/
theorem finishes_delete_commit (k : π) :
    (T.delete k >>= fun _ => commit : Service Unit).Finishes PyError.IsRefusal V :=
  (neverRaises_delete not_isRefusal_database k).bind_finishes fun _ => finishes_commit

omit [DecidableEq π] in
/-- A look-up that finds at most one row, and what is done with it. -/
theorem checked_selectOne {α : Type} {table : TableName} {params : List Uuid} {p : ρ → Bool}
    {f : Option ρ → Service α} (hf : ∀ found, (f found).Checked PyError.IsRefusal V) :
    (select T table params p >>= fun rows => scalarOneOrNone rows >>= f).Checked
      PyError.IsRefusal V :=
  (readOnly_select _).bind_checked fun rows =>
    (readOnly_scalarOneOrNone rows).bind_checked hf

/-- A service as a part of a handler. -/
theorem checked_handlerCall {α : Type} {p : Service α} (hp : p.Checked PyError.IsRefusal V) :
    (Handler.call p).Checked ApiError.IsRefusal V :=
  Checked.mapError (P := PyError.IsRefusal) hp fun _ h => h

/-! ### Accounts -/

/-- The user name is checked before the profile is saved. -/
theorem checked_updateProfile (user : User) (changes : ProfileChanges) :
    (updateProfile c user changes).Checked PyError.IsRefusal V := by
  have hsave : (saveProfile c user changes).Finishes PyError.IsRefusal V := by
    unfold saveProfile
    dsimp only
    split
    · exact finishes_update_refresh
    · exact finishes_commit_refresh _
  unfold updateProfile
  split
  · exact hsave.checked
  · split
    · trivial
    · exact (readOnly_ensureUsernameAvailable _ _).bind_checked fun _ => hsave.checked

/-- Freezing refuses nothing; it commits what it writes. -/
theorem checked_freezeAccount (user : User) :
    (freezeAccount user).Checked PyError.IsRefusal V := by
  unfold freezeAccount
  split
  · exact Finishes.checked finishes_update_refresh
  · trivial

/-- An unknown account is refused before anything is written. -/
theorem checked_suspendAccount (userId : Uuid) :
    (suspendAccount userId).Checked PyError.IsRefusal V := by
  refine (readOnly_get userId).bind_checked fun found => ?_
  cases found with
  | none => trivial
  | some user =>
    dsimp only
    split
    · exact Finishes.checked finishes_update_refresh
    · trivial

/-! ### Check-ins and venues -/

/-- The write of `rls_verify_venue_if_eligible`: the venue is verified, or nothing happens. -/
def Verification (venueId : Uuid) (_ : Identity) (_ : Db) (wr : Write Db Lock) : Prop :=
  wr.effect = setVerified [venueId] ∨ wr.effect = id

/-- Nothing commits the verification. -/
theorem finishes_createCheckin (args : CheckinCreate) (hV : args.visibility = Visibility.pub →
      ∀ me db wr, Verification args.venueId me db wr → V me db wr) :
    (do
      checkins.insert (args.row c)
      commit
      let checkin ← refresh checkins (args.row c).id
      if args.visibility = Visibility.pub then
        evaluateVenueVerification args.venueId
      return checkin : Service Checkin).Finishes PyError.IsRefusal V := by
  have hevaluate : (evaluateVenueVerification args.venueId).NeverRaises PyError.IsRefusal :=
    NeverRaises.bind ⟨trivial, not_isRefusal_database⟩ fun _ =>
      (neverRaises_query _ _).bind fun _ => trivial
  have hleft (hpub : args.visibility = Visibility.pub) :
      (evaluateVenueVerification args.venueId).Commits PyError.IsRefusal V true := by
    refine Commits.bind ⟨.inr ⟨?_, rfl⟩, fun _ _ => rfl⟩ fun _ => fun _ _ => rfl
    rintro me db _ ⟨⟩
    refine hV hpub me db _ ?_
    rcases ids_eligible db args.venueId minCheckinsForAutoVerification with hids | hids
    · refine .inr (funext fun t => ?_)
      rw [hids]
      exact setVerified_nil t
    · exact .inl (congrArg setVerified hids)
  refine (neverRaises_insert not_isRefusal_database _).bind_finishes
    fun _ => finishes_commit_bind ?_ ?_
  · refine (neverRaises_refresh _).bind fun checkin => ?_
    split
    · exact hevaluate.bind fun _ => trivial
    · trivial
  · refine (readOnly_refresh checkins _).commits.bind fun checkin => ?_
    split
    · next hpub => exact (hleft hpub).bind fun _ => rfl
    · rfl

/-- The venue and the date are checked first. Of a public check-in the verification that follows may
be left uncommitted. -/
theorem checked_createCheckin (args : CheckinCreate) (hV : args.visibility = Visibility.pub →
      ∀ me db wr, Verification args.venueId me db wr → V me db wr) :
    (createCheckin c args).Checked PyError.IsRefusal V := by
  refine (readOnly_get _).bind_checked fun venue => ?_
  dsimp only
  split
  · trivial
  · exact (readOnly_ensureVisitedAtNotFuture _ _ _).bind_checked fun _ =>
      (finishes_createCheckin args hV).checked

/-- The owner and the date are checked before the check-in is edited. -/
theorem checked_updateCheckin (checkinId : Uuid) (u : User) (updates : CheckinUpdates) :
    (updateCheckin c checkinId u updates).Checked PyError.IsRefusal V := by
  refine (readOnly_get _).bind_checked fun found => ?_
  cases found with
  | none => trivial
  | some checkin =>
    dsimp only
    split
    · trivial
    · refine (readOnly_ensureVisibleAndOwned _ _ _ _ _ _ _).bind_checked fun _ => ?_
      cases updates.visitedAt with
      | none =>
        dsimp only
        split
        · exact Finishes.checked finishes_update_refresh
        · exact Finishes.checked (finishes_commit_refresh _)
      | some visitedAt =>
        refine (readOnly_ensureVisitedAtNotFuture _ _ _).bind_checked fun _ => ?_
        split
        · exact Finishes.checked finishes_update_refresh
        · exact Finishes.checked (finishes_commit_refresh _)

/-- The owner is checked before the check-in is deleted. -/
theorem checked_softDeleteCheckin (checkinId : Uuid) (u : User) :
    (softDeleteCheckin c checkinId u).Checked PyError.IsRefusal V := by
  refine (readOnly_get _).bind_checked fun found => ?_
  cases found with
  | none => trivial
  | some checkin =>
    dsimp only
    split
    · trivial
    · exact (readOnly_ensureVisibleAndOwned _ _ _ _ _ _ _).bind_checked fun _ =>
        Finishes.checked ((neverRaises_update not_isRefusal_database).bind_finishes
          fun _ => finishes_commit)

/-- An unknown check-in is refused before anything is deleted. -/
theorem checked_hardDeleteCheckin (checkinId : Uuid) :
    (hardDeleteCheckin checkinId).Checked PyError.IsRefusal V := by
  refine (readOnly_get _).bind_checked fun found => ?_
  cases found with
  | none => trivial
  | some checkin => exact (finishes_delete_commit _).checked

/-- The category, the place id and the venues nearby are looked at before a venue is added. -/
theorem checked_createVenue (geo : Geography) (args : VenueCreate) :
    (createVenue c geo args).Checked PyError.IsRefusal V := by
  refine (readOnly_get _).bind_checked fun category => ?_
  split
  · trivial
  · refine ReadOnly.bind_checked ?_ fun existing => ?_
    · cases args.googlePlacesId with
      | none => trivial
      | some googlePlacesId => exact readOnly_findVenueByGooglePlacesId _
    · cases existing with
      | some existing => trivial
      | none =>
        refine ReadOnly.bind_checked ?_ fun nearby => ?_
        · split
          · trivial
          · exact readOnly_query _ _
        · cases nearby with
          | some nearby => trivial
          | none => exact (finishes_insert_refresh _ _).checked

/-- An unknown venue is refused before it is verified. -/
theorem checked_verifyVenueByAdmin (venueId : Uuid) :
    (verifyVenueByAdmin venueId).Checked PyError.IsRefusal V := by
  refine (readOnly_getVenue _).bind_checked fun venue => ?_
  split
  · trivial
  · refine (readOnly_query _ _).bind_checked fun count => ?_
    split
    · trivial
    · exact Finishes.checked finishes_update_refresh

/-- An unknown venue is refused before it is closed. -/
theorem checked_closeVenue (venueId : Uuid) :
    (closeVenue venueId).Checked PyError.IsRefusal V := by
  refine (readOnly_getVenue _).bind_checked fun venue => ?_
  split
  · exact Finishes.checked finishes_update_refresh
  · trivial

/-- An unknown venue is refused before it is suspended. -/
theorem checked_suspendVenue (venueId : Uuid) :
    (suspendVenue venueId).Checked PyError.IsRefusal V := by
  refine (readOnly_getVenue _).bind_checked fun venue => ?_
  split
  · trivial
  · exact Finishes.checked finishes_update_refresh

/-! ### Lists and saves -/

/-- A list that the user may write to, and what is done with it. -/
theorem checked_ownList {α : Type} {listId : Uuid} {u : User} {verb : String}
    {f : Service α} (hf : f.Checked PyError.IsRefusal V) :
    (lists.get listId >>= fun found => match found with
      | none => listNotFound listId
      | some venueList => ensureListOwned venueList listId u verb >>= fun _ => f
      : Service α).Checked PyError.IsRefusal V := by
  refine (readOnly_get _).bind_checked fun found => ?_
  cases found with
  | none => trivial
  | some venueList =>
    exact (readOnly_ensureVisibleAndOwned _ _ _ _ _ _ _).bind_checked fun _ => hf

/-- The owner is checked before the list is edited. -/
theorem checked_updateList (listId : Uuid) (u : User) (updates : ListUpdates) :
    (updateList listId u updates).Checked PyError.IsRefusal V := by
  refine (readOnly_get _).bind_checked fun found => ?_
  cases found with
  | none => trivial
  | some venueList =>
    refine (readOnly_ensureVisibleAndOwned _ _ _ _ _ _ _).bind_checked fun _ => ?_
    dsimp only
    split
    · exact Finishes.checked finishes_update_refresh
    · exact Finishes.checked (finishes_commit_refresh _)

/-- The owner is checked before the list is deleted. -/
theorem checked_deleteList (listId : Uuid) (u : User) :
    (deleteList listId u).Checked PyError.IsRefusal V :=
  checked_ownList (finishes_delete_commit _).checked

/-- The owner, the venue and the position are checked before the item is added. -/
theorem checked_addListItem (listId : Uuid) (u : User) (venueId : Uuid)
    (afterItemId : Option Uuid) :
    (addListItem c listId u venueId afterItemId).Checked PyError.IsRefusal V := by
  refine checked_ownList ((readOnly_get _).bind_checked fun venue => ?_)
  split
  · trivial
  · refine checked_selectOne fun existing => ?_
    split
    · trivial
    · cases afterItemId with
      | none =>
        exact (readOnly_positionAtEnd _).bind_checked fun _ =>
          (finishes_insert_refresh _ _).checked
      | some afterItemId =>
        exact (readOnly_positionAfter _ _ _).bind_checked fun _ =>
          (finishes_insert_refresh _ _).checked

/-- An item of a list, and what is done with it. -/
theorem checked_itemOf {α : Type} {listId itemId : Uuid} {f : ListItem → Service α}
    (hf : ∀ item, (f item).Checked PyError.IsRefusal V) :
    (listItems.get itemId >>= fun found => match found with
      | none => listItemNotFound itemId
      | some item => if item.listId ≠ listId then listItemNotFound itemId else f item
      : Service α).Checked PyError.IsRefusal V := by
  refine (readOnly_get _).bind_checked fun found => ?_
  cases found with
  | none => trivial
  | some item =>
    dsimp only
    split
    · trivial
    · exact hf item

/-- The owner, the item and the position are checked before the item is moved. -/
theorem checked_moveListItem (listId itemId : Uuid) (u : User) (afterItemId : Option Uuid) :
    (moveListItem c listId itemId u afterItemId).Checked PyError.IsRefusal V := by
  refine checked_ownList (checked_itemOf fun item =>
    (readOnly_positionAfter _ _ _).bind_checked fun position => ?_)
  split
  · exact Finishes.checked finishes_update_refresh
  · exact Finishes.checked (finishes_commit_refresh _)

/-- The owner and the item are checked before the item is removed. -/
theorem checked_removeListItem (listId itemId : Uuid) (u : User) :
    (removeListItem listId itemId u).Checked PyError.IsRefusal V :=
  checked_ownList (checked_itemOf fun _ => (finishes_delete_commit _).checked)

/-- The venue is looked up before it is saved. -/
theorem checked_saveVenue (userId venueId : Uuid) (type : VenueSaveType)
    (visibility : String) :
    (VenueSave.saveVenue c userId venueId type visibility).Checked PyError.IsRefusal V := by
  refine (readOnly_get _).bind_checked fun venue => ?_
  split
  · trivial
  · refine checked_selectOne fun found => ?_
    cases found with
    | some save => trivial
    | none => exact (finishes_insert_refresh _ _).checked

/-- The owner is checked before the save is edited. -/
theorem checked_updateVenueSave (venueSaveId : Uuid) (u : User) (visibility : Field String) :
    (updateVenueSave venueSaveId u visibility).Checked PyError.IsRefusal V := by
  refine (readOnly_get _).bind_checked fun found => ?_
  cases found with
  | none => trivial
  | some save =>
    refine (readOnly_ensureVisibleAndOwned _ _ _ _ _ _ _).bind_checked fun _ => ?_
    dsimp only
    split
    · exact Finishes.checked finishes_update_refresh
    · exact Finishes.checked (finishes_commit_refresh _)

/-- The owner is checked before the save is deleted. -/
theorem checked_deleteVenueSave (venueSaveId : Uuid) (u : User) :
    (deleteVenueSave venueSaveId u).Checked PyError.IsRefusal V := by
  refine (readOnly_get _).bind_checked fun found => ?_
  cases found with
  | none => trivial
  | some save =>
    exact (readOnly_ensureVisibleAndOwned _ _ _ _ _ _ _).bind_checked fun _ =>
      (finishes_delete_commit _).checked

/-! ### Relationships -/

/-- Adding a notification refuses nothing. -/
theorem neverRaises_createNotification (userId : Uuid) (type : NotificationType)
    (actorId : Option Uuid) (targetType : NotificationTargetType) (targetId : Uuid) :
    (createNotification c userId type actorId targetType targetId).NeverRaises
      PyError.IsRefusal :=
  (neverRaises_insert not_isRefusal_database _).bind fun _ => trivial

/-- A follow of oneself is refused before anything is written. -/
theorem checked_followUser (followerId followingId : Uuid) :
    (followUser c followerId followingId).Checked PyError.IsRefusal V := by
  unfold followUser
  split
  · trivial
  · refine (readOnly_get _).bind_checked fun found => ?_
    cases found with
    | some existing => trivial
    | none =>
      exact Finishes.checked ((neverRaises_insert not_isRefusal_database _).bind_finishes fun _ =>
        (neverRaises_createNotification _ _ _ _ _).bind_finishes fun _ =>
          finishes_commit_refresh _)

/-- A row that has to be there, and its deletion. -/
theorem checked_deleteFound {k : π} {p : Option ρ → Service Unit}
    (hnone : (p none).Checked PyError.IsRefusal V)
    (hsome : ∀ r, p (some r) = (T.delete k >>= fun _ => commit)) :
    (T.get k >>= p).Checked PyError.IsRefusal V := by
  refine (readOnly_get _).bind_checked fun found => ?_
  cases found with
  | none => exact hnone
  | some r =>
    rw [hsome]
    exact (finishes_delete_commit _).checked

/-- A follow that is not there is refused before anything is deleted. -/
theorem checked_unfollowUser (followerId followingId : Uuid) :
    (unfollowUser followerId followingId).Checked PyError.IsRefusal V :=
  checked_deleteFound trivial fun _ => rfl

/-- So is a close friend who is none. -/
theorem checked_removeCloseFriend (userId friendId : Uuid) :
    (removeCloseFriend userId friendId).Checked PyError.IsRefusal V :=
  checked_deleteFound trivial fun _ => rfl

/-- So is a mute that is not there. -/
theorem checked_removeMute (userId mutedId : Uuid) :
    (removeMute userId mutedId).Checked PyError.IsRefusal V :=
  checked_deleteFound trivial fun _ => rfl

/-- So is a block that is not there. -/
theorem checked_removeBlock (blockerId blockedId : Uuid) :
    (removeBlock blockerId blockedId).Checked PyError.IsRefusal V :=
  checked_deleteFound trivial fun _ => rfl

/-- Whether the friend follows is checked before the row is added. -/
theorem checked_addCloseFriend (userId friendId : Uuid) :
    (addCloseFriend c userId friendId).Checked PyError.IsRefusal V := by
  refine (readOnly_get _).bind_checked fun found => ?_
  cases found with
  | some existing => trivial
  | none =>
    refine (readOnly_get _).bind_checked fun follow => ?_
    cases follow with
    | none => trivial
    | some _ => exact (finishes_insert_refresh _ _).checked

/-- A mute of oneself is refused before anything is written. -/
theorem checked_createMute (userId mutedId : Uuid) :
    (createMute c userId mutedId).Checked PyError.IsRefusal V := by
  unfold createMute
  split
  · trivial
  · refine (readOnly_get _).bind_checked fun found => ?_
    cases found with
    | some existing => trivial
    | none => exact (finishes_insert_refresh _ _).checked

/-- The purge between two users refuses nothing. -/
theorem neverRaises_rlsPurgeInteractionsBetween (userA userB : Uuid) :
    (rlsPurgeInteractionsBetween userA userB).NeverRaises PyError.IsRefusal :=
  (neverRaises_definerDelete not_isRefusal_database _ _).bind fun _ =>
    (neverRaises_definerDelete not_isRefusal_database _ _).bind fun _ =>
    (neverRaises_definerDelete not_isRefusal_database _ _).bind fun _ =>
    (neverRaises_definerDelete not_isRefusal_database _ _).bind fun _ =>
    neverRaises_definerDelete not_isRefusal_database _ _

/-- A block of oneself is refused before anything is written; the purge after it refuses nothing. -/
theorem checked_createBlock (blockerId blockedId : Uuid) :
    (createBlock c blockerId blockedId).Checked PyError.IsRefusal V := by
  unfold createBlock
  split
  · trivial
  · refine (readOnly_get _).bind_checked fun found => ?_
    cases found with
    | some existing => trivial
    | none =>
      have hback (back : Option Follow) : (do
          rlsPurgeInteractionsBetween blockerId blockedId
          if back.isSome then
            follows.delete (blockedId, blockerId)
          commit
          refresh blocks (blockerId, blockedId) : Service Block).Finishes
          PyError.IsRefusal V := by
        refine (neverRaises_rlsPurgeInteractionsBetween _ _).bind_finishes fun _ => ?_
        split
        · exact (neverRaises_delete not_isRefusal_database _).bind_finishes fun _ =>
            finishes_commit_refresh _
        · exact finishes_commit_refresh _
      refine Finishes.checked ((neverRaises_insert not_isRefusal_database _).bind_finishes
        fun _ => (neverRaises_get _).bind_finishes fun forth => ?_)
      split
      · exact (neverRaises_delete not_isRefusal_database _).bind_finishes fun _ =>
          (neverRaises_get _).bind_finishes hback
      · exact (neverRaises_get _).bind_finishes hback

/-! ### Reactions -/

/-- A like or a bookmark is added and committed once its target has been seen. -/
theorem checked_addMark {T : DbTable Mark.key} {userId targetId : Uuid}
    {notify : Service Unit} (hnotify : notify.NeverRaises PyError.IsRefusal) :
    (addMark T c userId targetId notify).Checked PyError.IsRefusal V := by
  refine (readOnly_get _).bind_checked fun found => ?_
  cases found with
  | some existing => trivial
  | none =>
    exact Finishes.checked ((neverRaises_insert not_isRefusal_database _).bind_finishes fun _ =>
      hnotify.bind_finishes fun _ => finishes_commit_refresh _)

/-- A mark that is not there is refused before anything is deleted. -/
theorem checked_removeMark {T : DbTable Mark.key} {userId targetId : Uuid}
    {error : ErrorClass} {message : String} :
    (removeMark T userId targetId error message).Checked PyError.IsRefusal V :=
  checked_deleteFound trivial fun _ => rfl

/-- Notifying an owner of a like refuses nothing. -/
theorem neverRaises_notifyLike (ownerId : Uuid) (type : NotificationType) (actorId : Uuid)
    (targetType : NotificationTargetType) (targetId : Uuid) :
    (notifyLike c ownerId type actorId targetType targetId).NeverRaises PyError.IsRefusal := by
  unfold notifyLike
  split
  · exact (neverRaises_createNotification _ _ _ _ _).bind fun _ => trivial
  · trivial

/-! ### Notifications -/

/-- Marking all as read refuses nothing; it commits what it writes. -/
theorem checked_markAllNotificationsRead (userId : Uuid) :
    (markAllNotificationsRead c userId).Checked PyError.IsRefusal V := by
  have hall (ids : List Uuid) : (ids.foldr (fun id rest => (notifications.updateIfThere id
      (Notification.read c.now) (Notification.read_id c.now)).bind fun _ => rest)
      (.ret ()) : Service Unit).NeverRaises PyError.IsRefusal := by
    induction ids with
    | nil => trivial
    | cons id ids ih => exact NeverRaises.bind ⟨trivial, not_isRefusal_database⟩ fun _ => ih
  have hread (ids : List Uuid) : (notifications.updateEach (Notification.read c.now)
      (Notification.read_id c.now) ids : Service Unit).NeverRaises PyError.IsRefusal := by
    match ids with
    | [] => trivial
    | [id] => exact neverRaises_update not_isRefusal_database
    | id :: id' :: ids => exact hall (id :: id' :: ids)
  exact (readOnly_query _ _).bind_checked fun _ =>
    Finishes.checked ((hread _).bind_finishes fun _ => finishes_commit)

/-! ### Reports -/

/-- The target is checked before the report is added. -/
theorem checked_createContentReport (reporter : User) (targetType : ContentReportTargetType)
    (targetId : Uuid) (reason : ContentReportReason) (details : Option String) :
    (createContentReport c reporter targetType targetId reason details).Checked
      PyError.IsRefusal V := by
  refine checked_selectOne fun found => ?_
  cases found with
  | some report => trivial
  | none =>
    dsimp only
    split
    · exact (readOnly_getCheckin _ _).bind_checked fun _ =>
        (finishes_insert_refresh _ _).checked
    · exact (finishes_insert_refresh _ _).checked

/-- The venue is looked up before the report is added. -/
theorem checked_createVenueReport (reporterId venueId : Uuid) (reason : VenueReportReason)
    (details : Option String) :
    (createVenueReport c reporterId venueId reason details).Checked PyError.IsRefusal V := by
  refine checked_selectOne fun found => ?_
  cases found with
  | some report => trivial
  | none =>
    exact (readOnly_getVenue _).bind_checked fun _ =>
      (finishes_insert_refresh _ _).checked

/-- A resolution is committed with its report. -/
theorem finishes_saveResolution {ρ : Type} {key : ρ → Uuid} {T : DbTable key}
    {reportId : Uuid} {loaded new : Resolution} {resolution : ρ → Resolution}
    {withResolution : ρ → Resolution → ρ} {hkey : ∀ r x, key (withResolution r x) = key r} :
    (saveResolution T reportId loaded new resolution withResolution hkey).Finishes
      PyError.IsRefusal V := by
  unfold saveResolution
  split
  · exact finishes_update_refresh
  · exact finishes_commit_refresh _

/-- An unknown report is refused before it is resolved. -/
theorem checked_resolveContentReport (reportId adminId : Uuid) (status : ReportStatus) :
    (resolveContentReport c reportId adminId status).Checked PyError.IsRefusal V := by
  refine (readOnly_get _).bind_checked fun found => ?_
  cases found with
  | none => trivial
  | some report => exact finishes_saveResolution.checked

/-- An unknown report on a venue is refused before it is resolved. -/
theorem checked_resolveVenueReport (reportId adminId : Uuid) (status : ReportStatus) :
    (resolveVenueReport c reportId adminId status).Checked ApiError.IsRefusal V := by
  refine (readOnly_get _).bind_checked fun found => ?_
  cases found with
  | none => trivial
  | some report =>
    exact checked_handlerCall finishes_saveResolution.checked

end Services

end OburBackend
