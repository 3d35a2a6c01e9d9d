import OburBackend.Create.Again
import OburBackend.Service.Reaction
import OburBackend.Service.Venue

/-!
# The creates that are documented as idempotent

Each of them is one of the two shapes of `Create/Again.lean`, after the queries that resolve what it
is about: its equation says which (`followUser_eq` and the others). `CreateOp` lists them, with the
query by which each looks for its row, the rows that the query is meant to find, and the lock on
which two of them meet.
-/

namespace OburBackend

open Sql

/-! ## The shape of each -/

section Shapes

variable {c : Ctx} {u v : Uuid} {user : User}

/-- `follow_user` is the first shape, with its notification before the commit. -/
theorem followUser_eq (h : u ≠ v) : followUser c u v =
    getOrCreate follows { followerId := u, followingId := v, createdAt := c.now } (.ret ())
      ((createNotification c v .newFollower (some u) .user u).bind fun _ => .ret ()) := by
  rw [followUser, if_neg h]
  exact eq_getOrCreate rfl (fun _ => rfl) rfl

/-- So are the four likes and bookmarks, with what each notifies. -/
theorem addMark_eq (T : DbTable Mark.key) (notify : Service Unit) : addMark T c u v notify =
    getOrCreate T { userId := u, targetId := v, createdAt := c.now } (.ret ()) notify :=
  eq_getOrCreate rfl (fun _ => rfl) rfl

/-- What `add_close_friend` asks of the two. -/
def ensureFollows (userId friendId : Uuid) : Service Unit := do
  match ← follows.get (friendId, userId) with
  | none => raiseDomain .notAFollower (friendId.str ++ " does not follow " ++ userId.str)
  | some _ => return ()

/-- Asking whether the friend follows writes nothing. -/
theorem readOnly_ensureFollows (userId friendId : Uuid) :
    (ensureFollows userId friendId).ReadOnly := by
  refine (readOnly_get _).bind fun found => ?_
  cases found <;> trivial

/-- `add_close_friend` is the first shape, after asking whether the friend follows. -/
theorem addCloseFriend_eq : addCloseFriend c u v =
    getOrCreate closeFriends { userId := u, friendId := v, createdAt := c.now } (ensureFollows u v)
      (.ret ()) := by
  refine eq_getOrCreate rfl (fun _ => rfl) ?_
  simp only [ensureFollows, Prog.bind_eq, Prog.bind_assoc]
  refine congrArg _ (funext fun found => ?_)
  cases found <;> rfl

/-- `create_mute` is the first shape, with nothing after the commit. -/
theorem createMute_eq (h : u ≠ v) : createMute c u v =
    getOrCreate mutes { userId := u, mutedId := v, createdAt := c.now } (.ret ()) (.ret ()) := by
  rw [createMute, if_neg h]
  exact eq_getOrCreate rfl (fun _ => rfl) rfl

/-- What `create_block` does once it has added the block. -/
def endLinks (blockerId blockedId : Uuid) : Service Unit := do
  let forth ← follows.get (blockerId, blockedId)
  if forth.isSome then
    follows.delete (blockerId, blockedId)
  let back ← follows.get (blockedId, blockerId)
  rlsPurgeInteractionsBetween blockerId blockedId
  if back.isSome then
    follows.delete (blockedId, blockerId)

/-- `create_block` is the first shape, with the purge before the commit. -/
theorem createBlock_eq (h : u ≠ v) : createBlock c u v =
    getOrCreate blocks { blockerId := u, blockedId := v, createdAt := c.now } (.ret ())
      (endLinks u v) := by
  rw [createBlock, if_neg h]
  refine eq_getOrCreate rfl (fun _ => rfl) ?_
  simp only [endLinks, Prog.bind_eq, Prog.bind_assoc]
  refine congrArg (Prog.bind _) (funext fun _ => congrArg (Prog.bind _) (funext fun forth => ?_))
  cases forth with
  | none =>
    simp only [Option.isSome_none, Bool.false_eq_true, if_false, Prog.bind_assoc]
    refine congrArg (Prog.bind _) (funext fun back => ?_)
    cases back <;> rfl
  | some _ =>
    simp only [Option.isSome_some, if_true, Prog.bind_assoc]
    refine congrArg (Prog.bind _) (funext fun _ => congrArg (Prog.bind _) (funext fun back => ?_))
    cases back <;> rfl

/-- `u` has saved the venue `v` in this way. -/
def isSaveOf (u v : Uuid) (type : VenueSaveType) (r : VenueSave) : Bool :=
  decide (r.userId = u) && (decide (r.venueId = v) && decide (r.type = type))

/-- The row that `save_venue` adds. -/
def saveRow (c : Ctx) (userId venueId : Uuid) (type : VenueSaveType) (visibility : String) :
    VenueSave :=
  { id := c.uuid4 0, userId, venueId, type, visibility, createdAt := c.now }

/-- `save_venue` is the second shape, after looking up the venue. -/
theorem saveVenue_eq {type : VenueSaveType} {visibility : String} :
    VenueSave.saveVenue c u v type visibility = (venues.get v).bind fun venue =>
      if venue.isNone then raiseDomain .venueNotFound ("venue not found: " ++ v.str)
      else findOrCreate venueSaves .venueSaves [u, v] (isSaveOf u v type) scalarOneOrNone
        (saveRow c u v type visibility) (.ret ()) := by
  refine congrArg _ (funext fun found => ?_)
  cases found with
  | none => rfl
  | some venue => exact eq_findOrCreate rfl (fun _ => rfl) rfl

/-- `u` has reported the target. -/
def isContentReportOf (u : Uuid) (targetType : ContentReportTargetType) (targetId : Uuid)
    (r : ContentReport) : Bool :=
  decide (r.reporterId = some u) &&
    (decide (r.targetType = targetType) && decide (r.targetId = targetId))

/-- The row that `create_content_report` adds. -/
def contentReportRow (c : Ctx) (reporterId : Uuid) (targetType : ContentReportTargetType)
    (targetId : Uuid) (reason : ContentReportReason) (details : Option String) : ContentReport :=
  { id := c.uuid4 0, reporterId := some reporterId, targetType, targetId, reason, details
    status := .pending, resolvedBy := none, resolvedAt := none, createdAt := c.now }

/-- A check-in is reported by somebody who can see it. -/
def ensureReportable (targetType : ContentReportTargetType) (targetId : Uuid) (reporter : User) :
    Service Unit :=
  match targetType with
  | .checkin => (getCheckin targetId (some reporter)).bind fun _ => .ret ()
  | .user => .ret ()

/-- Asking whether a target may be reported writes nothing. -/
theorem readOnly_ensureReportable (targetType : ContentReportTargetType) (targetId : Uuid)
    (reporter : User) : (ensureReportable targetType targetId reporter).ReadOnly := by
  cases targetType with
  | checkin => exact (readOnly_getCheckin _ _).bind fun _ => trivial
  | user => trivial

/-- `create_content_report` is the second shape, after asking whether the target may be reported. -/
theorem createContentReport_eq {targetType : ContentReportTargetType} {targetId : Uuid}
    {reason : ContentReportReason} {details : Option String} :
    createContentReport c user targetType targetId reason details =
      findOrCreate contentReports .contentReports [user.id, targetId]
        (isContentReportOf user.id targetType targetId) scalarOneOrNone
        (contentReportRow c user.id targetType targetId reason details)
        (ensureReportable targetType targetId user) := by
  refine eq_findOrCreate rfl (fun _ => rfl) ?_
  cases targetType with
  | checkin =>
    simp only [ensureReportable, if_true, Prog.bind_assoc]
    rfl
  | user => rfl

/-- `u` has reported the venue. -/
def isVenueReportOf (u venueId : Uuid) (r : VenueReport) : Bool :=
  decide (r.reporterId = some u) && decide (r.venueId = venueId)

/-- The row that `create_venue_report` adds. -/
def venueReportRow (c : Ctx) (reporterId venueId : Uuid) (reason : VenueReportReason)
    (details : Option String) : VenueReport :=
  { id := c.uuid4 0, reporterId := some reporterId, venueId, reason, details, status := .pending
    resolvedBy := none, resolvedAt := none, createdAt := c.now }

/-- `create_venue_report` is the second shape, after looking up the venue. -/
theorem createVenueReport_eq {reason : VenueReportReason} {details : Option String} :
    createVenueReport c u v reason details =
      findOrCreate venueReports .venueReports [u, v] (isVenueReportOf u v) scalarOneOrNone
        (venueReportRow c u v reason details) ((getVenue v).bind fun _ => .ret ()) := by
  refine eq_findOrCreate rfl (fun _ => rfl) ?_
  simp only [Prog.bind_assoc]
  rfl

/-- What `create_venue` asks of the place, unless the request has confirmed it. -/
def ensureNothingNear (geo : Geography) (args : VenueCreate) : Service Unit := do
  match ← (if args.confirmDuplicate then pure none
    else findNearbyVenue geo args.lat args.lng) with
  | some nearby =>
    raiseDomain .duplicateVenueNearby
      ("a venue already exists near this location: " ++ nearby.id.str)
  | none => return ()

/-- Looking for venues nearby writes nothing. -/
theorem readOnly_ensureNothingNear (geo : Geography) (args : VenueCreate) :
    (ensureNothingNear geo args).ReadOnly := by
  refine Prog.ReadOnly.bind ?_ fun nearby => ?_
  · split
    · trivial
    · exact Prog.readOnly_query _ _
  · cases nearby <;> trivial

/-- `create_venue` with a place id is the second shape, after looking up the category. -/
theorem createVenue_eq {geo : Geography} {args : VenueCreate} {googlePlacesId : String}
    (h : args.googlePlacesId = some googlePlacesId) : createVenue c geo args =
      (venueCategories.get args.categoryId).bind fun category =>
        if category.isNone then
          raiseDomain .venueCategoryNotFound ("category not found: " ++ args.categoryId.str)
        else findOrCreate venues .venues []
          (fun v => decide (v.googlePlacesId = some googlePlacesId)) (fun rows => .ret rows.head?)
          (args.row c) (ensureNothingNear geo args) := by
  simp only [createVenue, h]
  refine congrArg _ (funext fun found => ?_)
  cases found with
  | none => rfl
  | some category =>
    refine eq_findOrCreate (Prog.bind_assoc (select venues .venues [] _) _ _) (fun _ => rfl) ?_
    simp only [ensureNothingNear, Prog.bind_eq, Prog.bind_assoc]
    refine congrArg (Prog.bind _) (funext fun nearby => ?_)
    cases nearby <;> rfl

end Shapes

end OburBackend
