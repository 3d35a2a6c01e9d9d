import OburBackend.Create.Operations

/-!
# A double tap on a create

Two requests by one user for the same create overlap. If neither commits when the other has looked
for the row already, both return the one row that is stored (`creates_once`). Otherwise both may
miss it, and the second to insert fails on the unique constraint (`creates_can_fail`).
-/

namespace OburBackend

open Sql

/-- The creates that are documented as idempotent, with their arguments. A venue is one from Google
Places. -/
inductive CreateOp where
  | followUser (followingId : Uuid)
  | likeCheckin (checkinId : Uuid)
  | likeList (listId : Uuid)
  | bookmarkCheckin (checkinId : Uuid)
  | bookmarkList (listId : Uuid)
  | addCloseFriend (friendId : Uuid)
  | createMute (mutedId : Uuid)
  | createBlock (blockedId : Uuid)
  | saveVenue (venueId : Uuid) (type : VenueSaveType) (visibility : String)
  | createContentReport (targetType : ContentReportTargetType) (targetId : Uuid)
    (reason : ContentReportReason) (details : Option String)
  | createVenueReport (venueId : Uuid) (reason : VenueReportReason) (details : Option String)
  | createVenue (args : VenueCreate) (googlePlacesId : String)

namespace CreateOp

/-- The relationship that the request returns. -/
def Row : CreateOp → Type
  | followUser .. => Follow
  | likeCheckin .. | likeList .. | bookmarkCheckin .. | bookmarkList .. => Mark
  | addCloseFriend .. => CloseFriend
  | createMute .. => Mute
  | createBlock .. => Block
  | saveVenue .. => VenueSave
  | createContentReport .. => ContentReport
  | createVenueReport .. => VenueReport
  | createVenue .. => Venue

/-- The request by `user`. -/
def program (c : Ctx) (geo : Geography) (user : User) : (op : CreateOp) → Service op.Row
  | followUser id => OburBackend.followUser c user.id id
  | likeCheckin id => OburBackend.likeCheckin c id user
  | likeList id => OburBackend.likeList c id user
  | bookmarkCheckin id => OburBackend.bookmarkCheckin c id user
  | bookmarkList id => OburBackend.bookmarkList c id user
  | addCloseFriend id => OburBackend.addCloseFriend c user.id id
  | createMute id => OburBackend.createMute c user.id id
  | createBlock id => OburBackend.createBlock c user.id id
  | saveVenue id type visibility => VenueSave.saveVenue c user.id id type visibility
  | createContentReport targetType id reason details =>
    OburBackend.createContentReport c user targetType id reason details
  | createVenueReport id reason details =>
    OburBackend.createVenueReport c user.id id reason details
  | createVenue args googlePlacesId =>
    OburBackend.createVenue c geo { args with googlePlacesId := some googlePlacesId }

variable (user : User)

/-- The query by which the request looks for its row. -/
def look : CreateOp → Stmt
  | followUser id => pairStmt .follows .select (user.id, id)
  | likeCheckin id => pairStmt .checkinLikes .select (user.id, id)
  | likeList id => pairStmt .listLikes .select (user.id, id)
  | bookmarkCheckin id => pairStmt .checkinBookmarks .select (user.id, id)
  | bookmarkList id => pairStmt .listBookmarks .select (user.id, id)
  | addCloseFriend id => pairStmt .closeFriends .select (user.id, id)
  | createMute id => pairStmt .mutes .select (user.id, id)
  | createBlock id => pairStmt .blocks .select (user.id, id)
  | saveVenue id .. => ⟨.select, .venueSaves, [user.id, id]⟩
  | createContentReport _ id .. => ⟨.select, .contentReports, [user.id, id]⟩
  | createVenueReport id .. => ⟨.select, .venueReports, [user.id, id]⟩
  | createVenue .. => ⟨.select, .venues, []⟩

/-- The stored rows that are this relationship. -/
def stored (db : Db) : (op : CreateOp) → List op.Row
  | followUser id => db.follows.select fun r => decide (r.key = (user.id, id))
  | likeCheckin id => db.checkinLikes.select fun r => decide (r.key = (user.id, id))
  | likeList id => db.listLikes.select fun r => decide (r.key = (user.id, id))
  | bookmarkCheckin id => db.checkinBookmarks.select fun r => decide (r.key = (user.id, id))
  | bookmarkList id => db.listBookmarks.select fun r => decide (r.key = (user.id, id))
  | addCloseFriend id => db.closeFriends.select fun r => decide (r.key = (user.id, id))
  | createMute id => db.mutes.select fun r => decide (r.key = (user.id, id))
  | createBlock id => db.blocks.select fun r => decide (r.key = (user.id, id))
  | saveVenue id type _ => db.venueSaves.select (isSaveOf user.id id type)
  | createContentReport targetType id .. =>
    db.contentReports.select (isContentReportOf user.id targetType id)
  | createVenueReport id .. => db.venueReports.select (isVenueReportOf user.id id)
  | createVenue _ googlePlacesId =>
    db.venues.select fun v => decide (v.googlePlacesId = some googlePlacesId)

/-- The lock on which two of the requests meet: on the primary key, or on the unique constraint. -/
def lock : CreateOp → Lock
  | followUser id => pairLock .follows (user.id, id)
  | likeCheckin id => pairLock .checkinLikes (user.id, id)
  | likeList id => pairLock .listLikes (user.id, id)
  | bookmarkCheckin id => pairLock .checkinBookmarks (user.id, id)
  | bookmarkList id => pairLock .listBookmarks (user.id, id)
  | addCloseFriend id => pairLock .closeFriends (user.id, id)
  | createMute id => pairLock .mutes (user.id, id)
  | createBlock id => pairLock .blocks (user.id, id)
  | saveVenue id type _ => .unique .venueSaves [user.id, id] [type.text]
  | createContentReport targetType id .. =>
    .unique .contentReports [user.id, id] [targetType.text]
  | createVenueReport id .. => .unique .venueReports [user.id, id] []
  | createVenue _ googlePlacesId => .unique .venues [] [googlePlacesId]

end CreateOp

/-! ## What a request does besides -/

section Besides

variable {me : Identity} {db s : Db} {c : Ctx}

/-- What is flushed after the new row: at most one notification, in the same transaction. -/
structure Notifies (c : Ctx) (p : Service Unit) : Prop where
  uncommitted : p.Uncommitted
  keeps : ∀ {Inv : Db → Prop} {me : Identity}, (∀ s n, n.id = c.uuid4 0 → Inv s →
    Inv { s with notifications := s.notifications.insert n }) → p.Keeps Inv me

/-- Doing nothing notifies nobody. -/
theorem notifies_nobody : Notifies c (.ret ()) where
  uncommitted := trivial
  keeps _ := trivial

/-- One notification is one, with the request's own id. -/
theorem notifies_createNotification {userId : Uuid} {type : NotificationType}
    {actorId : Option Uuid} {targetType : NotificationTargetType} {targetId : Uuid} :
    Notifies c ((createNotification c userId type actorId targetType targetId).bind fun _ =>
      .ret ()) where
  uncommitted := ((Prog.uncommitted_insert _).bind fun _ => (Prog.readOnly_ret _).uncommitted).bind
    fun _ => (Prog.readOnly_ret _).uncommitted
  keeps h := ((keeps_insert fun s hs _ _ _ => h s _ rfl hs).bind fun _ => Prog.keeps_ret _).bind
    fun _ => Prog.keeps_ret _

/-- A like notifies its owner once, or nobody. -/
theorem notifies_notifyLike {ownerId : Uuid} {type : NotificationType} {actorId : Uuid}
    {targetType : NotificationTargetType} {targetId : Uuid} :
    Notifies c (notifyLike c ownerId type actorId targetType targetId) := by
  unfold notifyLike
  split
  · exact notifies_createNotification
  · exact notifies_nobody

/-- What a block removes is not committed before the block. -/
theorem uncommitted_endLinks (u v : Uuid) : (endLinks u v).Uncommitted := by
  have hpurge : (rlsPurgeInteractionsBetween u v).Uncommitted :=
    (Prog.uncommitted_definerDelete _ _).bind fun _ =>
      (Prog.uncommitted_definerDelete _ _).bind fun _ =>
        (Prog.uncommitted_definerDelete _ _).bind fun _ =>
          (Prog.uncommitted_definerDelete _ _).bind fun _ => Prog.uncommitted_definerDelete _ _
  have hback : (do
      let back ← follows.get (v, u)
      rlsPurgeInteractionsBetween u v
      if back.isSome then
        follows.delete (v, u) : Service Unit).Uncommitted := by
    refine (readOnly_get _).uncommitted.bind fun back => hpurge.bind fun _ => ?_
    split
    · exact Prog.uncommitted_delete _
    · trivial
  refine (readOnly_get _).uncommitted.bind fun forth => ?_
  cases forth with
  | none => exact hback
  | some _ => exact (Prog.uncommitted_delete _).bind fun _ => hback

/-- No notification is new but one of the request's own. -/
def NotifiesOnce (c : Ctx) (db s : Db) : Prop :=
  ∀ n ∈ s.notifications, n ∈ db.notifications ∨ n.id = c.uuid4 0

/-- The new notification is the only one. -/
theorem NotifiesOnce.unique (h : NotifiesOnce c db s) {n n' : Notification}
    (hn : n ∈ s.notifications) (hn' : n' ∈ s.notifications) (hnew : n ∉ db.notifications)
    (hnew' : n' ∉ db.notifications) : n = n' :=
  Table.eq_of_key_eq hn hn'
    (((h n hn).resolve_left hnew).trans ((h n' hn').resolve_left hnew').symm)

/-- It may be added. -/
theorem NotifiesOnce.insert {n : Notification} (hid : n.id = c.uuid4 0) (h : NotifiesOnce c db s) :
    NotifiesOnce c db { s with notifications := s.notifications.insert n } := by
  intro x hx
  rcases Table.mem_or_eq_of_mem_insert hx with hx | rfl
  · exact h x hx
  · exact .inr hid

/-- `create_block` only takes notifications away. -/
theorem notifiesOnce_endLinks (u v : Uuid) : (endLinks u v).Keeps (NotifiesOnce c db) me := by
  have hpurge : (rlsPurgeInteractionsBetween u v).Keeps (NotifiesOnce c db) me := by
    refine (keeps_definerDelete fun s p hs => hs).bind fun _ =>
      (keeps_definerDelete fun s p hs => hs).bind fun _ =>
        (keeps_definerDelete fun s p hs => hs).bind fun _ =>
          (keeps_definerDelete fun s p hs => hs).bind fun _ =>
            keeps_definerDelete fun s p hs n hn => hs n (Table.mem_erase.mp hn).1
  have hdelete : ∀ k, (follows.delete k : Service Unit).Keeps (NotifiesOnce c db) me :=
    fun k => keeps_delete fun s p hs => hs
  have hback : (do
      let back ← follows.get (v, u)
      rlsPurgeInteractionsBetween u v
      if back.isSome then
        follows.delete (v, u) : Service Unit).Keeps (NotifiesOnce c db) me := by
    refine (readOnly_get _).keeps.bind fun back => hpurge.bind fun _ => ?_
    split
    · exact hdelete _
    · trivial
  refine (readOnly_get _).keeps.bind fun forth => ?_
  cases forth with
  | none => exact hback
  | some _ => exact (hdelete _).bind fun _ => hback

end Besides

/-! ## What the queries read that come first -/

section Agrees

variable {me : Identity} {db s : Db}

/-- The data without marks and notifications. -/
def Db.unmarked (db : Db) : Db :=
  { db with
    checkinLikes := .empty
    listLikes := .empty
    checkinBookmarks := .empty
    listBookmarks := .empty
    notifications := .empty }

/-- Data that agree apart from marks and notifications differ in these tables only. -/
theorem exists_of_unmarked_eq (h : s.unmarked = db.unmarked) :
    ∃ checkinLikes listLikes checkinBookmarks listBookmarks notifications,
      s = { db with checkinLikes, listLikes, checkinBookmarks, listBookmarks, notifications } :=
  ⟨s.checkinLikes, s.listLikes, s.checkinBookmarks, s.listBookmarks, s.notifications,
    congrArg (fun x : Db => { x with
      checkinLikes := s.checkinLikes
      listLikes := s.listLikes
      checkinBookmarks := s.checkinBookmarks
      listBookmarks := s.listBookmarks
      notifications := s.notifications }) h⟩

/-- A lookup reads the same when the tables agree on the key. -/
theorem agrees_get {ρ π : Type} {key : ρ → π} [DecidableEq π] {T : DbTable key} {k : π}
    (h : T.lookup me s k = T.lookup me db k) : (T.get k : Service (Option ρ)).Agrees me db s :=
  ⟨congrArg Prog.ret h, trivial⟩

/-- A lookup that the request leaves as it is. -/
theorem agrees_get_after {ρ π α : Type} {key : ρ → π} [DecidableEq π] {T : DbTable key} {k : π}
    {p : Service α} (h : p.Keeps (fun s => T.lookup me s k = T.lookup me db k) me) :
    (T.get k : Service (Option ρ)).Agrees me db (p.after me db) :=
  agrees_get (h.after rfl)

/-- Taking the one row of a result reads nothing. -/
theorem agrees_scalarOneOrNone {ρ : Type} (rows : List ρ) :
    (scalarOneOrNone rows).Agrees me db s := by
  match rows with
  | [] | [_] | _ :: _ :: _ => trivial

/-- Marks and notifications do not matter to whether somebody may view something. -/
theorem agrees_canView {ownerId : Uuid} {visibility : String} {viewer : Option User}
    (h : s.unmarked = db.unmarked) : (canView ownerId visibility viewer).Agrees me db s := by
  obtain ⟨_, _, _, _, _, rfl⟩ := exists_of_unmarked_eq h
  unfold canView
  split
  · trivial
  · refine Prog.Agrees.bind ?_ fun blocked => ?_
    · cases viewer with
      | none => trivial
      | some v => exact ⟨rfl, trivial⟩
    · cases viewer with
      | none => split_ifs <;> trivial
      | some v =>
        split_ifs
        all_goals first
          | trivial
          | exact ⟨rfl, (agrees_scalarOneOrNone _).bind fun _ => trivial⟩

/-- Nor do they matter to the look-up of a check-in. -/
theorem agrees_getCheckin {checkinId : Uuid} {viewer : Option User} (h : s.unmarked = db.unmarked) :
    (getCheckin checkinId viewer).Agrees me db s := by
  have hview := fun ownerId visibility =>
    @agrees_canView me db s ownerId visibility viewer h
  obtain ⟨_, _, _, _, _, rfl⟩ := exists_of_unmarked_eq h
  refine Prog.Agrees.bind (agrees_get (T := checkins) rfl) fun found => ?_
  cases found with
  | none => trivial
  | some checkin =>
    dsimp only
    split
    · trivial
    · refine (hview _ _).bind fun allowed => ?_
      cases allowed <;> trivial

/-- Nor to that of a list. -/
theorem agrees_getList {listId : Uuid} {viewer : Option User} (h : s.unmarked = db.unmarked) :
    (getList listId viewer).Agrees me db s := by
  have hview := fun ownerId visibility =>
    @agrees_canView me db s ownerId visibility viewer h
  obtain ⟨_, _, _, _, _, rfl⟩ := exists_of_unmarked_eq h
  refine Prog.Agrees.bind (agrees_get (T := lists) rfl) fun found => ?_
  cases found with
  | none => trivial
  | some venueList =>
    refine (hview _ _).bind fun allowed => ?_
    cases allowed <;> trivial

end Agrees

/-! ## Each of them -/

namespace CreateOp

variable {c c' : Ctx} {geo geo' : Geography} {user : User} {db : Db}

/-- The queries of `like_checkin` and the others before they look, then the mark. -/
theorem idempotent_mark {α : Type} {pre : Service α} {T : DbTable Mark.key} {u v : Uuid}
    {notify notify' : α → Service Unit} (hpre : pre.ReadOnly)
    (hagrees : ∀ s, s.unmarked = db.unmarked → pre.Agrees (some user.id) db s)
    (hT : ∀ f s, (T.write f s).unmarked = s.unmarked)
    (hInv : ∀ f s, NotifiesOnce c db s → NotifiesOnce c db (T.write f s))
    (hnotify : ∀ x, Notifies c (notify x)) :
    Idempotent (pre.bind fun x => addMark T c u v (notify x))
      (pre.bind fun x => addMark T c' u v (notify' x)) (some user.id) db (NotifiesOnce c db)
      (T.stmt .select (u, v)) (T.lock (u, v))
      fun s => (T.read s).select fun r => decide (r.key = (u, v)) := by
  have hmarked : ∀ x, ((addMark T c u v (notify x)).after (some user.id) db).unmarked =
      db.unmarked := by
    intro x
    have hkeeps : (addMark T c u v (notify x)).Keeps (fun s => s.unmarked = db.unmarked)
        (some user.id) := by
      rw [addMark_eq]
      exact keeps_getOrCreate (Prog.readOnly_ret _) (fun s hs => (hT _ s).trans hs)
        ((hnotify x).keeps fun s n _ hs => hs)
    exact hkeeps.after rfl
  refine .bind hpre (fun x => hagrees _ (hmarked x)) (fun s x => .inl rfl) fun x => ?_
  rw [addMark_eq, addMark_eq]
  exact .getOrCreate rfl List.mem_cons_self trivial (fun s => hInv _ s) (hnotify x).uncommitted
    ((hnotify x).keeps fun s n hid hs => hs.insert hid)

/-- Sent twice, one after the other, each request finds what the first has created. -/
theorem idempotent_program (hdb : Consistent db) (op : CreateOp) :
    Idempotent (op.program c geo user) (op.program c' geo' user) (some user.id) db
      (NotifiesOnce c db) (op.look user) (op.lock user) fun s => op.stored user s := by
  cases op with
  | followUser id =>
    show Idempotent (OburBackend.followUser c user.id id) (OburBackend.followUser c' user.id id)
      _ _ _ _ _ _
    by_cases h : user.id = id
    · rw [OburBackend.followUser, if_pos h]
      exact .of_raise _
    · rw [followUser_eq h, followUser_eq h]
      exact .getOrCreate rfl List.mem_cons_self trivial (fun s hs => hs)
        notifies_createNotification.uncommitted
        (notifies_createNotification.keeps fun s n hid hs => hs.insert hid)
  | likeCheckin id =>
    exact idempotent_mark (T := checkinLikes) (readOnly_getCheckin _ _)
      (fun s hs => agrees_getCheckin hs) (fun _ _ => rfl) (fun _ _ hs => hs)
      fun _ => notifies_notifyLike
  | likeList id =>
    exact idempotent_mark (T := listLikes) (readOnly_getList _ _)
      (fun s hs => agrees_getList hs) (fun _ _ => rfl) (fun _ _ hs => hs)
      fun _ => notifies_notifyLike
  | bookmarkCheckin id =>
    exact idempotent_mark (T := checkinBookmarks) (readOnly_getCheckin _ _)
      (fun s hs => agrees_getCheckin hs) (fun _ _ => rfl) (fun _ _ hs => hs)
      fun _ => notifies_nobody
  | bookmarkList id =>
    exact idempotent_mark (T := listBookmarks) (readOnly_getList _ _)
      (fun s hs => agrees_getList hs) (fun _ _ => rfl) (fun _ _ hs => hs) fun _ => notifies_nobody
  | addCloseFriend id =>
    show Idempotent (OburBackend.addCloseFriend c user.id id)
      (OburBackend.addCloseFriend c' user.id id) _ _ _ _ _ _
    rw [addCloseFriend_eq, addCloseFriend_eq]
    exact .getOrCreate rfl List.mem_cons_self (readOnly_ensureFollows _ _) (fun s hs => hs)
      trivial trivial
  | createMute id =>
    show Idempotent (OburBackend.createMute c user.id id) (OburBackend.createMute c' user.id id)
      _ _ _ _ _ _
    by_cases h : user.id = id
    · rw [OburBackend.createMute, if_pos h]
      exact .of_raise _
    · rw [createMute_eq h, createMute_eq h]
      exact .getOrCreate rfl List.mem_cons_self trivial (fun s hs => hs) trivial trivial
  | createBlock id =>
    show Idempotent (OburBackend.createBlock c user.id id) (OburBackend.createBlock c' user.id id)
      _ _ _ _ _ _
    by_cases h : user.id = id
    · rw [OburBackend.createBlock, if_pos h]
      exact .of_raise _
    · rw [createBlock_eq h, createBlock_eq h]
      exact .getOrCreate rfl List.mem_cons_self trivial (fun s hs => hs)
        (uncommitted_endLinks _ _) (notifiesOnce_endLinks _ _)
  | saveVenue id type visibility =>
    show Idempotent (VenueSave.saveVenue c user.id id type visibility)
      (VenueSave.saveVenue c' user.id id type visibility) _ _ _ _ _ _
    rw [saveVenue_eq, saveVenue_eq]
    refine .bind (readOnly_get _) (fun venue => agrees_get_after ?_) (fun s venue => ?_)
      fun venue => ?_
    · split
      · trivial
      · exact keeps_findOrCreate readOnly_scalarOneOrNone (Prog.readOnly_ret _) fun s hs => hs
    · split
      · trivial
      · exact .inl rfl
    · split
      · exact .of_raise _
      · refine .findOrCreate (g := fun r => some (r.userId, r.venueId, r.type))
          (b := (user.id, id, type)) ?_ ?_ hdb.venueSaves readOnly_scalarOneOrNone rfl
          (fun _ => rfl) (fun _ _ => rfl) ?_ (List.mem_cons_of_mem _ List.mem_cons_self)
          (Prog.readOnly_ret _) fun s hs => hs
        · exact fun s x hx => (Bool.and_eq_true_iff.mp hx).1
        · simp [isSaveOf]
        · simp [isSaveOf, saveRow]
  | createContentReport targetType id reason details =>
    show Idempotent (OburBackend.createContentReport c user targetType id reason details)
      (OburBackend.createContentReport c' user targetType id reason details) _ _ _ _ _ _
    rw [createContentReport_eq, createContentReport_eq]
    refine .findOrCreate (g := ContentReport.target) (b := (user.id, targetType, id)) ?_ ?_
      hdb.contentReports readOnly_scalarOneOrNone rfl (fun _ => rfl) (fun _ _ => rfl) ?_
      (List.mem_cons_of_mem _ List.mem_cons_self) (readOnly_ensureReportable _ _ _) fun s hs => hs
    · exact fun s x hx => (Bool.and_eq_true_iff.mp hx).1
    · simp [isContentReportOf, ContentReport.target]
    · simp [isContentReportOf, contentReportRow]
  | createVenueReport id reason details =>
    show Idempotent (OburBackend.createVenueReport c user.id id reason details)
      (OburBackend.createVenueReport c' user.id id reason details) _ _ _ _ _ _
    rw [createVenueReport_eq, createVenueReport_eq]
    refine .findOrCreate (g := VenueReport.target) (b := (user.id, id)) ?_ ?_
      hdb.venueReports readOnly_scalarOneOrNone rfl (fun _ => rfl) (fun _ _ => rfl) ?_
      (List.mem_cons_of_mem _ List.mem_cons_self)
      ((readOnly_getVenue _).bind fun _ => Prog.readOnly_ret _) fun s hs => hs
    · exact fun s x hx => (Bool.and_eq_true_iff.mp hx).1
    · simp [isVenueReportOf, VenueReport.target]
    · simp [isVenueReportOf, venueReportRow]
  | createVenue args googlePlacesId =>
    show Idempotent (OburBackend.createVenue c geo _) (OburBackend.createVenue c' geo' _)
      _ _ _ _ _ _
    rw [createVenue_eq rfl, createVenue_eq rfl]
    refine .bind (readOnly_get _) (fun category => agrees_get_after ?_) (fun s category => ?_)
      fun category => ?_
    · split
      · trivial
      · exact keeps_findOrCreate (fun _ => Prog.readOnly_ret _)
          (readOnly_ensureNothingNear _ _) fun s hs => hs
    · split
      · trivial
      · exact .inl rfl
    · split
      · exact .of_raise _
      · refine .findOrCreate (g := Venue.googlePlacesId) (b := googlePlacesId) ?_ ?_
          hdb.venues (fun _ => Prog.readOnly_ret _) rfl (fun _ => rfl) (fun _ _ => rfl) ?_
          (List.mem_cons_of_mem _ List.mem_cons_self) (readOnly_ensureNothingNear _ _)
          fun s hs => hs
        · exact fun s x hx => (Bool.and_eq_true_iff.mp (Bool.and_eq_true_iff.mp hx).2).2
        · simp
        · simp [VenueCreate.row]

end CreateOp

/-! ## Both at once -/

/-- Two requests for the same create by `user`, none of which has begun. -/
def doubleTap (c : Bool → Ctx) (geo : Bool → Geography) (user : User) (op : CreateOp) (db : Db) :
    World Bool Db Lock Identity Stmt PyError op.Row :=
  .start db fun i => .start (some user.id) (op.program (c i) (geo i) user)

section DoubleTap

variable {c : Bool → Ctx} {geo : Bool → Geography} {user : User} {op : CreateOp} {db : Db}
  {sched : List Bool} {w : World Bool Db Lock Identity Stmt PyError op.Row}

/-- Either request, when it comes second, finds what the other has created. -/
theorem idempotent_doubleTap (hdb : Consistent db) (i j : Bool) :
    Idempotent (op.program (c i) (geo i) user) (op.program (c j) (geo j) user) (some user.id) db
      (NotifiesOnce (c i) db) (op.look user) (op.lock user) fun s => op.stored user s :=
  op.idempotent_program hdb

/-- Each of the two requests locks what both of them would add before it adds it. -/
theorem locksFirst_doubleTap_start (hdb : Consistent db) (i : Bool) :
    (((doubleTap c geo user op db).sessions i).LocksFirst (op.lock user)) :=
  World.locksFirst_start (@idempotent_doubleTap c geo user op db hdb i i).creates.locks

/-- In every run, both sessions meet on the lock, and a closed one is done. -/
theorem locksFirst_doubleTap (hdb : Consistent db)
    (hexec : (doubleTap c geo user op db).exec sched = some w) (i : Bool) :
    (w.sessions i).LocksFirst (op.lock user) :=
  World.exec_induction (C := fun _ _ => True)
    (I := fun w => ∀ i, (w.sessions i).LocksFirst (op.lock user))
    (fun _ _ _ h _ hs => World.locksFirst_step h hs) (locksFirst_doubleTap_start hdb)
    (World.always_true _ sched) hexec i

/-- Whatever the order of the steps, the requests come to an end. -/
theorem ends_doubleTap (hdb : Consistent db) : (doubleTap c geo user op db).Ends :=
  World.ends_of_locksFirst (locksFirst_doubleTap_start hdb) (World.exclusive_start fun _ => rfl)

/-- What a run leaves in which the one row is `a`. -/
structure CreatesOnce (c : Ctx) (user : User) (op : CreateOp) (db : Db)
    (w : World Bool Db Lock Identity Stmt PyError op.Row) (a : op.Row) : Prop where
  result : ∀ i res, (w.sessions i).prog.result = some res → res = .ok a
  stored : w.Closed → op.stored user w.committed = [a]
  notifies : NotifiesOnce c db w.committed

/-- Nobody has committed. The requests that are done have found the row. -/
theorem CreatesOnce.of_untouched (hdb : Consistent db) {a : Bool → op.Row}
    (ha : ∀ i, (op.program (c i) (geo i) user).outcome (some user.id) db = .ok (a i))
    (hreleased : ∀ i, (w.sessions i).closed = true → (w.sessions i).prog.result.isSome = true)
    (h : w.Untouched (fun i => op.program (c i) (geo i) user) (some user.id) db (op.look user)) :
    ∃ i, CreatesOnce (c i) user op db w (a i) := by
  by_cases hdone : ∃ i, (w.sessions i).prog.result.isSome = true
  · obtain ⟨i, hi⟩ := hdone
    obtain ⟨res, hres⟩ := Option.isSome_iff_exists.mp hi
    have hafter := (h.result_eq hres).2
    have hfound := fun j => (@idempotent_doubleTap c geo user op db hdb i j).again _ (ha i)
    refine ⟨i, fun j res' hres' => ?_, fun _ => ?_, ?_⟩
    · have houtcome := (hfound j).outcome
      rw [hafter] at houtcome
      exact (h.result_eq hres').1.trans houtcome
    · have hstored := (hfound i).stored
      rw [hafter] at hstored
      rw [h.committed]
      exact hstored
    · rw [h.committed]
      exact fun n hn => .inl hn
  · have hnone : ∀ i, (w.sessions i).prog.result.isSome ≠ true := not_exists.mp hdone
    refine ⟨true, fun j res hres => absurd (Option.isSome_of_eq_some hres) (hnone j), ?_, ?_⟩
    · exact fun hclosed => absurd (hreleased true (hclosed true)) (hnone true)
    · rw [h.committed]
      exact fun n hn => .inl hn

/-- The request `i` has committed, and the other one has found its row or is about to. -/
theorem CreatesOnce.of_answered (hdb : Consistent db) {a : op.Row} {i : Bool}
    (ha : (op.program (c i) (geo i) user).outcome (some user.id) db = .ok a)
    (h : w.Answered ((op.program (c i) (geo i) user).after (some user.id) db)
      (World.serialResult (fun i => op.program (c i) (geo i) user) (some user.id) db i)) :
    CreatesOnce (c i) user op db w a := by
  have hidem := fun j => @idempotent_doubleTap c geo user op db hdb i j
  refine ⟨fun j res hres => (h.result_eq hres).trans ?_, fun _ => ?_, ?_⟩
  · unfold World.serialResult
    split
    · exact ha
    · exact ((hidem j).again a ha).outcome
  · rw [h.committed]
    exact ((hidem i).again a ha).stored
  · rw [h.committed]
    exact (hidem i).keeps.after fun n hn => .inl hn

end DoubleTap

/-- Two requests by one user for the same create, each of which is accepted alone, interleaved in
any order in which neither commits when the other has looked for the row already. They come to an
end, neither fails, no two notifications are new, and when both are done, both have returned the
same row, which is the only one stored. -/
theorem creates_once_of_commitsBeforeLook (c : Bool → Ctx) (geo : Bool → Geography) (user : User)
    (op : CreateOp) (db : Db) (hdb : Consistent db)
    (haccepted : ∀ i, ∃ a, (op.program (c i) (geo i) user).outcome (some user.id) db = .ok a) :
    (doubleTap c geo user op db).Ends ∧
      ∀ (sched : List Bool) (w : World Bool Db Lock Identity Stmt PyError op.Row),
        (doubleTap c geo user op db).exec sched = some w →
        (doubleTap c geo user op db).Always (World.CommitsBeforeLook (op.look user)) sched →
        (∀ i e, (w.sessions i).prog.result ≠ some (.error e)) ∧
          (∀ n ∈ w.committed.notifications, ∀ n' ∈ w.committed.notifications,
            n ∉ db.notifications → n' ∉ db.notifications → n = n') ∧
          (w.Closed → ∃ a, (∀ i, (w.sessions i).prog.result = some (.ok a)) ∧
            op.stored user w.committed = [a]) := by
  refine ⟨ends_doubleTap hdb, fun sched w hexec hsteps => ?_⟩
  choose a ha using haccepted
  have hreleased := fun i hclosed => ((locksFirst_doubleTap hdb hexec i).released hclosed).2
  have hfound := fun i j => (@idempotent_doubleTap c geo user op db hdb i j).again _ (ha i)
  have hrun := World.serial_of_exec (p := fun i => op.program (c i) (geo i) user)
    (fun j => (@idempotent_doubleTap c geo user op db hdb j j).creates.once)
    (fun j => (hfound (!j) j).agrees) (fun j => (hfound (!j) j).quiet) hexec hsteps
  obtain ⟨i, honce⟩ : ∃ i, CreatesOnce (c i) user op db w (a i) := by
    rcases hrun with h | ⟨i, h⟩
    · exact CreatesOnce.of_untouched hdb ha hreleased h
    · exact ⟨i, .of_answered hdb (ha i) h⟩
  refine ⟨fun j e hres => ?_, fun n hn n' hn' hnew hnew' => ?_, fun hclosed => ⟨a i, ?_, ?_⟩⟩
  · have herror := honce.result j _ hres
    cases herror
  · exact honce.notifies.unique hn hn' hnew hnew'
  · intro j
    obtain ⟨res, hres⟩ := Option.isSome_iff_exists.mp (hreleased j (hclosed j))
    rw [hres, honce.result j res hres]
  · exact honce.stored hclosed

/-! ### Two follows at once -/

def tappingUser : User := User.create 1 "clerk" "sub_1" "ada" "Ada" 0

def tapDb : Db :=
  { Db.empty with
    users := (Table.empty.insert tappingUser).insert (User.create 2 "clerk" "sub_2" "bob" "Bob" 0) }

def tapCtx : Bool → Ctx
  | false => .fixed 1 8
  | true => .fixed 1 9

/-- Nothing is near anything. -/
def Geography.empty : Geography := ⟨fun _ _ _ => false, .sequential⟩

/-- Ada taps twice to follow bob. -/
def followTwice : World Bool Db Lock Identity Stmt PyError Follow :=
  doubleTap tapCtx (fun _ => .empty) tappingUser (.followUser 2) tapDb

/-- One request after the other. -/
def oneAfterTheOther : List Bool := List.replicate 6 false ++ List.replicate 2 true

/-- Both look, and then one is done before the other goes on. -/
def bothLook : List Bool := [true] ++ List.replicate 6 false ++ List.replicate 2 true

/-- Alone, the follow of the example is accepted. -/
theorem accepted_followTwice (i : Bool) :
    ∃ a, ((CreateOp.followUser 2).program (tapCtx i) .empty tappingUser).outcome
      (some tappingUser.id) tapDb = .ok a := by
  refine ⟨(⟨1, 2, 1⟩ : Follow), ?_⟩
  cases i with
  | false => rfl
  | true => rfl

/-- One follow after the other: both return the same row. -/
theorem creates_once_of_commitsBeforeLook_followTwice :
    ∃ a, (∀ i, (((followTwice.exec oneAfterTheOther).get (by decide)).sessions i).prog.result =
        some (.ok a)) ∧
      (CreateOp.followUser 2).stored tappingUser
        ((followTwice.exec oneAfterTheOther).get (by decide)).committed = [a] :=
  ((creates_once_of_commitsBeforeLook tapCtx (fun _ => .empty) tappingUser (.followUser 2) tapDb
    (by decide) accepted_followTwice).2 oneAfterTheOther _ (Option.some_get _).symm
      (show followTwice.Always (World.CommitsBeforeLook _) oneAfterTheOther by decide)).2.2
    (show ∀ i, (((followTwice.exec oneAfterTheOther).get (by decide)).sessions i).closed = true by
      decide)

/-- The follow of the request that has looked first violates the primary key. -/
theorem create_can_fail :
    ¬ ∀ (c : Bool → Ctx) (geo : Bool → Geography) (user : User) (op : CreateOp) (db : Db),
      Consistent db →
      (∀ i, ∃ a, (op.program (c i) (geo i) user).outcome (some user.id) db = .ok a) →
      ∀ (sched : List Bool) (w : World Bool Db Lock Identity Stmt PyError op.Row),
        (doubleTap c geo user op db).exec sched = some w → w.Closed →
        ∃ a, (∀ i, (w.sessions i).prog.result = some (.ok a)) ∧
          op.stored user w.committed = [a] := by
  intro h
  obtain ⟨a, ha, -⟩ := h tapCtx (fun _ => .empty) tappingUser (.followUser 2) tapDb (by decide)
    accepted_followTwice bothLook ((followTwice.exec bothLook).get (by decide))
    (Option.some_get _).symm
    (show ∀ i, (((followTwice.exec bothLook).get (by decide)).sessions i).closed = true by decide)
  have hfailed : (((followTwice.exec bothLook).get (by decide)).sessions true).prog.result =
      some (.error (.database .integrity)) := rfl
  have hboth := hfailed.symm.trans (ha true)
  cases hboth

end OburBackend
