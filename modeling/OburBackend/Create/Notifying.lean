import OburBackend.Create.Operations

/-!
# The operations that notify somebody

`follow_user`, `like_checkin` and `like_list` add a row and, in the same transaction, a notification
to the owner of the target. A like resolves its target first, a follow does not; and neither asks
whether the notification may be sent. What the checks leave out is left to the policies and the
foreign keys, whose errors nobody expects.
-/

namespace OburBackend

open Sql

/-! ## A row and its notification -/

/-- A table whose statements and those on the notifications do not meet. -/
structure Noted {ρ π : Type} {key : ρ → π} (T : DbTable key) : Prop where
  read_write : ∀ f s, T.read (T.write f s) = f (T.read s)
  read_notified : ∀ f s, T.read (notifications.write f s) = T.read s
  select_write : ∀ me f s, (T.policy me (T.write f s)).select = (T.policy me s).select
  select_notified : ∀ me f s,
    (T.policy me (notifications.write f s)).select = (T.policy me s).select
  notify : ∀ me f s n,
    notifications.insertWrite me (T.write f s) n = notifications.insertWrite me s n

/-- The statements on follows and those on notifications do not meet. -/
theorem noted_follows : Noted follows :=
  ⟨fun _ _ => rfl, fun _ _ => rfl, fun _ _ _ => rfl, fun _ _ _ => rfl, fun _ _ _ _ => rfl⟩

/-- Nor do those on likes of check-ins. -/
theorem noted_checkinLikes : Noted checkinLikes :=
  ⟨fun _ _ => rfl, fun _ _ => rfl, fun _ _ _ => rfl, fun _ _ _ => rfl, fun _ _ _ _ => rfl⟩

/-- Nor do those on likes of lists. -/
theorem noted_listLikes : Noted listLikes :=
  ⟨fun _ _ => rfl, fun _ _ => rfl, fun _ _ _ => rfl, fun _ _ _ => rfl, fun _ _ _ _ => rfl⟩

/-- A notification by the caller is refused across a block, and otherwise when its recipient is not
stored. -/
theorem insertWrite_notification {db : Db} {n : Notification} {u : Uuid}
    (hactor : n.actorId = some u) (hstored : db.hasUser u = true)
    (hfresh : db.notifications.get n.id = none) :
    notifications.insertWrite (some u) db n =
      if db.Blocked n.userId u then .error .rowSecurity
      else if db.hasUser n.userId then
        .ok { effect := notifications.write (·.insert n), locks := [rowLock .notifications n.id] }
      else .error .integrity := by
  have hinsert : ((notifications.policy (some u) db).insert n).Holds ↔ ¬ db.Blocked n.userId u := by
    simp [notificationsPolicy, hactor]
  have hselect : ¬ db.Blocked n.userId u →
      ((notifications.policy (some u) db).select n).Holds := by
    intro hblocked
    simp [notificationsPolicy, hactor, hblocked]
  have hcons : notifications.constraints db n = db.hasUser n.userId := by
    show (db.hasUser n.userId && db.hasUser? n.actorId) = db.hasUser n.userId
    rw [hactor, Db.hasUser?, hstored, Bool.and_true]
  unfold TableDef.insertWrite
  by_cases hblocked : db.Blocked n.userId u
  · rw [if_pos hblocked, if_neg fun h => hinsert.mp h.1 hblocked]
  · rw [if_neg hblocked, if_pos ⟨hinsert.mpr hblocked, hselect hblocked⟩, hcons,
      notifications_read]
    simp only [hfresh, true_and]
    rfl

section Shape

variable {ρ : Type} {key : ρ → Uuid × Uuid} {T : DbTable key} {db : Db} {u owner : Uuid} {r : ρ}
  {n : Notification}

variable (T db u r owner n) in
/-- The end of a request of `u` that adds `r` unless it is there, and then notifies the owner of
the target, when that is somebody else. -/
def addNoted : Except PyError ρ × Conn Db Identity :=
  match (T.read db).get (key r) with
  | some existing => (.ok existing, Conn.start (some u) db)
  | none =>
    if owner = u then
      (.ok r, Conn.start (some u) (T.write (·.insert r) db))
    else if db.Blocked owner u then
      (.error (.database .rowSecurity), Conn.start (some u) db)
    else
      (.ok r, Conn.start (some u) (notifications.write (·.insert n) (T.write (·.insert r) db)))

/-- The new row is read back after the commit. -/
theorem run_refresh_noted {s : Db} (hread : T.read s = (T.read db).insert r)
    (hselect : (T.policy (some u) s).select = (T.policy (some u) db).select)
    (hsee : ((T.policy (some u) db).select r).Holds) (hfree : (T.read db).get (key r) = none) :
    (refresh T (key r)).run (Conn.start (some u) s) = (.ok r, Conn.start (some u) s) := by
  refine run_refresh (T.lookup_eq_some.mpr ⟨?_, rfl, ?_⟩)
  · rw [Conn.start_working, hread]
    exact (Table.mem_insert hfree).mpr (.inr rfl)
  · rw [Conn.start_vars, Conn.start_working, hselect]
    exact hsee

/-- Getting or creating a row with a notification ends as `addNoted` says. -/
theorem run_getOrCreate_noted (hT : Noted T) {rest : Service Unit}
    (hrest : rest = if owner = u then .ret () else (notifications.insert n).bind fun _ => .ret ())
    (hlookup : T.lookup (some u) db (key r) = (T.read db).get (key r))
    (hinsert : ((T.policy (some u) db).insert r).Holds)
    (hsee : ((T.policy (some u) db).select r).Holds) (hcons : T.constraints db r = true)
    (hactor : n.actorId = some u) (howner : n.userId = owner)
    (hactorStored : db.hasUser u = true) (hownerStored : db.hasUser owner = true)
    (hfresh : db.notifications.get n.id = none) :
    (getOrCreate T r (.ret ()) rest).run (Conn.start (some u) db) = addNoted T db u owner r n := by
  simp only [getOrCreate, addNoted, Prog.bind_eq, run_get_bind, Conn.start_vars,
    Conn.start_working, hlookup]
  cases hfree : (T.read db).get (key r) with
  | some existing => rfl
  | none =>
    have hwrite := T.insertWrite_eq_ok.mpr ⟨hinsert, hsee, hfree, hcons, rfl⟩
    simp only [Prog.ret_bind]
    rw [run_insert_bind]
    simp only [Conn.start_vars, Conn.start_working, hwrite]
    rw [hrest]
    split
    · exact run_refresh_noted (hT.read_write _ _) (hT.select_write _ _ _) hsee hfree
    · have hnotify : notifications.insertWrite (some u) (T.write (·.insert r) db) n =
          if db.Blocked owner u then .error .rowSecurity
          else .ok { effect := notifications.write (·.insert n)
                     locks := [rowLock .notifications n.id] } := by
        rw [hT.notify, insertWrite_notification hactor hactorStored hfresh, howner, hownerStored,
          if_pos rfl]
      rw [Prog.bind_assoc, run_insert_bind, hnotify]
      by_cases hblocked : db.Blocked owner u
      · rw [if_pos hblocked, if_pos hblocked]
        rfl
      · rw [if_neg hblocked, if_neg hblocked]
        refine run_refresh_noted ?_ ?_ hsee hfree
        · rw [hT.read_notified, hT.read_write]
        · rw [hT.select_notified, hT.select_write]

end Shape

/-- A stored user may be referred to. -/
theorem Db.Stored.hasUser {db : Db} {u : User} (h : db.Stored u) : db.hasUser u.id = true := by
  obtain ⟨v, hv, hid, -⟩ := h
  exact hasUser_iff.mpr ⟨v, hv, hid⟩

/-! ## The operations -/

/-- The operations, each with the id of its target. -/
inductive NotifyingOp where
  | followUser (followingId : Uuid)
  | likeCheckin (checkinId : Uuid)
  | likeList (listId : Uuid)

namespace NotifyingOp

/-- The rows that the operation adds. -/
def Row : NotifyingOp → Type
  | .followUser _ => Follow
  | .likeCheckin _ | .likeList _ => Mark

def key : (op : NotifyingOp) → op.Row → Uuid × Uuid
  | .followUser _ => Follow.key
  | .likeCheckin _ | .likeList _ => Mark.key

def table : (op : NotifyingOp) → DbTable op.key
  | .followUser _ => follows
  | .likeCheckin _ => checkinLikes
  | .likeList _ => listLikes

def target : NotifyingOp → Uuid
  | .followUser id | .likeCheckin id | .likeList id => id

/-- The operation as a program, for the user that has sent the request. -/
def program (c : Ctx) (u : User) : (op : NotifyingOp) → Service op.Row
  | .followUser followingId => OburBackend.followUser c u.id followingId
  | .likeCheckin checkinId => OburBackend.likeCheckin c checkinId u
  | .likeList listId => OburBackend.likeList c listId u

/-- The owner of the target, if it is there: a user is their own. -/
def owner (db : Db) : NotifyingOp → Option Uuid
  | .followUser followingId => (db.users.get followingId).map User.id
  | .likeCheckin checkinId => (db.checkins.get checkinId).map Checkin.userId
  | .likeList listId => (db.lists.get listId).map VenueList.userId

/-- The notification of the operation. -/
def notification (c : Ctx) (actorId ownerId : Uuid) (op : NotifyingOp) : Notification :=
  let (type, targetType, targetId) : NotificationType × NotificationTargetType × Uuid :=
    match op with
    | .followUser _ => (.newFollower, .user, actorId)
    | .likeCheckin checkinId => (.checkinLike, .checkin, checkinId)
    | .likeList listId => (.listLike, .list, listId)
  { id := c.uuid4 0, userId := ownerId, type, actorId := some actorId, targetType, targetId
    readAt := none, createdAt := c.now }

/-- The data with the row added, and with the notification of it unless the target is the actor's
own. -/
def noted (op : NotifyingOp) (c : Ctx) (actorId ownerId : Uuid) (row : op.Row) (db : Db) : Db :=
  let db := op.table.write (·.insert row) db
  if ownerId = actorId then db
  else notifications.write (·.insert (op.notification c actorId ownerId)) db

variable {c : Ctx} {db : Db} {u : User} {op : NotifyingOp}

variable (op c db u) in
/-- The operation returns the one row of the actor on the target, which was there or is new, with
its notification and nothing else; or it raises one of the exceptions of the domain and changes
nothing. -/
def EndsWell : Prop :=
  let db' := (op.program c u).after (some u.id) db
  match (op.program c u).outcome (some u.id) db with
  | .ok row =>
    (op.table.read db').select (fun x => decide (op.key x = (u.id, op.target))) = [row] ∧
      (db' = db ∨
        (op.table.read db).get (u.id, op.target) = none ∧
          ∃ ownerId, op.owner db = some ownerId ∧ db' = op.noted c u.id ownerId row db)
  | .error (.domain ..) => db' = db
  | .error _ => False

variable (op db u) in
/-- The cases that no check of the operation anticipates: a user who is not stored is followed, or
one in a block with the follower; or an administrator, who sees content in spite of blocks, likes
content of a user in a block with them. -/
def Unanticipated : Prop :=
  (op.table.read db).get (u.id, op.target) = none ∧
    match op with
    | .followUser followingId =>
      followingId ≠ u.id ∧ (db.hasUser followingId = false ∨ db.Blocked followingId u.id)
    | .likeCheckin checkinId =>
      db.IsAdmin (some u.id) ∧ ∃ checkin ∈ db.checkins, checkin.id = checkinId ∧
        checkin.deletedAt = none ∧ checkin.userId ≠ u.id ∧ db.Blocked checkin.userId u.id
    | .likeList listId =>
      db.IsAdmin (some u.id) ∧ ∃ l ∈ db.lists, l.id = listId ∧ l.userId ≠ u.id ∧
        db.Blocked l.userId u.id

/-- The table of each operation is such a table. -/
theorem noted_table (op : NotifyingOp) : Noted op.table := by
  cases op with
  | followUser => exact noted_follows
  | likeCheckin => exact noted_checkinLikes
  | likeList => exact noted_listLikes

/-- The row is in its table afterwards. -/
theorem read_noted (op : NotifyingOp) (actorId ownerId : Uuid) (row : op.Row) :
    op.table.read (op.noted c actorId ownerId row db) = (op.table.read db).insert row := by
  unfold noted
  dsimp only
  split
  · exact op.noted_table.read_write _ _
  · rw [op.noted_table.read_notified, op.noted_table.read_write]

/-! ### How a run ends -/

/-- The operation ends well when it returns the stored row, and at most that row and its
notification are new. -/
theorem endsWell_of_ok {row : op.Row} {db' : Db}
    (hrun : (op.program c u).run (Conn.start (some u.id) db) =
      (.ok row, Conn.start (some u.id) db'))
    (hrow : (op.table.read db').get (u.id, op.target) = some row)
    (hstate : db' = db ∨ (op.table.read db).get (u.id, op.target) = none ∧
      ∃ ownerId, op.owner db = some ownerId ∧ db' = op.noted c u.id ownerId row db) :
    op.EndsWell c db u := by
  rw [EndsWell, Prog.outcome, Prog.after, hrun]
  exact ⟨Table.select_key hrow, hstate⟩

/-- It ends well when it raises an exception of the domain and changes nothing. -/
theorem endsWell_of_domain {cls : ErrorClass} {message : String}
    (hrun : (op.program c u).run (Conn.start (some u.id) db) =
      (.error (.domain cls message), Conn.start (some u.id) db)) : op.EndsWell c db u := by
  rw [EndsWell, Prog.outcome, Prog.after, hrun]
  rfl

/-- It does not end well when it raises an error of the database. -/
theorem not_endsWell_of_database {e : DbError} {conn : Conn Db Identity}
    (hrun : (op.program c u).run (Conn.start (some u.id) db) = (.error (.database e), conn)) :
    ¬ op.EndsWell c db u := by
  rw [EndsWell, Prog.outcome, Prog.after, hrun]
  exact id

/-- An operation that ends by adding a row and notifying the owner ends well unless it would send
the notification across a block. -/
theorem endsWell_iff_of_addNoted {ownerId : Uuid} {row : op.Row}
    (hkey : op.key row = (u.id, op.target)) (howner : op.owner db = some ownerId)
    (hrun : (op.program c u).run (Conn.start (some u.id) db) =
      addNoted op.table db u.id ownerId row (op.notification c u.id ownerId)) :
    op.EndsWell c db u ↔ ¬ ((op.table.read db).get (u.id, op.target) = none ∧ ownerId ≠ u.id ∧
      db.Blocked ownerId u.id) := by
  rw [addNoted, hkey] at hrun
  cases hfound : (op.table.read db).get (u.id, op.target) with
  | some existing =>
    rw [hfound] at hrun
    have hends := endsWell_of_ok hrun hfound (.inl rfl)
    exact ⟨fun _ h => Option.some_ne_none _ h.1, fun _ => hends⟩
  | none =>
    rw [hfound] at hrun
    have hnew : (op.table.read (op.noted c u.id ownerId row db)).get (u.id, op.target) =
        some row := by
      have hfree : (op.table.read db).get (op.key row) = none := hkey ▸ hfound
      rw [read_noted]
      exact Table.get_eq_some.mpr ⟨(Table.mem_insert hfree).mpr (.inr rfl), hkey⟩
    have hends : (op.program c u).run (Conn.start (some u.id) db) =
        (.ok row, Conn.start (some u.id) (op.noted c u.id ownerId row db)) →
          op.EndsWell c db u :=
      fun h => endsWell_of_ok h hnew (.inr ⟨hfound, ownerId, howner, rfl⟩)
    by_cases hself : ownerId = u.id
    · refine ⟨fun _ h => h.2.1 hself, fun _ => hends ?_⟩
      dsimp only at hrun
      rw [hrun, if_pos hself, noted, if_pos hself]
    · by_cases hblocked : db.Blocked ownerId u.id
      · dsimp only at hrun
        rw [if_neg hself, if_pos hblocked] at hrun
        exact ⟨fun h => absurd h (not_endsWell_of_database hrun),
          fun h => absurd ⟨rfl, hself, hblocked⟩ h⟩
      · refine ⟨fun _ h => hblocked h.2.2, fun _ => hends ?_⟩
        dsimp only at hrun
        rw [hrun, if_neg hself, if_neg hblocked, noted, if_neg hself]

/-! ### Follows -/

section Follow

variable {followingId : Uuid}

/-- A follow of oneself is refused. -/
theorem run_followUser_self (h : u.id = followingId) :
    (OburBackend.followUser c u.id followingId).run (Conn.start (some u.id) db) =
      (.error (.domain .selfFollow "a user cannot follow themselves"),
        Conn.start (some u.id) db) := by
  rw [OburBackend.followUser, if_pos h]
  rfl

/-- Follows are seen by everybody. -/
theorem lookup_follows {me : Identity} (k : Uuid × Uuid) :
    follows.lookup me db k = db.follows.get k :=
  follows.lookup_eq_get fun _ _ _ => rfl

/-- The policy lets a user's own follows in. -/
theorem holds_followsPolicy_insert {r : Follow} (h : r.followerId = u.id) :
    ((follows.policy (some u.id) db).insert r).Holds := by
  refine holds_rlsIsOwnerOrAdmin.mpr (.inl ?_)
  rw [h]

/-- Nobody asks whether the user to follow is there: the foreign key does. -/
theorem run_followUser_missing (hne : u.id ≠ followingId)
    (hnew : db.follows.get (u.id, followingId) = none) (hmissing : db.hasUser followingId = false) :
    (OburBackend.followUser c u.id followingId).run (Conn.start (some u.id) db) =
      (.error (.database .integrity), Conn.start (some u.id) db) := by
  have hcons : ¬ follows.constraints db
      { followerId := u.id, followingId, createdAt := c.now } = true := by
    show ¬ (decide (u.id ≠ followingId) && (db.hasUser u.id && db.hasUser followingId)) = true
    rw [hmissing, Bool.and_false, Bool.and_false]
    exact Bool.false_ne_true
  have hwrite : follows.insertWrite (some u.id) db
      { followerId := u.id, followingId, createdAt := c.now } = .error .integrity := by
    rw [TableDef.insertWrite, if_pos ⟨holds_followsPolicy_insert rfl, rfl⟩,
      if_neg fun h => hcons h.2]
  simp only [OburBackend.followUser, if_neg hne, Prog.bind_eq, run_get_bind, Conn.start_vars,
    Conn.start_working, lookup_follows, hnew]
  rw [run_insert_bind, Conn.start_vars, Conn.start_working, hwrite]
  rfl

/-- A follow of a stored user ends as `addNoted` says. -/
theorem run_followUser_stored (hne : u.id ≠ followingId) (hstored : db.hasUser u.id = true)
    (hthere : db.hasUser followingId = true)
    (hfresh : db.notifications.get (c.uuid4 0) = none) :
    (OburBackend.followUser c u.id followingId).run (Conn.start (some u.id) db) =
      addNoted follows db u.id followingId { followerId := u.id, followingId, createdAt := c.now }
        ((followUser followingId).notification c u.id followingId) := by
  rw [followUser_eq hne]
  refine run_getOrCreate_noted noted_follows ?_ (lookup_follows _) (holds_followsPolicy_insert rfl)
    rfl ?_ rfl rfl hstored hthere hfresh
  · rw [if_neg (Ne.symm hne)]
    rfl
  · show (decide (u.id ≠ followingId) && (db.hasUser u.id && db.hasUser followingId)) = true
    rw [hstored, hthere, decide_eq_true hne]
    rfl

/-- A follow ends well unless its case is not anticipated. -/
theorem endsWell_followUser_iff (hstored : db.hasUser u.id = true)
    (hfresh : db.notifications.get (c.uuid4 0) = none) :
    (followUser followingId).EndsWell c db u ↔ ¬ (followUser followingId).Unanticipated db u := by
  by_cases hself : u.id = followingId
  · have hends := @endsWell_of_domain c db u (followUser followingId) _ _
      (run_followUser_self hself)
    exact ⟨fun _ h => h.2.1 hself.symm, fun _ => hends⟩
  · cases hthere : db.hasUser followingId with
    | true =>
      have howner : (followUser followingId).owner db = some followingId := by
        obtain ⟨v, hv, hid⟩ := hasUser_iff.mp hthere
        rw [owner, Table.get_eq_some.mpr ⟨hv, hid⟩, Option.map_some, hid]
      have hiff := @endsWell_iff_of_addNoted c db u (followUser followingId) followingId
        { followerId := u.id, followingId, createdAt := c.now } rfl howner
        (run_followUser_stored hself hstored hthere hfresh)
      rw [hiff, Unanticipated]
      simp only [hthere, Bool.true_eq_false, false_or]
    | false =>
      cases hfound : db.follows.get (u.id, followingId) with
      | some existing =>
        have hrun : (OburBackend.followUser c u.id followingId).run (Conn.start (some u.id) db) =
            (.ok existing, Conn.start (some u.id) db) := by
          simp only [OburBackend.followUser, if_neg hself, Prog.bind_eq, run_get_bind,
            Conn.start_vars, Conn.start_working, lookup_follows, hfound]
          rfl
        have hends := @endsWell_of_ok c db u (followUser followingId) existing db hrun hfound
          (.inl rfl)
        refine ⟨fun _ h => ?_, fun _ => hends⟩
        have hnew : db.follows.get (u.id, followingId) = none := h.1
        rw [hfound] at hnew
        cases hnew
      | none =>
        have hnot := @not_endsWell_of_database c db u (followUser followingId) _ _
          (run_followUser_missing hself hfound hthere)
        exact ⟨fun h => absurd h hnot, fun h => absurd ⟨hfound, Ne.symm hself, .inl hthere⟩ h⟩

end Follow

/-! ### Likes -/

section Like

/-- Whoever sees content of a user in a block with them is an administrator. -/
theorem isAdmin_of_canSee {me ownerId : Uuid} {visibility : String}
    (hsee : db.CanSee (some me) ownerId visibility) (hother : ownerId ≠ me)
    (hblocked : db.Blocked ownerId me) : db.IsAdmin (some me) := by
  rcases hsee with (hown | hadmin) | ⟨hfree, -⟩
  · exact absurd (Option.some.inj hown).symm hother
  · exact hadmin
  · exact absurd hblocked (hfree me rfl)

/-- Such an operation on content that its actor sees. -/
theorem endsWell_iff_of_canSee {ownerId : Uuid} {visibility : String} {row : op.Row}
    (hkey : op.key row = (u.id, op.target)) (howner : op.owner db = some ownerId)
    (hrun : (op.program c u).run (Conn.start (some u.id) db) =
      addNoted op.table db u.id ownerId row (op.notification c u.id ownerId))
    (hsee : db.CanSee (some u.id) ownerId visibility)
    (hcase : op.Unanticipated db u ↔ (op.table.read db).get (u.id, op.target) = none ∧
      db.IsAdmin (some u.id) ∧ ownerId ≠ u.id ∧ db.Blocked ownerId u.id) :
    op.EndsWell c db u ↔ ¬ op.Unanticipated db u := by
  rw [endsWell_iff_of_addNoted hkey howner hrun, hcase]
  refine not_congr (and_congr_right fun _ => ⟨fun h => ?_, And.right⟩)
  exact ⟨isAdmin_of_canSee hsee h.1 h.2, h⟩

/-- Liking a target that the user sees, whose owner is stored. -/
theorem run_addMark_noted {T : DbTable Mark.key} (hT : Noted T) {canView : Uuid → Truth}
    {targetId ownerId : Uuid} {type : NotificationType} {targetType : NotificationTargetType}
    (hpolicy : T.policy (some u.id) db = likesPolicy (some u.id) db canView)
    (hsee : (canView targetId).Holds)
    (hcons : T.constraints db { userId := u.id, targetId, createdAt := c.now } = true)
    (hstored : db.hasUser u.id = true) (hownerStored : db.hasUser ownerId = true)
    (hfresh : db.notifications.get (c.uuid4 0) = none) :
    (addMark T c u.id targetId (notifyLike c ownerId type u.id targetType targetId)).run
        (Conn.start (some u.id) db) =
      addNoted T db u.id ownerId { userId := u.id, targetId, createdAt := c.now }
        { id := c.uuid4 0, userId := ownerId, type, actorId := some u.id, targetType, targetId
          readAt := none, createdAt := c.now } := by
  have hselect : ∀ r : Mark, r.targetId = targetId →
      ((T.policy (some u.id) db).select r).Holds := by
    intro r hr
    rw [hpolicy]
    show (canView r.targetId).Holds
    rw [hr]
    exact hsee
  have hlookup : T.lookup (some u.id) db (u.id, targetId) = (T.read db).get (u.id, targetId) := by
    refine T.lookup_eq_get fun r _ hkey => hselect r ?_
    exact congrArg Prod.snd hkey
  have hinsert : ((T.policy (some u.id) db).insert
      { userId := u.id, targetId, createdAt := c.now }).Holds := by
    rw [hpolicy]
    exact (Truth.holds_and _ _).mpr ⟨holds_rlsIsOwnerOrAdmin.mpr (.inl rfl), hsee⟩
  rw [addMark_eq]
  refine run_getOrCreate_noted hT ?_ hlookup hinsert (hselect _ rfl) hcons rfl rfl hstored
    hownerStored hfresh
  by_cases hself : ownerId = u.id
  · rw [notifyLike, if_neg (not_not.mpr hself), if_pos hself]
    rfl
  · rw [notifyLike, if_pos hself, if_neg hself]
    rfl

variable (hstored : db.Stored u) (hfresh : db.notifications.get (c.uuid4 0) = none)

include hstored hfresh

/-- So does a like of a check-in. -/
theorem endsWell_likeCheckin_iff (hvalid : checkins.Valid db) {checkinId : Uuid} :
    (likeCheckin checkinId).EndsWell c db u ↔ ¬ (likeCheckin checkinId).Unanticipated db u := by
  have huser := hstored.hasUser
  have hget := @run_getCheckin checkinId (some u) (Conn.start (some u.id) db) rfl (by
    rintro v ⟨⟩
    exact hstored)
  have hprog : ((likeCheckin checkinId).program c u).run (Conn.start (some u.id) db) =
      ((OburBackend.getCheckin checkinId (some u)).bind fun checkin =>
        addMark checkinLikes c u.id checkinId (notifyLike c checkin.userId .checkinLike u.id
          .checkin checkinId)).run (Conn.start (some u.id) db) := rfl
  rw [Prog.run_bind, hget] at hprog
  cases hfound : (checkins.lookup (some u.id) db checkinId).filter (·.deletedAt.isNone) with
  | none =>
    simp only [Conn.start_vars, Conn.start_working, hfound, Prog.orRaise_none] at hprog
    have hends := endsWell_of_domain hprog
    refine ⟨fun _ h => ?_, fun _ => hends⟩
    -- an administrator would have found the check-in
    obtain ⟨-, hadmin, x, hx, hid, hlive, -⟩ := h
    have hlookup : checkins.lookup (some u.id) db checkinId = some x :=
      checkins.lookup_eq_some.mpr ⟨hx, hid, holds_checkinsPolicy_select.mpr (.inl (.inr hadmin))⟩
    rw [hlookup, Option.filter_some, hlive] at hfound
    cases hfound
  | some x =>
    simp only [Conn.start_vars, Conn.start_working, hfound, Prog.orRaise_some] at hprog
    obtain ⟨hlookup, hlive⟩ := Option.filter_eq_some_iff.mp hfound
    obtain ⟨hx, rfl, hsee⟩ := checkins.lookup_eq_some.mp hlookup
    have hsee := holds_checkinsPolicy_select.mp hsee
    have howner : db.hasUser x.userId = true := by
      have hcons : checkinsConstraints db x = true := hvalid x hx
      simp only [checkinsConstraints, Bool.and_eq_true] at hcons
      exact hcons.2.2.1
    have hcheckin : (checkinMarksConstraints db
        { userId := u.id, targetId := x.id, createdAt := c.now }) = true := by
      rw [checkinMarksConstraints, huser, hasCheckin_iff.mpr ⟨x, hx, rfl⟩]
      rfl
    rw [run_addMark_noted noted_checkinLikes rfl
      (holds_rlsCanViewCheckin.mpr ⟨x, hx, rfl, hsee⟩) hcheckin huser howner hfresh] at hprog
    have hget : db.checkins.get x.id = some x := Table.get_eq_some.mpr ⟨hx, rfl⟩
    have hownerOf : (likeCheckin x.id).owner db = some x.userId := congrArg (Option.map _) hget
    refine endsWell_iff_of_canSee rfl hownerOf hprog hsee (and_congr_right fun _ => ?_)
    refine and_congr_right fun _ => ⟨?_, fun h => ⟨x, hx, rfl,
      Option.isNone_iff_eq_none.mp hlive, h⟩⟩
    rintro ⟨y, hy, hid, -, h⟩
    obtain rfl := Table.eq_of_key_eq hy hx hid
    exact h

/-- So does a like of a list. -/
theorem endsWell_likeList_iff (hvalid : lists.Valid db) {listId : Uuid} :
    (likeList listId).EndsWell c db u ↔ ¬ (likeList listId).Unanticipated db u := by
  have huser := hstored.hasUser
  have hget := @run_getList listId (some u) (Conn.start (some u.id) db) rfl (by
    rintro v ⟨⟩
    exact hstored)
  have hprog : ((likeList listId).program c u).run (Conn.start (some u.id) db) =
      ((OburBackend.getList listId (some u)).bind fun l =>
        addMark listLikes c u.id listId (notifyLike c l.userId .listLike u.id
          .list listId)).run (Conn.start (some u.id) db) := rfl
  rw [Prog.run_bind, hget] at hprog
  cases hfound : lists.lookup (some u.id) db listId with
  | none =>
    simp only [Conn.start_vars, Conn.start_working, hfound, Prog.orRaise_none] at hprog
    have hends := endsWell_of_domain hprog
    refine ⟨fun _ h => ?_, fun _ => hends⟩
    -- an administrator would have found the list
    obtain ⟨-, hadmin, l, hl, hid, -⟩ := h
    have hlookup : lists.lookup (some u.id) db listId = some l :=
      lists.lookup_eq_some.mpr ⟨hl, hid, holds_listsPolicy_select.mpr (.inl (.inr hadmin))⟩
    rw [hlookup] at hfound
    cases hfound
  | some l =>
    simp only [Conn.start_vars, Conn.start_working, hfound, Prog.orRaise_some] at hprog
    obtain ⟨hl, rfl, hsee⟩ := lists.lookup_eq_some.mp hfound
    have hsee := holds_listsPolicy_select.mp hsee
    have howner : db.hasUser l.userId = true := by
      have hcons : listsConstraints db l = true := hvalid l hl
      rw [listsConstraints, Bool.and_eq_true] at hcons
      exact hcons.2
    have hlist : (listMarksConstraints db
        { userId := u.id, targetId := l.id, createdAt := c.now }) = true := by
      rw [listMarksConstraints, huser, hasList_iff.mpr ⟨l, hl, rfl⟩]
      rfl
    rw [run_addMark_noted noted_listLikes rfl
      (holds_rlsCanViewList.mpr ⟨l, hl, rfl, hsee⟩) hlist huser howner hfresh] at hprog
    have hget : db.lists.get l.id = some l := Table.get_eq_some.mpr ⟨hl, rfl⟩
    have hownerOf : (likeList l.id).owner db = some l.userId := congrArg (Option.map _) hget
    refine endsWell_iff_of_canSee rfl hownerOf hprog hsee (and_congr_right fun _ => ?_)
    refine and_congr_right fun _ => ⟨?_, fun h => ⟨l, hl, rfl, h⟩⟩
    rintro ⟨l', hl', hid, h⟩
    obtain rfl := Table.eq_of_key_eq hl' hl hid
    exact h

end Like

end NotifyingOp

/-- Following and liking either do all of what they are for or raise an exception of the domain and
change nothing, except where no check anticipates a refusal of the database. -/
theorem endsWell_iff (c : Ctx) (db : Db) (u : User) (op : NotifyingOp) (hstored : db.Stored u)
    (hconsistent : Consistent db) (hfresh : db.notifications.get (c.uuid4 0) = none) :
    op.EndsWell c db u ↔ ¬ op.Unanticipated db u := by
  cases op with
  | followUser followingId => exact NotifyingOp.endsWell_followUser_iff hstored.hasUser hfresh
  | likeCheckin checkinId =>
    exact NotifyingOp.endsWell_likeCheckin_iff hstored hfresh hconsistent.checkins
  | likeList listId => exact NotifyingOp.endsWell_likeList_iff hstored hfresh hconsistent.lists

/-- Somebody, and somebody who has blocked them. -/
def blockedFollower : User := User.create 1 "clerk" "sub_1" "ada" "Ada" 0

/-- The database that holds the two and the block. -/
def blockedFollowerDb : Db :=
  { Db.empty with
    users := (Table.empty.insert blockedFollower).insert
      (User.create 2 "clerk" "sub_2" "bob" "Bob" 0)
    blocks := Table.empty.insert { blockerId := 2, blockedId := 1, createdAt := 0 } }

/-- The follower of the example is stored. -/
theorem stored_blockedFollower : blockedFollowerDb.Stored blockedFollower :=
  ⟨blockedFollower, by decide, rfl, rfl⟩

/-- A follower in a block with whom they follow: the case is not anticipated. -/
theorem endsWell_iff_blockedFollower :
    (NotifyingOp.followUser 2).EndsWell (.fixed 1 9) blockedFollowerDb blockedFollower ↔
      ¬ (NotifyingOp.followUser 2).Unanticipated blockedFollowerDb blockedFollower :=
  endsWell_iff (.fixed 1 9) blockedFollowerDb blockedFollower (.followUser 2)
    stored_blockedFollower (by decide) rfl

/-- Following somebody who has blocked one ends in a violated row policy. -/
theorem follow_can_end_in_database_error :
    ¬ ∀ (c : Ctx) (db : Db) (u : User) (op : NotifyingOp), db.Stored u → Consistent db →
      db.notifications.get (c.uuid4 0) = none → op.EndsWell c db u := by
  intro h
  have hends := h (.fixed 1 9) blockedFollowerDb blockedFollower (.followUser 2)
    stored_blockedFollower (by decide) rfl
  have hrun : ((NotifyingOp.followUser 2).program (.fixed 1 9) blockedFollower).run
      (Conn.start (some blockedFollower.id) blockedFollowerDb) =
        (.error (.database .rowSecurity), Conn.start (some 1) blockedFollowerDb) := rfl
  exact NotifyingOp.not_endsWell_of_database hrun hends

end OburBackend
