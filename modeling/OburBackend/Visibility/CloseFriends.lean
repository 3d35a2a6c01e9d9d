import OburBackend.Block.Invariant

/-!
# Access to content for close friends

The `close_friends` tier is granted by a `close_friends` row and withdrawn with the follow that the
row rests on. Whether somebody has access is thus a question about the past: `Run` records the
requests that have led to a state, and `AddedSinceFollow` says of that history that the owner has
added the follower after the follower's latest follow.
-/

namespace OburBackend

open Sql

/-- `v` follows `o`. -/
def Db.Follows (db : Db) (v o : Uuid) : Prop :=
  ∃ r ∈ db.follows, r.followerId = v ∧ r.followingId = o

/-! ## Histories -/

/-- A request that has run, with the data before and after it. -/
structure Event where
  actor : Uuid
  op : SocialOp
  before : Db
  after : Db

namespace Event

variable (e : Event)

/-- `v` starts to follow `o`. A call of `follow_user` that finds the follow in place is none. -/
def StartsFollow (v o : Uuid) : Prop :=
  e.actor = v ∧ e.op = .followUser o ∧ ¬ e.before.Follows v o ∧ e.after.Follows v o

/-- `o` adds `v` to their close friends. -/
def AddsCloseFriend (o v : Uuid) : Prop :=
  e.actor = o ∧ e.op = .addCloseFriend v ∧ ¬ e.before.IsCloseFriend o v ∧
    e.after.IsCloseFriend o v

/-- `v` unfollows `o`, is removed by `o`, or is left in a block with `o`. -/
def Severs (v o : Uuid) : Prop :=
  e.actor = v ∧ e.op = .unfollowUser o ∨ e.actor = o ∧ e.op = .removeFollower v ∨
    e.after.Blocked o v

end Event

/-- The runs of the application from an empty database, one request after the other, with the
requests of the social graph in `events`, the latest first. The other requests may do whatever they
like to the other tables (`Db.SameLinks`). -/
inductive Run : List Event → Db → Prop where
  | empty : Run [] Db.empty
  | elsewhere {events : List Event} {db db' : Db} (h : Run events db) (hsame : db.SameLinks db') :
      Run events db'
  | request {events : List Event} {db : Db} (h : Run events db) (c : Ctx) (currentUser : User)
      (hstored : currentUser ∈ db.users) (hrole : currentUser.role ≠ UserRole.admin)
      (op : SocialOp) :
      Run (⟨currentUser.id, op, db, (op.program c currentUser).after (some currentUser.id) db⟩ ::
        events) ((op.program c currentUser).after (some currentUser.id) db)

/-- What a run comes to is reachable. -/
theorem Run.reachable {events : List Event} {db : Db} (h : Run events db) : Reachable db := by
  induction h with
  | empty => exact .empty
  | elsewhere _ hsame ih => exact ih.elsewhere hsame
  | request _ c currentUser hstored hrole op ih => exact ih.request c currentUser hstored hrole op

/-- `v` has started to follow `o`, and `newer` is what has happened since the latest time. -/
def FollowedSince (events newer : List Event) (v o : Uuid) : Prop :=
  ∃ follow older, events = newer ++ follow :: older ∧ follow.StartsFollow v o ∧
    ∀ e ∈ newer, ¬ e.StartsFollow v o

/-- `o` has added `v` to their close friends after the latest time that `v` started to follow
`o`. -/
def AddedSinceFollow (events : List Event) (o v : Uuid) : Prop :=
  ∃ newer add between follow older, events = newer ++ add :: (between ++ follow :: older) ∧
    add.AddsCloseFriend o v ∧ follow.StartsFollow v o ∧
    ∀ e ∈ newer ++ add :: between, ¬ e.StartsFollow v o

/-! ## What one request adds -/

/-- `w` has no follow but those of `db` and those in `F`, and no close friend but those of `db` and
those in `C`. -/
structure Db.GrowsBy (db : Db) (F C : Uuid → Uuid → Prop) (w : Db) : Prop where
  follows : ∀ r ∈ w.follows, r ∈ db.follows ∨ F r.followerId r.followingId
  closeFriends : ∀ r ∈ w.closeFriends, r ∈ db.closeFriends ∨ C r.userId r.friendId

namespace Db.GrowsBy

variable {db w : Db} {F C : Uuid → Uuid → Prop} {me : Uuid}

/-- Nothing has grown at first. -/
theorem refl (db : Db) : db.GrowsBy F C db := ⟨fun _ hr => .inl hr, fun _ hr => .inl hr⟩

/-- A follow of `F` may be added. -/
theorem insert_follow (h : db.GrowsBy F C w) {r : Follow} (hr : F r.followerId r.followingId) :
    db.GrowsBy F C { w with follows := w.follows.insert r } where
  follows x hx := by
    rcases Table.mem_or_eq_of_mem_insert hx with hx | rfl
    · exact h.follows x hx
    · exact .inr hr
  closeFriends := h.closeFriends

/-- So may a close friend of `C`. -/
theorem insert_closeFriend (h : db.GrowsBy F C w) {r : CloseFriend} (hr : C r.userId r.friendId) :
    db.GrowsBy F C { w with closeFriends := w.closeFriends.insert r } where
  follows := h.follows
  closeFriends x hx := by
    rcases Table.mem_or_eq_of_mem_insert hx with hx | rfl
    · exact h.closeFriends x hx
    · exact .inr hr

/-- Close friends may go. -/
theorem erase_closeFriends (h : db.GrowsBy F C w) (p : CloseFriend → Bool) :
    db.GrowsBy F C { w with closeFriends := w.closeFriends.erase p } where
  follows := h.follows
  closeFriends x hx := h.closeFriends x (Table.mem_erase.mp hx).1

/-- So may follows, with the close friends that rest on them. -/
theorem erase_follows (h : db.GrowsBy F C w) (p : Follow → Bool) :
    db.GrowsBy F C (eraseFollows p w) where
  follows x hx := h.follows x (Table.mem_erase.mp hx).1
  closeFriends x hx := h.closeFriends x (Table.mem_erase.mp hx).1

/-- So may users, with both. -/
theorem erase_users (h : db.GrowsBy F C w) (p : User → Bool) :
    db.GrowsBy F C (eraseUsers p w) where
  follows x hx := h.follows x (Table.mem_erase.mp hx).1
  closeFriends x hx := h.closeFriends x (Table.mem_erase.mp hx).1

end Db.GrowsBy

section Keeps

variable {db : Db} {F C : Uuid → Uuid → Prop} {me : Identity} {c : Ctx} {a b : Uuid}

/-- A notification adds neither. -/
theorem grows_createNotification {type : NotificationType} {actorId : Option Uuid}
    {targetType : NotificationTargetType} :
    (createNotification c a type actorId targetType b).Keeps (db.GrowsBy F C) me :=
  (keeps_insert fun _ h _ _ _ => ⟨h.follows, h.closeFriends⟩).bind fun _ => trivial

/-- A follow adds no other follow. -/
theorem grows_followUser (hF : F a b) : (followUser c a b).Keeps (db.GrowsBy F C) me := by
  unfold followUser
  split
  · trivial
  · refine (readOnly_get _).keeps.bind fun found => ?_
    cases found with
    | some existing => trivial
    | none =>
      refine (keeps_insert fun _ h _ _ _ => h.insert_follow hF).bind fun _ => ?_
      exact grows_createNotification.bind fun _ => keeps_commit_refresh

/-- An unfollow adds neither. -/
theorem grows_unfollowUser : (unfollowUser a b).Keeps (db.GrowsBy F C) me := by
  refine (readOnly_get _).keeps.bind fun found => ?_
  cases found with
  | none => trivial
  | some follow =>
    exact (keeps_delete fun _ p h => h.erase_follows p).bind fun _ => Prog.keeps_commit

/-- Adding a close friend adds no other one. -/
theorem grows_addCloseFriend (hC : C a b) : (addCloseFriend c a b).Keeps (db.GrowsBy F C) me := by
  refine (readOnly_get _).keeps.bind fun found => ?_
  cases found with
  | some existing => trivial
  | none =>
    refine (readOnly_get _).keeps.bind fun follow => ?_
    cases follow with
    | none => trivial
    | some follow =>
      exact (keeps_insert fun _ h _ _ _ => h.insert_closeFriend hC).bind fun _ =>
        keeps_commit_refresh

/-- Removing one adds neither. -/
theorem grows_removeCloseFriend : (removeCloseFriend a b).Keeps (db.GrowsBy F C) me := by
  refine (readOnly_get _).keeps.bind fun found => ?_
  cases found with
  | none => trivial
  | some friend =>
    exact (keeps_delete fun _ p h => h.erase_closeFriends p).bind fun _ => Prog.keeps_commit

/-- A deletion of a follow that may not take place adds neither. -/
theorem grows_deleteFollowIf {found : Bool} {k : Uuid × Uuid} {rest : Service Block}
    (hrest : rest.Keeps (db.GrowsBy F C) me) :
    (if found = true then (follows.delete k).bind fun _ => rest else rest).Keeps
      (db.GrowsBy F C) me := by
  split
  · exact (keeps_delete fun _ p h => h.erase_follows p).bind fun _ => hrest
  · exact hrest

/-- Nor does the purge of a block. -/
theorem grows_purge : (rlsPurgeInteractionsBetween a b).Keeps (db.GrowsBy F C) me := by
  refine (keeps_definerDelete fun _ p h => ⟨h.follows, h.closeFriends⟩).bind fun _ => ?_
  refine (keeps_definerDelete fun _ p h => ⟨h.follows, h.closeFriends⟩).bind fun _ => ?_
  refine (keeps_definerDelete fun _ p h => ⟨h.follows, h.closeFriends⟩).bind fun _ => ?_
  refine (keeps_definerDelete fun _ p h => ⟨h.follows, h.closeFriends⟩).bind fun _ => ?_
  exact keeps_definerDelete fun _ p h => ⟨h.follows, h.closeFriends⟩

/-- Nor does a block. -/
theorem grows_createBlock : (createBlock c a b).Keeps (db.GrowsBy F C) me := by
  unfold createBlock
  split
  · trivial
  · refine (readOnly_get _).keeps.bind fun found => ?_
    cases found with
    | some existing => trivial
    | none =>
      refine (keeps_insert fun _ h _ _ _ => ⟨h.follows, h.closeFriends⟩).bind fun _ => ?_
      refine (readOnly_get _).keeps.bind fun forth => grows_deleteFollowIf ?_
      refine (readOnly_get _).keeps.bind fun back => grows_purge.bind fun _ => ?_
      exact grows_deleteFollowIf keeps_commit_refresh

/-- Nor does the end of a block. -/
theorem grows_removeBlock : (removeBlock a b).Keeps (db.GrowsBy F C) me := by
  refine (readOnly_get _).keeps.bind fun found => ?_
  cases found with
  | none => trivial
  | some block =>
    exact (keeps_delete fun _ p h => ⟨h.follows, h.closeFriends⟩).bind fun _ => Prog.keeps_commit

/-- Nor does a mark, with what it notifies. -/
theorem grows_addMark {T : DbTable Mark.key} {notify : Service Unit}
    (hinsert : ∀ w r, db.GrowsBy F C w → db.GrowsBy F C (T.write (·.insert r) w))
    (hnotify : notify.Keeps (db.GrowsBy F C) me) :
    (addMark T c a b notify).Keeps (db.GrowsBy F C) me := by
  refine (readOnly_get _).keeps.bind fun found => ?_
  cases found with
  | some existing => trivial
  | none =>
    refine (keeps_insert fun w h _ _ _ => hinsert w _ h).bind fun _ => hnotify.bind fun _ => ?_
    exact keeps_commit_refresh

/-- Nor does taking it back. -/
theorem grows_removeMark {T : DbTable Mark.key} {e : ErrorClass} {message : String}
    (herase : ∀ w p, db.GrowsBy F C w → db.GrowsBy F C (T.erase p w)) :
    (removeMark T a b e message).Keeps (db.GrowsBy F C) me := by
  refine (readOnly_get _).keeps.bind fun found => ?_
  cases found with
  | none => trivial
  | some mark => exact (keeps_delete herase).bind fun _ => Prog.keeps_commit

/-- Nor does the notification of a like. -/
theorem grows_notifyLike {ownerId : Uuid} {type : NotificationType}
    {targetType : NotificationTargetType} :
    (notifyLike c ownerId type a targetType b).Keeps (db.GrowsBy F C) me := by
  unfold notifyLike
  split
  · exact grows_createNotification.bind fun _ => trivial
  · trivial

/-- Nor does an edit of a list. -/
theorem grows_updateList {u : User} {updates : ListUpdates} :
    (updateList a u updates).Keeps (db.GrowsBy F C) me := by
  refine (readOnly_get _).keeps.bind fun found => ?_
  cases found with
  | none => trivial
  | some venueList =>
    refine (readOnly_ensureVisibleAndOwned _ _ _ _ _ _ _).keeps.bind fun _ => ?_
    dsimp only
    split
    · exact (keeps_update fun _ h => ⟨h.follows, h.closeFriends⟩).bind fun _ => keeps_commit_refresh
    · exact keeps_commit_refresh

/-- Nor does a deletion of one. -/
theorem grows_deleteList {u : User} : (deleteList a u).Keeps (db.GrowsBy F C) me := by
  refine (readOnly_get _).keeps.bind fun found => ?_
  cases found with
  | none => trivial
  | some venueList =>
    refine (readOnly_ensureVisibleAndOwned _ _ _ _ _ _ _).keeps.bind fun _ => ?_
    exact (keeps_delete fun _ p h => ⟨h.follows, h.closeFriends⟩).bind fun _ => Prog.keeps_commit

end Keeps

/-- A request adds no follow but the one that its user asks for, and no close friend but the one
that its user adds. -/
theorem growsBy_program {c : Ctx} {u : User} (op : SocialOp) (db : Db) :
    db.GrowsBy (fun v o => u.id = v ∧ op = .followUser o) (fun o v => u.id = o ∧
      op = .addCloseFriend v) ((op.program c u).after (some u.id) db) := by
  refine Prog.Keeps.after ?_ (.refl db)
  cases op with
  | followUser followingId => exact (grows_followUser ⟨rfl, rfl⟩).bind fun _ => trivial
  | unfollowUser followingId => exact grows_unfollowUser
  | removeFollower followerId => exact grows_unfollowUser
  | addCloseFriend friendId => exact (grows_addCloseFriend ⟨rfl, rfl⟩).bind fun _ => trivial
  | removeCloseFriend friendId => exact grows_removeCloseFriend
  | createBlock blockedId => exact grows_createBlock.bind fun _ => trivial
  | removeBlock blockedId => exact grows_removeBlock
  | deleteAccount => exact keeps_deleteAccount fun _ p h => h.erase_users p
  | likeCheckin checkinId =>
    refine ((readOnly_getCheckin _ _).keeps.bind fun checkin => ?_).bind fun _ => trivial
    exact grows_addMark (fun _ _ h => ⟨h.follows, h.closeFriends⟩) grows_notifyLike
  | likeList listId =>
    refine ((readOnly_getList _ _).keeps.bind fun venueList => ?_).bind fun _ => trivial
    exact grows_addMark (fun _ _ h => ⟨h.follows, h.closeFriends⟩) grows_notifyLike
  | bookmarkCheckin checkinId =>
    refine ((readOnly_getCheckin _ _).keeps.bind fun checkin => ?_).bind fun _ => trivial
    exact grows_addMark (fun _ _ h => ⟨h.follows, h.closeFriends⟩) trivial
  | bookmarkList listId =>
    refine ((readOnly_getList _ _).keeps.bind fun venueList => ?_).bind fun _ => trivial
    exact grows_addMark (fun _ _ h => ⟨h.follows, h.closeFriends⟩) trivial
  | unlikeCheckin targetId | unlikeList targetId | unbookmarkCheckin targetId
  | unbookmarkList targetId =>
    exact grows_removeMark fun _ _ h => ⟨h.follows, h.closeFriends⟩
  | createCheckin args =>
    refine (keeps_createCheckin ?_ ?_).bind fun _ => trivial
    · exact fun _ h => ⟨h.follows, h.closeFriends⟩
    · exact fun _ h => ⟨h.follows, h.closeFriends⟩
  | updateCheckin checkinId updates =>
    exact (keeps_updateCheckin fun _ _ h => ⟨h.follows, h.closeFriends⟩).bind fun _ => trivial
  | softDeleteCheckin checkinId =>
    exact keeps_softDeleteCheckin fun _ _ _ _ h => ⟨h.follows, h.closeFriends⟩
  | hardDeleteCheckin checkinId =>
    exact keeps_hardDeleteCheckin fun _ _ h => ⟨h.follows, h.closeFriends⟩
  | createList title description visibility =>
    refine ((keeps_insert fun _ h _ _ _ => ⟨h.follows, h.closeFriends⟩).bind fun _ => ?_).bind
      fun _ => trivial
    exact keeps_commit_refresh
  | updateList listId updates => exact grows_updateList.bind fun _ => trivial
  | deleteList listId => exact grows_deleteList

/-! ## What a history says about the present -/

section History

variable {events : List Event} {db : Db} {o v : Uuid}

/-- A close friend follows: the row rests on the follow. -/
theorem Db.KeepsApart.follows_of_isCloseFriend (h : db.KeepsApart)
    (hfriend : db.IsCloseFriend o v) :
    db.Follows v o := by
  obtain ⟨r, hr, rfl, rfl⟩ := hfriend
  exact h.respects.closeFriends r hr

/-- A follow and a block exclude each other. -/
theorem Db.KeepsApart.not_blocked_of_follows (h : db.KeepsApart) (hfollow : db.Follows v o) :
    ¬ db.Blocked v o := by
  obtain ⟨r, hr, rfl, rfl⟩ := hfollow
  exact h.respects.follows r hr

/-- A request that a new follow appears in is its `follow_user`. -/
theorem startsFollow_of_new {c : Ctx} {u : User} {op : SocialOp} (hold : ¬ db.Follows v o)
    (hnew : ((op.program c u).after (some u.id) db).Follows v o) :
    Event.StartsFollow ⟨u.id, op, db, (op.program c u).after (some u.id) db⟩ v o := by
  obtain ⟨r, hr, rfl, rfl⟩ := hnew
  rcases (growsBy_program op db).follows r hr with hr' | ⟨hactor, hop⟩
  · exact absurd ⟨r, hr', rfl, rfl⟩ hold
  · exact ⟨hactor, hop, hold, r, hr, rfl, rfl⟩

/-- A request that a new close friend appears in is its `add_close_friend`. -/
theorem addsCloseFriend_of_new {c : Ctx} {u : User} {op : SocialOp}
    (hold : ¬ db.IsCloseFriend o v)
    (hnew : ((op.program c u).after (some u.id) db).IsCloseFriend o v) :
    Event.AddsCloseFriend ⟨u.id, op, db, (op.program c u).after (some u.id) db⟩ o v := by
  obtain ⟨r, hr, rfl, rfl⟩ := hnew
  rcases (growsBy_program op db).closeFriends r hr with hr' | ⟨hactor, hop⟩
  · exact absurd ⟨r, hr', rfl, rfl⟩ hold
  · exact ⟨hactor, hop, hold, r, hr, rfl, rfl⟩

/-- Nothing else adds a follow while somebody is added as a close friend. -/
theorem follows_of_addsCloseFriend {c : Ctx} {u : User} {op : SocialOp}
    (hadd : Event.AddsCloseFriend ⟨u.id, op, db, (op.program c u).after (some u.id) db⟩ o v)
    (hnew : ((op.program c u).after (some u.id) db).Follows v o) : db.Follows v o := by
  obtain ⟨r, hr, rfl, rfl⟩ := hnew
  rcases (growsBy_program op db).follows r hr with hr' | ⟨-, hop⟩
  · exact ⟨r, hr', rfl, rfl⟩
  · have hadded : op = .addCloseFriend r.followerId := hadd.2.1
    rw [hadded] at hop
    cases hop

/-- Whoever follows has started to, and has not started again since. -/
theorem Run.followedSince (h : Run events db) (hfollow : db.Follows v o) :
    ∃ newer, FollowedSince events newer v o := by
  induction h with
  | empty =>
    obtain ⟨r, hr, -⟩ := hfollow
    exact absurd hr (Table.not_mem_empty r)
  | elsewhere h hsame ih =>
    refine ih ?_
    rwa [Db.Follows, hsame.follows] at hfollow
  | @request events db h c u hstored hrole op ih =>
    by_cases hold : db.Follows v o
    · obtain ⟨newer, follow, older, hevents, hstarts, hlatest⟩ := ih hold
      refine ⟨_ :: newer, follow, older, by rw [hevents]; rfl, hstarts, fun e he => ?_⟩
      rcases List.mem_cons.mp he with rfl | he
      · exact fun hstart => hstart.2.2.1 hold
      · exact hlatest e he
    · exact ⟨[], _, events, rfl, startsFollow_of_new hold hfollow, fun e he => nomatch he⟩

/-- Whoever is a close friend has been added since the latest follow. -/
theorem Run.addedSinceFollow (h : Run events db) (hfriend : db.IsCloseFriend o v) :
    AddedSinceFollow events o v := by
  induction h with
  | empty =>
    obtain ⟨r, hr, -⟩ := hfriend
    exact absurd hr (Table.not_mem_empty r)
  | elsewhere h hsame ih =>
    refine ih ?_
    rwa [Db.IsCloseFriend, hsame.closeFriends] at hfriend
  | @request events db h c u hstored hrole op ih =>
    by_cases hold : db.IsCloseFriend o v
    · -- the row is old, so its follow is in place and does not start now
      obtain ⟨newer, add, between, follow, older, hevents, hadds, hstarts, hlatest⟩ := ih hold
      have hfollow : db.Follows v o := h.reachable.keepsApart.follows_of_isCloseFriend hold
      refine ⟨_ :: newer, add, between, follow, older, by rw [hevents]; rfl, hadds, hstarts, ?_⟩
      intro e he
      rcases List.mem_cons.mp he with rfl | he
      · exact fun hstart => hstart.2.2.1 hfollow
      · exact hlatest e he
    · -- the row is new: this request adds it, on a follow that is in place already
      have hadds := addsCloseFriend_of_new hold hfriend
      have hafter := (h.request c u hstored hrole op).reachable.keepsApart
      have hfollow := follows_of_addsCloseFriend hadds (hafter.follows_of_isCloseFriend hfriend)
      obtain ⟨between, follow, older, hevents, hstarts, hlatest⟩ := h.followedSince hfollow
      refine ⟨[], _, between, follow, older, by rw [hevents]; rfl, hadds, hstarts, ?_⟩
      intro e he
      rcases List.mem_cons.mp he with rfl | he
      · exact fun hstart => hstart.2.2.1 hfollow
      · exact hlatest e he

/-! ## Losing access -/

/-- After `unfollow_user` there is no such follow, whether the call has found one or not. -/
theorem not_follows_unfollowUser {me a b : Uuid} (hme : a = me ∨ b = me) :
    ¬ ((unfollowUser a b).after (some me) db).Follows a b := by
  rintro ⟨r, hr, rfl, rfl⟩
  rw [unfollowUser, Prog.after, Prog.bind_eq, run_get_bind] at hr
  simp only [Conn.start_vars, Conn.start_working] at hr
  cases hfound : follows.lookup (some me) db (r.followerId, r.followingId) with
  | none =>
    rw [hfound] at hr
    exact follows.lookup_eq_none.mp hfound r hr rfl rfl
  | some follow =>
    obtain ⟨-, hkey, -⟩ := follows.lookup_eq_some.mp hfound
    have hends : r.followerId = follow.followerId ∧ r.followingId = follow.followingId :=
      (Prod.mk.inj hkey.symm)
    have hdelete : ((followsPolicy (some me) db).delete follow).Holds := by
      rw [followsPolicy, Truth.holds_or, holds_rlsIsOwnerOrAdmin, holds_rlsIsOwnerOrAdmin]
      rcases hme with hme | hme
      · exact .inl (.inl (by rw [← hme, hends.1]))
      · exact .inr (.inl (by rw [← hme, hends.2]))
    rw [hfound] at hr
    rw [Prog.bind_eq, run_delete_bind_of_pass hfound hdelete rfl] at hr
    have hgone := (Table.mem_erase.mp hr).2
    simp [Follow.key] at hgone

/-- The requests of a run: each leaves what its program leaves, and blocked users apart. -/
theorem Run.of_mem {e : Event} (h : Run events db) (he : e ∈ events) :
    e.after.KeepsApart ∧ ∃ (c : Ctx) (u : User),
      e.actor = u.id ∧ e.after = (e.op.program c u).after (some u.id) e.before := by
  induction h with
  | empty => exact absurd he List.not_mem_nil
  | elsewhere h hsame ih => exact ih he
  | request h c u hstored hrole op ih =>
    rcases List.mem_cons.mp he with rfl | he
    · exact ⟨(h.request c u hstored hrole op).reachable.keepsApart, c, u, rfl, rfl⟩
    · exact ih he

/-- What severs the two users leaves `v` without access. -/
theorem Run.not_isCloseFriend_of_severs {e : Event} (h : Run events db) (he : e ∈ events)
    (hsevers : e.Severs v o) : ¬ e.after.IsCloseFriend o v := by
  intro hfriend
  obtain ⟨happart, c, u, hactor, hafter⟩ := h.of_mem he
  have hfollow := happart.follows_of_isCloseFriend hfriend
  rcases hsevers with ⟨hv, hop⟩ | ⟨ho, hop⟩ | hblock
  · obtain rfl : v = u.id := hv.symm.trans hactor
    rw [hafter, hop] at hfollow
    have hnone : ¬ ((unfollowUser u.id o).after (some u.id) e.before).Follows u.id o :=
      not_follows_unfollowUser (.inl rfl)
    exact hnone hfollow
  · obtain rfl : o = u.id := ho.symm.trans hactor
    rw [hafter, hop] at hfollow
    have hnone : ¬ ((unfollowUser v u.id).after (some u.id) e.before).Follows v u.id :=
      not_follows_unfollowUser (.inr rfl)
    exact hnone hfollow
  · exact happart.not_blocked_of_follows hfollow hblock.symm

/-- Who has lost access has it again only once the owner has added them again. -/
theorem Run.not_isCloseFriend {newer older : List Event} {e : Event} (h : Run events db)
    (hevents : events = newer ++ e :: older) (hsevers : e.Severs v o)
    (hnew : ∀ e' ∈ newer, ¬ e'.AddsCloseFriend o v) : ¬ db.IsCloseFriend o v := by
  induction h generalizing newer with
  | empty => exact absurd hevents (by simp)
  | elsewhere h hsame ih =>
    rw [Db.IsCloseFriend, hsame.closeFriends]
    exact ih hevents hnew
  | @request events db h c u hstored hrole op ih =>
    cases newer with
    | nil =>
      obtain ⟨rfl, -⟩ := List.cons.inj hevents
      exact (h.request c u hstored hrole op).not_isCloseFriend_of_severs List.mem_cons_self hsevers
    | cons e' newer =>
      obtain ⟨hfirst, hrest⟩ := List.cons.inj hevents
      have hold := ih hrest fun e' he' => hnew e' (List.mem_cons_of_mem _ he')
      intro hfriend
      refine hnew e' List.mem_cons_self ?_
      rw [← hfirst]
      exact addsCloseFriend_of_new hold hfriend

/-- What `can_view` answers to a user who is neither the owner nor an administrator. -/
theorem outcome_canView_closeFriends {viewer : User} (hviewer : viewer ∈ db.users)
    (hrole : viewer.role ≠ UserRole.admin) (hne : viewer.id ≠ o) :
    (canView o Visibility.closeFriends (some viewer)).outcome (some viewer.id) db =
      .ok (decide (¬ db.Blocked o viewer.id ∧ db.IsCloseFriend o viewer.id)) := by
  have hstored : db.Stored viewer := ⟨viewer, hviewer, rfl, rfl⟩
  have hrun : (canView o Visibility.closeFriends (some viewer)).run
      (Conn.start (some viewer.id) db) = _ := run_canView rfl fun v hv => by
    obtain rfl : viewer = v := Option.some.inj hv
    exact hstored
  have hadmin : ¬ db.IsAdmin (some viewer.id) := by rwa [hstored.isAdmin_iff]
  rw [Prog.outcome, hrun]
  simp [Db.CanSee, hne, hadmin]

end History

/-- In every run, a user other than the owner, who is no administrator, and to whom `can_view`
answers `True` on content for close friends, follows the owner, has no block with the owner, and has
been added to the owner's close friends after their latest follow of the owner. Once the user has
unfollowed, been removed or been in a block with the owner, the answer is `False` until the owner
adds them again, whatever else happens in between. -/
theorem canView_closeFriends_history (events : List Event) (db : Db) (hrun : Run events db)
    (o : Uuid) (viewer : User) (hviewer : viewer ∈ db.users)
    (hrole : viewer.role ≠ UserRole.admin) (hne : viewer.id ≠ o) :
    ((canView o Visibility.closeFriends (some viewer)).outcome (some viewer.id) db = .ok true →
      db.Follows viewer.id o ∧ ¬ db.Blocked o viewer.id ∧ AddedSinceFollow events o viewer.id) ∧
    ∀ newer e older, events = newer ++ e :: older → e.Severs viewer.id o →
      (∀ e' ∈ newer, ¬ e'.AddsCloseFriend o viewer.id) →
      (canView o Visibility.closeFriends (some viewer)).outcome (some viewer.id) db =
        .ok false := by
  rw [outcome_canView_closeFriends hviewer hrole hne]
  constructor
  · intro hview
    obtain ⟨hblock, hfriend⟩ := of_decide_eq_true (Except.ok.inj hview)
    exact ⟨hrun.reachable.keepsApart.follows_of_isCloseFriend hfriend, hblock,
      hrun.addedSinceFollow hfriend⟩
  · intro newer e older hevents hsevers hnew
    have hfriend := hrun.not_isCloseFriend hevents hsevers hnew
    exact congrArg Except.ok (decide_eq_false fun hview => hfriend hview.2)

/-! ### A follower who comes back -/

def ownerUser : User := User.create 1 "clerk" "sub_1" "ada" "Ada" 0
def followerUser : User := User.create 2 "clerk" "sub_2" "bob" "Bob" 0

/-- The request of a user on a stopped clock, with one id for the new rows. -/
def Event.of (u : User) (op : SocialOp) (db : Db) : Event :=
  ⟨u.id, op, db, (op.program (.fixed 0 9) u).after (some u.id) db⟩

/-- The history and the data that the requests lead to, the latest first. -/
def history : List (User × SocialOp) → List Event × Db
  | [] => ([], twoUsersDb)
  | (u, op) :: older =>
    let e := Event.of u op (history older).2
    (e :: (history older).1, e.after)

/-- The history of one operation more is a run, if its actor is stored and no administrator. -/
theorem run_history {ops : List (User × SocialOp)} {u : User} {op : SocialOp}
    (h : Run (history ops).1 (history ops).2) (hstored : u ∈ (history ops).2.users)
    (hrole : u.role ≠ UserRole.admin) :
    Run (history ((u, op) :: ops)).1 (history ((u, op) :: ops)).2 :=
  h.request (.fixed 0 9) u hstored hrole op

/-- Bob follows ada and is added by her. -/
def addedOps : List (User × SocialOp) :=
  [(ownerUser, .addCloseFriend 2), (followerUser, .followUser 1)]

/-- Then he unfollows her and follows her again. -/
def returnedOps : List (User × SocialOp) :=
  (followerUser, .followUser 1) :: (followerUser, .unfollowUser 1) :: addedOps

/-- The operations up to the close friendship are a run. -/
theorem run_addedOps : Run (history addedOps).1 (history addedOps).2 := by
  have hstart : Run (history []).1 (history []).2 :=
    Run.empty.elsewhere ⟨rfl, rfl, rfl, rfl, rfl, rfl, rfl, rfl, rfl, rfl⟩
  have hfollow := @run_history [] followerUser (.followUser 1) hstart (by decide) (by decide)
  exact run_history hfollow (by decide) (by decide)

/-- So are those with an unfollow and a new follow besides. -/
theorem run_returnedOps : Run (history returnedOps).1 (history returnedOps).2 :=
  run_history (run_history run_addedOps (by decide) (by decide)) (by decide) (by decide)

/-- After the unfollow the follower has to be added again, and sees nothing before that. -/
theorem canView_closeFriends_history_returned :
    AddedSinceFollow (history addedOps).1 1 2 ∧
      (canView 1 Visibility.closeFriends (some followerUser)).outcome (some 2)
        (history returnedOps).2 = .ok false := by
  have hadded := canView_closeFriends_history _ _ run_addedOps 1 followerUser (by decide)
    (by decide) (by decide)
  have hreturned := canView_closeFriends_history _ _ run_returnedOps 1 followerUser (by decide)
    (by decide) (by decide)
  refine ⟨(hadded.1 rfl).2.2, hreturned.2 [_] _ _ rfl (.inl ⟨rfl, rfl⟩) fun e' he' hadds => ?_⟩
  obtain rfl := List.mem_singleton.mp he'
  cases hadds.2.1

end OburBackend
