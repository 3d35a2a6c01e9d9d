import OburBackend.Block.Respects
import OburBackend.Service.Reaction
import OburBackend.Service.Account

/-!
# What a block keeps apart

Nothing links two users between whom there is a block, whatever the users of the application have
done so far, one request after the other.

Two requests do not keep this write by write. `follow_user` never looks at blocks: it adds the
follow, and the notification that it adds in the same transaction is what `notifications_insert`
refuses. `create_block` adds the block first and then removes what links the pair. For them `Wp`
follows the transaction up to its commit; the others keep the invariant with each write.
-/

namespace OburBackend

open Sql

/-- A row of the database links `a` to `b`. -/
def Db.Linked (db : Db) (a b : Uuid) : Prop :=
  (∃ r ∈ db.follows, r.followerId = a ∧ r.followingId = b) ∨
    (∃ r ∈ db.closeFriends, r.userId = a ∧ r.friendId = b) ∨
    (∃ r ∈ db.checkinLikes, ∃ c ∈ db.checkins, c.id = r.targetId ∧ r.userId = a ∧ c.userId = b) ∨
    (∃ r ∈ db.listLikes, ∃ l ∈ db.lists, l.id = r.targetId ∧ r.userId = a ∧ l.userId = b) ∨
    (∃ r ∈ db.checkinBookmarks, ∃ c ∈ db.checkins,
      c.id = r.targetId ∧ r.userId = a ∧ c.userId = b) ∨
    (∃ r ∈ db.listBookmarks, ∃ l ∈ db.lists, l.id = r.targetId ∧ r.userId = a ∧ l.userId = b) ∨
    ∃ r ∈ db.notifications, r.userId = a ∧ r.actorId = some b

/-- The invariant: nobody has blocked themselves, and the rows that link users respect the
blocks. -/
structure Db.KeepsApart (db : Db) : Prop where
  noSelfBlock : ∀ r ∈ db.blocks, r.blockerId ≠ r.blockedId
  respects : db.Respects db.Blocked

variable {db : Db} {me a b : Uuid}

/-- Nobody is blocked from themselves. -/
theorem Db.KeepsApart.not_blocked_self (h : db.KeepsApart) : ¬ db.Blocked a a := by
  rintro ⟨r, hr, ⟨h1, h2⟩ | ⟨h1, h2⟩⟩
  · exact h.noSelfBlock r hr (h1.trans h2.symm)
  · exact h.noSelfBlock r hr (h1.trans h2.symm)

/-- Linked users have no block between them. -/
theorem Db.KeepsApart.not_blocked (h : db.KeepsApart) (hlink : db.Linked a b) :
    ¬ db.Blocked a b := by
  have hr := h.respects
  rcases hlink with ⟨r, hm, rfl, rfl⟩ | ⟨r, hm, rfl, rfl⟩ | ⟨r, hm, c, hc, hid, rfl, rfl⟩ |
    ⟨r, hm, l, hl, hid, rfl, rfl⟩ | ⟨r, hm, c, hc, hid, rfl, rfl⟩ | ⟨r, hm, l, hl, hid, rfl, rfl⟩ |
    ⟨r, hm, rfl, hactor⟩
  · exact hr.follows r hm
  · -- the friend follows the user, and blocks have no direction
    obtain ⟨f, hf, hfriend, huser⟩ := hr.closeFriends r hm
    intro hblock
    apply hr.follows f hf
    rw [hfriend, huser]
    exact hblock.symm
  · exact (hr.checkinLikes r hm).not_rel hc hid
  · exact (hr.listLikes r hm).not_rel hl hid
  · exact (hr.checkinBookmarks r hm).not_rel hc hid
  · exact (hr.listBookmarks r hm).not_rel hl hid
  · exact hr.notifications r hm _ hactor

/-- The invariant during a request of `me`, who is no administrator. -/
structure Db.KeepsApartFor (me : Uuid) (db : Db) : Prop extends db.KeepsApart where
  notAdmin : ¬ db.IsAdmin (some me)

namespace Db.KeepsApartFor

/-! ## Writes that keep the invariant -/

/-- No user and no block is new, and the links respect the old blocks. -/
theorem of_respects {db' : Db} (h : db.KeepsApartFor me) (husers : ∀ u ∈ db'.users, u ∈ db.users)
    (hblocks : ∀ r ∈ db'.blocks, r ∈ db.blocks) (hr : db'.Respects db.Blocked) :
    db'.KeepsApartFor me where
  noSelfBlock r hr := h.noSelfBlock r (hblocks r hr)
  respects := hr.anti fun _ _ ⟨r, hr, hends⟩ => ⟨r, hblocks r hr, hends⟩
  notAdmin := fun ⟨u, hu, hadm⟩ => h.notAdmin ⟨u, husers u hu, hadm⟩

/-- Editing a check-in changes no owner. -/
theorem set_checkin (h : db.KeepsApartFor me) {k : Uuid} {f : Checkin → Option Checkin}
    {hf : ∀ r r', f r = some r' → r'.id = r.id}
    (hown : ∀ r r', f r = some r' → r'.userId = r.userId) :
    (OburBackend.checkins.set k f hf db).KeepsApartFor me :=
  h.of_respects (fun _ hu => hu) (fun _ hb => hb) (h.respects.set_checkin hown)

/-- A new check-in links nobody. -/
theorem insert_checkin (h : db.KeepsApartFor me) (r : Checkin) :
    { db with checkins := db.checkins.insert r }.KeepsApartFor me :=
  h.of_respects (fun _ hu => hu) (fun _ hb => hb) (h.respects.insert_checkin r)

/-- Nor does the verification of a venue. -/
theorem evaluated (h : db.KeepsApartFor me) (venueId : Uuid) :
    (evaluated venueId db).KeepsApartFor me :=
  h.of_respects (fun _ hu => hu) (fun _ hb => hb) { h.respects with }

/-- A check-in that goes takes links with it and adds none. -/
theorem erase_checkins (h : db.KeepsApartFor me) (p : Checkin → Bool) :
    (eraseCheckins p db).KeepsApartFor me :=
  h.of_respects (fun _ hu => hu) (fun _ hb => hb) (h.respects.erase_checkins p)

/-- So does an account. -/
theorem erase_users (h : db.KeepsApartFor me) (p : User → Bool) :
    (eraseUsers p db).KeepsApartFor me :=
  h.of_respects (fun _ hu => (Table.mem_erase.mp hu).1) (fun _ hb => (Table.mem_erase.mp hb).1)
    (h.respects.erase_users p)

/-- A policy that lets `me` mark a check-in has found no block with its owner. -/
theorem marksCheckin (h : db.KeepsApartFor me) {r : Mark}
    (howner : (rlsIsOwnerOrAdmin (some me) db (some r.userId)).Holds)
    (hview : (rlsCanViewCheckin (some me) db r.targetId).Holds) :
    db.MarksCheckin db.Blocked r := by
  obtain ⟨c, hc, hid, hsee⟩ := holds_rlsCanViewCheckin.mp hview
  have hme := (holds_rlsIsOwnerOrAdmin.mp howner).resolve_right h.notAdmin
  obtain rfl : me = r.userId := Option.some.inj hme
  refine ⟨c, hc, hid, ?_⟩
  rcases hsee with (hown | hadm) | ⟨hfree, -⟩
  · rw [← Option.some.inj hown]
    exact h.not_blocked_self
  · exact absurd hadm h.notAdmin
  · exact fun hblock => hfree r.userId rfl hblock.symm

/-- A mark that the policy of the lists lets in respects the blocks. -/
theorem marksList (h : db.KeepsApartFor me) {r : Mark}
    (howner : (rlsIsOwnerOrAdmin (some me) db (some r.userId)).Holds)
    (hview : (rlsCanViewList (some me) db r.targetId).Holds) :
    db.MarksList db.Blocked r := by
  obtain ⟨l, hl, hid, hsee⟩ := holds_rlsCanViewList.mp hview
  have hme := (holds_rlsIsOwnerOrAdmin.mp howner).resolve_right h.notAdmin
  obtain rfl : me = r.userId := Option.some.inj hme
  refine ⟨l, hl, hid, ?_⟩
  rcases hsee with (hown | hadm) | ⟨hfree, -⟩
  · rw [← Option.some.inj hown]
    exact h.not_blocked_self
  · exact absurd hadm h.notAdmin
  · exact fun hblock => hfree r.userId rfl hblock.symm

/-- A notification that `notifications_insert` lets through is between users without a block. -/
theorem insert_notification (h : db.KeepsApartFor me) {r : Notification}
    (hr : ((notificationsPolicy (some me) db).insert r).Holds) :
    { db with notifications := db.notifications.insert r }.KeepsApartFor me := by
  refine h.of_respects (fun _ hu => hu) (fun _ hb => hb)
    (h.respects.insert_notification fun a ha => ?_)
  have hfree := ((Truth.holds_and _ _).mp hr).2
  rw [ha] at hfree
  exact not_rlsIsBlockedPair_some.mp hfree

end Db.KeepsApartFor

/-! ## Requests that keep the invariant write by write -/

section Keeps

variable {me : Uuid} {c : Ctx}

/-- A notification is added only if its policy lets it in. -/
theorem keeps_createNotification {userId : Uuid} {type : NotificationType} {actorId : Option Uuid}
    {targetType : NotificationTargetType} {targetId : Uuid} :
    (createNotification c userId type actorId targetType targetId).Keeps
      (Db.KeepsApartFor me) (some me) :=
  (keeps_insert fun _ h hinsert _ _ => h.insert_notification hinsert).bind fun _ => trivial

/-- An unfollow only deletes. -/
theorem keeps_unfollowUser {followerId followingId : Uuid} :
    (unfollowUser followerId followingId).Keeps (Db.KeepsApartFor me) (some me) := by
  refine (readOnly_get _).keeps.bind fun found => ?_
  cases found with
  | none => trivial
  | some _ =>
    refine (keeps_delete fun db p h => ?_).bind fun _ => Prog.keeps_commit
    exact h.of_respects (fun _ hu => hu) (fun _ hb => hb) (h.respects.erase_follows p)

/-- A close friend is a follower, and so not blocked. -/
theorem keeps_addCloseFriend {userId friendId : Uuid} :
    (addCloseFriend c userId friendId).Keeps (Db.KeepsApartFor me) (some me) := by
  refine (readOnly_get _).keeps.bind fun found => ?_
  cases found with
  | some _ => trivial
  | none =>
    refine (readOnly_get _).keeps.bind fun follow => ?_
    cases follow with
    | none => trivial
    | some _ =>
      refine (keeps_insert fun db h _ _ hcons => ?_).bind fun _ =>
        Prog.keeps_commit.bind fun _ => (readOnly_refresh _ _).keeps
      exact h.of_respects (fun _ hu => hu) (fun _ hb => hb) (h.respects.insert_closeFriend hcons)

/-- Removing a close friend only deletes. -/
theorem keeps_removeCloseFriend {userId friendId : Uuid} :
    (removeCloseFriend userId friendId).Keeps (Db.KeepsApartFor me) (some me) := by
  refine (readOnly_get _).keeps.bind fun found => ?_
  cases found with
  | none => trivial
  | some _ =>
    refine (keeps_delete fun db p h => ?_).bind fun _ => Prog.keeps_commit
    exact h.of_respects (fun _ hu => hu) (fun _ hb => hb) (h.respects.erase_closeFriends p)

/-- With a block less there is less to keep apart. -/
theorem keeps_removeBlock {blockerId blockedId : Uuid} :
    (removeBlock blockerId blockedId).Keeps (Db.KeepsApartFor me) (some me) := by
  refine (readOnly_get _).keeps.bind fun found => ?_
  cases found with
  | none => trivial
  | some _ =>
    refine (keeps_delete fun db p h => ?_).bind fun _ => Prog.keeps_commit
    exact h.of_respects (fun _ hu => hu) (fun _ hb => (Table.mem_erase.mp hb).1) { h.respects with }

/-- A like or a bookmark: the table's policy and constraints make the new row keep the
invariant. -/
theorem keeps_addMark {T : DbTable Mark.key} {userId targetId : Uuid} {notify : Service Unit}
    (hinsert : ∀ db r, Db.KeepsApartFor me db → ((T.policy (some me) db).insert r).Holds →
      (T.write (·.insert r) db).KeepsApartFor me)
    (hnotify : notify.Keeps (Db.KeepsApartFor me) (some me)) :
    (addMark T c userId targetId notify).Keeps (Db.KeepsApartFor me) (some me) := by
  refine (readOnly_get _).keeps.bind fun found => ?_
  cases found with
  | some _ => trivial
  | none =>
    refine (keeps_insert fun db h hpolicy _ _ => hinsert db _ h hpolicy).bind fun _ => ?_
    exact hnotify.bind fun _ => Prog.keeps_commit.bind fun _ => (readOnly_refresh _ _).keeps

/-- Taking a mark back only deletes. -/
theorem keeps_removeMark {T : DbTable Mark.key} {userId targetId : Uuid} {e : ErrorClass}
    {message : String}
    (herase : ∀ db p, Db.KeepsApartFor me db → (T.erase p db).KeepsApartFor me) :
    (removeMark T userId targetId e message).Keeps (Db.KeepsApartFor me) (some me) := by
  refine (readOnly_get _).keeps.bind fun found => ?_
  cases found with
  | none => trivial
  | some _ => exact (keeps_delete herase).bind fun _ => Prog.keeps_commit

/-- The notification of a like is added like any other. -/
theorem keeps_notifyLike {ownerId actorId : Uuid} {type : NotificationType}
    {targetType : NotificationTargetType} {targetId : Uuid} :
    (notifyLike c ownerId type actorId targetType targetId).Keeps
      (Db.KeepsApartFor me) (some me) := by
  unfold notifyLike
  split
  · exact keeps_createNotification.bind fun _ => trivial
  · trivial

/-- A like of a check-in respects the blocks. -/
theorem keeps_likeCheckin {checkinId : Uuid} {u : User} :
    (likeCheckin c checkinId u).Keeps (Db.KeepsApartFor me) (some me) := by
  refine (readOnly_getCheckin _ _).keeps.bind fun checkin => ?_
  refine keeps_addMark (fun db r h hpolicy => ?_) keeps_notifyLike
  obtain ⟨howner, hview⟩ := (Truth.holds_and _ _).mp hpolicy
  exact h.of_respects (fun _ hu => hu) (fun _ hb => hb)
    (h.respects.insert_checkinLike (h.marksCheckin howner hview))

/-- So does a like of a list. -/
theorem keeps_likeList {listId : Uuid} {u : User} :
    (likeList c listId u).Keeps (Db.KeepsApartFor me) (some me) := by
  refine (readOnly_getList _ _).keeps.bind fun venueList => ?_
  refine keeps_addMark (fun db r h hpolicy => ?_) keeps_notifyLike
  obtain ⟨howner, hview⟩ := (Truth.holds_and _ _).mp hpolicy
  exact h.of_respects (fun _ hu => hu) (fun _ hb => hb)
    (h.respects.insert_listLike (h.marksList howner hview))

/-- So does a bookmark of a check-in. -/
theorem keeps_bookmarkCheckin {checkinId : Uuid} {u : User} :
    (bookmarkCheckin c checkinId u).Keeps (Db.KeepsApartFor me) (some me) := by
  refine (readOnly_getCheckin _ _).keeps.bind fun checkin => ?_
  refine keeps_addMark (fun db r h hpolicy => ?_) trivial
  obtain ⟨howner, hview⟩ := (Truth.holds_and _ _).mp hpolicy
  exact h.of_respects (fun _ hu => hu) (fun _ hb => hb)
    (h.respects.insert_checkinBookmark (h.marksCheckin howner hview))

/-- So does a bookmark of a list. -/
theorem keeps_bookmarkList {listId : Uuid} {u : User} :
    (bookmarkList c listId u).Keeps (Db.KeepsApartFor me) (some me) := by
  refine (readOnly_getList _ _).keeps.bind fun venueList => ?_
  refine keeps_addMark (fun db r h hpolicy => ?_) trivial
  obtain ⟨howner, hview⟩ := (Truth.holds_and _ _).mp hpolicy
  exact h.of_respects (fun _ hu => hu) (fun _ hb => hb)
    (h.respects.insert_listBookmark (h.marksList howner hview))

/-- A new list links nobody. -/
theorem keeps_createList {userId : Uuid} {title : String} {description : Option String}
    {visibility : String} :
    (createList c userId title description visibility).Keeps (Db.KeepsApartFor me) (some me) := by
  refine (keeps_insert fun db h _ _ _ => ?_).bind fun _ => keeps_commit_refresh
  exact h.of_respects (fun _ hu => hu) (fun _ hb => hb) (h.respects.insert_list _)

/-- An edit of a list leaves its owner. -/
theorem keeps_updateList {listId : Uuid} {u : User} {updates : ListUpdates} :
    (updateList listId u updates).Keeps (Db.KeepsApartFor me) (some me) := by
  refine (readOnly_get _).keeps.bind fun found => ?_
  cases found with
  | none => trivial
  | some venueList =>
    refine (readOnly_ensureVisibleAndOwned _ _ _ _ _ _ _).keeps.bind fun _ => ?_
    dsimp only
    split
    · refine (keeps_update fun _ h => ?_).bind fun _ => keeps_commit_refresh
      exact h.of_respects (fun _ hu => hu) (fun _ hb => hb)
        (h.respects.set_list fun _ _ hl => (ListUpdates.set_eq_some hl).2)
    · exact keeps_commit_refresh

/-- A list that goes takes links with it. -/
theorem keeps_deleteList {listId : Uuid} {u : User} :
    (deleteList listId u).Keeps (Db.KeepsApartFor me) (some me) := by
  refine (readOnly_get _).keeps.bind fun found => ?_
  cases found with
  | none => trivial
  | some venueList =>
    refine (readOnly_ensureVisibleAndOwned _ _ _ _ _ _ _).keeps.bind fun _ => ?_
    refine (keeps_delete fun db p h => ?_).bind fun _ => Prog.keeps_commit
    exact h.of_respects (fun _ hu => hu) (fun _ hb => hb) (h.respects.erase_lists p)

end Keeps

/-! ## The two requests that break it for a moment -/

/-- `follow_user` commits only when the notification has found no block. -/
theorem keepsApartFor_followUser {c : Ctx} {followingId : Uuid} (h : db.KeepsApartFor me) :
    ((followUser c me followingId).after (some me) db).KeepsApartFor me := by
  refine Prog.inv_after h ?_
  unfold followUser
  split
  · trivial
  · simp only [Prog.bind_eq, wp_get_bind, forall_eq', createNotification]
    split
    · trivial
    · simp only [Prog.pure_eq, Prog.bind_assoc, Prog.ret_bind, wp_insert_bind, wp_commit_bind,
        forall_eq', implies_true, and_true]
      intro wr hw wr' hw'
      obtain ⟨-, -, -, -, rfl⟩ := follows.insertWrite_eq_ok.mp hw
      obtain ⟨hfree, -, -, -, rfl⟩ := notifications.insertWrite_eq_ok.mp hw'
      refine ⟨?_, (readOnly_refresh _ _).wp_of_forall fun _ _ _ => trivial⟩
      replace hfree : ¬ db.Blocked followingId me :=
        not_rlsIsBlockedPair_some.mp ((Truth.holds_and _ _).mp hfree).2
      simp only [Local.view_wrote, Local.view_saw, Local.view_start]
      have hfollow := h.respects.insert_follow (r := ⟨me, followingId, c.now⟩) fun hb =>
        hfree hb.symm
      refine h.of_respects (fun _ hu => hu) (fun _ hb => hb) (hfollow.insert_notification ?_)
      rintro a ⟨⟩
      exact hfree

/-! ### `create_block` -/

/-- What `rls_purge_interactions_between` makes of the data when it runs alone. -/
def purge (userA userB : Uuid) (db : Db) : Db :=
  { db with
    checkinLikes := db.checkinLikes.erase (onCheckinBetween userA userB db)
    listLikes := db.listLikes.erase (onListBetween userA userB db)
    checkinBookmarks := db.checkinBookmarks.erase (onCheckinBetween userA userB db)
    listBookmarks := db.listBookmarks.erase (onListBetween userA userB db)
    notifications := db.notifications.erase (notifiesBetween userA userB) }

/-- The rule for the purge in a request that runs alone. -/
theorem wp_purge {α : Type} {guar : Local Db Lock Identity Stmt → Db → Db → Prop}
    {K : Except PyError α → Local Db Lock Identity Stmt → Db → Prop} {f : Unit → Service α}
    {L : Local Db Lock Identity Stmt} {userA userB : Uuid}
    (h : ∀ L', L'.vars = L.vars → L'.view db = purge userA userB (L.view db) →
      Wp (fun _ s s' => s = s') guar K (f ()) L' db) :
    Wp (fun _ s s' => s = s') guar K ((rlsPurgeInteractionsBetween userA userB).bind f) L db := by
  unfold rlsPurgeInteractionsBetween
  simp only [Prog.bind_eq, Prog.bind_assoc, wp_definerDelete_bind, forall_eq']
  refine h _ rfl ?_
  simp only [Local.view_wrote, Local.view_saw]
  have hlikes : ∀ w p, (checkinLikes.definerDeleteWrite w p).effect w =
      { w with checkinLikes := w.checkinLikes.erase p } := fun w _ =>
    checkinLikes.definerDeleteWrite_effect fun _ _ => congrArg fun t => { w with checkinLikes := t }
  have hlistLikes : ∀ w p, (listLikes.definerDeleteWrite w p).effect w =
      { w with listLikes := w.listLikes.erase p } := fun w _ =>
    listLikes.definerDeleteWrite_effect fun _ _ => congrArg fun t => { w with listLikes := t }
  have hbookmarks : ∀ w p, (checkinBookmarks.definerDeleteWrite w p).effect w =
      { w with checkinBookmarks := w.checkinBookmarks.erase p } := fun w _ =>
    checkinBookmarks.definerDeleteWrite_effect fun _ _ =>
      congrArg fun t => { w with checkinBookmarks := t }
  have hlistBookmarks : ∀ w p, (listBookmarks.definerDeleteWrite w p).effect w =
      { w with listBookmarks := w.listBookmarks.erase p } := fun w _ =>
    listBookmarks.definerDeleteWrite_effect fun _ _ =>
      congrArg fun t => { w with listBookmarks := t }
  have hnotifications : ∀ w p, (notifications.definerDeleteWrite w p).effect w =
      { w with notifications := w.notifications.erase p } := fun w _ =>
    notifications.definerDeleteWrite_effect fun _ _ =>
      congrArg fun t => { w with notifications := t }
  rw [hnotifications, hlistBookmarks, hbookmarks, hlistLikes, hlikes]
  rfl

/-- The two users of a new block. -/
def IsPair (x y a b : Uuid) : Prop := a = x ∧ b = y ∨ a = y ∧ b = x

/-- The purge finds a mark of the one on a check-in of the other. -/
theorem onCheckinBetween_of_isPair {x y : Uuid} {r : Mark} {c : Checkin} (hc : c ∈ db.checkins)
    (hid : c.id = r.targetId) (hpair : IsPair x y r.userId c.userId) :
    onCheckinBetween x y db r = true := by
  simp only [onCheckinBetween, Bool.or_eq_true, Bool.and_eq_true, decide_eq_true_eq,
    Table.any_eq_true]
  rcases hpair with ⟨huser, howner⟩ | ⟨huser, howner⟩
  · exact .inl ⟨huser, c, hc, howner, hid⟩
  · exact .inr ⟨huser, c, hc, howner, hid⟩

/-- It finds a mark of the one on a list of the other. -/
theorem onListBetween_of_isPair {x y : Uuid} {r : Mark} {l : VenueList} (hl : l ∈ db.lists)
    (hid : l.id = r.targetId) (hpair : IsPair x y r.userId l.userId) :
    onListBetween x y db r = true := by
  simp only [onListBetween, Bool.or_eq_true, Bool.and_eq_true, decide_eq_true_eq,
    Table.any_eq_true]
  rcases hpair with ⟨huser, howner⟩ | ⟨huser, howner⟩
  · exact .inl ⟨huser, l, hl, howner, hid⟩
  · exact .inr ⟨huser, l, hl, howner, hid⟩

/-- And a notification to the one about the other. -/
theorem notifiesBetween_of_isPair {x y a : Uuid} {r : Notification} (ha : r.actorId = some a)
    (hpair : IsPair x y r.userId a) : notifiesBetween x y r = true := by
  simp only [notifiesBetween, Bool.or_eq_true, Bool.and_eq_true, decide_eq_true_eq, ha]
  rcases hpair with ⟨huser, rfl⟩ | ⟨huser, rfl⟩
  · exact .inl ⟨huser, rfl⟩
  · exact .inr ⟨huser, rfl⟩

/-- Without a follow between the pair, the purge leaves nothing that links them. -/
theorem respects_purge {x y : Uuid} {B : Uuid → Uuid → Prop} (h : db.Respects B)
    (hfollows : ∀ f ∈ db.follows, ¬ IsPair x y f.followerId f.followingId) :
    (purge x y db).Respects (IsPair x y) := by
  have hcheckin : ∀ r, onCheckinBetween x y db r = false → db.MarksCheckin B r →
      db.MarksCheckin (IsPair x y) r := by
    rintro r hkeep ⟨c, hc, hid, -⟩
    refine ⟨c, hc, hid, fun hpair => ?_⟩
    rw [onCheckinBetween_of_isPair hc hid hpair] at hkeep
    cases hkeep
  have hlist : ∀ r, onListBetween x y db r = false → db.MarksList B r →
      db.MarksList (IsPair x y) r := by
    rintro r hkeep ⟨l, hl, hid, -⟩
    refine ⟨l, hl, hid, fun hpair => ?_⟩
    rw [onListBetween_of_isPair hl hid hpair] at hkeep
    cases hkeep
  exact
    { follows := hfollows
      closeFriends := h.closeFriends
      checkinLikes := fun r hr =>
        hcheckin r (Table.mem_erase.mp hr).2 (h.checkinLikes r (Table.mem_erase.mp hr).1)
      listLikes := fun r hr =>
        hlist r (Table.mem_erase.mp hr).2 (h.listLikes r (Table.mem_erase.mp hr).1)
      checkinBookmarks := fun r hr =>
        hcheckin r (Table.mem_erase.mp hr).2 (h.checkinBookmarks r (Table.mem_erase.mp hr).1)
      listBookmarks := fun r hr =>
        hlist r (Table.mem_erase.mp hr).2 (h.listBookmarks r (Table.mem_erase.mp hr).1)
      notifications := by
        intro r hr a ha hpair
        have hkeep := (Table.mem_erase.mp hr).2
        rw [notifiesBetween_of_isPair ha hpair] at hkeep
        cases hkeep }

/-- A stage `w` of the transaction of `create_block x y` that began on `db`. -/
structure Db.Blocking (db : Db) (x y : Uuid) (w : Db) : Prop where
  users : ∀ u ∈ w.users, u ∈ db.users
  blocks : ∀ r ∈ w.blocks, r ∈ db.blocks ∨ r.blockerId = x ∧ r.blockedId = y
  respects : w.Respects db.Blocked

/-- Deleting follows brings no links back. -/
theorem Db.Blocking.erase_follows {x y : Uuid} {w : Db} (h : db.Blocking x y w)
    (p : Follow → Bool) : db.Blocking x y (eraseFollows p w) :=
  ⟨h.users, h.blocks, h.respects.erase_follows p⟩

/-- At the commit, with nothing left that links the pair, the invariant holds again. -/
theorem Db.Blocking.keepsApartFor {y : Uuid} {w : Db} (h : db.KeepsApartFor me)
    (hw : db.Blocking me y w) (hne : me ≠ y) (hpair : w.Respects (IsPair me y)) :
    w.KeepsApartFor me where
  noSelfBlock := by
    intro r hr
    rcases hw.blocks r hr with hr | ⟨rfl, rfl⟩
    · exact h.noSelfBlock r hr
    · exact hne
  respects := by
    refine (hw.respects.or hpair).anti ?_
    rintro a b ⟨r, hr, hends⟩
    rcases hw.blocks r hr with hr | ⟨rfl, rfl⟩
    · exact .inl ⟨r, hr, hends⟩
    · right
      rcases hends with ⟨rfl, rfl⟩ | ⟨rfl, rfl⟩
      · exact .inl ⟨rfl, rfl⟩
      · exact .inr ⟨rfl, rfl⟩
  notAdmin := fun ⟨u, hu, hadm⟩ => h.notAdmin ⟨u, hw.users u hu, hadm⟩

/-- The deletion of a follow that was found: afterwards there is no such follow. -/
theorem wp_deleteFollow {α : Type} {guar : Local Db Lock Identity Stmt → Db → Db → Prop}
    {K : Except PyError α → Local Db Lock Identity Stmt → Db → Prop} {rest : Service α}
    {L : Local Db Lock Identity Stmt} {k : Uuid × Uuid} {found : Option Follow} {I : Db → Prop}
    (hk : k.1 = me ∨ k.2 = me) (hvars : L.vars = some me)
    (hfound : found = none → ∀ f ∈ (L.view db).follows, f.key ≠ k)
    (hI : ∀ p w, I w → I (eraseFollows p w)) (h : I (L.view db)) (hK : ∀ e L s, K (.error e) L s)
    (hrest : ∀ L', L'.vars = some me → I (L'.view db) → (∀ f ∈ (L'.view db).follows, f.key ≠ k) →
      Wp (fun _ s s' => s = s') guar K rest L' db) :
    Wp (fun _ s s' => s = s') guar K
      (if found.isSome = true then (follows.delete k).bind fun _ => rest else rest) L db := by
  cases found with
  | none =>
    simp only [Option.isSome_none, Bool.false_eq_true, if_false]
    exact hrest L hvars h (hfound rfl)
  | some f =>
    simp only [Option.isSome_some, if_true, wp_delete_bind, forall_eq']
    refine ⟨fun wr hw => ?_, fun e _ => hK _ _ _⟩
    obtain ⟨-, rfl⟩ := follows.deleteWrite_eq_ok.mp hw
    refine hrest _ hvars ?_ ?_
    · rw [Local.view_wrote]
      exact hI _ _ h
    rw [Local.view_wrote]
    intro f hf hkey
    obtain ⟨hf, hkeep⟩ := Table.mem_erase.mp hf
    have hdel : f ∈ follows.deletable L.vars (L.view db) fun r => decide (Follow.key r = k) := by
      refine follows.mem_deletable.mpr ⟨hf, decide_eq_true hkey, rfl, ?_⟩
      rw [hvars]
      simp only [follows_policy, followsPolicy, Truth.holds_or, holds_rlsIsOwnerOrAdmin]
      rcases hk with hk | hk
      · exact .inl (.inl (by rw [← hk, ← hkey]; rfl))
      · exact .inr (.inl (by rw [← hk, ← hkey]; rfl))
    rw [decide_eq_false_iff_not] at hkeep
    exact hkeep (List.mem_map_of_mem hdel)

/-- A follow that `session.get` does not find is not there: everybody sees every follow. -/
theorem not_mem_of_lookup_follows {me : Identity} {k : Uuid × Uuid}
    (h : follows.lookup me db k = none) : ∀ f ∈ db.follows, f.key ≠ k :=
  fun f hf hkey => follows.lookup_eq_none.mp h f hf hkey rfl

/-- `create_block` commits a block only with nothing left that links the two users. -/
theorem keepsApartFor_createBlock {c : Ctx} {blockedId : Uuid} (h : db.KeepsApartFor me) :
    ((createBlock c me blockedId).after (some me) db).KeepsApartFor me := by
  refine Prog.inv_after h ?_
  unfold createBlock
  split
  · trivial
  · next hne =>
    simp only [Prog.bind_eq, wp_get_bind, forall_eq']
    split
    · trivial
    · simp only [wp_insert_bind, forall_eq', implies_true, and_true]
      intro wr hw
      obtain ⟨-, -, -, -, rfl⟩ := blocks.insertWrite_eq_ok.mp hw
      simp only [wp_get_bind, forall_eq']
      refine wp_deleteFollow (I := db.Blocking me blockedId) (.inl rfl) rfl
        (fun hnone => not_mem_of_lookup_follows hnone) (fun p w hw => hw.erase_follows p) ?_
        (fun _ _ _ => trivial) ?_
      · -- the block is in place, and nothing else has changed
        refine ⟨fun _ hu => hu, fun r hr => ?_, { h.respects with }⟩
        rcases Table.mem_or_eq_of_mem_insert hr with hr | rfl
        · exact .inl hr
        · exact .inr ⟨rfl, rfl⟩
      intro L hvars hw hforth
      simp only [wp_get_bind, forall_eq']
      refine wp_purge fun L' hvars' hview => ?_
      refine wp_deleteFollow
        (I := fun w => ∃ w₀, db.Blocking me blockedId w₀ ∧
          (∀ f ∈ w₀.follows, f.key ≠ (me, blockedId)) ∧ w = purge me blockedId w₀)
        (.inr rfl) (hvars'.trans hvars) ?_ ?_ ⟨_, hw, hforth, hview⟩ (fun _ _ _ => trivial) ?_
      · intro hnone
        rw [hview]
        exact not_mem_of_lookup_follows hnone
      · rintro p _ ⟨w₀, hw₀, hforth, rfl⟩
        exact ⟨eraseFollows p w₀, hw₀.erase_follows p,
          fun f hf => hforth f (Table.mem_erase.mp hf).1, rfl⟩
      rintro L'' - ⟨w₀, hw₀, hforth, hview⟩ hback
      simp only [wp_commit_bind, forall_eq']
      refine ⟨?_, (readOnly_refresh _ _).wp_of_forall fun _ _ _ => trivial⟩
      rw [hview] at hback ⊢
      have hpair : (purge me blockedId w₀).Respects (IsPair me blockedId) := by
        refine respects_purge hw₀.respects fun f hf hpair => ?_
        rcases hpair with ⟨h1, h2⟩ | ⟨h1, h2⟩
        · exact hforth f hf (Prod.ext h1 h2)
        · exact hback f hf (Prod.ext h1 h2)
      exact Db.Blocking.keepsApartFor h
        ⟨hw₀.users, hw₀.blocks, hw₀.respects.erase_marks _ _ _ _ _⟩ hne hpair

/-! ## Every run -/

/-- A request of a signed-in user, with the arguments that the user chooses. -/
inductive SocialOp where
  | followUser (followingId : Uuid)
  | unfollowUser (followingId : Uuid)
  | removeFollower (followerId : Uuid)
  | addCloseFriend (friendId : Uuid)
  | removeCloseFriend (friendId : Uuid)
  | likeCheckin (checkinId : Uuid)
  | unlikeCheckin (checkinId : Uuid)
  | likeList (listId : Uuid)
  | unlikeList (listId : Uuid)
  | bookmarkCheckin (checkinId : Uuid)
  | unbookmarkCheckin (checkinId : Uuid)
  | bookmarkList (listId : Uuid)
  | unbookmarkList (listId : Uuid)
  | createBlock (blockedId : Uuid)
  | removeBlock (blockedId : Uuid)
  | createCheckin (args : CheckinCreate)
  | updateCheckin (checkinId : Uuid) (updates : CheckinUpdates)
  | softDeleteCheckin (checkinId : Uuid)
  | hardDeleteCheckin (checkinId : Uuid)
  | createList (title : String) (description : Option String) (visibility : String)
  | updateList (listId : Uuid) (updates : ListUpdates)
  | deleteList (listId : Uuid)
  | deleteAccount

/-- The request as a program, with its result dropped. -/
def SocialOp.program (c : Ctx) (currentUser : User) : SocialOp → Service Unit
  | .followUser followingId => do let _ ← OburBackend.followUser c currentUser.id followingId
  | .unfollowUser followingId => OburBackend.unfollowUser currentUser.id followingId
  | .removeFollower followerId => OburBackend.removeFollower currentUser.id followerId
  | .addCloseFriend friendId => do let _ ← OburBackend.addCloseFriend c currentUser.id friendId
  | .removeCloseFriend friendId => OburBackend.removeCloseFriend currentUser.id friendId
  | .likeCheckin checkinId => do let _ ← OburBackend.likeCheckin c checkinId currentUser
  | .unlikeCheckin checkinId => OburBackend.unlikeCheckin checkinId currentUser
  | .likeList listId => do let _ ← OburBackend.likeList c listId currentUser
  | .unlikeList listId => OburBackend.unlikeList listId currentUser
  | .bookmarkCheckin checkinId => do let _ ← OburBackend.bookmarkCheckin c checkinId currentUser
  | .unbookmarkCheckin checkinId => OburBackend.unbookmarkCheckin checkinId currentUser
  | .bookmarkList listId => do let _ ← OburBackend.bookmarkList c listId currentUser
  | .unbookmarkList listId => OburBackend.unbookmarkList listId currentUser
  | .createBlock blockedId => do let _ ← OburBackend.createBlock c currentUser.id blockedId
  | .removeBlock blockedId => OburBackend.removeBlock currentUser.id blockedId
  | .createCheckin args => do
    let _ ← OburBackend.createCheckin c { args with userId := currentUser.id }
  | .updateCheckin checkinId updates => do
    let _ ← OburBackend.updateCheckin c checkinId currentUser updates
  | .softDeleteCheckin checkinId => OburBackend.softDeleteCheckin c checkinId currentUser
  | .hardDeleteCheckin checkinId => OburBackend.hardDeleteCheckin checkinId
  | .createList title description visibility => do
    let _ ← OburBackend.createList c currentUser.id title description visibility
  | .updateList listId updates => do let _ ← OburBackend.updateList listId currentUser updates
  | .deleteList listId => OburBackend.deleteList listId currentUser
  | .deleteAccount => OburBackend.deleteAccount currentUser.id

/-- The tables that links and blocks are about are the same in both databases. -/
structure Db.SameLinks (db db' : Db) : Prop where
  follows : db'.follows = db.follows
  closeFriends : db'.closeFriends = db.closeFriends
  blocks : db'.blocks = db.blocks
  checkins : db'.checkins = db.checkins
  lists : db'.lists = db.lists
  checkinLikes : db'.checkinLikes = db.checkinLikes
  listLikes : db'.listLikes = db.listLikes
  checkinBookmarks : db'.checkinBookmarks = db.checkinBookmarks
  listBookmarks : db'.listBookmarks = db.listBookmarks
  notifications : db'.notifications = db.notifications

/-- The states that the application reaches from an empty database, one request at a time. The
requests that are not a `SocialOp` (signing up, adding a venue, filing a report and so on) may do
whatever they like to the other tables. -/
inductive Reachable : Db → Prop where
  | empty : Reachable Db.empty
  | elsewhere {db db' : Db} (h : Reachable db) (hsame : db.SameLinks db') : Reachable db'
  | request {db : Db} (h : Reachable db) (c : Ctx) (currentUser : User)
      (hstored : currentUser ∈ db.users) (hrole : currentUser.role ≠ UserRole.admin)
      (op : SocialOp) : Reachable ((op.program c currentUser).after (some currentUser.id) db)

/-- One request keeps the invariant. -/
theorem keepsApartFor_program {c : Ctx} {currentUser : User} (op : SocialOp)
    (h : db.KeepsApartFor currentUser.id) :
    ((op.program c currentUser).after (some currentUser.id) db).KeepsApartFor currentUser.id := by
  cases op with
  | followUser followingId =>
    simp only [SocialOp.program, Prog.bind_eq, Prog.pure_eq, Prog.after_bind_ret]
    exact keepsApartFor_followUser h
  | createBlock blockedId =>
    simp only [SocialOp.program, Prog.bind_eq, Prog.pure_eq, Prog.after_bind_ret]
    exact keepsApartFor_createBlock h
  | unfollowUser followingId => exact keeps_unfollowUser.after h
  | removeFollower followerId => exact keeps_unfollowUser.after h
  | addCloseFriend friendId => exact keeps_addCloseFriend.after_drop h
  | removeCloseFriend friendId => exact keeps_removeCloseFriend.after h
  | likeCheckin checkinId => exact keeps_likeCheckin.after_drop h
  | likeList listId => exact keeps_likeList.after_drop h
  | bookmarkCheckin checkinId => exact keeps_bookmarkCheckin.after_drop h
  | bookmarkList listId => exact keeps_bookmarkList.after_drop h
  | unlikeCheckin checkinId =>
    refine (keeps_removeMark fun db p h => ?_).after h
    exact h.of_respects (fun _ hu => hu) (fun _ hb => hb)
      { h.respects with
        checkinLikes := fun r hr => h.respects.checkinLikes r (Table.mem_erase.mp hr).1 }
  | unlikeList listId =>
    refine (keeps_removeMark fun db p h => ?_).after h
    exact h.of_respects (fun _ hu => hu) (fun _ hb => hb)
      { h.respects with listLikes := fun r hr => h.respects.listLikes r (Table.mem_erase.mp hr).1 }
  | unbookmarkCheckin checkinId =>
    refine (keeps_removeMark fun db p h => ?_).after h
    exact h.of_respects (fun _ hu => hu) (fun _ hb => hb)
      { h.respects with
        checkinBookmarks := fun r hr => h.respects.checkinBookmarks r (Table.mem_erase.mp hr).1 }
  | unbookmarkList listId =>
    refine (keeps_removeMark fun db p h => ?_).after h
    exact h.of_respects (fun _ hu => hu) (fun _ hb => hb)
      { h.respects with
        listBookmarks := fun r hr => h.respects.listBookmarks r (Table.mem_erase.mp hr).1 }
  | removeBlock blockedId => exact keeps_removeBlock.after h
  | createCheckin args =>
    exact (keeps_createCheckin (fun _ hs => hs.insert_checkin _)
      fun _ hs => hs.evaluated _).after_drop h
  | updateCheckin checkinId updates =>
    refine (keeps_updateCheckin fun _ x hs => hs.set_checkin ?_).after_drop h
    exact fun _ _ hset => (CheckinUpdates.set_eq_some hset).2.1
  | softDeleteCheckin checkinId =>
    refine (keeps_softDeleteCheckin fun _ f _ hf hs => hs.set_checkin ?_).after h
    intro r r' hset
    rw [hf r r' hset]
  | hardDeleteCheckin checkinId =>
    exact (keeps_hardDeleteCheckin fun _ p hs => hs.erase_checkins p).after h
  | createList title description visibility =>
    exact keeps_createList.after_drop h
  | updateList listId updates => exact keeps_updateList.after_drop h
  | deleteList listId => exact keeps_deleteList.after h
  | deleteAccount => exact (keeps_deleteAccount fun _ p hs => hs.erase_users p).after h

/-- What happens in the other tables does not matter. -/
theorem Db.SameLinks.keepsApart {db' : Db} (hsame : db.SameLinks db') (h : db.KeepsApart) :
    db'.KeepsApart := by
  obtain ⟨h1, h2, h3, h4, h5, h6, h7, h8, h9, h10⟩ := hsame
  obtain ⟨hself, hr⟩ := h
  have hblocked : db'.Blocked = db.Blocked := by
    unfold Db.Blocked
    rw [h3]
  refine ⟨by rw [h3]; exact hself, ?_⟩
  rw [hblocked]
  constructor
  · rw [h1]; exact hr.follows
  · rw [h1, h2]; exact hr.closeFriends
  · unfold Db.MarksCheckin; rw [h4, h6]; exact hr.checkinLikes
  · unfold Db.MarksList; rw [h5, h7]; exact hr.listLikes
  · unfold Db.MarksCheckin; rw [h4, h8]; exact hr.checkinBookmarks
  · unfold Db.MarksList; rw [h5, h9]; exact hr.listBookmarks
  · rw [h10]; exact hr.notifications

/-- Every reachable state keeps blocked users apart. -/
theorem Reachable.keepsApart (h : Reachable db) : db.KeepsApart := by
  induction h with
  | empty => exact ⟨fun r hr => absurd hr (Table.not_mem_empty r), Db.Respects.empty⟩
  | elsewhere h hsame ih => exact hsame.keepsApart ih
  | @request db h c currentUser hstored hrole op ih =>
    have hadmin : ¬ db.IsAdmin (some currentUser.id) := by
      rwa [Db.Stored.isAdmin_iff ⟨currentUser, hstored, rfl, rfl⟩]
    exact (keepsApartFor_program op ⟨ih, hadmin⟩).toKeepsApart

/-- In every reachable state, no follow, close-friends row, like, bookmark or notification links two
users between whom there is a block, in either direction. -/
theorem reachable_not_linked (db : Db) (hreach : Reachable db) (a b : Uuid)
    (hblock : db.Blocked a b) : ¬ db.Linked a b ∧ ¬ db.Linked b a :=
  ⟨fun hlink => hreach.keepsApart.not_blocked hlink hblock,
    fun hlink => hreach.keepsApart.not_blocked hlink hblock.symm⟩

/-- Two users who have signed up. -/
def twoUsersDb : Db :=
  { Db.empty with
    users := (Table.empty.insert (User.create 1 "clerk" "sub_1" "ada" "Ada" 0)).insert
      (User.create 2 "clerk" "sub_2" "bob" "Bob" 0) }

/-- The database of the example is one that requests reach. -/
theorem reachable_twoUsersDb : Reachable twoUsersDb :=
  .elsewhere .empty ⟨rfl, rfl, rfl, rfl, rfl, rfl, rfl, rfl, rfl, rfl⟩

/-- The first of them blocks the second. -/
theorem reachable_not_linked_newBlock :
    let ada := User.create 1 "clerk" "sub_1" "ada" "Ada" 0
    let db := ((SocialOp.createBlock 2).program (.fixed 0 9) ada).after (some 1) twoUsersDb
    ¬ db.Linked 1 2 ∧ ¬ db.Linked 2 1 := by
  intro ada db
  have hreach : Reachable db :=
    .request reachable_twoUsersDb (.fixed 0 9) ada (by decide) (by decide) (.createBlock 2)
  exact reachable_not_linked db hreach 1 2 (by decide)

end OburBackend
