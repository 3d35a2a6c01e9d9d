import OburBackend.Core.Authz

/-!
# The social graph

`app/services/notification.py`, `follow.py`, `close_friend.py`, `mute.py` and `block.py`.

A flush sends the rows an operation has added in the order in which it added them; it happens at the
latest when the operation commits, and before every query of the session. The textual query that
calls the purge does not flush, so the second follow that a block removes is deleted at the commit.
-/

namespace OburBackend

open Sql

/-- `create_notification`, from the flush it ends with. -/
def createNotification (c : Ctx) (userId : Uuid) (type : NotificationType) (actorId : Option Uuid)
    (targetType : NotificationTargetType) (targetId : Uuid) : Service Notification := do
  let notification : Notification :=
    { id := c.uuid4 0, userId, type, actorId, targetType, targetId, readAt := none
      createdAt := c.now }
  notifications.insert notification
  return notification

/-- `list_notifications` -/
def listNotifications (plan : Plan Notification) (userId : Uuid) (limit offset : ℕ) :
    Service (List Notification) :=
  query ⟨.select, .notifications, [userId]⟩ fun me db =>
    page limit offset <| orderByDesc Notification.createdAt plan <|
      notifications.rows me db fun n => decide (n.userId = userId)

/-! ## Follows -/

/-- `follow_user` -/
def followUser (c : Ctx) (followerId followingId : Uuid) : Service Follow := do
  if followerId = followingId then
    raiseDomain .selfFollow "a user cannot follow themselves"
  else
    match ← follows.get (followerId, followingId) with
    | some existing => return existing
    | none =>
      follows.insert { followerId, followingId, createdAt := c.now }
      let _ ← createNotification c followingId .newFollower (some followerId) .user followerId
      commit
      refresh follows (followerId, followingId)

/-- `unfollow_user` -/
def unfollowUser (followerId followingId : Uuid) : Service Unit := do
  match ← follows.get (followerId, followingId) with
  | none =>
    raiseDomain .followNotFound (followerId.str ++ " does not follow " ++ followingId.str)
  | some _ =>
    follows.delete (followerId, followingId)
    commit

/-- `remove_follower` -/
def removeFollower (userId followerId : Uuid) : Service Unit := unfollowUser followerId userId

/-- The query of `list_followers` and `list_following`: the users at the end `user` of the follows
whose end `other` is `userId`. -/
def listFollows (user other : Follow → Uuid) (plan : Plan (User × Follow)) (userId : Uuid)
    (limit offset : ℕ) : Service (List User) :=
  query ⟨.select, .follows, [userId]⟩ fun me db =>
    let rows := join (users.rows me db fun _ => true)
      (follows.rows me db fun r => decide (other r = userId) && accountIsVisible me db (user r))
      fun u r => decide (user r = u.id)
    (page limit offset (orderByDesc (fun p => p.2.createdAt) plan rows)).map Prod.fst

/-- `list_followers` -/
def listFollowers (plan : Plan (User × Follow)) (userId : Uuid) (limit offset : ℕ) :
    Service (List User) :=
  listFollows Follow.followerId Follow.followingId plan userId limit offset

/-- `list_following` -/
def listFollowing (plan : Plan (User × Follow)) (userId : Uuid) (limit offset : ℕ) :
    Service (List User) :=
  listFollows Follow.followingId Follow.followerId plan userId limit offset

/-! ## Close friends -/

/-- `add_close_friend` -/
def addCloseFriend (c : Ctx) (userId friendId : Uuid) : Service CloseFriend := do
  match ← closeFriends.get (userId, friendId) with
  | some existing => return existing
  | none =>
    match ← follows.get (friendId, userId) with
    | none => raiseDomain .notAFollower (friendId.str ++ " does not follow " ++ userId.str)
    | some _ =>
      closeFriends.insert { userId, friendId, createdAt := c.now }
      commit
      refresh closeFriends (userId, friendId)

/-- `remove_close_friend` -/
def removeCloseFriend (userId friendId : Uuid) : Service Unit := do
  match ← closeFriends.get (userId, friendId) with
  | none =>
    raiseDomain .closeFriendNotFound
      (friendId.str ++ " is not a close friend of " ++ userId.str)
  | some _ =>
    closeFriends.delete (userId, friendId)
    commit

/-- `list_close_friends` -/
def listCloseFriends (plan : Plan (User × CloseFriend)) (userId : Uuid) (limit offset : ℕ) :
    Service (List User) :=
  query ⟨.select, .closeFriends, [userId]⟩ fun me db =>
    let rows := join (users.rows me db fun _ => true)
      (closeFriends.rows me db fun r => decide (r.userId = userId))
      fun u r => decide (r.friendId = u.id)
    (page limit offset (orderByDesc (fun p => p.2.createdAt) plan rows)).map Prod.fst

/-! ## Mutes -/

/-- `create_mute` -/
def createMute (c : Ctx) (userId mutedId : Uuid) : Service Mute := do
  if userId = mutedId then
    raiseDomain .selfMute "a user cannot mute themselves"
  else
    match ← mutes.get (userId, mutedId) with
    | some existing => return existing
    | none =>
      mutes.insert { userId, mutedId, createdAt := c.now }
      commit
      refresh mutes (userId, mutedId)

/-- `remove_mute` -/
def removeMute (userId mutedId : Uuid) : Service Unit := do
  match ← mutes.get (userId, mutedId) with
  | none => raiseDomain .muteNotFound (userId.str ++ " has not muted " ++ mutedId.str)
  | some _ =>
    mutes.delete (userId, mutedId)
    commit

/-- `list_muted_users` -/
def listMutedUsers (plan : Plan (User × Mute)) (userId : Uuid) (limit offset : ℕ) :
    Service (List User) :=
  query ⟨.select, .mutes, [userId]⟩ fun me db =>
    let rows := join (users.rows me db fun _ => true)
      (mutes.rows me db fun r => decide (r.userId = userId))
      fun u r => decide (r.mutedId = u.id)
    (page limit offset (orderByDesc (fun p => p.2.createdAt) plan rows)).map Prod.fst

/-! ## Blocks -/

/-- A like or bookmark by one of two users on a check-in of the other. -/
def onCheckinBetween (userA userB : Uuid) (db : Db) (r : Mark) : Bool :=
  decide (r.userId = userA) &&
      db.checkins.any (fun c => decide (c.userId = userB) && decide (c.id = r.targetId)) ||
    decide (r.userId = userB) &&
      db.checkins.any fun c => decide (c.userId = userA) && decide (c.id = r.targetId)

/-- A like or bookmark by one of two users on a list of the other. -/
def onListBetween (userA userB : Uuid) (db : Db) (r : Mark) : Bool :=
  decide (r.userId = userA) &&
      db.lists.any (fun l => decide (l.userId = userB) && decide (l.id = r.targetId)) ||
    decide (r.userId = userB) &&
      db.lists.any fun l => decide (l.userId = userA) && decide (l.id = r.targetId)

/-- A notification to one of two users about an action of the other. -/
def notifiesBetween (userA userB : Uuid) (r : Notification) : Bool :=
  decide (r.userId = userA) && decide (r.actorId = some userB) ||
    decide (r.userId = userB) && decide (r.actorId = some userA)

/-- `rls_purge_interactions_between(user_a, user_b)`: each of its statements sees what is committed
before that statement. -/
def rlsPurgeInteractionsBetween (userA userB : Uuid) : Service Unit := do
  let st (table : TableName) : Stmt := ⟨.delete, table, [userA, userB]⟩
  checkinLikes.definerDelete (st .checkinLikes) (onCheckinBetween userA userB)
  listLikes.definerDelete (st .listLikes) (onListBetween userA userB)
  checkinBookmarks.definerDelete (st .checkinBookmarks) (onCheckinBetween userA userB)
  listBookmarks.definerDelete (st .listBookmarks) (onListBetween userA userB)
  notifications.definerDelete (st .notifications) fun _ => notifiesBetween userA userB

/-- `create_block` -/
def createBlock (c : Ctx) (blockerId blockedId : Uuid) : Service Block := do
  if blockerId = blockedId then
    raiseDomain .selfBlock "a user cannot block themselves"
  else
    match ← blocks.get (blockerId, blockedId) with
    | some existing => return existing
    | none =>
      blocks.insert { blockerId, blockedId, createdAt := c.now }
      let forth ← follows.get (blockerId, blockedId)
      if forth.isSome then
        follows.delete (blockerId, blockedId)
      let back ← follows.get (blockedId, blockerId)
      rlsPurgeInteractionsBetween blockerId blockedId
      if back.isSome then
        follows.delete (blockedId, blockerId)
      commit
      refresh blocks (blockerId, blockedId)

/-- `remove_block` -/
def removeBlock (blockerId blockedId : Uuid) : Service Unit := do
  match ← blocks.get (blockerId, blockedId) with
  | none => raiseDomain .blockNotFound (blockerId.str ++ " has not blocked " ++ blockedId.str)
  | some _ =>
    blocks.delete (blockerId, blockedId)
    commit

/-- `list_blocked_users`, with `rls_list_blocked_users`: it goes by the identity of the session and
past the row policies. -/
def listBlockedUsers (plan : Plan (User × Block)) (limit offset : ℕ) : Service (List User) :=
  query ⟨.select, .blocks, []⟩ fun me db =>
    let rows := join db.users.rows (db.blocks.select fun b => decide (me = some b.blockerId))
      fun u b => decide (b.blockedId = u.id)
    (page limit offset (orderByDesc (fun p => p.2.createdAt) plan rows)).map Prod.fst

end OburBackend
