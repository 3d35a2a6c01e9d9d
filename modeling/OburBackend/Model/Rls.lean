import OburBackend.Model.Schema
import OburBackend.Sql.Statement
import Mathlib.Tactic.Tauto

/-!
# Row-level security

The `rls_*` functions and the row policies as the last migration that touches each of them leaves
them. The functions are `SECURITY DEFINER`: they read the tables without policies, and all of them
take the caller from the session's identity, `NULL` for an anonymous request. A function with a
boolean result is three-valued (`Sql.Truth`): comparing with a `NULL` identity gives `NULL`, which
neither shows a row nor lets it be written.
-/

namespace OburBackend

open Sql

/-- What `rls_current_user_id()` evaluates to. -/
abbrev Identity := Option Uuid

section Functions

variable (me : Identity) (db : Db)

/-- `rls_is_admin()` -/
def rlsIsAdmin : Truth :=
  .ofBool (db.users.any fun u =>
    decide ((Truth.eq (some u.id) me).and (.eq (some u.role) (some UserRole.admin))).Holds)

/-- `rls_is_owner_or_admin(check_owner_id)` -/
def rlsIsOwnerOrAdmin (checkOwnerId : Option Uuid) : Truth :=
  (Truth.eq checkOwnerId me).or
    (.ofBool (db.users.any fun u =>
      decide ((Truth.eq (some u.id) me).and (.eq (some u.role) (some UserRole.admin))).Holds))

/-- `rls_is_close_friend_of(check_owner_id)` -/
def rlsIsCloseFriendOf (checkOwnerId : Option Uuid) : Truth :=
  .ofBool (db.closeFriends.any fun r =>
    decide ((Truth.eq (some r.userId) checkOwnerId).and (.eq (some r.friendId) me)).Holds)

/-- `rls_is_blocked_pair(user_a, user_b)` -/
def rlsIsBlockedPair (userA userB : Option Uuid) : Truth :=
  .ofBool (db.blocks.any fun r =>
    decide (((Truth.eq (some r.blockerId) userA).and (.eq (some r.blockedId) userB)).or
      ((Truth.eq (some r.blockerId) userB).and (.eq (some r.blockedId) userA))).Holds)

/-- `rls_can_view_visibility(check_owner_id, check_visibility)`, as migration `190c719287e2`
redefines it. -/
def rlsCanViewVisibility (checkOwnerId : Option Uuid) (checkVisibility : String) : Truth :=
  (rlsIsOwnerOrAdmin me db checkOwnerId).or
    ((rlsIsBlockedPair db checkOwnerId me).not.and
      ((Truth.eq (some checkVisibility) (some Visibility.pub)).or
        ((Truth.eq (some checkVisibility) (some Visibility.closeFriends)).and
          (rlsIsCloseFriendOf me db checkOwnerId))))

/-- `rls_can_view_checkin(check_checkin_id)`: `NULL` when there is no such check-in. -/
def rlsCanViewCheckin (checkCheckinId : Uuid) : Truth :=
  match db.checkins.get checkCheckinId with
  | some c => rlsCanViewVisibility me db (some c.userId) c.visibility
  | none => .null

/-- `rls_can_view_list(check_list_id)` -/
def rlsCanViewList (checkListId : Uuid) : Truth :=
  match db.lists.get checkListId with
  | some l => rlsCanViewVisibility me db (some l.userId) l.visibility
  | none => .null

/-- `rls_is_owner_or_admin_of_list(check_list_id)` -/
def rlsIsOwnerOrAdminOfList (checkListId : Uuid) : Truth :=
  match db.lists.get checkListId with
  | some l => rlsIsOwnerOrAdmin me db (some l.userId)
  | none => .null

end Functions

/-! ## What the functions mean -/

section Meaning

variable {me : Identity} {db : Db}

/-- The caller is stored as an administrator. -/
def Db.IsAdmin (db : Db) (me : Identity) : Prop :=
  ∃ u ∈ db.users, me = some u.id ∧ u.role = UserRole.admin

/-- A block row exists between two users, in either direction. -/
def Db.Blocked (db : Db) (a b : Uuid) : Prop :=
  ∃ r ∈ db.blocks, (r.blockerId = a ∧ r.blockedId = b) ∨ (r.blockerId = b ∧ r.blockedId = a)

/-- `friend` is on the close-friends list of `owner`. -/
def Db.IsCloseFriend (db : Db) (owner friend : Uuid) : Prop :=
  ∃ r ∈ db.closeFriends, r.userId = owner ∧ r.friendId = friend

/-- Blocks have no direction. -/
theorem Db.Blocked.symm {a b : Uuid} (h : db.Blocked a b) : db.Blocked b a := by
  obtain ⟨r, hr, h⟩ := h
  exact ⟨r, hr, h.symm⟩

/-- An anonymous caller is no administrator. -/
@[simp] theorem not_isAdmin_none : ¬ db.IsAdmin none := by
  rintro ⟨u, -, hu, -⟩
  cases hu

@[simp] theorem holds_rlsIsAdmin : (rlsIsAdmin me db).Holds ↔ db.IsAdmin me := by
  simp [rlsIsAdmin, Db.IsAdmin]

@[simp] theorem holds_rlsIsOwnerOrAdmin {o : Uuid} :
    (rlsIsOwnerOrAdmin me db (some o)).Holds ↔ me = some o ∨ db.IsAdmin me := by
  simp [rlsIsOwnerOrAdmin, Db.IsAdmin]

@[simp] theorem holds_rlsIsOwnerOrAdmin_none :
    (rlsIsOwnerOrAdmin me db none).Holds ↔ db.IsAdmin me := by
  simp [rlsIsOwnerOrAdmin, Db.IsAdmin]

@[simp] theorem holds_rlsIsCloseFriendOf {o : Uuid} :
    (rlsIsCloseFriendOf me db (some o)).Holds ↔ ∃ v, me = some v ∧ db.IsCloseFriend o v := by
  have h : (rlsIsCloseFriendOf me db (some o)).Holds ↔
      ∃ r ∈ db.closeFriends, r.userId = o ∧ me = some r.friendId := by
    simp [rlsIsCloseFriendOf]
  rw [h]
  constructor
  · rintro ⟨r, hr, ho, hme⟩
    exact ⟨r.friendId, hme, r, hr, ho, rfl⟩
  · rintro ⟨v, rfl, r, hr, ho, rfl⟩
    exact ⟨r, hr, ho, rfl⟩

/-- A block of a known pair. -/
theorem rlsIsBlockedPair_some {a b : Uuid} :
    (rlsIsBlockedPair db (some a) (some b)).Holds ↔ db.Blocked a b := by
  simp [rlsIsBlockedPair, Db.Blocked]

/-- Nobody is blocked from an anonymous caller. -/
@[simp] theorem not_rlsIsBlockedPair_none (a : Option Uuid) :
    (rlsIsBlockedPair db a none).not.Holds := by
  simp [rlsIsBlockedPair]

@[simp] theorem not_rlsIsBlockedPair_none_left (a : Option Uuid) :
    (rlsIsBlockedPair db none a).not.Holds := by
  simp [rlsIsBlockedPair]

@[simp] theorem not_rlsIsBlockedPair_some {a b : Uuid} :
    (rlsIsBlockedPair db (some a) (some b)).not.Holds ↔ ¬ db.Blocked a b := by
  rw [← rlsIsBlockedPair_some]
  simp only [rlsIsBlockedPair, Truth.holds_not_ofBool, Truth.holds_ofBool, Bool.not_eq_true]

/-- The three tiers of visibility, as a proposition: the owner and administrators see everything, a
block hides everything else, and otherwise the tier decides. -/
def Db.CanSee (db : Db) (me : Identity) (owner : Uuid) (visibility : String) : Prop :=
  (me = some owner ∨ db.IsAdmin me) ∨
    (∀ v, me = some v → ¬ db.Blocked owner v) ∧
      (visibility = Visibility.pub ∨
        visibility = Visibility.closeFriends ∧ ∃ v, me = some v ∧ db.IsCloseFriend owner v)

@[simp] theorem holds_rlsCanViewVisibility {o : Uuid} {v : String} :
    (rlsCanViewVisibility me db (some o) v).Holds ↔ db.CanSee me o v := by
  have hblock : (rlsIsBlockedPair db (some o) me).not.Holds ↔
      ∀ v, me = some v → ¬ db.Blocked o v := by
    cases me with
    | none => simp
    | some m => simp
  simp [rlsCanViewVisibility, Db.CanSee, hblock]

instance : Decidable (db.IsAdmin me) := decidable_of_iff _ holds_rlsIsAdmin

instance {a b : Uuid} : Decidable (db.Blocked a b) := decidable_of_iff _ rlsIsBlockedPair_some

instance {o v : Uuid} : Decidable (db.IsCloseFriend o v) :=
  decidable_of_iff (db.closeFriends.any fun r => decide (r.userId = o) && decide (r.friendId = v))
    (by simp [Db.IsCloseFriend])

instance {o : Uuid} {v : String} : Decidable (db.CanSee me o v) :=
  decidable_of_iff _ holds_rlsCanViewVisibility

/-- The policy function for check-ins says what the policies show. -/
theorem holds_rlsCanViewCheckin {id : Uuid} :
    (rlsCanViewCheckin me db id).Holds ↔
      ∃ c ∈ db.checkins, c.id = id ∧ db.CanSee me c.userId c.visibility := by
  unfold rlsCanViewCheckin
  split
  · next c hc =>
    obtain ⟨hmem, rfl⟩ := Table.get_eq_some.mp hc
    rw [holds_rlsCanViewVisibility]
    constructor
    · intro h
      exact ⟨c, hmem, rfl, h⟩
    · rintro ⟨c', hc', hid, h⟩
      rwa [Table.eq_of_key_eq hmem hc' hid.symm]
  · next hc =>
    simp only [Truth.not_holds_null, false_iff, not_exists, not_and]
    intro c hmem hid
    exact absurd hid (Table.get_eq_none.mp hc c hmem)

/-- So does the one for lists. -/
theorem holds_rlsCanViewList {id : Uuid} :
    (rlsCanViewList me db id).Holds ↔
      ∃ l ∈ db.lists, l.id = id ∧ db.CanSee me l.userId l.visibility := by
  unfold rlsCanViewList
  split
  · next l hl =>
    obtain ⟨hmem, rfl⟩ := Table.get_eq_some.mp hl
    rw [holds_rlsCanViewVisibility]
    constructor
    · intro h
      exact ⟨l, hmem, rfl, h⟩
    · rintro ⟨l', hl', hid, h⟩
      rwa [Table.eq_of_key_eq hmem hl' hid.symm]
  · next hl =>
    simp only [Truth.not_holds_null, false_iff, not_exists, not_and]
    intro l hmem hid
    exact absurd hid (Table.get_eq_none.mp hl l hmem)

end Meaning

/-! ## The policies of the tables -/

section Policies

variable (me : Identity) (db : Db)

def usersPolicy : RowPolicy User where
  select u := (rlsIsAdmin me db).or (rlsIsBlockedPair db (some u.id) me).not
  insert _ := .yes
  updateUsing u := rlsIsOwnerOrAdmin me db (some u.id)
  updateCheck u := rlsIsOwnerOrAdmin me db (some u.id)
  delete u := rlsIsOwnerOrAdmin me db (some u.id)

def followsPolicy : RowPolicy Follow where
  select _ := .yes
  insert r := rlsIsOwnerOrAdmin me db (some r.followerId)
  updateUsing _ := .no
  updateCheck _ := .no
  delete r :=
    (rlsIsOwnerOrAdmin me db (some r.followerId)).or (rlsIsOwnerOrAdmin me db (some r.followingId))

def closeFriendsPolicy : RowPolicy CloseFriend where
  select r :=
    (rlsIsOwnerOrAdmin me db (some r.userId)).or (rlsIsOwnerOrAdmin me db (some r.friendId))
  insert r := rlsIsOwnerOrAdmin me db (some r.userId)
  updateUsing _ := .no
  updateCheck _ := .no
  delete r := rlsIsOwnerOrAdmin me db (some r.userId)

/-- A table that only the user in column `owner`, or an administrator, reads and writes, and whose
rows are never changed. -/
def ownerOnlyPolicy {ρ : Type} (owner : ρ → Uuid) : RowPolicy ρ where
  select r := rlsIsOwnerOrAdmin me db (some (owner r))
  insert r := rlsIsOwnerOrAdmin me db (some (owner r))
  updateUsing _ := .no
  updateCheck _ := .no
  delete r := rlsIsOwnerOrAdmin me db (some (owner r))

def blocksPolicy : RowPolicy Block := ownerOnlyPolicy me db Block.blockerId
def mutesPolicy : RowPolicy Mute := ownerOnlyPolicy me db Mute.userId

/-- Seeded, read by everybody and written by nobody. -/
def venueCategoriesPolicy : RowPolicy VenueCategory where
  select _ := .yes
  insert _ := .no
  updateUsing _ := .no
  updateCheck _ := .no
  delete _ := .no

def venuesPolicy : RowPolicy Venue where
  select v := (rlsIsAdmin me db).or (Truth.ofBool v.isSuspended).not
  insert _ := .ofBool me.isSome
  updateUsing _ := rlsIsAdmin me db
  updateCheck _ := rlsIsAdmin me db
  delete _ := rlsIsAdmin me db

/-- The tables with an owner and a three-tier visibility. -/
def visibilityPolicy {ρ : Type} (owner : ρ → Uuid) (visibility : ρ → String) : RowPolicy ρ where
  select r := rlsCanViewVisibility me db (some (owner r)) (visibility r)
  insert r := rlsIsOwnerOrAdmin me db (some (owner r))
  updateUsing r := rlsIsOwnerOrAdmin me db (some (owner r))
  updateCheck r := rlsIsOwnerOrAdmin me db (some (owner r))
  delete r := rlsIsOwnerOrAdmin me db (some (owner r))

def checkinsPolicy : RowPolicy Checkin := visibilityPolicy me db Checkin.userId Checkin.visibility
def listsPolicy : RowPolicy VenueList :=
  visibilityPolicy me db VenueList.userId VenueList.visibility
def venueSavesPolicy : RowPolicy VenueSave :=
  visibilityPolicy me db VenueSave.userId VenueSave.visibility

def listItemsPolicy : RowPolicy ListItem where
  select r := rlsCanViewList me db r.listId
  insert r := rlsIsOwnerOrAdminOfList me db r.listId
  updateUsing r := rlsIsOwnerOrAdminOfList me db r.listId
  updateCheck r := rlsIsOwnerOrAdminOfList me db r.listId
  delete r := rlsIsOwnerOrAdminOfList me db r.listId

/-- Likes: whoever can see the target sees them. `canView` is the test on the target. -/
def likesPolicy (canView : Uuid → Truth) : RowPolicy Mark where
  select r := canView r.targetId
  insert r := (rlsIsOwnerOrAdmin me db (some r.userId)).and (canView r.targetId)
  updateUsing _ := .no
  updateCheck _ := .no
  delete r := rlsIsOwnerOrAdmin me db (some r.userId)

/-- Bookmarks: only their owner sees them. -/
def bookmarksPolicy (canView : Uuid → Truth) : RowPolicy Mark where
  select r := rlsIsOwnerOrAdmin me db (some r.userId)
  insert r := (rlsIsOwnerOrAdmin me db (some r.userId)).and (canView r.targetId)
  updateUsing _ := .no
  updateCheck _ := .no
  delete r := rlsIsOwnerOrAdmin me db (some r.userId)

def checkinLikesPolicy : RowPolicy CheckinLike := likesPolicy me db (rlsCanViewCheckin me db)
def listLikesPolicy : RowPolicy ListLike := likesPolicy me db (rlsCanViewList me db)
def checkinBookmarksPolicy : RowPolicy CheckinBookmark :=
  bookmarksPolicy me db (rlsCanViewCheckin me db)
def listBookmarksPolicy : RowPolicy ListBookmark := bookmarksPolicy me db (rlsCanViewList me db)

def notificationsPolicy : RowPolicy Notification where
  select r :=
    ((rlsIsOwnerOrAdmin me db (some r.userId)).or (rlsIsOwnerOrAdmin me db r.actorId)).and
      ((rlsIsAdmin me db).or (rlsIsBlockedPair db (some r.userId) r.actorId).not)
  insert r := (Truth.ofBool me.isSome).and (rlsIsBlockedPair db (some r.userId) r.actorId).not
  updateUsing r := rlsIsOwnerOrAdmin me db (some r.userId)
  updateCheck r := rlsIsOwnerOrAdmin me db (some r.userId)
  delete r := rlsIsOwnerOrAdmin me db (some r.userId)

/-- Reports: the reporter files and reads them, an administrator resolves them, nobody deletes
them. -/
def reportsPolicy {ρ : Type} (reporter : ρ → Option Uuid) : RowPolicy ρ where
  select r := rlsIsOwnerOrAdmin me db (reporter r)
  insert r := rlsIsOwnerOrAdmin me db (reporter r)
  updateUsing _ := rlsIsAdmin me db
  updateCheck _ := rlsIsAdmin me db
  delete _ := .no

def contentReportsPolicy : RowPolicy ContentReport := reportsPolicy me db ContentReport.reporterId
def venueReportsPolicy : RowPolicy VenueReport := reportsPolicy me db VenueReport.reporterId

end Policies

section Meaning

variable {me : Identity} {db : Db}

/-- Who sees a user: administrators, and everybody without a block between them. -/
@[simp] theorem holds_usersPolicy_select {u : User} :
    ((usersPolicy me db).select u).Holds ↔
      db.IsAdmin me ∨ ∀ v, me = some v → ¬ db.Blocked u.id v := by
  cases me <;> simp [usersPolicy]

@[simp] theorem holds_followsPolicy_select {r : Follow} :
    ((followsPolicy me db).select r).Holds := rfl

/-- Who sees a `close_friends` row: its two parties and administrators. -/
@[simp] theorem holds_closeFriendsPolicy_select {r : CloseFriend} :
    ((closeFriendsPolicy me db).select r).Holds ↔
      me = some r.userId ∨ me = some r.friendId ∨ db.IsAdmin me := by
  simp only [closeFriendsPolicy, Truth.holds_or, holds_rlsIsOwnerOrAdmin]
  tauto

/-- Who sees a venue: everybody, unless it is suspended. -/
@[simp] theorem holds_venuesPolicy_select {v : Venue} :
    ((venuesPolicy me db).select v).Holds ↔ db.IsAdmin me ∨ v.isSuspended = false := by
  simp [venuesPolicy]

@[simp] theorem holds_checkinsPolicy_select {c : Checkin} :
    ((checkinsPolicy me db).select c).Holds ↔ db.CanSee me c.userId c.visibility := by
  simp [checkinsPolicy, visibilityPolicy]

@[simp] theorem holds_listsPolicy_select {l : VenueList} :
    ((listsPolicy me db).select l).Holds ↔ db.CanSee me l.userId l.visibility := by
  simp [listsPolicy, visibilityPolicy]

@[simp] theorem holds_venueSavesPolicy_select {r : VenueSave} :
    ((venueSavesPolicy me db).select r).Holds ↔ db.CanSee me r.userId r.visibility := by
  simp [venueSavesPolicy, visibilityPolicy]

end Meaning

end OburBackend
