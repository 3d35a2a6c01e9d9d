import OburBackend.Model.Request
import OburBackend.Sql.Rules

/-!
# Ownership and visibility (`app/core/authz.py`)

The rule for who may see a resource exists twice: in Python (`canView`) and as the policy function
`rlsCanViewVisibility`. `canView` runs as a program of queries under the viewer's own identity, so
that its close-friends lookup is itself filtered by a policy. `run_canView` says that it never
raises and answers what the policy function answers.
-/

namespace OburBackend

open Sql

/-- `is_owner_or_admin` -/
def isOwnerOrAdmin (ownerId : Uuid) (currentUser : User) : Bool :=
  decide (currentUser.id = ownerId) || decide (currentUser.role = UserRole.admin)

/-- `is_close_friend` -/
def isCloseFriend (ownerId viewerId : Uuid) : Service Bool := do
  let rows ← select closeFriends .closeFriends [ownerId, viewerId] fun r =>
    decide (r.userId = ownerId) && decide (r.friendId = viewerId)
  let row ← scalarOneOrNone rows
  return row.isSome

/-- `is_blocked_between` -/
def isBlockedBetween (userA userB : Uuid) : Service Bool :=
  query ⟨.select, .blocks, [userA, userB]⟩ fun _ db =>
    decide (rlsIsBlockedPair db (some userA) (some userB)).Holds

/-- `can_view` -/
def canView (ownerId : Uuid) (visibility : String) (viewer : Option User) : Service Bool := do
  if viewer.any (isOwnerOrAdmin ownerId) then
    return true
  else if ← (match viewer with
      | some v => isBlockedBetween ownerId v.id
      | none => pure false) then
    return false
  else if visibility = Visibility.pub then
    return true
  else if visibility = Visibility.priv then
    return false
  else if visibility = Visibility.closeFriends then
    match viewer with
    | none => return false
    | some v => isCloseFriend ownerId v.id
  else
    return false

/-- `ensure_visible_and_owned` -/
def ensureVisibleAndOwned (ownerId : Uuid) (visibility : String) (currentUser : User)
    (notFoundError : ErrorClass) (notFoundMessage : String)
    (notOwnerError : ErrorClass) (notOwnerMessage : String) : Service Unit := do
  if isOwnerOrAdmin ownerId currentUser then
    return ()
  else
    let visible ← canView ownerId visibility (some currentUser)
    if visible then
      raiseDomain notOwnerError notOwnerMessage
    else
      raiseDomain notFoundError notFoundMessage

/-- Looking for a close friend writes nothing. -/
theorem readOnly_isCloseFriend (ownerId viewerId : Uuid) :
    (isCloseFriend ownerId viewerId).ReadOnly :=
  (Prog.readOnly_query _ _).bind fun rows => (readOnly_scalarOneOrNone rows).bind fun _ => trivial

/-- Nor does the check of visibility. -/
theorem readOnly_canView (ownerId : Uuid) (visibility : String) (viewer : Option User) :
    (canView ownerId visibility viewer).ReadOnly := by
  have hblocked : (match viewer with
      | some v => isBlockedBetween ownerId v.id
      | none => pure false : Service Bool).ReadOnly := by
    cases viewer with
    | none => trivial
    | some v => exact Prog.readOnly_query _ _
  unfold canView
  split
  · trivial
  · refine hblocked.bind fun blocked => ?_
    split_ifs
    all_goals first
      | trivial
      | cases viewer with
        | none => trivial
        | some v => exact readOnly_isCloseFriend ownerId v.id

/-- Nor does the check of ownership. -/
theorem readOnly_ensureVisibleAndOwned (ownerId : Uuid) (visibility : String) (currentUser : User)
    (e : ErrorClass) (m : String) (e' : ErrorClass) (m' : String) :
    (ensureVisibleAndOwned ownerId visibility currentUser e m e' m').ReadOnly := by
  unfold ensureVisibleAndOwned
  split
  · trivial
  · refine (readOnly_canView _ _ _).bind fun visible => ?_
    cases visible <;> trivial

/-- The guard lets nobody pass but the owner and administrators. -/
theorem isOwnerOrAdmin_of_ensureVisibleAndOwned {ownerId : Uuid} {visibility : String}
    {currentUser : User} {e e' : ErrorClass} {m m' : String} {conn : Conn Db Identity}
    (h : ((ensureVisibleAndOwned ownerId visibility currentUser e m e' m').run conn).1 = .ok ()) :
    isOwnerOrAdmin ownerId currentUser = true := by
  by_contra hnot
  rw [Bool.not_eq_true] at hnot
  simp only [ensureVisibleAndOwned, hnot, Bool.false_eq_true, if_false, Prog.bind_eq,
    (readOnly_canView _ _ _).run_bind] at h
  split at h
  · next visible _ => cases visible <;> cases h
  · cases h

/-- `close_friend_of_owner_exists`, as a condition on the owner column of a row. -/
def closeFriendOfOwnerExists (me : Identity) (db : Db) (ownerId viewerId : Uuid) : Bool :=
  !(closeFriends.rows me db fun r =>
    decide (r.userId = ownerId) && decide (r.friendId = viewerId)).isEmpty

/-- `account_is_visible`, as a condition on the owner column of a row. -/
def accountIsVisible (me : Identity) (db : Db) (ownerId : Uuid) : Bool :=
  !(users.rows me db fun u => decide (u.id = ownerId) && decide (u.status = .active)).isEmpty

/-! ## The two implementations agree -/

/-- The row of a user that a request has loaded is stored with the same role. -/
def Db.Stored (db : Db) (v : User) : Prop := ∃ u ∈ db.users, u.id = v.id ∧ u.role = v.role

variable {db : Db} {c : Conn Db Identity} {o : Uuid} {v : User}

/-- A stored user is an administrator by the role of their row. -/
theorem Db.Stored.isAdmin_iff (h : db.Stored v) :
    db.IsAdmin (some v.id) ↔ v.role = UserRole.admin := by
  obtain ⟨u, hu, hid, hrole⟩ := h
  constructor
  · rintro ⟨w, hw, hwid, hadmin⟩
    have hwu : w = u := Table.eq_of_key_eq hw hu (by rw [hid]; exact (Option.some.inj hwid).symm)
    rw [← hrole, ← hwu, hadmin]
  · intro hadmin
    exact ⟨u, hu, by rw [hid], by rw [hrole, hadmin]⟩

/-- `is_owner_or_admin` reads the loaded row, the policies read the stored one. -/
theorem Db.Stored.isOwnerOrAdmin_iff (h : db.Stored v) :
    isOwnerOrAdmin o v = true ↔ some v.id = some o ∨ db.IsAdmin (some v.id) := by
  rw [h.isAdmin_iff]
  simp [isOwnerOrAdmin]

/-- `scalar_one_or_none` never raises on a query that fixes the primary key. -/
theorem run_scalarOneOrNone_toList {ρ : Type} (r : Option ρ) :
    (scalarOneOrNone r.toList).run c = (.ok r, c) := by
  cases r <;> rfl

/-- The close-friends lookup finds the row it looks for: `close_friends_select` hides nothing from
the friend in question. -/
theorem run_isCloseFriend {viewer : Uuid} (hme : c.vars = some viewer) :
    (isCloseFriend o viewer).run c = (.ok (decide (c.working.IsCloseFriend o viewer)), c) := by
  have hkey : ∀ r : CloseFriend,
      (decide (r.userId = o) && decide (r.friendId = viewer)) = true → r.key = (o, viewer) := by
    intro r hr
    simpa [CloseFriend.key] using hr
  simp only [isCloseFriend, Prog.bind_eq, select, run_query_bind, TableDef.rows_of_key _ hkey]
  rw [Prog.run_bind, run_scalarOneOrNone_toList]
  simp only [Prog.pure_eq, Prog.run_ret, Prod.mk.injEq, Except.ok.injEq, and_true]
  rw [Bool.eq_iff_iff, Option.isSome_iff_exists, decide_eq_true_eq]
  constructor
  · rintro ⟨r, hr⟩
    obtain ⟨hlookup, -⟩ := Option.filter_eq_some_iff.mp hr
    obtain ⟨hmem, hk, -⟩ := closeFriends.lookup_eq_some.mp hlookup
    exact ⟨r, hmem, Prod.mk.inj hk⟩
  · rintro ⟨r, hmem, rfl, rfl⟩
    refine ⟨r, Option.filter_eq_some_iff.mpr ⟨closeFriends.lookup_eq_some.mpr ?_, by simp⟩⟩
    refine ⟨hmem, rfl, ?_⟩
    simp [hme]

/-- In the condition of a listing the lookup says the same. -/
theorem closeFriendOfOwnerExists_iff {me : Identity} {viewer : Uuid} (hme : me = some viewer) :
    closeFriendOfOwnerExists me db o viewer = true ↔ db.IsCloseFriend o viewer := by
  simp only [closeFriendOfOwnerExists, Bool.not_eq_true', List.isEmpty_eq_false_iff_exists_mem,
    TableDef.mem_rows, closeFriends_read, closeFriends_policy, holds_closeFriendsPolicy_select,
    Bool.and_eq_true, decide_eq_true_eq]
  constructor
  · rintro ⟨r, hr, hkey, -⟩
    exact ⟨r, hr, hkey⟩
  · rintro ⟨r, hr, ho, hf⟩
    exact ⟨r, hr, ⟨ho, hf⟩, .inr (.inl (by rw [hme, hf]))⟩

/-- An account is visible to a listing when it is active and its row is not hidden by a policy. -/
theorem accountIsVisible_iff {me : Identity} {id : Uuid} :
    accountIsVisible me db id = true ↔
      ∃ u ∈ db.users, u.id = id ∧ u.status = .active ∧ ((usersPolicy me db).select u).Holds := by
  simp only [accountIsVisible, Bool.not_eq_true', List.isEmpty_eq_false_iff_exists_mem,
    TableDef.mem_rows, users_read, users_policy, Bool.and_eq_true, decide_eq_true_eq, and_assoc]

/-- The last part of `can_view`, once owner, administrator and block are settled: the tier decides,
with `close` the answer for close friends. -/
theorem run_tiers {visibility : String} {close : Service Bool} {b : Bool}
    (hclose : close.run c = (.ok b, c)) :
    (if visibility = Visibility.pub then pure true
      else if visibility = Visibility.priv then pure false
      else if visibility = Visibility.closeFriends then close
      else pure false : Service Bool).run c =
      (.ok (decide (visibility = Visibility.pub ∨
        visibility = Visibility.closeFriends ∧ b = true)), c) := by
  by_cases hpub : visibility = Visibility.pub
  · simp [hpub]
  · by_cases hpriv : visibility = Visibility.priv
    · simp [hpriv]
    · by_cases hcf : visibility = Visibility.closeFriends
      · simp [hcf, hclose]
      · simp [hpub, hpriv, hcf]

/-- `canView`, run under the identity of its viewer, never raises and answers whether the viewer can
see the resource. -/
theorem run_canView {visibility : String} {viewer : Option User}
    (hme : c.vars = viewer.map User.id) (hstored : ∀ v ∈ viewer, c.working.Stored v) :
    (canView o visibility viewer).run c =
      (.ok (decide (c.working.CanSee c.vars o visibility)), c) := by
  cases viewer with
  | none =>
    have hvars : c.vars = none := hme
    have htiers := @run_tiers c visibility (pure false) false rfl
    simpa [canView, Db.CanSee, hvars] using htiers
  | some v =>
    have hvars : c.vars = some v.id := hme
    have howner := (hstored v rfl).isOwnerOrAdmin_iff (o := o)
    have htiers := @run_tiers c visibility _ _ (run_isCloseFriend (o := o) hvars)
    by_cases h1 : isOwnerOrAdmin o v = true
    · have hsee : c.working.CanSee c.vars o visibility := .inl (hvars ▸ howner.mp h1)
      simp [canView, h1, hsee]
    · have hid : v.id ≠ o := fun h => h1 (howner.mpr (.inl (congrArg some h)))
      have hadmin : ¬ c.working.IsAdmin (some v.id) := fun h => h1 (howner.mpr (.inr h))
      rw [Bool.not_eq_true] at h1
      simp only [canView, Option.any_some, h1, Bool.false_eq_true, if_false, Prog.bind_eq,
        isBlockedBetween, run_query_bind, rlsIsBlockedPair_some]
      by_cases h2 : c.working.Blocked o v.id
      · simp [Db.CanSee, hvars, hid, hadmin, h2]
      · simpa [Db.CanSee, hvars, hid, hadmin, h2] using htiers

/-- The rule in Python and the rule of the row policies are one rule: for every viewer, owner and
visibility text, `can_view` answers `True` exactly when `rls_can_view_visibility` is true under the
viewer's identity, and `is_owner_or_admin` holds exactly when `rls_is_owner_or_admin` is true. -/
theorem canView_iff_rlsCanViewVisibility (db : Db) (viewer : Option User) (ownerId : Uuid)
    (visibility : String) (hstored : ∀ v ∈ viewer, db.Stored v) :
    (∃ b, (canView ownerId visibility viewer).outcome (viewer.map User.id) db = .ok b ∧
      (b = true ↔
        (rlsCanViewVisibility (viewer.map User.id) db (some ownerId) visibility).Holds)) ∧
    ∀ v ∈ viewer, isOwnerOrAdmin ownerId v = true ↔
      (rlsIsOwnerOrAdmin (some v.id) db (some ownerId)).Holds := by
  have hrun : (canView ownerId visibility viewer).run (Conn.start (viewer.map User.id) db) = _ :=
    run_canView rfl hstored
  refine ⟨⟨_, by rw [Prog.outcome, hrun], ?_⟩, ?_⟩
  · rw [decide_eq_true_eq, holds_rlsCanViewVisibility]
    rfl
  · intro v hv
    rw [holds_rlsIsOwnerOrAdmin]
    exact (hstored v hv).isOwnerOrAdmin_iff

/-- A close friend of the owner of a `close_friends` resource. -/
theorem canView_closeFriend :
    let owner := User.create 1 "clerk" "a" "ada" "Ada" 0
    let friend := User.create 2 "clerk" "b" "bob" "Bob" 0
    let db : Db := { Db.empty with
      users := (Table.empty.insert owner).insert friend
      follows := Table.empty.insert ⟨2, 1, 0⟩
      closeFriends := Table.empty.insert ⟨1, 2, 0⟩ }
    ∃ b, (canView 1 "close_friends" (some friend)).outcome (some 2) db = .ok b ∧
      (b = true ↔ (rlsCanViewVisibility (some 2) db (some 1) "close_friends").Holds) := by
  intro owner friend db
  have hstored : ∀ v ∈ some friend, db.Stored v := by
    intro v hv
    obtain rfl : friend = v := Option.some.inj hv
    exact ⟨friend, by decide, rfl, rfl⟩
  exact (canView_iff_rlsCanViewVisibility db (some friend) 1 "close_friends" hstored).1

end OburBackend
