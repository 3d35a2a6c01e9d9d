import OburBackend.Core.Authz

/-!
# Accounts and signing in

The account operations of `app/services/user.py` and the dependency that resolves a request to its
user, `app/core/auth.py`. Each account operation branches on the status of the row that its request
has loaded, which may be out of date by the time it writes.
-/

namespace OburBackend

open Sql

/-! ## Profile edits -/

/-- `USERNAME_CHANGE_INTERVAL_DAYS` -/
def usernameChangeIntervalDays : ℕ := 30

/-- `_next_username_change_allowed_at` -/
def nextUsernameChangeAllowedAt (changedAt : Timestamp) : Timestamp :=
  changedAt + days usernameChangeIntervalDays

/-- `_ensure_username_available` -/
def ensureUsernameAvailable (username : String) (currentUserId : Uuid) : Service Unit := do
  let found ← scalarOneOrNone (← select users .users [currentUserId] fun u =>
    decide (u.username = username) && decide (u.id ≠ currentUserId))
  if found.isSome then
    raiseDomain .usernameTaken ("username already taken: " ++ username)

/-- The search for the handle only reads. -/
theorem readOnly_ensureUsernameAvailable (username : String) (currentUserId : Uuid) :
    (ensureUsernameAvailable username currentUserId).ReadOnly := by
  refine Prog.ReadOnly.bind (readOnly_select _) fun rows =>
    (readOnly_scalarOneOrNone rows).bind fun found => ?_
  split <;> trivial

/-- The `changes` of a profile edit: the fields that the payload gives. -/
structure ProfileChanges where
  displayName : Field String := none
  username : Field String := none
  bio : Field String := none
  avatarUrl : Field String := none
  city : Field String := none
  countryCode : Field String := none
  locale : Field String := none
  timezone : Field String := none
  deriving DecidableEq

namespace ProfileChanges

/-- The new handle, if the payload gives one that is text and differs from the loaded one. -/
def newUsername (changes : ProfileChanges) (user : User) : Option String :=
  changes.username.join.filter fun username => decide (username ≠ user.username)

/-- The fields of `_EDITABLE_FIELDS` that differ from the loaded row. -/
def changed (changes : ProfileChanges) (user : User) : ProfileChanges where
  displayName := changes.displayName.changed (some user.displayName)
  bio := changes.bio.changed user.bio
  avatarUrl := changes.avatarUrl.changed user.avatarUrl
  city := changes.city.changed user.city
  countryCode := changes.countryCode.changed user.countryCode
  locale := changes.locale.changed (some user.locale)
  timezone := changes.timezone.changed user.timezone

/-- The row with the editable fields set, and with the new handle of the moment `now` if there is
one; `none` when a `NOT NULL` column becomes `NULL`. -/
def set (changes : ProfileChanges) (newUsername : Option String) (now : Timestamp) (user : User) :
    Option User := do
  let displayName ← changes.displayName.notNull user.displayName
  let locale ← changes.locale.notNull user.locale
  return { user with
    displayName, locale
    bio := changes.bio.nullable user.bio
    avatarUrl := changes.avatarUrl.nullable user.avatarUrl
    city := changes.city.nullable user.city
    countryCode := changes.countryCode.nullable user.countryCode
    timezone := changes.timezone.nullable user.timezone
    username := newUsername.getD user.username
    usernameChangedAt := if newUsername.isSome then some now else user.usernameChangedAt }

/-- An edit keeps the identity of the account, its role and its standing. -/
theorem set_eq_some {changes : ProfileChanges} {newUsername : Option String} {now : Timestamp}
    {user user' : User} (h : changes.set newUsername now user = some user') :
    user'.id = user.id ∧ user'.authProvider = user.authProvider ∧
      user'.authProviderId = user.authProviderId ∧ user'.role = user.role ∧
      user'.status = user.status ∧ user'.username = newUsername.getD user.username ∧
      user'.usernameChangedAt =
        if newUsername.isSome then some now else user.usernameChangedAt := by
  simp only [set, Option.bind_eq_bind, Option.bind_eq_some_iff, Option.pure_def,
    Option.some.injEq] at h
  obtain ⟨_, _, _, _, rfl⟩ := h
  exact ⟨rfl, rfl, rfl, rfl, rfl, rfl, rfl⟩

/-- An edit of an account keeps its id. -/
theorem set_id (changes : ProfileChanges) (newUsername : Option String) (now : Timestamp) :
    ∀ r r', changes.set newUsername now r = some r' → r'.id = r.id :=
  fun _ _ h => (set_eq_some h).1

end ProfileChanges

/-- The flush, the commit and the reload that `update_profile` ends with. -/
def saveProfile (c : Ctx) (user : User) (changes : ProfileChanges) : Service User := do
  let newUsername := changes.newUsername user
  let changed := changes.changed user
  if newUsername.isSome ∨ changed ≠ {} then
    users.update user.id (changed.set newUsername c.now) (changed.set_id newUsername c.now)
  commit
  refresh users user.id

/-- `update_profile` -/
def updateProfile (c : Ctx) (user : User) (changes : ProfileChanges) : Service User := do
  match changes.newUsername user with
  | none => saveProfile c user changes
  | some username =>
    match user.usernameChangedAt.filter fun changedAt =>
        decide (c.now < nextUsernameChangeAllowedAt changedAt) with
    | some changedAt =>
      raiseDomain .usernameChangedTooRecently
        ("username can be changed again at " ++
          isoformat (nextUsernameChangeAllowedAt changedAt))
    | none =>
      ensureUsernameAvailable username user.id
      saveProfile c user changes

/-! ## Standing -/

/-- The `UPDATE` of a status column. -/
def setStatus (userId : Uuid) (status : UserStatus) : Service Unit :=
  users.update userId (fun u => some { u with status }) (by
    rintro u _ ⟨⟩
    rfl)

/-- `freeze_account` -/
def freezeAccount (user : User) : Service User := do
  if user.status = .active then
    setStatus user.id .frozen
    commit
    refresh users user.id
  else
    return user

/-- `reactivate_account` -/
def reactivateAccount (user : User) : Service User := do
  if user.status = .active then
    return user
  else if user.status ≠ .frozen then
    raiseDomain .accountNotFrozen ("account is " ++ user.status.text ++ ", not frozen")
  else
    setStatus user.id .active
    commit
    refresh users user.id

/-- `suspend_account` -/
def suspendAccount (userId : Uuid) : Service User := do
  match ← users.get userId with
  | none => raiseDomain .userNotFound ("user not found: " ++ userId.str)
  | some user =>
    if user.status ≠ .suspended then
      setStatus userId .suspended
      commit
      refresh users userId
    else
      return user

/-- `delete_account` -/
def deleteAccount (userId : Uuid) : Service Unit := do
  users.delete userId
  commit

/-- `delete_account` takes users, with everything personal to them. -/
theorem keeps_deleteAccount {Inv : Db → Prop} {me : Identity} {userId : Uuid}
    (h : ∀ s p, Inv s → Inv (eraseUsers p s)) : (deleteAccount userId).Keeps Inv me :=
  (keeps_delete h).bind fun _ => Prog.keeps_commit

/-! ## Signing in -/

/-- `_AUTH_PROVIDER` -/
def authProvider : String := "clerk"

/-- What the third-party check of the request's token ends with: the token's `sub` claim, or the
message of the refusal. -/
structure Request where
  claims : Except String String

/-- `verify_session` -/
def verifySession (request : Request) : Service String :=
  match request.claims with
  | .ok sub => return sub
  | .error message => raiseDomain .invalidToken message

/-- `_find_user` -/
def findUser (authProviderId : String) : Service (Option User) := do
  scalarOneOrNone (← select users .users [] fun u =>
    decide (u.authProvider = authProvider) && decide (u.authProviderId = authProviderId))

/-- `fallback_username` -/
def fallbackUsername (c : Ctx) (provider providerId : String) : String :=
  let hex := (c.uuid5 (provider ++ ":" ++ providerId)).str.toList.filter (· ≠ '-')
  "user_" ++ String.ofList (hex.take 12)

/-- The commit of the new row in `_create_user_jit`, and what follows it. -/
def insertUserJit (user : User) : Service User := do
  users.insert user
  commit
  refresh users user.id

/-- `_create_user_jit`: losing a race for the row shows as a violated constraint. -/
def createUserJit (c : Ctx) (authProviderId : String) : Service User :=
  let username := fallbackUsername c authProvider authProviderId
  let user := User.create (c.uuid4 0) authProvider authProviderId username username c.now
  (insertUserJit user).recover fun e => do
    if e = .database .integrity then
      rollback
      match ← findUser authProviderId with
      | none => .raise e
      | some existing => return existing
    else
      .raise e

/-- `_resolve_user` -/
def resolveUser (c : Ctx) (request : Request) : Service User := do
  let authProviderId ← verifySession request
  match ← findUser authProviderId with
  | some user => return user
  | none => createUserJit c authProviderId

/-- `set_current_user_identity`, as the policies see it: every later statement of the session runs
under this identity. -/
def setCurrentUserIdentity (userId : Uuid) : Service Unit := assign (some userId)

/-- `get_current_user` -/
def getCurrentUser (c : Ctx) (request : Request) : Service User := do
  let user ← resolveUser c request
  if user.status = .suspended then
    .raise (.problem "account-suspended")
  else
    let user ← if user.status = .frozen then reactivateAccount user else pure user
    setCurrentUserIdentity user.id
    return user

/-- `update_me` (`app/api/v1/users.py`) -/
def updateMe (c : Ctx) (request : Request) (changes : ProfileChanges) : Service User := do
  let currentUser ← getCurrentUser c request
  updateProfile c currentUser changes

/-- `get_optional_current_user` -/
def getOptionalCurrentUser (c : Ctx) (request : Request) : Service (Option User) :=
  (do return some (← getCurrentUser c request)).recover fun e =>
    match e with
    | .problem _ => return none
    | .domain .invalidToken _ => return none
    | e => .raise e

end OburBackend
