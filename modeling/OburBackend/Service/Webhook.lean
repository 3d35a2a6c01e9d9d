import OburBackend.Service.Account

/-!
# Clerk's webhooks (`app/api/v1/webhooks.py`)

Clerk sends an event when a user of its own is created, updated or deleted. The connection of a
webhook has no identity, so a handler that means to change a stored row looks the row up first and
takes its identity.
-/

namespace OburBackend

open Sql

/-- `ClerkEmailAddress` -/
structure ClerkEmailAddress where
  id : String
  emailAddress : String
  deriving DecidableEq

/-- `ClerkUserData` -/
structure ClerkUserData where
  id : String
  username : Option String := none
  firstName : Option String := none
  lastName : Option String := none
  emailAddresses : List ClerkEmailAddress := []
  primaryEmailAddressId : Option String := none
  imageUrl : Option String := none
  deriving DecidableEq

/-- `ClerkUserData.primary_email` -/
def ClerkUserData.primaryEmail (data : ClerkUserData) : Option String :=
  match data.primaryEmailAddressId with
  | none => none
  | some primary =>
    (data.emailAddresses.find? fun e => decide (e.id = primary)).map ClerkEmailAddress.emailAddress

/-- `ClerkWebhookEvent` -/
structure ClerkWebhookEvent where
  type : String
  data : ClerkUserData
  deriving DecidableEq

/-- `WebhookAckResponse` -/
structure WebhookAckResponse where
  status : String

/-! ## The identity of a new user (`app/core/user_identity.py`) -/

/-- The characters that `str.strip` takes off. -/
def isNameSpace (c : Char) : Bool :=
  (9 ≤ c.toNat && c.toNat ≤ 13) || (28 ≤ c.toNat && c.toNat ≤ 32) ||
    (0x2000 ≤ c.toNat && c.toNat ≤ 0x200a) ||
    decide (c.toNat ∈ [0x85, 0xa0, 0x1680, 0x2028, 0x2029, 0x202f, 0x205f, 0x3000])

/-- `part.strip()` -/
def stripName (part : String) : String :=
  String.ofList ((part.toList.dropWhile isNameSpace).reverse.dropWhile isNameSpace).reverse

/-- `default_display_name` -/
def defaultDisplayName (firstName lastName : Option String) (username : String) : String :=
  let parts := ([firstName, lastName].filterMap fun part => part.map stripName).filter (· ≠ "")
  if parts.isEmpty then username else " ".intercalate parts

/-- `data.username or fallback_username(...)`: an empty name counts as none. -/
def ClerkUserData.handle (data : ClerkUserData) (c : Ctx) : String :=
  match data.username with
  | some username => if username = "" then fallbackUsername c authProvider data.id else username
  | none => fallbackUsername c authProvider data.id

/-- The row that `_upsert_user` proposes for insertion. -/
def ClerkUserData.row (data : ClerkUserData) (c : Ctx) : User :=
  { User.create (c.uuid4 0) authProvider data.id (data.handle c)
      (defaultDisplayName data.firstName data.lastName (data.handle c)) c.now with
    email := data.primaryEmail
    avatarUrl := data.imageUrl }

/-! ## The handlers -/

/-- The provider identity of a row, the columns of `uq_user_auth_identity`. -/
def User.hasIdentity (authProviderId : String) (u : User) : Bool :=
  decide (u.authProvider = OburBackend.authProvider) &&
    decide (u.authProviderId = authProviderId)

/-- `SET email = excluded.email, avatar_url = excluded.avatar_url` -/
def User.sync (email avatarUrl : Option String) (u : User) : Option User :=
  some { u with email, avatarUrl }

/-- Taking over an event keeps the account's id. -/
theorem User.sync_id (email avatarUrl : Option String) :
    ∀ u u', User.sync email avatarUrl u = some u' → u'.id = u.id := by
  rintro u _ ⟨⟩
  rfl

/-- What `INSERT ... ON CONFLICT ON CONSTRAINT uq_user_auth_identity DO UPDATE` writes. The proposed
row has to pass the policies of an insertion in any case; where a row with its identity is stored,
that row has to be one that the caller may update, or the statement raises. -/
def upsertWrite (me : Identity) (db : Db) (r : User) : Except DbError (Write Db Lock) :=
  match (db.users.select (User.hasIdentity r.authProviderId)).head? with
  | none => users.insertWrite me db r
  | some existing =>
    let policy := usersPolicy me db
    if (policy.insert r).Holds ∧ (policy.select r).Holds ∧
        (policy.select existing).Holds ∧ (policy.updateUsing existing).Holds then
      users.updateWrite me db existing.id (User.sync r.email r.avatarUrl)
        (User.sync_id r.email r.avatarUrl)
    else .error .rowSecurity

/-- `session.scalar(select(User.id).where(...))`, with the row in place of its id. -/
def lookupUser (authProviderId : String) : Service (Option User) := do
  let rows ← select users .users [] (User.hasIdentity authProviderId)
  return rows.head?

/-- The upsert as a statement. -/
def upsertRow (r : User) : Service Unit :=
  .execute ⟨.insert, .users, [r.id]⟩ (fun me db => upsertWrite me db r) (.ret ())
    fun e => .raise (.database e)

/-- `_upsert_user` -/
def upsertUser (c : Ctx) (data : ClerkUserData) : Service Unit := do
  let existing ← lookupUser data.id
  (match existing with
  | some user => setCurrentUserIdentity user.id
  | none => pure ())
  upsertRow (data.row c)
  commit

/-- `_delete_user` -/
def deleteUser (authProviderId : String) : Service Unit := do
  match ← lookupUser authProviderId with
  | none => return ()
  | some target =>
    setCurrentUserIdentity target.id
    users.delete target.id
    commit

/-- The setting and the request of a webhook. -/
structure WebhookRequest where
  clerkWebhookSecret : String
  /-- What the third-party check of the signature ends with: the message of a refusal, or a payload
  at most, as the event it holds if it has the schema of one. -/
  verified : Except String (Option (Option ClerkWebhookEvent))

/-- `_verify_signature`, and the parsing of the payload. -/
def verifySignature (request : WebhookRequest) : Service ClerkWebhookEvent :=
  if request.clerkWebhookSecret = "" then
    raiseDomain .invalidWebhookSignature "CLERK_WEBHOOK_SECRET is not configured"
  else
    match request.verified with
    | .error message => raiseDomain .invalidWebhookSignature message
    | .ok none =>
      raiseDomain .invalidWebhookSignature "webhook verification returned no payload"
    | .ok (some none) => .raise .validationError
    | .ok (some (some event)) => return event

/-- `_USER_UPSERT_EVENTS` -/
def userUpsertEvents : List String := ["user.created", "user.updated"]

/-- `handle_clerk_webhook` -/
def handleClerkWebhook (c : Ctx) (request : WebhookRequest) : Service WebhookAckResponse := do
  let event ← verifySignature request
  (if event.type ∈ userUpsertEvents then
    upsertUser c event.data
  else if event.type = "user.deleted" then
    deleteUser event.data.id
  else
    pure ())
  return ⟨"ok"⟩

end OburBackend
