import OburBackend.History.Changes

/-!
# Every service writes the changes of the application

One lemma for each service function that writes: its writes are within `Change`, and it leaves the
identity of the session alone. `writes_handle` puts them together for a whole request. The identity
of a request is set by its dependencies only (`SignsIn.getCurrentUser`), or by a webhook.
-/

namespace OburBackend

open Sql Prog

section

variable {W : Identity → Db → Write Db Lock → Prop} {A : Identity → Prop} {ρ π : Type}
  {key : ρ → π} [DecidableEq π] {T : DbTable key}

/-- A lookup by primary key writes nothing. -/
theorem writes_get {ε : Type} (k : π) :
    (T.get k : Prog Db Lock Identity Stmt ε (Option ρ)).Writes W A :=
  (readOnly_get k).writes

/-- Nor does reading a row back. -/
theorem writes_refresh (k : π) : (refresh T k).Writes W A := (readOnly_refresh T k).writes

/-- Committing and reading back what was written. -/
theorem writes_commit_refresh {k : π} :
    (commit >>= fun _ => refresh T k : Service ρ).Writes W A :=
  writes_commit.bind fun _ => writes_refresh k

omit [DecidableEq π] in
/-- Nor does a query. -/
theorem writes_select {table : TableName} {params : List Uuid} {p : ρ → Bool} :
    (select T table params p).Writes W A := writes_query _ _

/-- Nor does taking the one row of a query's result. -/
theorem writes_scalarOneOrNone (rows : List ρ) : (scalarOneOrNone rows).Writes W A :=
  (readOnly_scalarOneOrNone rows).writes

end

/-! ## Signing in -/

/-- What signing in writes is within the bound: a plain new account, an account that becomes active,
and the identity of the session. -/
structure SignsIn (c : Ctx) (W : Identity → Db → Write Db Lock → Prop) (A : Identity → Prop) :
    Prop where
  create : ∀ sub username, (users.insert (User.create (c.uuid4 0) authProvider sub username
    username c.now) : Service Unit).Writes W A
  activate : ∀ userId, (setStatus userId .active).Writes W A
  identify : ∀ me, A me

namespace SignsIn

variable {W : Identity → Db → Write Db Lock → Prop} {A : Identity → Prop} {c : Ctx}

/-- The look-up of the token's account only reads. -/
theorem writes_findUser (authProviderId : String) : (findUser authProviderId).Writes W A :=
  writes_select.bind fun rows => writes_scalarOneOrNone rows

variable (h : SignsIn c W A)

include h

/-- The sign-up of a new user writes within the bound: it adds one plain account. -/
theorem createUserJit (authProviderId : String) :
    (createUserJit c authProviderId).Writes W A := by
  refine Writes.recover ?_ fun e => ?_
  · exact (h.create _ _).bind fun _ => writes_commit_refresh
  · split
    · refine writes_rollback.bind fun _ => (writes_findUser _).bind fun found => ?_
      cases found <;> trivial
    · trivial

/-- Resolving the token writes no more than the sign-up. -/
theorem resolveUser (request : Request) : (resolveUser c request).Writes W A := by
  have hverify : (verifySession request).Writes W A := by
    unfold verifySession
    cases request.claims <;> trivial
  refine hverify.bind fun sub => (writes_findUser sub).bind fun found => ?_
  cases found with
  | none => exact h.createUserJit sub
  | some user => trivial

/-- Reactivating an account makes it active, or writes nothing. -/
theorem reactivateAccount (user : User) : (reactivateAccount user).Writes W A := by
  unfold OburBackend.reactivateAccount
  split_ifs
  · trivial
  · trivial
  · exact (h.activate _).bind fun _ => writes_commit_refresh

/-- Signing in writes within the bound, and so do the dependencies below that wrap it. -/
theorem getCurrentUser (request : Request) : (getCurrentUser c request).Writes W A := by
  refine (h.resolveUser request).bind fun user => ?_
  split
  · trivial
  · have hset (user : User) : (setCurrentUserIdentity user.id >>= fun _ => return user
        : Service User).Writes W A := ⟨h.identify _, trivial⟩
    split
    · exact (h.reactivateAccount user).bind hset
    · exact hset user

/-- The same where a token is not required. -/
theorem getOptionalCurrentUser (request : Request) :
    (getOptionalCurrentUser c request).Writes W A := by
  refine Writes.recover ((h.getCurrentUser request).bind fun _ => trivial) fun e => ?_
  split <;> trivial

/-- The same for a route of the administrators. -/
theorem requireAdmin (request : Request) : (requireAdmin c request).Writes W A := by
  refine (h.getCurrentUser request).bind fun user => ?_
  split <;> trivial

end SignsIn

variable {New : Uuid → Prop} {A : Identity → Prop} {c : Ctx}

/-- The identity may be set wherever every identity is allowed. -/
theorem writes_setCurrentUserIdentity (hA : ∀ me, A me) (userId : Uuid) :
    (setCurrentUserIdentity userId).Writes (Change New) A := ⟨hA _, trivial⟩

/-- Setting a status is an edit of one account. -/
theorem writes_setStatus (userId : Uuid) (status : UserStatus) :
    (setStatus userId status).Writes (Change New) A := by
  refine TableDef.writes_update (R := userRules New) ?_ fun _ _ _ => .users
  rintro u _ ⟨⟩
  exact ⟨rfl, rfl, rfl, rfl⟩

/-- Adding an account is a change when its id is drawn and its role is the plain one. -/
theorem writes_insertUser {u : User} (hid : New u.id) (hrole : u.role = UserRole.user) :
    (users.insert u : Service Unit).Writes (Change New) A :=
  TableDef.writes_insert (R := userRules New) ⟨hid, hrole⟩ fun _ _ _ => .users

/-- Signing in stays within the changes of the application. -/
theorem signsIn_change (hc : c.Draws New) (hA : ∀ me, A me) : SignsIn c (Change New) A where
  create _ _ := writes_insertUser (hc 0) rfl
  activate userId := writes_setStatus userId .active
  identify := hA

/-! ## Accounts -/

/-- The profile is saved as an edit of the caller's account. -/
theorem writes_saveProfile (user : User) (changes : ProfileChanges) :
    (saveProfile c user changes).Writes (Change New) A := by
  unfold saveProfile
  dsimp only
  split
  · refine (TableDef.writes_update (R := userRules New) ?_ fun _ _ _ => .users).bind
      fun _ => writes_commit_refresh
    intro u u' h
    obtain ⟨hid, hprovider, hproviderId, hrole, -⟩ := ProfileChanges.set_eq_some h
    exact ⟨hid, hprovider, hproviderId, hrole⟩
  · exact writes_commit_refresh

/-- So is a checked change of it. -/
theorem writes_updateProfile (user : User) (changes : ProfileChanges) :
    (updateProfile c user changes).Writes (Change New) A := by
  unfold updateProfile
  split
  · exact writes_saveProfile user changes
  · split
    · trivial
    · refine Writes.bind ?_ fun _ => writes_saveProfile user changes
      refine writes_select.bind fun rows => (writes_scalarOneOrNone rows).bind fun found => ?_
      split <;> trivial

/-- Freezing edits the account. -/
theorem writes_freezeAccount (user : User) : (freezeAccount user).Writes (Change New) A := by
  unfold freezeAccount
  split
  · exact (writes_setStatus _ _).bind fun _ => writes_commit_refresh
  · trivial

/-- So does suspending. -/
theorem writes_suspendAccount (userId : Uuid) :
    (suspendAccount userId).Writes (Change New) A := by
  refine (writes_get userId).bind fun found => ?_
  cases found with
  | none => trivial
  | some user =>
    dsimp only
    split
    · exact (writes_setStatus _ _).bind fun _ => writes_commit_refresh
    · trivial

/-- Deleting an account is a change. -/
theorem writes_deleteUserRow (userId : Uuid) :
    (users.delete userId : Service Unit).Writes (Change New) A :=
  TableDef.writes_delete (R := userRules New) trivial fun _ _ _ => .users

/-- Deleting the caller's account deletes that row. -/
theorem writes_deleteAccount (userId : Uuid) : (deleteAccount userId).Writes (Change New) A :=
  (writes_deleteUserRow userId).bind fun _ => writes_commit

/-! ## Webhooks -/

/-- The upsert adds a new account, or changes what the provider owns of a stored one. -/
theorem change_of_upsertWrite {me : Identity} {db : Db} {r : User} {wr : Write Db Lock}
    (hadd : (userRules New).add r) (h : upsertWrite me db r = .ok wr) : Change New me db wr := by
  unfold upsertWrite at h
  split at h
  · exact .users (.insert hadd h)
  · dsimp only at h
    split at h
    · refine .users (.update ?_ h)
      rintro u _ ⟨⟩
      exact ⟨rfl, rfl, rfl, rfl⟩
    · cases h

/-- The webhook's look-up only reads. -/
theorem writes_lookupUser (authProviderId : String) :
    (lookupUser authProviderId).Writes (Change New) A := writes_select.bind fun _ => trivial

/-- The webhook's upsert adds a plain account or edits the one it meets. -/
theorem writes_upsertRow (hc : c.Draws New) (data : ClerkUserData) :
    (upsertRow (data.row c)).Writes (Change New) A :=
  ⟨fun _ _ _ => change_of_upsertWrite ⟨hc 0, rfl⟩, trivial, fun _ => trivial⟩

/-- So does the event as a whole. -/
theorem writes_upsertUser (hc : c.Draws New) (hA : ∀ me, A me) (data : ClerkUserData) :
    (upsertUser c data).Writes (Change New) A := by
  refine (writes_lookupUser data.id).bind fun existing => Writes.bind ?_ fun _ =>
    (writes_upsertRow hc data).bind fun _ => writes_commit
  cases existing with
  | none => trivial
  | some user => exact writes_setCurrentUserIdentity hA user.id

/-- A deletion event deletes the account that it names. -/
theorem writes_deleteUser (hA : ∀ me, A me) (authProviderId : String) :
    (deleteUser authProviderId).Writes (Change New) A := by
  refine (writes_lookupUser authProviderId).bind fun found => ?_
  cases found with
  | none => trivial
  | some target =>
    exact (writes_setCurrentUserIdentity hA target.id).bind fun _ =>
      (writes_deleteUserRow target.id).bind fun _ => writes_commit

/-- Verifying a signature sends no statement. -/
theorem readOnly_verifySignature (webhook : WebhookRequest) :
    (verifySignature webhook).ReadOnly := by
  unfold verifySignature
  split
  · trivial
  · split <;> trivial

/-- A webhook, whatever its event is, writes changes only. -/
theorem writes_handleClerkWebhook (hc : c.Draws New) (hA : ∀ me, A me) (webhook : WebhookRequest) :
    (handleClerkWebhook c webhook).Writes (Change New) A := by
  refine (readOnly_verifySignature webhook).writes.bind fun event => Writes.bind ?_ fun _ => trivial
  split_ifs
  · exact writes_upsertUser hc hA event.data
  · exact writes_deleteUser hA event.data.id
  · trivial

/-! ## Check-ins and venues -/

/-- The evaluation of a venue sets the flag of venues that are eligible. -/
theorem writes_evaluateVenueVerification (venueId : Uuid) :
    (evaluateVenueVerification venueId).Writes (Change New) A := by
  refine Writes.bind ⟨?_, trivial, fun _ => trivial⟩ fun _ => writes_select.bind fun _ => trivial
  rintro me db _ ⟨⟩
  exact .verify rfl

/-- A new check-in has a drawn id; the rest is the evaluation of its venue. -/
theorem writes_createCheckin (hc : c.Draws New) (args : CheckinCreate) :
    (createCheckin c args).Writes (Change New) A := by
  refine (writes_get _).bind fun venue => ?_
  dsimp only
  split
  · trivial
  · refine (readOnly_ensureVisitedAtNotFuture _ _ _).writes.bind fun _ => ?_
    refine (TableDef.writes_insert (R := checkinRules New) ⟨hc 0, rfl⟩
      fun _ _ _ => .checkins).bind fun _ => writes_commit.bind fun _ =>
        (writes_refresh _).bind fun _ => ?_
    split
    · exact (writes_evaluateVenueVerification _).bind fun _ => trivial
    · trivial

/-- An update edits the check-in and leaves its user and venue alone. -/
theorem writes_updateCheckin (checkinId : Uuid) (u : User) (updates : CheckinUpdates) :
    (updateCheckin c checkinId u updates).Writes (Change New) A := by
  have hedit (x : CheckinUpdates) :
      (checkins.update checkinId x.set x.set_id : Service Unit).Writes (Change New) A := by
    refine TableDef.writes_update (R := checkinRules New) ?_ fun _ _ _ => .checkins
    intro r r' h
    simp only [CheckinUpdates.set, Option.bind_eq_bind, Option.bind_eq_some_iff, Option.pure_def,
      Option.some.injEq] at h
    obtain ⟨_, _, _, _, _, _, _, _, _, _, _, _, rfl⟩ := h
    exact ⟨rfl, rfl, rfl, rfl, rfl, fun h => h⟩
  refine (writes_get _).bind fun found => ?_
  cases found with
  | none => trivial
  | some checkin =>
    dsimp only
    split
    · trivial
    · refine (readOnly_ensureVisibleAndOwned _ _ _ _ _ _ _).writes.bind fun _ => ?_
      cases updates.visitedAt with
      | none =>
        dsimp only
        split
        · exact (hedit _).bind fun _ => writes_commit_refresh
        · exact writes_commit_refresh
      | some visitedAt =>
        refine (readOnly_ensureVisitedAtNotFuture _ _ _).writes.bind fun _ => ?_
        split
        · exact (hedit _).bind fun _ => writes_commit_refresh
        · exact writes_commit_refresh

/-- A soft deletion sets `deleted_at`. -/
theorem writes_softDeleteCheckin (checkinId : Uuid) (u : User) :
    (softDeleteCheckin c checkinId u).Writes (Change New) A := by
  refine (writes_get _).bind fun found => ?_
  cases found with
  | none => trivial
  | some checkin =>
    dsimp only
    split
    · trivial
    · refine (readOnly_ensureVisibleAndOwned _ _ _ _ _ _ _).writes.bind fun _ => ?_
      refine (TableDef.writes_update (R := checkinRules New) ?_ fun _ _ _ => .checkins).bind
        fun _ => writes_commit
      rintro r _ ⟨⟩
      exact ⟨rfl, rfl, rfl, rfl, rfl, fun _ => rfl⟩

/-- A check-in is removed with its likes, bookmarks and notifications. -/
theorem writes_hardDeleteCheckin (checkinId : Uuid) :
    (hardDeleteCheckin checkinId).Writes (Change New) A := by
  refine (writes_get _).bind fun found => ?_
  cases found with
  | none => trivial
  | some checkin =>
    exact (TableDef.writes_delete (R := checkinRules New) trivial fun _ _ _ => .checkins).bind
      fun _ => writes_commit

/-- A new venue has a drawn id. -/
theorem writes_createVenue (hc : c.Draws New) (geo : Geography) (args : VenueCreate) :
    (createVenue c geo args).Writes (Change New) A := by
  refine (writes_get _).bind fun category => ?_
  split
  · trivial
  · refine Writes.bind ?_ fun existing => ?_
    · cases args.googlePlacesId with
      | none => trivial
      | some googlePlacesId => exact (readOnly_findVenueByGooglePlacesId _).writes
    · cases existing with
      | some existing => trivial
      | none =>
        refine Writes.bind ?_ fun nearby => ?_
        · split
          · trivial
          · exact writes_query _ _
        · cases nearby with
          | some nearby => trivial
          | none =>
            exact (TableDef.writes_insert (R := venueRules New) ⟨hc 0, rfl, rfl, rfl⟩
              fun _ _ _ => .venues).bind fun _ => writes_commit_refresh

/-- Saving a venue writes what the edit of it allows. -/
theorem writes_saveVenue {venueId : Uuid} {f : Venue → Venue} {hf : ∀ v, (f v).id = v.id}
    (hedit : ∀ v, Venue.Moderated v (f v)) :
    (saveVenue venueId f hf).Writes (Change New) A := by
  refine (TableDef.writes_update (R := venueRules New) ?_ fun _ _ _ => .venues).bind
    fun _ => writes_commit_refresh
  rintro v _ ⟨⟩
  exact hedit v

/-- An administrator's verification moderates a venue. -/
theorem writes_verifyVenueByAdmin (venueId : Uuid) :
    (verifyVenueByAdmin venueId).Writes (Change New) A := by
  refine (readOnly_getVenue _).writes.bind fun venue => ?_
  split
  · trivial
  · refine (writes_query _ _).bind fun count => ?_
    split
    · trivial
    · exact writes_saveVenue fun v => ⟨rfl, .inl rfl, fun _ => rfl, fun h => h, fun h => h⟩

/-- So does closing it. -/
theorem writes_closeVenue (venueId : Uuid) : (closeVenue venueId).Writes (Change New) A := by
  refine (readOnly_getVenue _).writes.bind fun venue => ?_
  split
  · exact writes_saveVenue fun v => ⟨rfl, .inl rfl, fun h => h, fun h => (by cases h), fun h => h⟩
  · trivial

/-- So does suspending it. -/
theorem writes_suspendVenue (venueId : Uuid) : (suspendVenue venueId).Writes (Change New) A := by
  refine (readOnly_getVenue _).writes.bind fun venue => ?_
  split
  · trivial
  · exact writes_saveVenue fun v => ⟨rfl, .inl rfl, fun h => h, fun h => h, fun _ => rfl⟩

/-! ## Lists and saves -/

/-- A new list has a drawn id. -/
theorem writes_createList (hc : c.Draws New) (userId : Uuid) (title : String)
    (description : Option String) (visibility : String) :
    (createList c userId title description visibility).Writes (Change New) A :=
  (TableDef.writes_insert (R := listRules New) (by exact hc 0) fun _ _ _ => .lists).bind
    fun _ => writes_commit_refresh

/-- An update edits the list and leaves its owner alone. -/
theorem writes_updateList (listId : Uuid) (u : User) (updates : ListUpdates) :
    (updateList listId u updates).Writes (Change New) A := by
  refine (writes_get _).bind fun found => ?_
  cases found with
  | none => trivial
  | some venueList =>
    refine (readOnly_ensureVisibleAndOwned _ _ _ _ _ _ _).writes.bind fun _ => ?_
    dsimp only
    split
    · refine (TableDef.writes_update (R := listRules New) ?_ fun _ _ _ => .lists).bind
        fun _ => writes_commit_refresh
      intro r r' h
      simp only [ListUpdates.set, Option.bind_eq_bind, Option.bind_eq_some_iff, Option.pure_def,
        Option.some.injEq] at h
      obtain ⟨_, _, _, _, rfl⟩ := h
      exact ⟨rfl, rfl, rfl⟩
    · exact writes_commit_refresh

/-- A list is removed with all that hangs on it. -/
theorem writes_deleteList (listId : Uuid) (u : User) :
    (deleteList listId u).Writes (Change New) A := by
  refine (writes_get _).bind fun found => ?_
  cases found with
  | none => trivial
  | some venueList =>
    exact (readOnly_ensureVisibleAndOwned _ _ _ _ _ _ _).writes.bind fun _ =>
      (TableDef.writes_delete (R := listRules New) trivial fun _ _ _ => .lists).bind
        fun _ => writes_commit

/-- The key generator sends no statement. -/
theorem readOnly_generateKeyBetween (a b : Option String) :
    (generateKeyBetween c a b).ReadOnly := by
  unfold generateKeyBetween
  split <;> trivial

/-- The last position is only read. -/
theorem readOnly_positionAtEnd (listId : Uuid) : (positionAtEnd c listId).ReadOnly :=
  (readOnly_query _ _).bind fun _ => readOnly_generateKeyBetween _ _

/-- So is the position after an item. -/
theorem readOnly_positionAfter (listId : Uuid) (loaded : Option ListItem)
    (afterItemId : Option Uuid) : (positionAfter c listId loaded afterItemId).ReadOnly := by
  refine (readOnly_query _ _).bind fun items => ?_
  cases afterItemId with
  | none => exact readOnly_generateKeyBetween _ _
  | some afterItemId =>
    dsimp only
    split
    · exact readOnly_generateKeyBetween _ _
    · trivial

/-- A new item has a drawn id. -/
theorem writes_addListItem (hc : c.Draws New) (listId : Uuid) (u : User) (venueId : Uuid)
    (afterItemId : Option Uuid) :
    (addListItem c listId u venueId afterItemId).Writes (Change New) A := by
  refine (writes_get _).bind fun found => ?_
  cases found with
  | none => trivial
  | some venueList =>
    refine (readOnly_ensureVisibleAndOwned _ _ _ _ _ _ _).writes.bind fun _ =>
      (writes_get _).bind fun venue => ?_
    split
    · trivial
    · refine writes_select.bind fun rows => (writes_scalarOneOrNone rows).bind fun existing => ?_
      split
      · trivial
      · have hadd (position : String) : (do
            listItems.insert ⟨c.uuid4 0, listId, venueId, position, c.now⟩
            commit
            refresh listItems (c.uuid4 0) : Service ListItem).Writes (Change New) A :=
          (TableDef.writes_insert (R := listItemRules New) (by exact hc 0)
            fun _ _ _ => .listItems).bind fun _ => writes_commit_refresh
        cases afterItemId with
        | none => exact (readOnly_positionAtEnd _).writes.bind hadd
        | some afterItemId => exact (readOnly_positionAfter _ _ _).writes.bind hadd

/-- A move edits the position of one item. -/
theorem writes_moveListItem (listId itemId : Uuid) (u : User) (afterItemId : Option Uuid) :
    (moveListItem c listId itemId u afterItemId).Writes (Change New) A := by
  refine (writes_get _).bind fun found => ?_
  cases found with
  | none => trivial
  | some venueList =>
    refine (readOnly_ensureVisibleAndOwned _ _ _ _ _ _ _).writes.bind fun _ =>
      (writes_get _).bind fun found => ?_
    cases found with
    | none => trivial
    | some item =>
      dsimp only
      split
      · trivial
      · refine (readOnly_positionAfter _ _ _).writes.bind fun position => ?_
        split
        · refine (TableDef.writes_update (R := listItemRules New) ?_ fun _ _ _ => .listItems).bind
            fun _ => writes_commit_refresh
          rintro r _ ⟨⟩
          exact ⟨rfl, rfl, rfl, rfl⟩
        · exact writes_commit_refresh

/-- An item is removed. -/
theorem writes_removeListItem (listId itemId : Uuid) (u : User) :
    (removeListItem listId itemId u).Writes (Change New) A := by
  refine (writes_get _).bind fun found => ?_
  cases found with
  | none => trivial
  | some venueList =>
    refine (readOnly_ensureVisibleAndOwned _ _ _ _ _ _ _).writes.bind fun _ =>
      (writes_get _).bind fun found => ?_
    cases found with
    | none => trivial
    | some item =>
      dsimp only
      split
      · trivial
      · exact (TableDef.writes_delete (R := listItemRules New) trivial
          fun _ _ _ => .listItems).bind fun _ => writes_commit

/-- A new save has a drawn id. -/
theorem writes_saveVenue_save (hc : c.Draws New) (userId venueId : Uuid) (type : VenueSaveType)
    (visibility : String) :
    (VenueSave.saveVenue c userId venueId type visibility).Writes (Change New) A := by
  refine (writes_get _).bind fun venue => ?_
  split
  · trivial
  · refine writes_select.bind fun rows => (writes_scalarOneOrNone rows).bind fun found => ?_
    cases found with
    | some save => trivial
    | none =>
      exact (TableDef.writes_insert (R := venueSaveRules New) (by exact hc 0)
        fun _ _ _ => .venueSaves).bind fun _ => writes_commit_refresh

/-- An update edits the visibility of a save. -/
theorem writes_updateVenueSave (venueSaveId : Uuid) (u : User) (visibility : Field String) :
    (updateVenueSave venueSaveId u visibility).Writes (Change New) A := by
  refine (writes_get _).bind fun found => ?_
  cases found with
  | none => trivial
  | some save =>
    refine (readOnly_ensureVisibleAndOwned _ _ _ _ _ _ _).writes.bind fun _ => ?_
    dsimp only
    split
    · refine (TableDef.writes_update (R := venueSaveRules New) ?_ fun _ _ _ => .venueSaves).bind
        fun _ => writes_commit_refresh
      intro r r' h
      obtain ⟨v, -, rfl⟩ := Option.map_eq_some_iff.mp h
      exact ⟨rfl, rfl, rfl, rfl, rfl⟩
    · exact writes_commit_refresh

/-- A save is removed. -/
theorem writes_deleteVenueSave (venueSaveId : Uuid) (u : User) :
    (deleteVenueSave venueSaveId u).Writes (Change New) A := by
  refine (writes_get _).bind fun found => ?_
  cases found with
  | none => trivial
  | some save =>
    exact (readOnly_ensureVisibleAndOwned _ _ _ _ _ _ _).writes.bind fun _ =>
      (TableDef.writes_delete (R := venueSaveRules New) trivial fun _ _ _ => .venueSaves).bind
        fun _ => writes_commit

end OburBackend
