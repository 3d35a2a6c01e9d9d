import OburBackend.Account.FirstRequests

/-!
# The names of a new user

A user is created by the webhook or by the first request, and the other path then finds the row and
leaves its names alone. The names are therefore those of the path that came first. The first request
knows no profile and seeds the fallback handle. The webhook seeds the names of its payload, so the
two agree only when the payload has no other name (`ClerkUserData.SeedsFallback`).
-/

namespace OburBackend

open Sql

/-- The username and the display name stored for a provider identity. -/
def Db.names (db : Db) (sub : String) : Option (String × String) :=
  (db.account sub).map fun u => (u.username, u.displayName)

/-- The parts of `default_display_name`: the names that are not blank. -/
def ClerkUserData.nameParts (data : ClerkUserData) : List String :=
  ([data.firstName, data.lastName].filterMap fun part => part.map stripName).filter (· ≠ "")

/-- The payload has no name but the fallback handle. -/
structure ClerkUserData.SeedsFallback (data : ClerkUserData) (c : Ctx) : Prop where
  username : ∀ username, data.username = some username →
    username = "" ∨ username = fallbackUsername c authProvider data.id
  name : data.nameParts ≠ [] →
    " ".intercalate data.nameParts = fallbackUsername c authProvider data.id

section Names

variable {db : Db} {data : ClerkUserData} {c : Ctx} {u : User} {sub : String}

/-- The display name of the webhook's row. -/
theorem displayName_row : (data.row c).displayName =
    if data.nameParts.isEmpty then data.handle c else " ".intercalate data.nameParts := rfl

/-- The handle is the fallback exactly when the payload has no other username. -/
theorem handle_eq_fallback_iff :
    data.handle c = fallbackUsername c authProvider data.id ↔
      ∀ username, data.username = some username →
        username = "" ∨ username = fallbackUsername c authProvider data.id := by
  unfold ClerkUserData.handle
  cases data.username with
  | none => simp
  | some username =>
    by_cases hempty : username = ""
    · simp [hempty]
    · simp [hempty]

/-- The row of the webhook has the names of the row of a first request exactly when the payload
seeds the fallback. -/
theorem names_row_iff {c' : Ctx} (huuid5 : c.uuid5 = c'.uuid5) :
    ((data.row c).username = (jitUser c' data.id).username ∧
      (data.row c).displayName = (jitUser c' data.id).displayName) ↔ data.SeedsFallback c := by
  have hfallback : fallbackUsername c' authProvider data.id =
      fallbackUsername c authProvider data.id := by
    simp only [fallbackUsername, huuid5]
  have husername : (data.row c).username = data.handle c := rfl
  have hjit : (jitUser c' data.id).username = fallbackUsername c authProvider data.id ∧
      (jitUser c' data.id).displayName = fallbackUsername c authProvider data.id :=
    ⟨hfallback, hfallback⟩
  rw [husername, displayName_row, hjit.1, hjit.2]
  constructor
  · rintro ⟨hhandle, hname⟩
    refine ⟨handle_eq_fallback_iff.mp hhandle, fun hparts => ?_⟩
    rwa [if_neg (by simpa using hparts)] at hname
  · intro h
    have hhandle := handle_eq_fallback_iff.mpr h.username
    refine ⟨hhandle, ?_⟩
    split
    · exact hhandle
    · next hparts => exact h.name (by simpa using hparts)

/-! ## The path that comes first creates the row -/

/-- The only row with an identity is its account. -/
theorem account_eq_some_of_only (hu : u ∈ db.users) (hid : u.hasIdentity sub = true)
    (honly : ∀ x ∈ db.users, x.hasIdentity sub = true → x = u) : db.account sub = some u := by
  cases haccount : db.account sub with
  | none =>
    rw [account_eq_none.mp haccount u hu] at hid
    cases hid
  | some x =>
    obtain ⟨hx, hxid⟩ := mem_of_account haccount
    rw [honly x hx hxid]

/-- The row is all that has the identity, once it is added to data without it. -/
structure Db.Seeded (db : Db) (sub : String) (u : User) : Prop where
  mem : u ∈ db.users
  identity : u.hasIdentity sub = true
  only : ∀ x ∈ db.users, x.hasIdentity sub = true → x = u

/-- A seeded account has the names of its row. -/
theorem Db.Seeded.names_eq (h : db.Seeded sub u) :
    db.names sub = some (u.username, u.displayName) := by
  rw [Db.names, account_eq_some_of_only h.mem h.identity h.only]
  rfl

/-- An insertion that succeeds has added the only row with the identity. -/
theorem seeded_insertWrite {me : Identity} {wr : Write Db Lock} (hnew : db.account sub = none)
    (hid : u.hasIdentity sub = true) (hw : users.insertWrite me db u = .ok wr) :
    (wr.effect db).Seeded sub u := by
  obtain ⟨-, -, hfree, -, rfl⟩ := users.insertWrite_eq_ok.mp hw
  have hmem : ∀ x, x ∈ db.users.insert u ↔ x ∈ db.users ∨ x = u := fun x => Table.mem_insert hfree
  refine ⟨(hmem u).mpr (.inr rfl), hid, fun x hx hxid => ?_⟩
  rcases (hmem x).mp hx with hx | rfl
  · rw [account_eq_none.mp hnew x hx] at hxid
    cases hxid
  · rfl

/-- The webhook of a new identity adds the row of its payload. -/
theorem seeded_handleClerkWebhook {request : WebhookRequest} {event : ClerkWebhookEvent}
    {ack : WebhookAckResponse} (hevent : request.event = some event)
    (htype : event.type = "user.created") (hnew : db.account event.data.id = none)
    (hok : (handleClerkWebhook c request).outcome none db = .ok ack) :
    ((handleClerkWebhook c request).after none db).Seeded event.data.id (event.data.row c) := by
  have hupsert : event.type ∈ userUpsertEvents := by
    rw [htype]
    decide
  simp only [Prog.outcome, Prog.after, handleClerkWebhook, verifySignature_of_event hevent,
    Prog.bind_eq, Prog.pure_eq, Prog.ret_bind, if_pos hupsert] at hok ⊢
  rw [Prog.run_bind, run_upsertUser] at hok ⊢
  cases hw : upsertWrite ((db.account event.data.id).map User.id) db (event.data.row c) with
  | ok wr =>
    have hinsert : upsertWrite ((db.account event.data.id).map User.id) db (event.data.row c) =
        users.insertWrite ((db.account event.data.id).map User.id) db (event.data.row c) :=
      upsertWrite_of_none hnew
    exact seeded_insertWrite hnew hasIdentity_row (hinsert ▸ hw)
  | error e =>
    rw [hw] at hok
    cases hok

/-- Without a row `_find_user` finds nothing. -/
theorem run_findUser_of_new {conn : Conn Db Identity} (hme : conn.vars = none)
    (hnew : conn.working.account sub = none) : (findUser sub).run conn = (.ok none, conn) := by
  have hrows : users.rows conn.vars conn.working (User.hasIdentity sub) = [] := by
    rw [hme, rows_users_none]
    exact List.head?_eq_none_iff.mp hnew
  simp only [findUser, Prog.bind_eq, select, run_query_bind]
  rw [show users.rows conn.vars conn.working (fun u => decide (u.authProvider = authProvider) &&
    decide (u.authProviderId = sub)) = [] from hrows]
  rfl

/-- The insertion of a first request alone. -/
theorem run_insertUserJit :
    (insertUserJit u).run (Conn.start none db) =
      match users.insertWrite none db u with
      | .ok wr => (.ok u, Conn.start none (wr.effect db))
      | .error e => (.error (.database e), Conn.start none db) := by
  simp only [insertUserJit, Prog.bind_eq, run_insert_bind, Conn.start_vars, Conn.start_working]
  cases hw : users.insertWrite none db u with
  | error e => rfl
  | ok wr =>
    obtain ⟨-, -, hfree, -, rfl⟩ := users.insertWrite_eq_ok.mp hw
    dsimp only
    rw [run_commit_bind]
    refine run_refresh (users.lookup_eq_some.mpr ⟨?_, rfl, usersPolicy_select_none _ u⟩)
    exact (Table.mem_insert hfree).mpr (.inr rfl)

/-- `_create_user_jit` alone: nobody else can have taken the row. -/
theorem run_createUserJit (hnew : db.account sub = none) :
    (createUserJit c sub).run (Conn.start none db) =
      match users.insertWrite none db (jitUser c sub) with
      | .ok wr => (.ok (jitUser c sub), Conn.start none (wr.effect db))
      | .error e => (.error (.database e), Conn.start none db) := by
  have hrun : (createUserJit c sub).run (Conn.start none db) = _ :=
    Prog.run_recover (insertUserJit (jitUser c sub)) _ _
  rw [hrun, run_insertUserJit]
  cases hw : users.insertWrite none db (jitUser c sub) with
  | ok wr => rfl
  | error e =>
    obtain rfl := insertWrite_none_error hw
    dsimp only
    rw [if_pos rfl, Prog.bind_eq, run_rollback_bind, Prog.bind_eq, Prog.run_bind,
      run_findUser_of_new rfl hnew]
    rfl

/-- The first request of a new identity adds the fallback row. -/
theorem seeded_getCurrentUser (hnew : db.account sub = none)
    (hok : (getCurrentUser c ⟨.ok sub⟩).outcome none db = .ok u) :
    ((getCurrentUser c ⟨.ok sub⟩).after none db).Seeded sub (jitUser c sub) := by
  have hid : (jitUser c sub).hasIdentity sub = true := hasIdentity_jitUser
  have hfind : (findUser sub).run (Conn.start none db) = (.ok none, Conn.start none db) :=
    run_findUser_of_new rfl hnew
  simp only [Prog.outcome, Prog.after, getCurrentUser, resolveUser, verifySession, Prog.pure_eq,
    Prog.bind_eq, Prog.ret_bind] at hok ⊢
  rw [Prog.run_bind, Prog.run_bind, hfind] at hok ⊢
  simp only [run_createUserJit hnew] at hok ⊢
  cases hw : users.insertWrite none db (jitUser c sub) with
  | error e =>
    rw [hw] at hok
    cases hok
  | ok wr => exact seeded_insertWrite hnew hid hw

/-! ## The path that comes second leaves the names alone -/

/-- A first request that finds the row changes nothing. -/
theorem Db.Seeded.after_getCurrentUser (h : db.Seeded sub u) :
    (getCurrentUser c ⟨.ok sub⟩).after none db = db := by
  obtain ⟨hprovider, rfl⟩ := hasIdentity_iff.mp h.identity
  rcases run_getCurrentUser c h.mem hprovider with ⟨-, hrun⟩ | ⟨e, hrun⟩
  · rw [Prog.after, hrun]
  · rw [Prog.after, hrun]
    rfl

/-- A webhook that finds the row leaves its names as they are. -/
theorem Db.Seeded.names_handleClerkWebhook {request : WebhookRequest} {event : ClerkWebhookEvent}
    (h : db.Seeded event.data.id u) (hevent : request.event = some event)
    (htype : event.type = "user.created") :
    ((handleClerkWebhook c request).after none db).names event.data.id =
      some (u.username, u.displayName) := by
  have hupsert : event.type ∈ userUpsertEvents := by
    rw [htype]
    decide
  have haccount := account_eq_some_of_only h.mem h.identity h.only
  simp only [Prog.after, handleClerkWebhook, verifySignature_of_event hevent,
    Prog.bind_eq, Prog.pure_eq, Prog.ret_bind, if_pos hupsert]
  rw [Prog.run_bind, run_upsertUser]
  cases hw : upsertWrite ((db.account event.data.id).map User.id) db (event.data.row c) with
  | error e => exact h.names_eq
  | ok wr =>
    obtain ⟨r, r', hr, -, -, -, -, -, rfl⟩ :=
      OburBackend.users.updateWrite_eq_ok (upsertWrite_of_some haccount hw)
    let u' : User := { u with email := event.data.primaryEmail, avatarUrl := event.data.imageUrl }
    have hmem : ∀ x, x ∈ (OburBackend.users.set u.id
        (User.sync event.data.primaryEmail event.data.imageUrl) (User.sync_id _ _) db).users ↔
          x = u' ∨ x ∈ db.users ∧ x.id ≠ u.id :=
      fun x => Table.mem_modify_key (TableDef.key_getD (User.sync_id _ _)) h.mem
    have hseeded : (OburBackend.users.set u.id
        (User.sync event.data.primaryEmail event.data.imageUrl) (User.sync_id _ _) db).Seeded
          event.data.id u' := by
      refine ⟨(hmem u').mpr (.inl rfl), h.identity, fun x hx hxid => ?_⟩
      rcases (hmem x).mp hx with rfl | ⟨hx, hne⟩
      · rfl
      · exact absurd (congrArg User.id (h.only x hx hxid)) hne
    exact hseeded.names_eq

end Names

/-- Both paths create the row of a new identity when they come first. Once both have run, the stored
names are the same in either order exactly when the payload has no name but the fallback handle. -/
theorem names_same_iff_seedsFallback (cw cj cw' cj' : Ctx) (request : WebhookRequest)
    (event : ClerkWebhookEvent) (db : Db) (ack : WebhookAckResponse) (user : User)
    (hevent : request.event = some event) (htype : event.type = "user.created")
    (huuid5 : cw.uuid5 = cj.uuid5) (hnew : db.account event.data.id = none)
    (hwebhook : (handleClerkWebhook cw request).outcome none db = .ok ack)
    (hrequest : (getCurrentUser cj ⟨.ok event.data.id⟩).outcome none db = .ok user) :
    let webhookFirst := (getCurrentUser cj' ⟨.ok event.data.id⟩).after none
      ((handleClerkWebhook cw request).after none db)
    let requestFirst := (handleClerkWebhook cw' request).after none
      ((getCurrentUser cj ⟨.ok event.data.id⟩).after none db)
    webhookFirst.names event.data.id = requestFirst.names event.data.id ↔
      event.data.SeedsFallback cw := by
  intro webhookFirst requestFirst
  have hrow := seeded_handleClerkWebhook hevent htype hnew hwebhook
  have hjit := seeded_getCurrentUser hnew hrequest
  have hfirst : webhookFirst.names event.data.id =
      some ((event.data.row cw).username, (event.data.row cw).displayName) := by
    rw [show webhookFirst = (handleClerkWebhook cw request).after none db from
      hrow.after_getCurrentUser]
    exact hrow.names_eq
  have hsecond : requestFirst.names event.data.id =
      some ((jitUser cj event.data.id).username, (jitUser cj event.data.id).displayName) :=
    hjit.names_handleClerkWebhook hevent htype
  rw [hfirst, hsecond, Option.some.injEq, Prod.mk.injEq]
  exact names_row_iff huuid5

/-! ### With and without a username -/

/-- A user that has signed up with an email address alone. -/
def namelessCreated : ClerkWebhookEvent :=
  ⟨"user.created", { id := "sub_2", username := some "", firstName := some " " }⟩

/-- Somebody whose event has no name. -/
theorem names_same_iff_seedsFallback_nameless :
    ((getCurrentUser (.fixed 2 9) ⟨.ok "sub_2"⟩).after none
        ((handleClerkWebhook (.fixed 1 8) (signed namelessCreated)).after none Db.empty)).names
          "sub_2" =
      ((handleClerkWebhook (.fixed 2 8) (signed namelessCreated)).after none
        ((getCurrentUser (.fixed 1 9) ⟨.ok "sub_2"⟩).after none Db.empty)).names "sub_2" ↔
      namelessCreated.data.SeedsFallback (.fixed 1 8) :=
  names_same_iff_seedsFallback (.fixed 1 8) (.fixed 1 9) (.fixed 2 8) (.fixed 2 9)
    (signed namelessCreated) namelessCreated Db.empty ⟨"ok"⟩ (jitUser (.fixed 1 9) "sub_2")
    rfl rfl rfl rfl rfl rfl

/-- Ada has chosen a username: her first request stores another one than the webhook. -/
theorem names_can_depend_on_order :
    ¬ ∀ (cw cj cw' cj' : Ctx) (request : WebhookRequest) (event : ClerkWebhookEvent) (db : Db)
      (ack : WebhookAckResponse) (user : User), request.event = some event →
      event.type = "user.created" → cw.uuid5 = cj.uuid5 → db.account event.data.id = none →
      (handleClerkWebhook cw request).outcome none db = .ok ack →
      (getCurrentUser cj ⟨.ok event.data.id⟩).outcome none db = .ok user →
      ((getCurrentUser cj' ⟨.ok event.data.id⟩).after none
          ((handleClerkWebhook cw request).after none db)).names event.data.id =
        ((handleClerkWebhook cw' request).after none
          ((getCurrentUser cj ⟨.ok event.data.id⟩).after none db)).names event.data.id := by
  intro h
  have hsame := h (.fixed 1 8) (.fixed 1 9) (.fixed 2 8) (.fixed 2 9) (signed adaCreated) adaCreated
    Db.empty ⟨"ok"⟩ (jitUser (.fixed 1 9) "sub_1") rfl rfl rfl rfl rfl rfl
  exact absurd hsame (by decide)

end OburBackend
