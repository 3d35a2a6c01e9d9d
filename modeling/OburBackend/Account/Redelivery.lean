import OburBackend.Account.SigningIn
import OburBackend.Service.Webhook

/-!
# Webhooks that arrive late or again

Clerk delivers an event at least once and in no particular order, and redelivers one whose
processing raises. The handlers keep no version of the user, no timestamp and no trace of a
deletion, so each delivery that succeeds writes what its own event says, and the stored profile is
that of the delivery that succeeds last (`Delivered.profile_eq`).
-/

namespace OburBackend

open Sql

/-! ## What is stored for a provider identity -/

/-- The constraints of the schema that the handlers rely on: `uq_user_auth_identity` for the given
identity, and that nobody blocks themselves. -/
structure Db.Constrained (db : Db) (sub : String) : Prop where
  unique : ∀ u ∈ db.users, ∀ u' ∈ db.users, u.hasIdentity sub = true → u'.hasIdentity sub = true →
    u = u'
  noSelfBlock : ∀ r ∈ db.blocks, r.blockerId ≠ r.blockedId

/-- The row with the identity, if there is one. -/
def Db.account (db : Db) (sub : String) : Option User :=
  (db.users.select (User.hasIdentity sub)).head?

/-- The provider's fields of the row, if there is one: its email and its avatar. -/
def Db.profile (db : Db) (sub : String) : Option (Option String × Option String) :=
  (db.account sub).map fun u => (u.email, u.avatarUrl)

section Account

variable {db : Db} {sub : String} {u : User}

/-- There is no account when no row has the identity. -/
theorem account_eq_none : db.account sub = none ↔ ∀ u ∈ db.users, u.hasIdentity sub = false := by
  simp only [Db.account, List.head?_eq_none_iff, List.eq_nil_iff_forall_not_mem, Table.mem_select,
    not_and, Bool.not_eq_true]

/-- The account is a stored row with the identity. -/
theorem mem_of_account (h : db.account sub = some u) : u ∈ db.users ∧ u.hasIdentity sub = true :=
  Table.mem_select.mp (List.mem_of_head? h)

/-- There is one row with the identity at most. -/
theorem Db.Constrained.account_eq_some (h : db.Constrained sub) (hu : u ∈ db.users)
    (hid : u.hasIdentity sub = true) : db.account sub = some u := by
  cases haccount : db.account sub with
  | none =>
    rw [account_eq_none.mp haccount u hu] at hid
    cases hid
  | some u' =>
    obtain ⟨hu', hid'⟩ := mem_of_account haccount
    rw [h.unique u' hu' u hu hid' hid]

/-- One row has the identity, and no other. -/
theorem Db.Constrained.of_only {s : Db} (hdb : db.Constrained sub)
    (hu : u ∈ s.users) (hid : u.hasIdentity sub = true)
    (honly : ∀ x ∈ s.users, x.hasIdentity sub = true → x = u)
    (hblocks : ∀ r ∈ s.blocks, r ∈ db.blocks) :
    s.Constrained sub ∧ s.profile sub = some (u.email, u.avatarUrl) := by
  have hs : s.Constrained sub := by
    refine ⟨fun x hx x' hx' hxid hxid' => ?_, fun r hr => hdb.noSelfBlock r (hblocks r hr)⟩
    rw [honly x hx hxid, honly x' hx' hxid']
  refine ⟨hs, ?_⟩
  rw [Db.profile, hs.account_eq_some hu hid]
  rfl

/-- A connection without an identity sees every user. -/
theorem rows_users_none (db : Db) (p : User → Bool) : users.rows none db p = db.users.select p := by
  have hvisible : ∀ u, users.visible none db u = true := fun u =>
    users.visible_eq_true.mpr (usersPolicy_select_none db u)
  simp only [TableDef.rows, hvisible, Bool.and_true, users_read]

end Account

/-! ## The handlers alone -/

section Handlers

variable {db : Db} {sub : String}

/-- The rule for the upsert, for a request alone. -/
theorem run_upsertRow_bind {α : Type} {r : User} {f : Unit → Service α} {conn : Conn Db Identity} :
    ((upsertRow r).bind f).run conn =
      match upsertWrite conn.vars conn.working r with
      | .ok wr => (f ()).run { conn with working := wr.effect conn.working }
      | .error e => (.error (.database e), conn.discard) := by
  cases hw : upsertWrite conn.vars conn.working r <;>
    simp only [upsertRow, Prog.bind, Prog.run, hw]

/-- `_upsert_user` runs its statement under the identity of the row it has found. -/
theorem run_upsertUser (c : Ctx) (data : ClerkUserData) (db : Db) :
    let me := (db.account data.id).map User.id
    (upsertUser c data).run (Conn.start none db) =
      match upsertWrite me db (data.row c) with
      | .ok wr => (.ok (), Conn.start me (wr.effect db))
      | .error e => (.error (.database e), Conn.start me db) := by
  simp only [upsertUser, lookupUser, select, Prog.bind_eq, Prog.bind_assoc, run_query_bind,
    Conn.start_vars, Conn.start_working, rows_users_none, Prog.pure_eq, Prog.ret_bind]
  rw [show (db.users.select (User.hasIdentity data.id)).head? = db.account data.id from rfl]
  cases db.account data.id with
  | none =>
    simp only [Option.map_none, Prog.ret_bind, run_upsertRow_bind, Conn.start_vars,
      Conn.start_working]
    cases upsertWrite none db (data.row c) <;> rfl
  | some u =>
    simp only [Option.map_some, setCurrentUserIdentity, run_assign_bind, run_upsertRow_bind,
      Conn.start_working]
    cases upsertWrite (some u.id) db (data.row c) <;> rfl

/-- `_delete_user` deletes the row it has found, under the identity of that row. -/
theorem run_deleteUser (sub : String) (db : Db) :
    (deleteUser sub).run (Conn.start none db) =
      match db.account sub with
      | none => (.ok (), Conn.start none db)
      | some u =>
        match users.deleteWrite (some u.id) db fun r => decide (r.id = u.id) with
        | .ok wr => (.ok (), Conn.start (some u.id) (wr.effect db))
        | .error e => (.error (.database e), Conn.start (some u.id) db) := by
  simp only [deleteUser, lookupUser, select, Prog.bind_eq, Prog.bind_assoc, run_query_bind,
    Conn.start_vars, Conn.start_working, rows_users_none, Prog.pure_eq, Prog.ret_bind]
  rw [show (db.users.select (User.hasIdentity sub)).head? = db.account sub from rfl]
  cases db.account sub with
  | none => rfl
  | some u =>
    simp only [setCurrentUserIdentity, run_assign_bind, run_delete_bind, Conn.start_working]
    cases users.deleteWrite (some u.id) db fun r => decide (r.id = u.id) <;> rfl

/-- Without a row an upsert is an insertion. -/
theorem upsertWrite_of_none {me : Identity} {r : User}
    (h : db.account r.authProviderId = none) : upsertWrite me db r = users.insertWrite me db r := by
  simp only [upsertWrite, Db.account] at h ⊢
  simp only [h]

/-- An upsert that changes a stored row. -/
theorem upsertWrite_of_some {me : Identity} {r u : User} {wr : Write Db Lock}
    (h : db.account r.authProviderId = some u) (hw : upsertWrite me db r = .ok wr) :
    users.updateWrite me db u.id (User.sync r.email r.avatarUrl)
      (User.sync_id r.email r.avatarUrl) = .ok wr := by
  simp only [upsertWrite, Db.account] at h hw
  simp only [h] at hw
  split at hw
  · exact hw
  · cases hw

/-- An upsert that succeeds leaves one row with the identity, and the email and the avatar of the
event in it. -/
theorem upsertWrite_profile {me : Identity} {c : Ctx} {data : ClerkUserData} {wr : Write Db Lock}
    (hdb : db.Constrained data.id) (hw : upsertWrite me db (data.row c) = .ok wr) :
    (wr.effect db).Constrained data.id ∧
      (wr.effect db).profile data.id = some (data.primaryEmail, data.imageUrl) := by
  have hrow : (data.row c).hasIdentity data.id = true := by
    simp [User.hasIdentity, ClerkUserData.row, User.create]
  cases haccount : db.account data.id with
  | none =>
    rw [upsertWrite_of_none haccount] at hw
    obtain ⟨-, -, hfree, -, rfl⟩ := users.insertWrite_eq_ok.mp hw
    have hmem : ∀ x, x ∈ db.users.insert (data.row c) ↔ x ∈ db.users ∨ x = data.row c :=
      fun x => Table.mem_insert hfree
    refine hdb.of_only ((hmem (data.row c)).mpr (.inr rfl)) hrow ?_ fun _ hr => hr
    intro x hx hid
    rcases (hmem x).mp hx with hx | rfl
    · rw [account_eq_none.mp haccount x hx] at hid
      cases hid
    · rfl
  | some u =>
    obtain ⟨hu, huid⟩ := mem_of_account haccount
    obtain ⟨r, r', hr, -, -, -, -, -, rfl⟩ :=
      users.updateWrite_eq_ok (upsertWrite_of_some haccount hw)
    let u' : User := { u with email := data.primaryEmail, avatarUrl := data.imageUrl }
    have hmem : ∀ x, x ∈ (users.set u.id (User.sync data.primaryEmail data.imageUrl)
        (User.sync_id _ _) db).users ↔ x = u' ∨ x ∈ db.users ∧ x.id ≠ u.id :=
      fun x => Table.mem_modify_key (TableDef.key_getD (User.sync_id _ _)) hu
    refine hdb.of_only ((hmem u').mpr (.inl rfl)) huid ?_ fun _ hr => hr
    intro x hx hid
    rcases (hmem x).mp hx with rfl | ⟨hx, hne⟩
    · rfl
    · exact absurd (congrArg User.id (hdb.unique x hx u hu hid huid)) hne

/-- A deletion leaves no row with the identity. -/
theorem deleteWrite_profile {u : User} {wr : Write Db Lock} (hdb : db.Constrained sub)
    (haccount : db.account sub = some u)
    (hw : users.deleteWrite (some u.id) db (fun r => decide (r.id = u.id)) = .ok wr) :
    (wr.effect db).Constrained sub ∧ (wr.effect db).profile sub = none := by
  obtain ⟨hu, huid⟩ := mem_of_account haccount
  obtain ⟨-, rfl⟩ := users.deleteWrite_eq_ok.mp hw
  have hself : u ∈ users.deletable (some u.id) db fun r => decide (r.id = u.id) := by
    refine users.mem_deletable.mpr ⟨hu, by simp, ?_, by simp [usersPolicy]⟩
    refine holds_usersPolicy_select.mpr (.inr fun v hv => ?_)
    obtain rfl : u.id = v := Option.some.inj hv
    rintro ⟨r, hr, ⟨h1, h2⟩ | ⟨h1, h2⟩⟩
    all_goals exact hdb.noSelfBlock r hr (h1.trans h2.symm)
  have hgone : ∀ x ∈ (eraseUsers (fun r => decide (r.id ∈
      (users.deletable (some u.id) db fun r => decide (r.id = u.id)).map User.id)) db).users,
      x ∈ db.users ∧ x.hasIdentity sub = false := by
    intro x hx
    obtain ⟨hx, hkept⟩ := Table.mem_erase.mp hx
    refine ⟨hx, ?_⟩
    cases hid : x.hasIdentity sub with
    | false => rfl
    | true =>
      obtain rfl := hdb.unique x hx u hu hid huid
      exact absurd (List.mem_map_of_mem hself) (of_decide_eq_false hkept)
  refine ⟨⟨fun x hx x' hx' => ?_, fun r hr => ?_⟩, ?_⟩
  · exact hdb.unique x (hgone x hx).1 x' (hgone x' hx').1
  · exact hdb.noSelfBlock r (Table.mem_erase.mp hr).1
  · exact congrArg (Option.map _) (account_eq_none.mpr fun x hx => (hgone x hx).2)

end Handlers

/-! ## Deliveries -/

/-- The event of a request that passes the check of its signature and has the schema of one. -/
def WebhookRequest.event (request : WebhookRequest) : Option ClerkWebhookEvent :=
  if request.clerkWebhookSecret = "" then none
  else match request.verified with
    | .ok (some event) => event
    | _ => none

/-- The webhook of a request whose event is `event`. -/
theorem verifySignature_of_event {request : WebhookRequest} {event : ClerkWebhookEvent}
    (h : request.event = some event) : verifySignature request = pure event := by
  unfold WebhookRequest.event at h
  unfold verifySignature
  split at h
  · cases h
  · next hsecret =>
    rw [if_neg hsecret]
    split at h
    · next event' hverified =>
      subst h
      rw [hverified]
    · cases h

/-- A payload without an event is refused. -/
theorem verifySignature_of_no_event {request : WebhookRequest} (h : request.event = none) :
    ∃ e, verifySignature request = .raise e := by
  unfold WebhookRequest.event at h
  unfold verifySignature
  split at h
  · next hsecret =>
    rw [if_pos hsecret]
    exact ⟨_, rfl⟩
  · next hsecret =>
    rw [if_neg hsecret]
    rcases hverified : request.verified with message | _ | _ | event
    · exact ⟨_, rfl⟩
    · exact ⟨_, rfl⟩
    · exact ⟨_, rfl⟩
    · rw [hverified] at h
      cases h

/-- An event about the user with the identity `sub`, of a type that is acted on. -/
def ClerkWebhookEvent.About (sub : String) (event : ClerkWebhookEvent) : Prop :=
  event.data.id = sub ∧ (event.type ∈ userUpsertEvents ∨ event.type = "user.deleted")

/-- What an event says of the user's profile. -/
def ClerkWebhookEvent.profile (event : ClerkWebhookEvent) :
    Option (Option String × Option String) :=
  if event.type = "user.deleted" then none
  else some (event.data.primaryEmail, event.data.imageUrl)

/-- A delivery that succeeds leaves the profile that its event says. -/
theorem profile_handleClerkWebhook {c : Ctx} {request : WebhookRequest} {event : ClerkWebhookEvent}
    {sub : String} {db : Db} {ack : WebhookAckResponse} (hdb : db.Constrained sub)
    (hevent : request.event = some event) (habout : event.About sub)
    (hok : (handleClerkWebhook c request).outcome none db = .ok ack) :
    ((handleClerkWebhook c request).after none db).Constrained sub ∧
      ((handleClerkWebhook c request).after none db).profile sub = event.profile := by
  obtain ⟨rfl, htype⟩ := habout
  simp only [Prog.outcome, Prog.after, handleClerkWebhook, verifySignature_of_event hevent,
    Prog.bind_eq, Prog.pure_eq, Prog.ret_bind] at hok ⊢
  rw [Prog.run_bind] at hok ⊢
  by_cases hupsert : event.type ∈ userUpsertEvents
  · have hne : event.type ≠ "user.deleted" := by
      rintro h
      rw [h] at hupsert
      exact absurd hupsert (by decide)
    rw [if_pos hupsert, run_upsertUser] at hok ⊢
    rw [ClerkWebhookEvent.profile, if_neg hne]
    cases hw : upsertWrite ((db.account event.data.id).map User.id) db (event.data.row c) with
    | ok wr => exact upsertWrite_profile hdb hw
    | error e =>
      rw [hw] at hok
      cases hok
  · have hdeleted : event.type = "user.deleted" := htype.resolve_left hupsert
    rw [if_neg hupsert, if_pos hdeleted, run_deleteUser] at hok ⊢
    rw [ClerkWebhookEvent.profile, if_pos hdeleted]
    cases haccount : db.account event.data.id with
    | none => exact ⟨hdb, congrArg (Option.map _) haccount⟩
    | some u =>
      rw [haccount] at hok
      dsimp only at hok ⊢
      cases hw : users.deleteWrite (some u.id) db fun r => decide (r.id = u.id) with
      | ok wr => exact deleteWrite_profile hdb haccount hw
      | error e =>
        rw [hw] at hok
        cases hok

/-- A delivery that raises changes nothing. -/
theorem after_handleClerkWebhook_of_error {c : Ctx} {request : WebhookRequest} {db : Db}
    {e : PyError} (h : (handleClerkWebhook c request).outcome none db = .error e) :
    (handleClerkWebhook c request).after none db = db := by
  simp only [Prog.outcome, Prog.after, handleClerkWebhook, Prog.bind_eq] at h ⊢
  cases hevent : request.event with
  | none =>
    obtain ⟨e', he'⟩ := verifySignature_of_no_event hevent
    simp only [he', Prog.raise_bind]
    rfl
  | some event =>
    simp only [verifySignature_of_event hevent, Prog.pure_eq, Prog.ret_bind] at h ⊢
    rw [Prog.run_bind] at h ⊢
    split at h
    · cases h
    · next conn herror =>
      dsimp only
      split_ifs at herror
      · rw [run_upsertUser] at herror
        cases hw : upsertWrite ((db.account event.data.id).map User.id) db (event.data.row c) with
        | ok wr =>
          rw [hw] at herror
          cases herror
        | error e =>
          rw [hw] at herror
          cases herror
          rfl
      · rw [run_deleteUser] at herror
        cases haccount : db.account event.data.id with
        | none =>
          rw [haccount] at herror
          cases herror
        | some u =>
          rw [haccount] at herror
          dsimp only at herror
          cases hw : users.deleteWrite (some u.id) db fun r => decide (r.id = u.id) with
          | ok wr =>
            rw [hw] at herror
            cases herror
          | error e =>
            rw [hw] at herror
            cases herror
            rfl
      · cases herror

/-- From `db`, deliveries one after the other lead to `db'`. The events are those of the deliveries
that succeed, in their order; in between there may be any number that raise. -/
inductive Delivered : Db → List ClerkWebhookEvent → Db → Prop where
  | done (db : Db) : Delivered db [] db
  | raised {db db' : Db} {events : List ClerkWebhookEvent} (c : Ctx) (request : WebhookRequest)
      (e : PyError) : (handleClerkWebhook c request).outcome none db = .error e →
      Delivered ((handleClerkWebhook c request).after none db) events db' → Delivered db events db'
  | processed {db db' : Db} {events : List ClerkWebhookEvent} (c : Ctx) (request : WebhookRequest)
      (event : ClerkWebhookEvent) (ack : WebhookAckResponse) : request.event = some event →
      (handleClerkWebhook c request).outcome none db = .ok ack →
      Delivered ((handleClerkWebhook c request).after none db) events db' →
      Delivered db (event :: events) db'

/-- The delivery that succeeds last decides. -/
theorem Delivered.profile_eq {db db' : Db} {events : List ClerkWebhookEvent} {sub : String}
    (h : Delivered db events db') (hdb : db.Constrained sub)
    (habout : ∀ event ∈ events, event.About sub) :
    db'.profile sub = ((events.getLast?).map ClerkWebhookEvent.profile).getD (db.profile sub) := by
  induction h with
  | done db => rfl
  | raised c request e hraised _ ih =>
    rw [after_handleClerkWebhook_of_error hraised] at ih
    exact ih hdb habout
  | @processed db db' rest c request event ack hevent hok _ ih =>
    obtain ⟨hnext, hprofile⟩ :=
      profile_handleClerkWebhook hdb hevent (habout event List.mem_cons_self) hok
    rw [ih hnext fun e he => habout e (List.mem_cons_of_mem _ he), hprofile, List.getLast?_cons]
    cases rest.getLast? with
    | none | some last => rfl

/-! ## The history of a user -/

/-- The events of one user: created, updated any number of times, and deleted in the end or not. -/
structure IsHistory (sub : String) (history : List ClerkWebhookEvent) : Prop where
  sub : ∀ event ∈ history, event.data.id = sub
  types : ∃ created updates deleted, history = created :: (updates ++ deleted) ∧
    created.type = "user.created" ∧ (∀ event ∈ updates, event.type = "user.updated") ∧
    (deleted = [] ∨ ∃ event, deleted = [event] ∧ event.type = "user.deleted")

/-- The events of a history are about its subject. -/
theorem IsHistory.about {sub : String} {history : List ClerkWebhookEvent}
    (h : IsHistory sub history) : ∀ event ∈ history, event.About sub := by
  intro event hevent
  refine ⟨h.sub event hevent, ?_⟩
  obtain ⟨created, updates, deleted, rfl, hcreated, hupdates, hdeleted⟩ := h.types
  rcases List.mem_cons.mp hevent with rfl | hevent
  · exact .inl (by simp [userUpsertEvents, hcreated])
  · rcases List.mem_append.mp hevent with hevent | hevent
    · exact .inl (by simp [userUpsertEvents, hupdates event hevent])
    · rcases hdeleted with rfl | ⟨d, rfl, hd⟩
      · cases hevent
      · rw [List.mem_singleton.mp hevent]
        exact .inr hd

/-- Deliver the events of a history each at least once, in any order. The profile ends up as after
the history in its order exactly when the delivery that succeeds last is of an event that says the
same of it as the last event of the history. -/
theorem profile_eq_iff_last_says_same (sub : String) (history events : List ClerkWebhookEvent)
    (db inOrder delivered : Db) (hdb : db.Constrained sub) (hhistory : IsHistory sub history)
    (hevents : ∀ event, event ∈ events ↔ event ∈ history) (hinOrder : Delivered db history inOrder)
    (hdelivered : Delivered db events delivered) :
    delivered.profile sub = inOrder.profile sub ↔
      events.getLast?.map ClerkWebhookEvent.profile =
        history.getLast?.map ClerkWebhookEvent.profile := by
  have habout := hhistory.about
  rw [hdelivered.profile_eq hdb fun e he => habout e ((hevents e).mp he),
    hinOrder.profile_eq hdb habout]
  obtain ⟨created, updates, deleted, rfl, -⟩ := hhistory.types
  have hcreated : created ∈ events := (hevents created).mpr List.mem_cons_self
  rw [List.getLast?_cons]
  cases hlast : events.getLast? with
  | none =>
    rw [List.getLast?_eq_none_iff.mp hlast] at hcreated
    cases hcreated
  | some last => simp only [Option.map_some, Option.getD_some, Option.some.injEq]

/-! ### An update after the deletion -/

def adaCreated : ClerkWebhookEvent :=
  ⟨"user.created", { id := "sub_1", username := some "ada", imageUrl := some "old.png" }⟩

def adaUpdated : ClerkWebhookEvent :=
  ⟨"user.updated", { id := "sub_1", username := some "ada", imageUrl := some "new.png" }⟩

def adaDeleted : ClerkWebhookEvent := ⟨"user.deleted", { id := "sub_1" }⟩

/-- The request that carries an event, with a signature that is accepted. -/
def signed (event : ClerkWebhookEvent) : WebhookRequest := ⟨"whsec", .ok (some (some event))⟩

/-- The data after the events, each delivered once. -/
def afterEvents : Db → List ClerkWebhookEvent → Db :=
  List.foldl fun db event => (handleClerkWebhook (.fixed 1 9) (signed event)).after none db

/-- Ada's account is created, updated and deleted. -/
theorem isHistory_ada : IsHistory "sub_1" [adaCreated, adaUpdated, adaDeleted] where
  sub := by decide
  types := ⟨adaCreated, [adaUpdated], [adaDeleted], rfl, rfl, by decide, .inr ⟨_, rfl, rfl⟩⟩

/-- The empty database keeps the constraints on an identity. -/
theorem constrained_empty (sub : String) : Db.empty.Constrained sub where
  unique _ h := absurd h (Table.not_mem_empty _)
  noSelfBlock _ h := absurd h (Table.not_mem_empty _)

/-- The three events are delivered in their order. -/
theorem delivered_inOrder : Delivered Db.empty [adaCreated, adaUpdated, adaDeleted]
    (afterEvents Db.empty [adaCreated, adaUpdated, adaDeleted]) :=
  .processed (.fixed 1 9) (signed adaCreated) _ ⟨"ok"⟩ rfl rfl <|
    .processed (.fixed 1 9) (signed adaUpdated) _ ⟨"ok"⟩ rfl rfl <|
      .processed (.fixed 1 9) (signed adaDeleted) _ ⟨"ok"⟩ rfl rfl <| .done _

/-- They are delivered with the update last. -/
theorem delivered_late : Delivered Db.empty [adaCreated, adaDeleted, adaUpdated]
    (afterEvents Db.empty [adaCreated, adaDeleted, adaUpdated]) :=
  .processed (.fixed 1 9) (signed adaCreated) _ ⟨"ok"⟩ rfl rfl <|
    .processed (.fixed 1 9) (signed adaDeleted) _ ⟨"ok"⟩ rfl rfl <|
      .processed (.fixed 1 9) (signed adaUpdated) _ ⟨"ok"⟩ rfl rfl <| .done _

/-- Both are deliveries of the same events. -/
theorem mem_late_iff (event : ClerkWebhookEvent) :
    event ∈ [adaCreated, adaDeleted, adaUpdated] ↔
      event ∈ [adaCreated, adaUpdated, adaDeleted] := by
  simp only [List.mem_cons, List.not_mem_nil, or_false]
  tauto

/-- The profiles differ as the last events do. -/
theorem profile_eq_iff_last_says_same_late :
    (afterEvents Db.empty [adaCreated, adaDeleted, adaUpdated]).profile "sub_1" =
        (afterEvents Db.empty [adaCreated, adaUpdated, adaDeleted]).profile "sub_1" ↔
      [adaCreated, adaDeleted, adaUpdated].getLast?.map ClerkWebhookEvent.profile =
        [adaCreated, adaUpdated, adaDeleted].getLast?.map ClerkWebhookEvent.profile :=
  profile_eq_iff_last_says_same "sub_1" _ _ _ _ _ (constrained_empty _) isHistory_ada mem_late_iff
    delivered_inOrder delivered_late

/-- The late update of a deleted account creates it again. -/
theorem late_update_can_recreate :
    ¬ ∀ (sub : String) (history events : List ClerkWebhookEvent) (db inOrder delivered : Db),
      db.Constrained sub → IsHistory sub history → (∀ event, event ∈ events ↔ event ∈ history) →
      Delivered db history inOrder → Delivered db events delivered →
        delivered.profile sub = inOrder.profile sub := by
  intro h
  have hsame := h "sub_1" _ _ _ _ _ (constrained_empty _) isHistory_ada mem_late_iff
    delivered_inOrder delivered_late
  exact absurd hsame (by decide)

end OburBackend
