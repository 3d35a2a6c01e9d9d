import OburBackend.Service.Account

/-!
# Suspending an account while its owner uses it

A suspension is meant to be beyond the reach of the suspended user. Each operation on the status of
an account checks the row that its request has loaded, and later writes the new status whatever the
row has become: `freeze_account` and `reactivate_account` can undo a suspension that is committed
between their load and their write. That is the only way: in a run in which no such request commits
after somebody has suspended its account behind its back, suspended accounts stay suspended.
-/

namespace OburBackend

open Sql

/-- A request that may change the status of an account. -/
inductive AccountRequest where
  /-- The endpoint that freezes the account of its caller. -/
  | freeze (c : Ctx) (request : Request)
  /-- `reactivate_account` for the user of the request. -/
  | reactivate (c : Ctx) (request : Request)
  /-- Signing in, which reactivates a frozen account. -/
  | signIn (c : Ctx) (request : Request)
  /-- An administrator suspends the account. -/
  | suspend (userId : Uuid)

namespace AccountRequest

def prog : AccountRequest → Service User
  | .freeze c request => do
    let user ← getCurrentUser c request
    freezeAccount user
  | .reactivate c request => do
    let user ← resolveUser c request
    reactivateAccount user
  | .signIn c request => getCurrentUser c request
  | .suspend userId => suspendAccount userId

/-- The user whom the request suspends. -/
def suspends : AccountRequest → Option Uuid
  | .suspend userId => some userId
  | .freeze .. | .reactivate .. | .signIn .. => none

end AccountRequest

/-- The account is suspended. -/
def Db.Suspended (db : Db) (id : Uuid) : Prop := ∃ u ∈ db.users, u.id = id ∧ u.status = .suspended

instance (db : Db) (id : Uuid) : Decidable (db.Suspended id) :=
  inferInstanceAs (Decidable (∃ u ∈ db.users.rows, u.id = id ∧ u.status = .suspended))

/-- The statement is a `SELECT`. -/
def Stmt.isRead (st : Stmt) : Bool := decide (st.verb = .select)

/-- What a commit of the request owes, when it has last read `r`: it suspends nobody but the user
whom it is to suspend, and it takes the suspension only from a user who was not suspended when it
read and whose row it has locked. -/
structure AccountPromise (req : AccountRequest) (r : Db) (L : Local Db Lock Identity Stmt)
    (s s' : Db) : Prop where
  new : ∀ id, s'.Suspended id → s.Suspended id ∨ id ∈ req.suspends
  kept : ∀ id, s.Suspended id → s'.Suspended id ∨
    req.suspends = none ∧ ¬ r.Suspended id ∧ rowLock .users id ∈ L.locks

/-! ## Loading the user -/

/-- A program that loads a user ends with a row that it has read, and with nothing written. -/
def LoadsUser : Except PyError User → Local Db Lock Identity Stmt → Db → Prop
  | .ok user, L, r => user ∈ r.users ∧ L.pending = []
  | .error _, _, _ => True

/-- The same for a program that may find no user. -/
def MayLoadUser : Except PyError (Option User) → Local Db Lock Identity Stmt → Db → Prop
  | .ok found, L, r => (∀ user ∈ found, user ∈ r.users) ∧ L.pending = []
  | .error _, _, _ => True

/-- A row that is read as active or frozen belongs to a user who is not suspended. -/
theorem not_suspended_of_mem {db : Db} {user : User} (hmem : user ∈ db.users)
    (hstatus : user.status ≠ .suspended) : ¬ db.Suspended user.id := by
  rintro ⟨u, hu, hid, hsuspended⟩
  rw [Table.eq_of_key_eq hmem hu hid.symm] at hstatus
  exact hstatus hsuspended

section Load

variable {promise : Db → Local Db Lock Identity Stmt → Db → Db → Prop}
  {L : Local Db Lock Identity Stmt} {r : Db}

/-- A look-up may load the account. -/
theorem readWp_findUser (hpending : L.pending = []) (authProviderId : String) :
    ReadWp Stmt.isRead promise MayLoadUser (findUser authProviderId) L r := by
  simp only [findUser, Prog.bind_eq, select, readWp_query_bind]
  refine ⟨rfl, fun s => ?_⟩
  have hrows : ∀ u ∈ users.rows L.vars (L.view s) (fun u =>
      decide (u.authProvider = authProvider) && decide (u.authProviderId = authProviderId)),
      u ∈ s.users := by
    intro u hu
    rw [Local.view_eq_self hpending] at hu
    exact (users.mem_rows.mp hu).1
  generalize users.rows L.vars (L.view s) _ = rows at hrows
  rcases rows with _ | ⟨u, _ | ⟨u', rows⟩⟩
  · exact ⟨fun u hu => absurd hu (Option.not_mem_none u), hpending⟩
  · refine ⟨?_, hpending⟩
    rintro _ ⟨⟩
    exact hrows u (List.mem_singleton.mpr rfl)
  · trivial

/-- Reading back loads it as it is. -/
theorem readWp_refresh (hpending : L.pending = []) (id : Uuid) :
    ReadWp Stmt.isRead promise LoadsUser (refresh users id) L r := by
  simp only [refresh, Prog.bind_eq, readWp_get_bind]
  refine ⟨rfl, fun s => ?_⟩
  cases hfound : users.lookup L.vars (L.view s) id with
  | none => trivial
  | some user =>
    rw [Local.view_eq_self hpending] at hfound
    exact ⟨(users.lookup_eq_some.mp hfound).1, hpending⟩

end Load

/-! ## The requests -/

section Requests

variable {req : AccountRequest} {L : Local Db Lock Identity Stmt} {r : Db}

/-- Adding an account that is not suspended suspends nobody. -/
theorem readWp_insertUserJit {user : User} (hpending : L.pending = [])
    (hstatus : user.status ≠ .suspended) :
    ReadWp Stmt.isRead (AccountPromise req) LoadsUser (insertUserJit user) L r := by
  simp only [insertUserJit, Prog.bind_eq, readWp_insert_bind, readWp_commit_bind]
  refine ⟨rfl, fun s => ⟨fun wr hw => ⟨fun s' => ?_, readWp_refresh (Local.ended_pending _) _⟩,
    fun e _ => trivial⟩⟩
  obtain ⟨-, -, -, -, rfl⟩ := users.insertWrite_eq_ok.mp hw
  rw [Local.view_wrote, Local.view_saw, Local.view_eq_self hpending]
  constructor
  · rintro id ⟨u, hu, hid, hsuspended⟩
    rcases Table.mem_or_eq_of_mem_insert hu with hu | rfl
    · exact .inl ⟨u, hu, hid, hsuspended⟩
    · exact absurd hsuspended hstatus
  · rintro id ⟨u, hu, hid, hsuspended⟩
    exact .inl ⟨u, Table.mem_insert_of_mem hu, hid, hsuspended⟩

/-- A sign-up loads the account that it finds or adds. -/
theorem readWp_createUserJit (hpending : L.pending = []) (c : Ctx) (authProviderId : String) :
    ReadWp Stmt.isRead (AccountPromise req) LoadsUser (createUserJit c authProviderId) L r := by
  unfold createUserJit
  dsimp only
  rw [readWp_recover]
  have hactive : ∀ username, (User.create (c.uuid4 0) authProvider authProviderId username username
      c.now).status ≠ .suspended := fun _ => by simp [User.create]
  refine (readWp_insertUserJit hpending (hactive _)).mono fun res L r h => ?_
  cases res with
  | ok user => exact h
  | error e =>
    -- when the race for the row is lost, the row of the winner is loaded
    dsimp only
    split
    · rw [Prog.bind_eq, readWp_rollback_bind, Prog.bind_eq, readWp_bind]
      refine (readWp_findUser (Local.ended_pending L) authProviderId).mono fun res L r h => ?_
      rcases res with e | _ | existing
      · trivial
      · trivial
      · exact ⟨h.1 existing rfl, h.2⟩
    · trivial

/-- So does resolving a token. -/
theorem readWp_resolveUser (hpending : L.pending = []) (c : Ctx) (request : Request) :
    ReadWp Stmt.isRead (AccountPromise req) LoadsUser (resolveUser c request) L r := by
  unfold resolveUser verifySession
  cases request.claims with
  | error message => trivial
  | ok authProviderId =>
    simp only [Prog.bind_eq, Prog.pure_eq, Prog.ret_bind]
    rw [readWp_bind]
    refine (readWp_findUser hpending authProviderId).mono fun res L r h => ?_
    rcases res with e | _ | user
    · trivial
    · exact readWp_createUserJit h.2 c authProviderId
    · exact ⟨h.1 user rfl, h.2⟩

/-- Setting the status of a user decides whether that user is suspended, and touches nobody else. -/
theorem suspended_set {id x : Uuid} {status : UserStatus} {db : Db}
    {hf : ∀ u u', some { u with status := status } = some u' → User.id u' = User.id u} :
    (users.set id (fun u => some { u with status := status }) hf db).Suspended x ↔
      if x = id then status = .suspended ∧ ∃ u ∈ db.users, u.id = id else db.Suspended x := by
  have hmem : ∀ v, v ∈ (users.set id (fun u => some { u with status := status }) hf db).users ↔
      ∃ u ∈ db.users, (if u.id = id then { u with status := status } else u) = v := by
    intro v
    simp only [TableDef.set, users, Table.mem_modify, decide_eq_true_eq, Option.getD_some]
  constructor
  · rintro ⟨v, hv, rfl, hsuspended⟩
    obtain ⟨u, hu, rfl⟩ := (hmem v).mp hv
    by_cases hid : u.id = id
    · simp only [hid, if_true] at hsuspended ⊢
      exact ⟨hsuspended, u, hu, hid⟩
    · simp only [hid, if_false] at hsuspended ⊢
      exact ⟨u, hu, rfl, hsuspended⟩
  · intro h
    split at h
    · next hx =>
      obtain ⟨hstatus, u, hu, hid⟩ := h
      exact ⟨_, (hmem _).mpr ⟨u, hu, rfl⟩, by simp [hid, hx], by simp [hid, hstatus]⟩
    · next hx =>
      obtain ⟨u, hu, rfl, hsuspended⟩ := h
      exact ⟨u, (hmem u).mpr ⟨u, hu, if_neg hx⟩, rfl, hsuspended⟩

/-- Writing a status, committing it and reloading the row. A request that suspends writes that
status, and any other has read the user as not suspended. -/
theorem readWp_setStatus {id : Uuid} {status : UserStatus} (hpending : L.pending = [])
    (hnew : status = .suspended → id ∈ req.suspends)
    (hkept : status ≠ .suspended → req.suspends = none ∧ ¬ r.Suspended id) :
    ReadWp Stmt.isRead (AccountPromise req) LoadsUser
      ((setStatus id status).bind fun _ => Sql.commit.bind fun _ => refresh users id) L r := by
  simp only [setStatus, readWp_update_bind, readWp_commit_bind]
  refine ⟨rfl, fun s => ⟨fun wr hw => ⟨fun s' => ?_, readWp_refresh (Local.ended_pending _) id⟩,
    fun e _ => trivial⟩⟩
  obtain ⟨-, u', -, -, -, -, -, -, rfl⟩ := users.updateWrite_eq_ok hw
  rw [Local.view_wrote, Local.view_saw, Local.view_eq_self hpending]
  constructor
  · intro x hx
    rw [suspended_set] at hx
    split at hx
    · next hid =>
      rw [hid]
      exact .inr (hnew hx.1)
    · exact .inl hx
  · intro x hx
    rw [suspended_set]
    by_cases hid : x = id
    · subst hid
      by_cases hstatus : status = .suspended
      · obtain ⟨u, hu, hux, -⟩ := hx
        exact .inl (by simpa [hstatus] using ⟨u, hu, hux⟩)
      · obtain ⟨hnone, hread⟩ := hkept hstatus
        exact .inr ⟨hnone, hread, by simp [Local.locks, hpending, users]⟩
    · exact .inl (by simpa [hid] using hx)

/-- A reactivation writes to the account as it was loaded. -/
theorem readWp_reactivateAccount {user : User} (hpending : L.pending = [])
    (hmem : user ∈ r.users) (hreq : req.suspends = none) :
    ReadWp Stmt.isRead (AccountPromise req) LoadsUser (reactivateAccount user) L r := by
  unfold reactivateAccount
  cases hstatus : user.status with
  | active => exact ⟨hmem, hpending⟩
  | suspended => trivial
  | frozen =>
    have hread : ¬ r.Suspended user.id := not_suspended_of_mem hmem (by simp [hstatus])
    simp only [reduceCtorEq, if_false, ne_eq, not_true_eq_false, Prog.bind_eq]
    exact readWp_setStatus hpending (fun h => absurd h (by decide)) fun _ => ⟨hreq, hread⟩

/-- So does a freeze. -/
theorem readWp_freezeAccount {user : User} (hpending : L.pending = [])
    (hmem : user ∈ r.users) (hreq : req.suspends = none) :
    ReadWp Stmt.isRead (AccountPromise req) LoadsUser (freezeAccount user) L r := by
  unfold freezeAccount
  cases hstatus : user.status with
  | suspended | frozen => exact ⟨hmem, hpending⟩
  | active =>
    have hread : ¬ r.Suspended user.id := not_suspended_of_mem hmem (by simp [hstatus])
    simp only [if_true, Prog.bind_eq]
    exact readWp_setStatus hpending (fun h => absurd h (by decide)) fun _ => ⟨hreq, hread⟩

/-- So does signing in. -/
theorem readWp_getCurrentUser (hpending : L.pending = []) (hreq : req.suspends = none) (c : Ctx)
    (request : Request) :
    ReadWp Stmt.isRead (AccountPromise req) LoadsUser (getCurrentUser c request) L r := by
  unfold getCurrentUser
  simp only [Prog.bind_eq]
  rw [readWp_bind]
  refine (readWp_resolveUser hpending c request).mono fun res L r h => ?_
  cases res with
  | error e => trivial
  | ok user =>
    dsimp only
    split
    · trivial
    · split
      · rw [readWp_bind]
        refine (readWp_reactivateAccount h.2 h.1 hreq).mono fun res L r h => ?_
        cases res with
        | error e => trivial
        | ok user => exact h
      · exact h

/-- A suspension writes to the account it names, whatever its status was. -/
theorem readWp_suspendAccount (hpending : L.pending = []) (userId : Uuid) :
    ReadWp Stmt.isRead (AccountPromise (.suspend userId)) LoadsUser
      (suspendAccount userId) L r := by
  simp only [suspendAccount, Prog.bind_eq, readWp_get_bind]
  refine ⟨rfl, fun s => ?_⟩
  cases hfound : users.lookup L.vars (L.view s) userId with
  | none => trivial
  | some user =>
    dsimp only
    split
    · exact readWp_setStatus hpending (fun _ => rfl) fun h => absurd rfl h
    · rw [Local.view_eq_self hpending] at hfound
      exact ⟨(users.lookup_eq_some.mp hfound).1, hpending⟩

/-- Each request keeps its promise. -/
theorem readWp_prog (req : AccountRequest) (me : Identity) (db : Db) :
    ReadWp Stmt.isRead (AccountPromise req) (fun _ _ _ => True) req.prog (Local.start me) db := by
  have hpending : (Local.start me : Local Db Lock Identity Stmt).pending = [] := rfl
  refine ReadWp.mono (K := LoadsUser) (fun _ _ _ _ => trivial) ?_
  cases req with
  | freeze c request =>
    simp only [AccountRequest.prog, Prog.bind_eq]
    rw [readWp_bind]
    refine (readWp_getCurrentUser hpending rfl c request).mono fun res L r h => ?_
    cases res with
    | error e => trivial
    | ok user => exact readWp_freezeAccount h.2 h.1 rfl
  | reactivate c request =>
    simp only [AccountRequest.prog, Prog.bind_eq]
    rw [readWp_bind]
    refine (readWp_resolveUser hpending c request).mono fun res L r h => ?_
    cases res with
    | error e => trivial
    | ok user => exact readWp_reactivateAccount h.2 h.1 rfl
  | signIn c request => exact readWp_getCurrentUser hpending rfl c request
  | suspend userId => exact readWp_suspendAccount hpending userId

end Requests

/-! ## Every run -/

section Runs

variable {ι : Type} [Fintype ι] [DecidableEq ι] (requests : ι → AccountRequest)

/-- The requests before their first statements, each on a session with some identity. -/
def accountWorld (me : ι → Identity) (db : Db) : World ι Db Lock Identity Stmt PyError User :=
  World.start db fun i => Session.start (me i) (requests i).prog

/-- Before it commits, a request of the account itself: nobody whose row it has locked has been
suspended since it last read. -/
def NotSuspendedSince (w : World ι Db Lock Identity Stmt PyError User) (i : ι) : Prop :=
  (w.sessions i).prog.isCommit = true → (requests i).suspends = none →
    ∀ j ∈ w.since Stmt.isRead i, ∀ id ∈ (requests j).suspends,
      rowLock .users id ∉ (w.sessions i).locks

instance (w : World ι Db Lock Identity Stmt PyError User) (i : ι) :
    Decidable (NotSuspendedSince requests w i) :=
  -- otherwise the bounded quantifier is decided by trying every id there is
  haveI (j : ι) : Decidable (∀ id ∈ (requests j).suspends,
      rowLock .users id ∉ (w.sessions i).locks) := Option.decidableForallMem _
  inferInstanceAs (Decidable ((w.sessions i).prog.isCommit = true → (requests i).suspends = none →
    ∀ j ∈ w.since Stmt.isRead i, ∀ id ∈ (requests j).suspends,
      rowLock .users id ∉ (w.sessions i).locks))

/-- The next step of session `i` lifts no suspension. -/
def StaysSuspended (w : World ι Db Lock Identity Stmt PyError User) (i : ι) : Prop :=
  ∀ w', w.step i = some w' → ∀ id, w.committed.Suspended id → w'.committed.Suspended id

variable {requests}

omit [Fintype ι] [DecidableEq ι] in
/-- A user whom the commits since a read have suspended has been suspended by one of them. -/
theorem suspends_of_commitChain {r s : Db} {js : List ι} {id : Uuid}
    (h : CommitChain (fun i => AccountPromise (requests i)) r js s) (hs : s.Suspended id) :
    r.Suspended id ∨ ∃ j ∈ js, id ∈ (requests j).suspends := by
  induction h with
  | nil => exact .inl hs
  | @cons r' s s' js j L h hj ih =>
    rcases hj.new id hs with hs | hj
    · rcases ih hs with hr | ⟨k, hk, hid⟩
      · exact .inl hr
      · exact .inr ⟨k, List.mem_cons_of_mem _ hk, hid⟩
    · exact .inr ⟨j, List.mem_cons_self, hj⟩

/-- What one step preserves, when it meets the condition. -/
theorem staysSuspended_of_tracked {w : World ι Db Lock Identity Stmt PyError User} {i : ι}
    (h : w.Tracked Stmt.isRead fun i => AccountPromise (requests i))
    (hC : NotSuspendedSince requests w i) : StaysSuspended w i := by
  intro w' hs id hid
  rcases h.commit_of_step hs with hsame | ⟨k, r, hk, hpromise, hchain⟩
  · rw [hsame]
    exact hid
  · rcases hpromise.kept id hid with hkept | ⟨hnone, hread, hlock⟩
    · exact hkept
    · rcases suspends_of_commitChain hchain hid with hr | ⟨j, hj, hjid⟩
      · exact absurd hr hread
      · exact absurd hlock (hC (by rw [hk]; rfl) hnone j hj id hjid)

/-- In a run in which no request of an account commits after the account was suspended behind its
back, no step lifts a suspension. -/
theorem staysSuspended_of_notSuspendedSince (requests : ι → AccountRequest) (me : ι → Identity)
    (db : Db) (sched : List ι)
    (h : (accountWorld requests me db).Always (NotSuspendedSince requests) sched) :
    (accountWorld requests me db).Always StaysSuspended sched := by
  let I := World.Tracked (ε := PyError) (α := User) Stmt.isRead fun i => AccountPromise (requests i)
  have hstart : I (accountWorld requests me db) :=
    fun i => tracked_start (readWp_prog (requests i) (me i) db)
  exact World.Always.of_invariant (I := I) (fun _ _ ht hC => staysSuspended_of_tracked ht hC)
    (fun _ _ _ ht _ hs => ht.step hs) hstart h

end Runs

/-! ## A user freezes the account while it is being suspended -/

def caller : User := User.create 1 "clerk" "sub_1" "ada" "Ada" 0
def moderator : User :=
  { User.create 2 "clerk" "sub_2" "root" "Root" 0 with role := UserRole.admin }

def moderatedDb : Db := { Db.empty with users := (Table.empty.insert caller).insert moderator }

/-- Session 0 freezes the account of the caller, and session 1 suspends it. -/
def freezeAndSuspend : Fin 2 → AccountRequest
  | 0 => .freeze (.fixed 1 9) ⟨.ok caller.authProviderId⟩
  | 1 => .suspend caller.id

def freezeAndSuspendAs : Fin 2 → Identity
  | 0 => none
  | 1 => some moderator.id

/-- The freeze is over when the suspension begins. -/
theorem staysSuspended_of_notSuspendedSince_inTurn :
    (accountWorld freezeAndSuspend freezeAndSuspendAs moderatedDb).Always StaysSuspended
      [0, 0, 0, 0, 0, 0, 1, 1, 1, 1, 1] :=
  staysSuspended_of_notSuspendedSince freezeAndSuspend freezeAndSuspendAs moderatedDb
    [0, 0, 0, 0, 0, 0, 1, 1, 1, 1, 1] (by decide)

/-- The world when the freeze has loaded the account and written its status, and the suspension has
been committed in between. -/
def suspendedBehind : World (Fin 2) Db Lock Identity Stmt PyError User :=
  ((accountWorld freezeAndSuspend freezeAndSuspendAs moderatedDb).exec [0, 0, 1, 1, 1, 0]).get
    (by decide)

/-- A freeze that has loaded the account before its suspension lifts it. -/
theorem freeze_can_lift_suspension :
    ¬ ∀ (n : ℕ) (requests : Fin n → AccountRequest) (me : Fin n → Identity) (db : Db)
      (sched : List (Fin n)), (accountWorld requests me db).Always StaysSuspended sched := by
  intro h
  have halways : (accountWorld freezeAndSuspend freezeAndSuspendAs moderatedDb).Always
      StaysSuspended ([0, 0, 1, 1, 1, 0] ++ 0 :: []) := h 2 _ _ _ _
  have hstays : StaysSuspended suspendedBehind 0 := halways.of_exec (Option.some_get _).symm
  have hlifted := hstays _ (Option.some_get (show (suspendedBehind.step 0).isSome by decide)).symm
    caller.id (by decide)
  exact absurd hlifted (by decide)

end OburBackend
