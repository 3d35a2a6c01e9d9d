import Mathlib.Data.Fintype.Option
import OburBackend.Account.Redelivery
import OburBackend.Model.Consistent
import OburBackend.Sql.Progress

/-!
# The first requests of a new account

The first requests of a user and the webhook that announces the user race for one row. A request
that finds no row inserts one, and reads the winner's where it has lost. The webhook looks for the
row, takes its identity if there is one, and upserts. The requests never fail, and no session waits
for ever. The webhook fails when a request commits the row between its two statements: it then
changes a row without an identity, which the policies refuse. In every run in which no request
commits there, all of them complete and the account has the profile of the webhook.
-/

namespace OburBackend

open Sql

/-! ## The account as it arrives -/

/-- The row that `_create_user_jit` adds. -/
def jitUser (c : Ctx) (sub : String) : User :=
  let username := fallbackUsername c authProvider sub
  User.create (c.uuid4 0) authProvider sub username username c.now

/-- Nothing stands in the way of the row: its id is new, and nobody holds its username or email. -/
structure Db.Admits (db : Db) (u : User) : Prop where
  id : ∀ x ∈ db.users, x.id ≠ u.id
  unblocked : ∀ r ∈ db.blocks, r.blockerId ≠ u.id ∧ r.blockedId ≠ u.id
  username : ∀ x ∈ db.users, x.username ≠ u.username
  email : ∀ x ∈ db.users, x.email = u.email → u.email = none

/-- The data is `db`, with the account of the identity besides if there is one by now. -/
structure Arrived (db : Db) (sub : String) (s : Db) : Prop where
  blocks : s.blocks = db.blocks
  rows : ∀ x, x ∈ s.users ↔ x ∈ db.users ∨ s.account sub = some x
  account : ∀ u, s.account sub = some u → u.status = .active ∧ db.Admits u

/-- The lock on the identity under `uq_user_auth_identity`. -/
def identityLock (sub : String) : Lock := .unique .users [] ["auth", authProvider, sub]

/-- A row has the identity when it names the provider and the subject. -/
theorem hasIdentity_iff {sub : String} {u : User} :
    u.hasIdentity sub = true ↔ u.authProvider = authProvider ∧ u.authProviderId = sub := by
  simp [User.hasIdentity]

section Arrived

variable {db s : Db} {sub : String} {u : User}

/-- One row with the identity is added to data without any. -/
theorem Arrived.of_users (hnew : db.account sub = none) (hid : u.hasIdentity sub = true)
    (hactive : u.status = .active) (hadmits : db.Admits u) (hblocks : s.blocks = db.blocks)
    (husers : ∀ x, x ∈ s.users ↔ x ∈ db.users ∨ x = u) :
    Arrived db sub s ∧ s.account sub = some u := by
  have haccount : s.account sub = some u := by
    cases h : s.account sub with
    | none =>
      rw [account_eq_none.mp h u ((husers u).mpr (.inr rfl))] at hid
      cases hid
    | some x =>
      obtain ⟨hx, hxid⟩ := mem_of_account h
      rcases (husers x).mp hx with hx | rfl
      · rw [account_eq_none.mp hnew x hx] at hxid
        cases hxid
      · rfl
  refine ⟨⟨hblocks, fun x => ?_, fun x hx => ?_⟩, haccount⟩
  · rw [husers, haccount, Option.some.injEq, eq_comm (a := u)]
  · rw [haccount] at hx
    cases hx
    exact ⟨hactive, hadmits⟩

/-- At first there is no account, and the data is `db`. -/
theorem arrived_start (hnew : db.account sub = none) : Arrived db sub db where
  blocks := rfl
  rows x := by simp [hnew]
  account u hu := by
    rw [hnew] at hu
    cases hu

/-- As long as there is none, the rows are those of `db`. -/
theorem Arrived.mem_users (h : Arrived db sub s) (hnone : s.account sub = none) (x : User) :
    x ∈ s.users ↔ x ∈ db.users := by
  rw [h.rows, hnone]
  simp

/-- There is one row with the identity at most. -/
theorem Arrived.select_eq (h : Arrived db sub s) (hnew : db.account sub = none) :
    s.users.select (User.hasIdentity sub) = (s.account sub).toList := by
  have hmem : ∀ x, x ∈ s.users.select (User.hasIdentity sub) ↔ s.account sub = some x := by
    intro x
    rw [Table.mem_select, h.rows]
    constructor
    · rintro ⟨hx | hx, hid⟩
      · rw [account_eq_none.mp hnew x hx] at hid
        cases hid
      · exact hx
    · intro hx
      exact ⟨.inr hx, (mem_of_account hx).2⟩
  cases haccount : s.account sub with
  | none =>
    refine List.eq_nil_iff_forall_not_mem.mpr fun x hx => ?_
    rw [hmem, haccount] at hx
    cases hx
  | some u =>
    obtain ⟨hu, hid⟩ := mem_of_account haccount
    refine Table.select_eq_singleton hu hid fun x hx hxid => ?_
    have hx := (hmem x).mp (Table.mem_select.mpr ⟨hx, hxid⟩)
    exact (Option.some.inj (haccount.symm.trans hx)).symm

/-- The constraints pass a row that is, or will be, the only one with the identity. -/
theorem Arrived.constraints (h : Arrived db sub s) (hnew : db.account sub = none)
    (hid : u.hasIdentity sub = true) (hadmits : db.Admits u)
    (hsame : ∀ x, s.account sub = some x → x.id = u.id) : usersConstraints s u = true := by
  have hother : ∀ x ∈ s.users, x.id ≠ u.id → x ∈ db.users := by
    intro x hx hne
    rcases (h.rows x).mp hx with hx | hx
    · exact hx
    · exact absurd (hsame x hx) hne
  simp only [usersConstraints, Bool.and_eq_true, uniqueIn_eq_true]
  refine ⟨fun x hx hne heq => ?_, fun x hx hne heq => ?_, fun x hx hne heq => ?_⟩
  · obtain ⟨hprovider, hprovided⟩ := Prod.mk.inj (Option.some.inj heq)
    obtain ⟨huprovider, huid⟩ := hasIdentity_iff.mp hid
    have hxid : x.hasIdentity sub = true :=
      hasIdentity_iff.mpr ⟨hprovider.trans huprovider, hprovided.trans huid⟩
    rw [account_eq_none.mp hnew x (hother x hx hne)] at hxid
    cases hxid
  · exact absurd (Option.some.inj heq) (hadmits.username x (hother x hx hne))
  · exact hadmits.email x (hother x hx hne) heq

/-- Whoever writes a row of the identity locks the identity. -/
theorem mem_locks_of_hasIdentity (hid : u.hasIdentity sub = true) :
    identityLock sub ∈ users.lock u.id :: users.unique u := by
  obtain ⟨hprovider, hprovided⟩ := hasIdentity_iff.mp hid
  simp [users, identityLock, hprovider, hprovided]

/-- While there is no account, a row for it can be inserted. -/
theorem Arrived.insertWrite (h : Arrived db sub s) (hnew : db.account sub = none)
    (hnone : s.account sub = none) (hid : u.hasIdentity sub = true) (hactive : u.status = .active)
    (hadmits : db.Admits u) :
    ∃ wr, users.insertWrite none s u = .ok wr ∧ identityLock sub ∈ wr.locks ∧
      Arrived db sub (wr.effect s) ∧ (wr.effect s).account sub = some u := by
  have hfree : s.users.get u.id = none := by
    refine Table.get_eq_none.mpr fun x hx => ?_
    exact hadmits.id x ((h.mem_users hnone x).mp hx)
  have hconstraints : usersConstraints s u = true := by
    refine h.constraints hnew hid hadmits fun x hx => ?_
    rw [hnone] at hx
    cases hx
  refine ⟨_, users.insertWrite_eq_ok.mpr ⟨rfl, usersPolicy_select_none s u, hfree, hconstraints,
    rfl⟩, mem_locks_of_hasIdentity hid, ?_⟩
  refine Arrived.of_users hnew hid hactive hadmits h.blocks fun x => ?_
  exact (Table.mem_insert hfree).trans (or_congr_left (h.mem_users hnone x))

/-- Without an identity, an insertion that fails violates a constraint. -/
theorem insertWrite_none_error {e : DbError} (he : users.insertWrite none s u = .error e) :
    e = .integrity := by
  have hpass : ((users.policy none s).insert u).Holds ∧ ((users.policy none s).select u).Holds :=
    ⟨rfl, usersPolicy_select_none s u⟩
  rw [TableDef.insertWrite, if_pos hpass] at he
  split at he
  · cases he
  · exact (Except.error.inj he).symm

/-- An insertion that succeeds found no row with the identity. -/
theorem account_eq_none_of_insertWrite {me : Identity} {wr : Write Db Lock}
    (hid : u.hasIdentity sub = true) (hw : users.insertWrite me s u = .ok wr) :
    s.account sub = none := by
  obtain ⟨-, -, hfree, hconstraints, -⟩ := users.insertWrite_eq_ok.mp hw
  cases haccount : s.account sub with
  | none => rfl
  | some x =>
    obtain ⟨hx, hxid⟩ := mem_of_account haccount
    obtain ⟨hprovider, hprovided⟩ := hasIdentity_iff.mp hid
    obtain ⟨hxprovider, hxprovided⟩ := hasIdentity_iff.mp hxid
    have hunique := uniqueIn_eq_true.mp (Bool.and_eq_true_iff.mp hconstraints).1
    have hsame : some (x.authProvider, x.authProviderId) =
        some (u.authProvider, u.authProviderId) := by
      rw [hxprovider, hxprovided, hprovider, hprovided]
    cases hunique x hx (Table.get_eq_none.mp hfree x hx) hsame

/-- The owner of the account sees every row that is admitted: no block is about it. -/
theorem Arrived.sees (h : Arrived db sub s) (hadmits : db.Admits u) (me : Identity) :
    ((usersPolicy me s).select u).Holds := by
  refine holds_usersPolicy_select.mpr (.inr ?_)
  rintro v - ⟨r, hr, hpair⟩
  rw [h.blocks] at hr
  obtain ⟨hblocker, hblocked⟩ := hadmits.unblocked r hr
  rcases hpair with ⟨hu, -⟩ | ⟨-, hu⟩
  · exact hblocker hu
  · exact hblocked hu

/-- The owner of the account can change its email, if nobody holds it, and its avatar. -/
theorem Arrived.updateWrite {x : User} (email avatarUrl : Option String) (h : Arrived db sub s)
    (hnew : db.account sub = none) (haccount : s.account sub = some x)
    (hemail : ∀ y ∈ db.users, y.email = email → email = none) :
    ∃ wr, users.updateWrite (some x.id) s x.id (User.sync email avatarUrl)
        (User.sync_id email avatarUrl) = .ok wr ∧ identityLock sub ∈ wr.locks ∧
      Arrived db sub (wr.effect s) ∧
      (wr.effect s).account sub = some { x with email, avatarUrl } := by
  obtain ⟨hx, hxid⟩ := mem_of_account haccount
  obtain ⟨hactive, hadmits⟩ := h.account x haccount
  let x' : User := { x with email, avatarUrl }
  have hxid' : x'.hasIdentity sub = true := hxid
  have hadmits' : db.Admits x' := ⟨hadmits.id, hadmits.unblocked, hadmits.username, hemail⟩
  have hconstraints : usersConstraints s x' = true := by
    refine h.constraints hnew hxid' hadmits' fun y hy => ?_
    rw [haccount] at hy
    cases hy
    rfl
  have hlookup : users.lookup (some x.id) s x.id = some x :=
    users.lookup_eq_some.mpr ⟨hx, rfl, h.sees hadmits _⟩
  have howner : ∀ y : User, y.id = x.id →
      (rlsIsOwnerOrAdmin (some x.id) s (some y.id)).Holds := by
    intro y hy
    exact holds_rlsIsOwnerOrAdmin.mpr (.inl (by rw [hy]))
  refine ⟨_, users.updateWrite_of_pass hlookup (howner x rfl) rfl (howner x' rfl)
    (h.sees hadmits' _) hconstraints, mem_locks_of_hasIdentity hxid', ?_⟩
  refine Arrived.of_users hnew hxid' hactive hadmits' h.blocks fun y => ?_
  refine (Table.mem_modify_key (TableDef.key_getD (User.sync_id _ _)) hx).trans ?_
  rw [h.rows, haccount, or_comm]
  refine or_congr_left ⟨?_, fun hy => ⟨.inl hy, hadmits.id y hy⟩⟩
  rintro ⟨hy | hy, hne⟩
  · exact hy
  · cases hy
    exact absurd rfl hne

/-- Under the identity of the account, or without one as long as there is none, the upsert succeeds,
and the account has the profile of the row. -/
theorem Arrived.upsertWrite (h : Arrived db sub s) (hnew : db.account sub = none)
    (hid : u.hasIdentity sub = true) (hactive : u.status = .active) (hadmits : db.Admits u) :
    ∃ wr, OburBackend.upsertWrite ((s.account sub).map User.id) s u = .ok wr ∧
      identityLock sub ∈ wr.locks ∧ Arrived db sub (wr.effect s) ∧
      (wr.effect s).profile sub = some (u.email, u.avatarUrl) ∧
      ∀ x, s.account sub = some x → ((wr.effect s).account sub).map User.id = some x.id := by
  obtain ⟨-, rfl⟩ := hasIdentity_iff.mp hid
  cases haccount : s.account u.authProviderId with
  | none =>
    obtain ⟨wr, hw, hlock, harrived, hwritten⟩ := h.insertWrite hnew haccount hid hactive hadmits
    refine ⟨wr, ?_, hlock, harrived, ?_, fun x hx => by cases hx⟩
    · rw [← hw]
      exact upsertWrite_of_none haccount
    · rw [Db.profile, hwritten]
      rfl
  | some x =>
    obtain ⟨wr, hw, hlock, harrived, hwritten⟩ :=
      h.updateWrite u.email u.avatarUrl hnew haccount hadmits.email
    refine ⟨wr, ?_, hlock, harrived, ?_, ?_⟩
    · have hpass : ((usersPolicy (some x.id) s).insert u).Holds ∧
          ((usersPolicy (some x.id) s).select u).Holds ∧
          ((usersPolicy (some x.id) s).select x).Holds ∧
          ((usersPolicy (some x.id) s).updateUsing x).Holds :=
        ⟨rfl, h.sees hadmits _, h.sees (h.account x haccount).2 _,
          holds_rlsIsOwnerOrAdmin.mpr (.inl rfl)⟩
      simp only [Db.account] at haccount
      simp only [OburBackend.upsertWrite, haccount, Option.map_some, if_pos hpass]
      exact hw
    · rw [Db.profile, hwritten]
      rfl
    · rintro _ ⟨⟩
      rw [hwritten]
      rfl

end Arrived

/-! ## The protocols -/

section Protocols

variable (db : Db) (sub : String)

/-- How the data moves on for a session: the account arrives and stays, and nobody else changes the
data while the session has the identity locked. -/
structure Onward (L : Local Db Lock Identity Stmt) (s s' : Db) : Prop where
  arrived : Arrived db sub s → Arrived db sub s'
  kept : ∀ u, s.account sub = some u → (s'.account sub).map User.id = some u.id
  locked : identityLock sub ∈ L.locks → s' = s

variable {db sub}

/-- The data may stay as it is. -/
theorem Onward.refl (L : Local Db Lock Identity Stmt) (s : Db) : Onward db sub L s s where
  arrived h := h
  kept u hu := by rw [hu, Option.map_some]
  locked _ := rfl

/-- Two moves one after the other are one. -/
theorem Onward.trans {L : Local Db Lock Identity Stmt} {s s' s'' : Db} (h : Onward db sub L s s')
    (h' : Onward db sub L s' s'') : Onward db sub L s s'' where
  arrived hs := h'.arrived (h.arrived hs)
  kept u hu := by
    obtain ⟨u', hu', hid⟩ := Option.map_eq_some_iff.mp (h.kept u hu)
    rw [h'.kept u' hu', hid]
  locked hlock := (h'.locked hlock).trans (h.locked hlock)

/-- So it is for the session after the end of its transaction. -/
theorem Onward.ended {L : Local Db Lock Identity Stmt} {s s' : Db} (h : Onward db sub L s s') :
    Onward db sub L.ended s s' where
  arrived := h.arrived
  kept := h.kept
  locked hlock := by simp [Local.locks] at hlock

variable (db sub)

/-- The protocol of a first request: it commits a row only as the first one, and it never fails. -/
def firstRequestProtocol : Protocol Db Lock Identity Stmt PyError Unit where
  rely := Onward db sub
  guar L s s' := s.account sub = none ∧ (Arrived db sub s → Arrived db sub s') ∧
    identityLock sub ∈ L.locks
  post r _ _ := r = .ok ()
  rely_refl := Onward.refl
  rely_trans h h' := h.trans h'
  rely_ended h := h.ended

/-- The lookup of `_upsert_user` has run and its upsert has not, and there is no account yet. -/
def Searched (L : Local Db Lock Identity Stmt) (s : Db) : Prop :=
  L.log = [⟨.select, .users, []⟩] ∧ s.account sub = none

instance (L : Local Db Lock Identity Stmt) (s : Db) : Decidable (Searched sub L s) :=
  inferInstanceAs (Decidable (_ ∧ _))

/-- What the webhook relies on: the account does not change once it is there, and it does not arrive
between the lookup and the upsert. -/
structure OnwardForWebhook (L : Local Db Lock Identity Stmt) (s s' : Db) : Prop where
  onward : Onward db sub L s s'
  settled : s.account sub ≠ none → s' = s
  searched : Searched sub L s → s'.account sub = none

/-- The protocol of the webhook: it does not fail, and the account has the given email and avatar
when it is over. -/
def webhookProtocol (profile : Option String × Option String) :
    Protocol Db Lock Identity Stmt PyError Unit where
  rely := OnwardForWebhook db sub
  guar L s s' := (Arrived db sub s → Arrived db sub s') ∧
    (∀ u, s.account sub = some u → (s'.account sub).map User.id = some u.id) ∧
    identityLock sub ∈ L.locks
  post r _ s := r = .ok () ∧ s.profile sub = some profile
  rely_refl L s := ⟨.refl L s, fun _ => rfl, And.right⟩
  rely_trans := by
    intro L s s' s'' h h'
    refine ⟨h.onward.trans h'.onward, fun hsome => ?_, fun hnone => ?_⟩
    · have hsame := h.settled hsome
      subst hsame
      exact h'.settled hsome
    · exact h'.searched ⟨hnone.1, h.searched hnone⟩
  rely_ended h := ⟨h.onward.ended, h.settled, h.searched⟩

end Protocols

/-! ## A first request -/

section FirstRequest

variable {db : Db} {sub : String} {c : Ctx} {L : Local Db Lock Identity Stmt} {s : Db} {α : Type}
  {guar : Local Db Lock Identity Stmt → Db → Db → Prop}

/-- The row of a first request has its identity. -/
theorem hasIdentity_jitUser : (jitUser c sub).hasIdentity sub = true :=
  hasIdentity_iff.mpr ⟨rfl, rfl⟩

/-- `_find_user` finds the account, if it is there by now. -/
theorem wp_findUser {K : Except PyError α → Local Db Lock Identity Stmt → Db → Prop}
    {f : Option User → Service α} (hnew : db.account sub = none) (hvars : L.vars = none)
    (hpending : L.pending = []) (hs : Arrived db sub s)
    (hf : ∀ s', Onward db sub L s s' → Arrived db sub s' →
      Wp (Onward db sub) guar K (f (s'.account sub)) (L.saw ⟨.select, .users, []⟩) s') :
    Wp (Onward db sub) guar K ((findUser sub).bind f) L s := by
  simp only [findUser, select, Prog.bind_eq, Prog.bind_assoc, wp_query_bind]
  intro s' hr
  have hs' := hr.arrived hs
  have hfound := hf s' hr hs'
  show Wp (Onward db sub) guar K ((scalarOneOrNone (users.rows L.vars (L.view s')
    (User.hasIdentity sub))).bind f) _ s'
  rw [hvars, Local.view_eq_self hpending, rows_users_none, hs'.select_eq hnew]
  cases haccount : s'.account sub with
  | none | some u =>
    rw [haccount] at hfound
    exact hfound

/-- An account that was there is found, and it is active. -/
theorem Onward.found {s' : Db} {u : User} (h : Onward db sub L s s') (hs : Arrived db sub s)
    (hu : s.account sub = some u) :
    ∃ u', s'.account sub = some u' ∧ u'.id = u.id ∧ u'.status = .active := by
  obtain ⟨u', hu', hid⟩ := Option.map_eq_some_iff.mp (h.kept u hu)
  exact ⟨u', hu', hid, ((h.arrived hs).account u' hu').1⟩

/-- `_create_user_jit` ends with the account, its own or the winner's. -/
theorem wp_createUserJit (hnew : db.account sub = none) (hadmits : db.Admits (jitUser c sub))
    (hvars : L.vars = none) (hpending : L.pending = []) (hs : Arrived db sub s) :
    Wp (Onward db sub) (firstRequestProtocol db sub).guar
      (fun r _ _ => ∃ u, r = .ok u ∧ u.status = .active) (createUserJit c sub) L s := by
  show Wp _ _ _ ((insertUserJit (jitUser c sub)).recover _) L s
  rw [wp_recover]
  simp only [insertUserJit, Prog.bind_eq, wp_insert_bind, wp_commit_bind, hvars]
  intro s₁ h₁
  have hs₁ := h₁.arrived hs
  rw [Local.view_eq_self hpending]
  constructor
  · intro wr hw s₂ h₂
    have hnone := account_eq_none_of_insertWrite hasIdentity_jitUser hw
    obtain ⟨wr', hw', hlock, harrived, hwritten⟩ :=
      hs₁.insertWrite hnew hnone hasIdentity_jitUser rfl hadmits
    obtain rfl : wr = wr' := Except.ok.inj (hw.symm.trans hw')
    have hheld : identityLock sub ∈
        ((L.saw (users.stmt .insert (jitUser c sub).id)).wrote wr).locks := by
      simp [Local.locks, hlock]
    obtain rfl := h₂.locked hheld
    rw [Local.view_wrote, Local.view_saw, Local.view_eq_self hpending]
    refine ⟨⟨hnone, fun _ => harrived, hheld⟩, ?_⟩
    simp only [refresh, Prog.bind_eq, wp_get_bind]
    intro s₃ h₃
    obtain ⟨u, hu, hid, hactive⟩ := h₃.found harrived hwritten
    have hlookup : users.lookup none s₃ (jitUser c sub).id = some u :=
      users.lookup_eq_some.mpr ⟨(mem_of_account hu).1, hid, usersPolicy_select_none _ _⟩
    rw [Local.view_ended, Local.ended_vars, Local.wrote_vars, Local.saw_vars, hvars, hlookup]
    exact ⟨u, rfl, hactive⟩
  · intro e he
    obtain rfl := insertWrite_none_error he
    obtain ⟨x, hx⟩ : ∃ x, s₁.account sub = some x := by
      rw [← Option.ne_none_iff_exists']
      intro hnone
      obtain ⟨wr, hw, -⟩ := hs₁.insertWrite hnew hnone hasIdentity_jitUser rfl hadmits
      rw [he] at hw
      cases hw
    rw [if_pos (show OfDbError.ofDbError .integrity = PyError.database .integrity from rfl),
      wp_rollback_bind]
    intro s₂ h₂
    obtain ⟨x₂, hx₂, -, -⟩ := h₂.found hs₁ hx
    refine wp_findUser hnew hvars rfl (h₂.arrived hs₁) fun s₃ h₃ hs₃ => ?_
    obtain ⟨u, hu, -, hactive⟩ := h₃.found (h₂.arrived hs₁) hx₂
    rw [hu]
    exact ⟨u, rfl, hactive⟩

/-- Whatever the other sessions do meanwhile, the request finds or adds an active account. -/
theorem wp_resolveUser (hnew : db.account sub = none) (hadmits : db.Admits (jitUser c sub))
    (hs : Arrived db sub s) :
    Wp (Onward db sub) (firstRequestProtocol db sub).guar
      (fun r _ _ => ∃ u, r = .ok u ∧ u.status = .active) (resolveUser c ⟨.ok sub⟩)
      (Local.start none) s := by
  simp only [resolveUser, verifySession, Prog.pure_eq, Prog.bind_eq, Prog.ret_bind]
  refine wp_findUser hnew rfl rfl hs fun s₁ _ hs₁ => ?_
  cases haccount : s₁.account sub with
  | some u => exact ⟨u, rfl, (hs₁.account u haccount).1⟩
  | none => exact wp_createUserJit hnew hadmits rfl rfl hs₁

/-- A first request keeps its protocol. -/
theorem holds_getCurrentUser (hnew : db.account sub = none) (hadmits : db.Admits (jitUser c sub))
    (hs : Arrived db sub s) :
    (firstRequestProtocol db sub).Holds ((getCurrentUser c ⟨.ok sub⟩).bind fun _ => .ret ())
      (Local.start none) s := by
  simp only [Protocol.Holds, getCurrentUser, Prog.bind_eq, Prog.bind_assoc]
  rw [wp_bind]
  refine Wp.mono ?_ (wp_resolveUser hnew hadmits hs)
  rintro _ L s' ⟨u, rfl, hactive⟩
  have hne : u.status ≠ .suspended ∧ u.status ≠ .frozen := by
    rw [hactive]
    decide
  dsimp only
  rw [if_neg hne.1, if_neg hne.2]
  exact fun s'' _ s₃ _ => rfl

end FirstRequest

/-! ## The webhook -/

section WebhookRun

variable {db : Db} {c : Ctx} {data : ClerkUserData} {L : Local Db Lock Identity Stmt} {s : Db}

/-- The row of the webhook has the identity of its event. -/
theorem hasIdentity_row : (data.row c).hasIdentity data.id = true :=
  hasIdentity_iff.mpr ⟨rfl, rfl⟩

/-- The rule for the upsert: it writes the row on the data as they are by then, or it fails. -/
theorem wp_upsertRow_bind {α : Type} {rely guar : Local Db Lock Identity Stmt → Db → Db → Prop}
    {K : Except PyError α → Local Db Lock Identity Stmt → Db → Prop} {r : User}
    {f : Unit → Service α} :
    Wp rely guar K ((upsertRow r).bind f) L s ↔
      ∀ s', rely L s s' →
        (∀ wr, upsertWrite L.vars (L.view s') r = .ok wr →
          Wp rely guar K (f ()) ((L.saw ⟨.insert, .users, [r.id]⟩).wrote wr) s') ∧
        ∀ e, upsertWrite L.vars (L.view s') r = .error e →
          K (.error (.database e)) (L.saw ⟨.insert, .users, [r.id]⟩).ended s' := Iff.rfl

/-- What `_upsert_user` claims at its end. -/
def Upserted (db : Db) (data : ClerkUserData) (r : Except PyError Unit)
    (L : Local Db Lock Identity Stmt) (s : Db) : Prop :=
  ∀ s', OnwardForWebhook db data.id L.ended s s' →
    r = .ok () ∧ s'.profile data.id = some (data.primaryEmail, data.imageUrl)

/-- The upsert and its commit, under the identity of the account if there is one by the time the
upsert runs, and under none otherwise. -/
theorem wp_upsertRow (hnew : db.account data.id = none) (hadmits : db.Admits (data.row c))
    (hpending : L.pending = []) (hs : Arrived db data.id s)
    (hvars : ∀ s', OnwardForWebhook db data.id L s s' →
      L.vars = (s'.account data.id).map User.id) :
    Wp (OnwardForWebhook db data.id)
      (webhookProtocol db data.id (data.primaryEmail, data.imageUrl)).guar (Upserted db data)
      ((upsertRow (data.row c)).bind fun _ => commit) L s := by
  rw [wp_upsertRow_bind]
  intro s₁ h₁
  have hs₁ := h₁.onward.arrived hs
  obtain ⟨wr, hw, hlock, harrived, hprofile, hkept⟩ :=
    hs₁.upsertWrite hnew hasIdentity_row rfl hadmits
  rw [Local.view_eq_self hpending, hvars s₁ h₁, hw]
  refine ⟨?_, fun e he => by cases he⟩
  rintro _ ⟨⟩ s₂ h₂
  have hheld : identityLock data.id ∈
      ((L.saw (users.stmt .insert (data.row c).id)).wrote wr).locks := by
    simp [Local.locks, hlock]
  obtain rfl := h₂.onward.locked hheld
  rw [Local.view_wrote, Local.view_saw, Local.view_eq_self hpending]
  refine ⟨⟨fun _ => harrived, hkept, hheld⟩, fun s₃ h₃ => ⟨rfl, ?_⟩⟩
  have hsome : (wr.effect s₂).account data.id ≠ none := by
    intro hnone
    rw [Db.profile, hnone] at hprofile
    cases hprofile
  rw [h₃.settled hsome]
  exact hprofile

/-- The webhook keeps its protocol. -/
theorem holds_handleClerkWebhook {request : WebhookRequest} {event : ClerkWebhookEvent}
    (hevent : request.event = some event) (htype : event.type = "user.created")
    (hnew : db.account event.data.id = none) (hadmits : db.Admits (event.data.row c))
    (hs : Arrived db event.data.id s) :
    (webhookProtocol db event.data.id (event.data.primaryEmail, event.data.imageUrl)).Holds
      ((handleClerkWebhook c request).bind fun _ => .ret ()) (Local.start none) s := by
  have hupsert : event.type ∈ userUpsertEvents := by
    rw [htype]
    decide
  simp only [Protocol.Holds, handleClerkWebhook, verifySignature_of_event hevent, Prog.pure_eq,
    Prog.bind_eq, Prog.ret_bind, Prog.bind_assoc, if_pos hupsert]
  rw [wp_bind]
  refine Wp.mono (K := Upserted db event.data) ?_ ?_
  · intro r L s h
    obtain ⟨rfl, -⟩ := h s ((webhookProtocol db event.data.id (none, none)).rely_refl _ _)
    exact h
  · simp only [upsertUser, lookupUser, select, Prog.bind_eq, Prog.pure_eq, Prog.bind_assoc,
      wp_query_bind, Prog.ret_bind, Local.start_vars, Local.view_start, rows_users_none]
    intro s₁ h₁
    have hs₁ := h₁.onward.arrived hs
    rw [show (s₁.users.select (User.hasIdentity event.data.id)).head? = s₁.account event.data.id
      from rfl]
    cases haccount : s₁.account event.data.id with
    | none =>
      refine wp_upsertRow hnew hadmits rfl hs₁ fun s₂ h₂ => ?_
      rw [h₂.searched ⟨rfl, haccount⟩]
      rfl
    | some u =>
      have hsome : s₁.account event.data.id ≠ none := by
        rw [haccount]
        exact Option.some_ne_none u
      intro s₂ h₂
      obtain rfl := h₂.settled hsome
      refine wp_upsertRow hnew hadmits rfl hs₁ fun s₃ h₃ => ?_
      rw [h₃.settled hsome, haccount]
      rfl

end WebhookRun

/-! ## No request waits with a lock -/

section Waiting

variable {c : Ctx}

/-- The handlers end each transaction before they go on or return. -/
def Released {α : Type} (_ : Except PyError α) (holding : Bool) : Prop := holding = false

/-- Looking for an account writes nothing. -/
theorem readOnly_findUser (sub : String) : (findUser sub).ReadOnly :=
  (Prog.readOnly_query _ _).bind readOnly_scalarOneOrNone

/-- A sign-up does not wait while it holds locks of its own. -/
theorem noHoldAndWait_createUserJit (sub : String) :
    (createUserJit c sub).NoHoldAndWait Released false := by
  have hinsert : (insertUserJit (jitUser c sub)).NoHoldAndWait Released false :=
    ⟨rfl, (readOnly_refresh _ _).noHoldAndWait fun _ => rfl, fun _ => rfl⟩
  show ((insertUserJit (jitUser c sub)).recover _).NoHoldAndWait _ _
  rw [Prog.noHoldAndWait_recover]
  refine hinsert.mono ?_
  rintro (e | u) b rfl
  · dsimp only
    split
    · show ((findUser sub).bind _).NoHoldAndWait _ _
      rw [Prog.noHoldAndWait_bind]
      refine (readOnly_findUser sub).noHoldAndWait fun r => ?_
      rcases r with e | _ | u
      · rfl
      · rfl
      · rfl
    · rfl
  · rfl

/-- Nor does resolving a token. -/
theorem noHoldAndWait_resolveUser (request : Request) :
    (resolveUser c request).NoHoldAndWait Released false := by
  obtain ⟨message | sub⟩ := request
  · rfl
  · show ((findUser sub).bind _).NoHoldAndWait _ _
    rw [Prog.noHoldAndWait_bind]
    refine (readOnly_findUser sub).noHoldAndWait fun r => ?_
    rcases r with e | _ | u
    · rfl
    · exact noHoldAndWait_createUserJit sub
    · rfl

/-- Nor does reactivating an account. -/
theorem noHoldAndWait_reactivateAccount (user : User) :
    (reactivateAccount user).NoHoldAndWait Released false := by
  unfold reactivateAccount
  split_ifs
  · rfl
  · rfl
  · exact ⟨rfl, (readOnly_refresh _ _).noHoldAndWait fun _ => rfl, fun _ => rfl⟩

/-- `get_current_user` writes at most once in a transaction. -/
theorem noHoldAndWait_getCurrentUser (request : Request) :
    (getCurrentUser c request).NoHoldAndWait Released false := by
  simp only [getCurrentUser, Prog.bind_eq]
  rw [Prog.noHoldAndWait_bind]
  refine (noHoldAndWait_resolveUser request).mono ?_
  rintro (e | user) b rfl
  · rfl
  · dsimp only
    split_ifs
    · rfl
    · rw [Prog.noHoldAndWait_bind]
      refine (noHoldAndWait_reactivateAccount user).mono ?_
      rintro (e | user) b rfl
      · rfl
      · rfl
    · rfl

/-- Looking for the account of an event writes nothing. -/
theorem readOnly_lookupUser (sub : String) : (lookupUser sub).ReadOnly :=
  (Prog.readOnly_query _ _).bind fun _ => trivial

/-- Its upsert does not wait while it holds locks. -/
theorem noHoldAndWait_upsertUser (data : ClerkUserData) :
    (upsertUser c data).NoHoldAndWait Released false := by
  show ((lookupUser data.id).bind _).NoHoldAndWait _ _
  rw [Prog.noHoldAndWait_bind]
  refine (readOnly_lookupUser data.id).noHoldAndWait fun r => ?_
  rcases r with e | _ | user
  · rfl
  · exact ⟨rfl, rfl, fun _ => rfl⟩
  · exact ⟨rfl, rfl, fun _ => rfl⟩

/-- Nor does its deletion. -/
theorem noHoldAndWait_deleteUser (sub : String) :
    (deleteUser sub).NoHoldAndWait Released false := by
  show ((lookupUser sub).bind _).NoHoldAndWait _ _
  rw [Prog.noHoldAndWait_bind]
  refine (readOnly_lookupUser sub).noHoldAndWait fun r => ?_
  rcases r with e | _ | user
  · rfl
  · rfl
  · exact ⟨rfl, rfl, fun _ => rfl⟩

/-- So does the webhook. -/
theorem noHoldAndWait_handleClerkWebhook (request : WebhookRequest) :
    (handleClerkWebhook c request).NoHoldAndWait Released false := by
  simp only [handleClerkWebhook, Prog.bind_eq]
  cases hevent : request.event with
  | none =>
    obtain ⟨e, he⟩ := verifySignature_of_no_event hevent
    rw [he]
    rfl
  | some event =>
    rw [verifySignature_of_event hevent, Prog.pure_eq, Prog.ret_bind]
    have hthen : ∀ {p : Service Unit}, p.NoHoldAndWait Released false →
        (p.bind fun _ => pure (WebhookAckResponse.mk "ok")).NoHoldAndWait Released false := by
      intro p hp
      rw [Prog.noHoldAndWait_bind]
      refine hp.mono ?_
      rintro (e | _) b rfl
      · rfl
      · rfl
    split_ifs
    · exact hthen (noHoldAndWait_upsertUser event.data)
    · exact hthen (noHoldAndWait_deleteUser event.data.id)
    · rfl

/-- A request whose result is dropped. -/
theorem unwaiting_start_drop {α : Type} {p : Service α} (hp : p.NoHoldAndWait Released false) :
    (Session.start none (p.bind fun _ => .ret ()) :
      Session Db Lock Identity Stmt PyError Unit).Unwaiting := by
  refine Session.unwaiting_start ?_
  rw [Prog.noHoldAndWait_bind]
  refine hp.mono ?_
  rintro (e | a) b -
  · trivial
  · trivial

end Waiting

/-! ## Every run -/

section Runs

variable {ι : Type} [Fintype ι] [DecidableEq ι]

/-- The requests before their first statements: the webhook is `none`, and the first requests are
numbered. -/
def arrivalWorld (c : Option ι → Ctx) (request : WebhookRequest) (sub : String) (db : Db) :
    World (Option ι) Db Lock Identity Stmt PyError Unit :=
  World.start db fun
    | none => Session.start none ((handleClerkWebhook (c none) request).bind fun _ => .ret ())
    | some i => Session.start none ((getCurrentUser (c (some i)) ⟨.ok sub⟩).bind fun _ => .ret ())

/-- A first request does not commit its row between the lookup and the upsert of the webhook. -/
def CommitsOutsideWindow (sub : String)
    (w : World (Option ι) Db Lock Identity Stmt PyError Unit) : Option ι → Prop
  | none => True
  | some i => (w.sessions (some i)).prog.isCommit = true →
    ¬ Searched sub (w.sessions none).toLocal w.committed

instance (sub : String) (w : World (Option ι) Db Lock Identity Stmt PyError Unit) (i : Option ι) :
    Decidable (CommitsOutsideWindow sub w i) :=
  match i with
  | none => isTrue trivial
  | some i => inferInstanceAs (Decidable ((w.sessions (some i)).prog.isCommit = true →
      ¬ Searched sub (w.sessions none).toLocal w.committed))

/-- The protocols of the requests. -/
def arrivalProtocol (db : Db) (data : ClerkUserData) :
    Option ι → Protocol Db Lock Identity Stmt PyError Unit
  | none => webhookProtocol db data.id (data.primaryEmail, data.imageUrl)
  | some _ => firstRequestProtocol db data.id

/-- What holds of every world that such a run reaches. -/
structure ArrivalRun (db : Db) (data : ClerkUserData)
    (w : World (Option ι) Db Lock Identity Stmt PyError Unit) : Prop where
  holds : w.Holds (arrivalProtocol db data)
  exclusive : w.Exclusive
  arrived : Arrived db data.id w.committed
  unwaiting : w.Unwaiting

variable {c : Option ι → Ctx} {request : WebhookRequest} {event : ClerkWebhookEvent} {db : Db}
  {data : ClerkUserData} {w w' : World (Option ι) Db Lock Identity Stmt PyError Unit}

omit [Fintype ι] [DecidableEq ι] in
/-- No session waits at first. -/
theorem unwaiting_arrivalWorld {sub : String} : (arrivalWorld c request sub db).Unwaiting
  | none => unwaiting_start_drop (noHoldAndWait_handleClerkWebhook request)
  | some _ => unwaiting_start_drop (noHoldAndWait_getCurrentUser _)

omit [Fintype ι] [DecidableEq ι] in
/-- At first each session keeps its protocol, and the account has not arrived. -/
theorem arrivalRun_start (hevent : request.event = some event)
    (htype : event.type = "user.created") (hnew : db.account event.data.id = none)
    (hwebhook : db.Admits (event.data.row (c none)))
    (hrequests : ∀ i, db.Admits (jitUser (c (some i)) event.data.id)) :
    ArrivalRun db event.data (arrivalWorld c request event.data.id db) where
  holds
    | none => holds_handleClerkWebhook hevent htype hnew hwebhook (arrived_start hnew)
    | some i => holds_getCurrentUser hnew (hrequests i) (arrived_start hnew)
  exclusive := by
    refine World.exclusive_start fun i => ?_
    cases i with
    | none | some i => rfl
  arrived := arrived_start hnew
  unwaiting := unwaiting_arrivalWorld

/-- A step of a first request that commits outside the window, if it commits. -/
theorem ArrivalRun.step_request (h : ArrivalRun db data w) {i : ι}
    (hC : CommitsOutsideWindow data.id w (some i)) (hs : w.step (some i) = some w') :
    ArrivalRun db data w' := by
  obtain ⟨-, -, -, -, hcommit⟩ := World.step_spec hs
  refine ⟨h.holds.step hs ?_, h.exclusive.step hs, ?_, h.unwaiting.step hs⟩
  · rintro ⟨hnone, harrived, hheld⟩ j hj
    rcases hcommit with hsame | ⟨k, hk, -⟩
    · rw [hsame]
      exact (arrivalProtocol db data j).rely_refl _ _
    have honward : Onward db data.id (w.sessions j).toLocal w.committed w'.committed := by
      refine ⟨harrived, fun u hu => ?_, fun hj' => ?_⟩
      · rw [hnone] at hu
        cases hu
      · exact absurd hj' (h.exclusive _ j hj.symm _ hheld)
    cases j with
    | none =>
      refine ⟨honward, fun hsome => absurd hnone hsome, fun hsearched => ?_⟩
      exact absurd hsearched (hC (by rw [hk]; rfl))
    | some j => exact honward
  · rcases h.holds.guar_of_step hs with hsame | hguar
    · rw [hsame]
      exact h.arrived
    · exact hguar.2.1 h.arrived

/-- The commit of the webhook. -/
theorem ArrivalRun.step_webhook (h : ArrivalRun db data w) (hs : w.step none = some w') :
    ArrivalRun db data w' := by
  have hlocked : identityLock data.id ∈ (w.sessions none).locks → ∀ j, j ≠ none →
      identityLock data.id ∉ (w.sessions j).locks :=
    fun hheld j hj => h.exclusive none j hj.symm _ hheld
  refine ⟨h.holds.step hs ?_, h.exclusive.step hs, ?_, h.unwaiting.step hs⟩
  · rintro ⟨harrived, hkept, hheld⟩ j hj
    cases j with
    | none => exact absurd rfl hj
    | some j => exact ⟨harrived, hkept, fun hj' => absurd hj' (hlocked hheld _ hj)⟩
  · rcases h.holds.guar_of_step hs with hsame | hguar
    · rw [hsame]
      exact h.arrived
    · exact hguar.1 h.arrived

omit [Fintype ι] [DecidableEq ι] in
/-- No session has failed. -/
theorem ArrivalRun.not_failed (h : ArrivalRun db data w) (i : Option ι) (e : PyError) :
    (w.sessions i).prog.result ≠ some (.error e) := by
  intro hresult
  have hi := h.holds i
  cases hp : (w.sessions i).prog with
  | raise e' =>
    rw [hp] at hi
    have hpost := hi _ ((arrivalProtocol db data i).rely_refl _ _)
    cases i with
    | none => cases hpost.1
    | some i => cases hpost
  | ret | select | execute | commit | rollback | assign =>
    rw [hp] at hresult
    cases hresult

omit [Fintype ι] [DecidableEq ι] in
/-- Once the webhook's session is closed, its profile is that of the account. -/
theorem ArrivalRun.profile_eq (h : ArrivalRun db data w)
    (hclosed : (w.sessions none).closed = true) :
    w.committed.profile data.id = some (data.primaryEmail, data.imageUrl) := by
  have hnone := h.holds none
  have hended := (h.unwaiting none).ended hclosed
  cases hp : (w.sessions none).prog with
  | ret a =>
    rw [hp] at hnone
    exact hnone.post_ok.2
  | raise e =>
    have hresult : (w.sessions none).prog.result = some (.error e) := by
      rw [hp]
      rfl
    exact absurd hresult (h.not_failed none e)
  | select | execute | commit | rollback | assign =>
    rw [hp] at hended
    cases hended

/-- Any number of first requests of a new identity and the webhook that announces it, interleaved in
any order. Whichever of them move, they come to an end, with every session closed. In a run in which
no first request commits its row between the lookup and the upsert of the webhook, no session ever
fails, and when all are closed one row has the identity, with the email and the avatar of the
webhook. -/
theorem first_requests_complete (c : Option ι → Ctx) (request : WebhookRequest)
    (event : ClerkWebhookEvent) (db : Db) (hevent : request.event = some event)
    (htype : event.type = "user.created") (hnew : db.account event.data.id = none)
    (hwebhook : db.Admits (event.data.row (c none)))
    (hrequests : ∀ i, db.Admits (jitUser (c (some i)) event.data.id)) :
    (arrivalWorld c request event.data.id db).Ends ∧
      ∀ (sched : List (Option ι)) (w : World (Option ι) Db Lock Identity Stmt PyError Unit),
        (arrivalWorld c request event.data.id db).exec sched = some w →
        (arrivalWorld c request event.data.id db).Always (CommitsOutsideWindow event.data.id)
          sched →
        (∀ i e, (w.sessions i).prog.result ≠ some (.error e)) ∧
          (w.Closed → ∃ u, w.committed.users.select (User.hasIdentity event.data.id) = [u] ∧
            u.email = event.data.primaryEmail ∧ u.avatarUrl = event.data.imageUrl) := by
  refine ⟨unwaiting_arrivalWorld.ends, fun sched w hexec hsteps => ?_⟩
  have hrun : ArrivalRun db event.data w := by
    refine World.exec_induction ?_ (arrivalRun_start hevent htype hnew hwebhook hrequests)
      hsteps hexec
    intro w i w' h hC hs
    cases i with
    | none => exact h.step_webhook hs
    | some i => exact h.step_request hC hs
  refine ⟨hrun.not_failed, fun hclosed => ?_⟩
  obtain ⟨u, hu, hprofile⟩ := Option.map_eq_some_iff.mp (hrun.profile_eq (hclosed none))
  obtain ⟨hemail, havatar⟩ := Prod.mk.inj hprofile
  refine ⟨u, ?_, hemail, havatar⟩
  rw [hrun.arrived.select_eq hnew, hu]
  rfl

end Runs

/-! ## A first request and its webhook -/

def arrivalCtx : Option (Fin 1) → Ctx
  | none => .fixed 1 8
  | some _ => .fixed 1 9

/-- Ada's first request and the webhook that announces her. -/
def adaArrives : World (Option (Fin 1)) Db Lock Identity Stmt PyError Unit :=
  arrivalWorld arrivalCtx (signed adaCreated) "sub_1" Db.empty

/-- The request has looked for the row when the webhook begins, and inserts it when the webhook is
over. -/
def webhookAhead : List (Option (Fin 1)) :=
  some (Fin.last 0) :: (List.replicate 4 none ++ List.replicate 5 (some (Fin.last 0)))

/-- The webhook has looked for the row when the request begins, and upserts it when the request is
over. -/
def requestAhead : List (Option (Fin 1)) :=
  none :: (List.replicate 6 (some (Fin.last 0)) ++ List.replicate 2 none)

/-- Nothing stands in the way of a row in an empty database. -/
theorem admits_empty (u : User) : Db.empty.Admits u where
  id x hx := absurd hx (Table.not_mem_empty x)
  unblocked r hr := absurd hr (Table.not_mem_empty r)
  username x hx := absurd hx (Table.not_mem_empty x)
  email x hx := absurd hx (Table.not_mem_empty x)

/-- A first request that the webhook overtakes: one row, with what the event gives. -/
theorem first_requests_complete_webhookAhead :
    ∃ u, ((adaArrives.exec webhookAhead).get (by decide)).committed.users.select
        (User.hasIdentity "sub_1") = [u] ∧
      u.email = adaCreated.data.primaryEmail ∧ u.avatarUrl = adaCreated.data.imageUrl :=
  ((first_requests_complete arrivalCtx (signed adaCreated) adaCreated Db.empty rfl rfl rfl
    (admits_empty _) fun _ => admits_empty _).2 webhookAhead _ (Option.some_get _).symm
    (by decide)).2 (show ∀ i, (((adaArrives.exec webhookAhead).get
      (by decide)).sessions i).closed = true by decide)

/-- If the webhook's lookup and its upsert are not one step, it may fail. -/
theorem webhook_can_fail :
    ¬ ∀ (n : ℕ) (c : Option (Fin n) → Ctx) (request : WebhookRequest) (event : ClerkWebhookEvent)
      (db : Db) (sched : List (Option (Fin n)))
      (w : World (Option (Fin n)) Db Lock Identity Stmt PyError Unit),
      request.event = some event → event.type = "user.created" →
      db.account event.data.id = none → db.Admits (event.data.row (c none)) →
      (∀ i, db.Admits (jitUser (c (some i)) event.data.id)) →
      (arrivalWorld c request event.data.id db).exec sched = some w → w.Closed →
      (∀ i e, (w.sessions i).prog.result ≠ some (.error e)) ∧
        ∃ u, w.committed.users.select (User.hasIdentity event.data.id) = [u] ∧
          u.email = event.data.primaryEmail ∧ u.avatarUrl = event.data.imageUrl := by
  intro h
  have hall := h 1 arrivalCtx (signed adaCreated) adaCreated Db.empty requestAhead
    ((adaArrives.exec requestAhead).get (by decide)) rfl rfl rfl (admits_empty _)
    (fun _ => admits_empty _) (Option.some_get _).symm
    (show ∀ i, (((adaArrives.exec requestAhead).get (by decide)).sessions i).closed = true by
      decide)
  refine hall.1 none (.database .rowSecurity) ?_
  rfl

end OburBackend
