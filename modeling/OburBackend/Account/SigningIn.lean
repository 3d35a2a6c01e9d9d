import OburBackend.Service.Account

/-!
# A frozen account signs in

Signing in is meant to be what reactivates a frozen account. `get_current_user` writes the new
status before it installs the caller's identity, so the `users_update` policy compares the row with
a `NULL` identity and hides it from the `UPDATE`. The flush that expects to change one row changes
none, raises and rolls back: no frozen account can sign in again.
-/

namespace OburBackend

open Sql

/-- A request without an identity sees every user. -/
theorem usersPolicy_select_none (db : Db) (u : User) :
    ((usersPolicy none db).select u).Holds := by
  simp [usersPolicy]

/-- A request without an identity changes no user. -/
theorem not_usersPolicy_updateUsing_none (db : Db) (u : User) :
    ¬ ((usersPolicy none db).updateUsing u).Holds := by
  simp [usersPolicy]

variable {db : Db} {user : User}

/-- `_find_user` finds the user with the token's `sub` claim, unless there are several. -/
theorem run_findUser (hmem : user ∈ db.users) (hprovider : user.authProvider = authProvider) :
    (findUser user.authProviderId).run (Conn.start none db) =
        (.ok (some user), Conn.start none db) ∨
      (findUser user.authProviderId).run (Conn.start none db) =
        (.error .multipleResultsFound, Conn.start none db) := by
  simp only [findUser, Prog.bind_eq, select, run_query_bind]
  have hrow : user ∈ users.rows none db fun u =>
      decide (u.authProvider = authProvider) && decide (u.authProviderId = user.authProviderId) :=
    users.mem_rows.mpr ⟨hmem, by simp [hprovider], usersPolicy_select_none db user⟩
  simp only [Conn.start_vars, Conn.start_working]
  generalize (users.rows none db fun u => decide (u.authProvider = authProvider) &&
    decide (u.authProviderId = user.authProviderId)) = rows at hrow
  rcases rows with _ | ⟨r, _ | ⟨r', rows⟩⟩
  · exact absurd hrow List.not_mem_nil
  · left
    rw [List.mem_singleton.mp hrow]
    rfl
  · right
    rfl

/-- Reactivating a frozen account without an identity raises and changes nothing. -/
theorem run_reactivateAccount (hstatus : user.status = .frozen) :
    (reactivateAccount user).run (Conn.start none db) =
      (.error (.database .staleData), Conn.start none db) := by
  have hne : user.status ≠ .active := by
    rw [hstatus]
    decide
  simp only [reactivateAccount, hstatus, reduceCtorEq, if_false, ne_eq, not_true_eq_false,
    Prog.bind_eq, setStatus]
  rw [run_update_staleData]
  · rfl
  · intro r _
    exact not_usersPolicy_updateUsing_none db r

/-- What signing in promises a frozen account: the request ends with the user, and the stored status
is active. -/
def Reactivates (c : Ctx) (db : Db) (user : User) : Prop :=
  (∃ u, (getCurrentUser c ⟨.ok user.authProviderId⟩).outcome none db = .ok u ∧ u.id = user.id) ∧
    ∃ u ∈ ((getCurrentUser c ⟨.ok user.authProviderId⟩).after none db).users,
      u.id = user.id ∧ u.status = .active

/-- What a request with a valid token ends with: an active account gets its user and installs its
identity, and every other request fails and changes nothing. -/
theorem run_getCurrentUser (c : Ctx) (hmem : user ∈ db.users)
    (hprovider : user.authProvider = authProvider) :
    user.status = .active ∧ (getCurrentUser c ⟨.ok user.authProviderId⟩).run (Conn.start none db) =
        (.ok user, ⟨some user.id, db, db⟩) ∨
      ∃ e, (getCurrentUser c ⟨.ok user.authProviderId⟩).run (Conn.start none db) =
        (.error e, Conn.start none db) := by
  simp only [getCurrentUser, resolveUser, verifySession, Prog.pure_eq, Prog.bind_eq, Prog.ret_bind]
  rw [Prog.run_bind, Prog.run_bind]
  rcases run_findUser hmem hprovider with hfind | hfind
  · simp only [hfind, Prog.run_ret]
    cases hstatus : user.status with
    | active => exact .inl ⟨rfl, rfl⟩
    | suspended => exact .inr ⟨.problem "account-suspended", rfl⟩
    | frozen =>
      refine .inr ⟨.database .staleData, ?_⟩
      simp only [reduceCtorEq, if_false, if_true]
      rw [Prog.run_bind, run_reactivateAccount hstatus]
  · exact .inr ⟨.multipleResultsFound, by rw [hfind]⟩

/-- An endpoint that resolves its caller first does the rest under the caller's identity. -/
theorem outcome_of_signedIn {α : Type} {c : Ctx} {k : User → Service α} {a : α}
    (hmem : user ∈ db.users) (hprovider : user.authProvider = authProvider)
    (hout : ((getCurrentUser c ⟨.ok user.authProviderId⟩).bind k).outcome none db = .ok a) :
    (k user).outcome (some user.id) db = .ok a := by
  rw [Prog.outcome, Prog.run_bind] at hout
  rcases run_getCurrentUser c hmem hprovider with ⟨-, hrun⟩ | ⟨e, hrun⟩
  · rw [hrun] at hout
    exact hout
  · rw [hrun] at hout
    cases hout

/-- No frozen account is ever reactivated by signing in: the request fails and the data stays as it
was. -/
theorem not_reactivates (c : Ctx) (db : Db) (user : User) (hmem : user ∈ db.users)
    (hprovider : user.authProvider = authProvider) (hstatus : user.status = .frozen) :
    ¬ Reactivates c db user ∧
      (getCurrentUser c ⟨.ok user.authProviderId⟩).after none db = db := by
  obtain ⟨hactive, -⟩ | ⟨e, hrun⟩ := run_getCurrentUser c hmem hprovider
  · rw [hstatus] at hactive
    cases hactive
  refine ⟨?_, by rw [Prog.after, hrun]; rfl⟩
  rintro ⟨⟨u, hout, -⟩, -⟩
  rw [Prog.outcome, hrun] at hout
  cases hout

/-- An account that has frozen itself. -/
def frozenUser : User := { User.create 1 "clerk" "sub_1" "ada" "Ada" 0 with status := .frozen }

/-- The database that holds this account alone. -/
def frozenDb : Db := { Db.empty with users := Table.empty.insert frozenUser }

/-- A frozen user signs in and stays frozen. -/
theorem not_reactivates_frozenUser :
    ¬ Reactivates (.fixed 1 9) frozenDb frozenUser ∧
      (getCurrentUser (.fixed 1 9) ⟨.ok frozenUser.authProviderId⟩).after none frozenDb =
        frozenDb :=
  not_reactivates (.fixed 1 9) frozenDb frozenUser (by decide) rfl rfl

/-- The request of this account raises, so signing in does not reactivate every frozen account. -/
theorem signing_in_can_fail :
    ¬ ∀ (c : Ctx) (db : Db) (user : User), user ∈ db.users → user.authProvider = authProvider →
      user.status = .frozen → Reactivates c db user := by
  intro h
  obtain ⟨⟨u, hout, -⟩, -⟩ := h (.fixed 1 9) frozenDb frozenUser (by decide) rfl rfl
  have hrun : (getCurrentUser (.fixed 1 9) ⟨.ok frozenUser.authProviderId⟩).outcome none frozenDb =
      .error (.database .staleData) := rfl
  rw [hrun] at hout
  cases hout

end OburBackend
