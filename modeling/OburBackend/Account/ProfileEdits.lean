import OburBackend.Model.Consistent
import OburBackend.Service.Account

/-!
# What an edit of a profile ends with

`update_profile` on the stored row of its caller, alone. A handle that differs from the stored one
passes the interval, then the search for somebody who has it, and then the `UPDATE`, which the
constraints check once more. The search reads through `users_select`, which hides whoever is in a
block with the caller; the unique constraint sees everybody. So a handle that a hidden account has
is found free and violates the constraint.
-/

namespace OburBackend

open Sql

/-- Somebody else has the handle. -/
def Db.HeldByOther (db : Db) (u : User) (username : String) : Prop :=
  ∃ x ∈ db.users, x.id ≠ u.id ∧ x.username = username

/-- Somebody else has the handle whom the user sees: the user is an administrator, or there is no
block between the two. -/
def Db.SeesHolder (db : Db) (u : User) (username : String) : Prop :=
  ∃ x ∈ db.users, x.id ≠ u.id ∧ x.username = username ∧
    (u.role = UserRole.admin ∨ ¬ db.Blocked x.id u.id)

/-- The last change of the handle lies inside the interval. -/
def User.ChangedTooRecently (u : User) (now : Timestamp) : Prop :=
  ∃ changedAt, u.usernameChangedAt = some changedAt ∧ now < nextUsernameChangeAllowedAt changedAt

namespace ProfileChanges

/-- No field with a `NOT NULL` column is given as an explicit `null`. -/
structure KeepsRequired (changes : ProfileChanges) : Prop where
  displayName : changes.displayName ≠ some none
  locale : changes.locale ≠ some none

/-- The row that the edit leaves, `none` when a `NOT NULL` column becomes `NULL`. -/
def edited (changes : ProfileChanges) (c : Ctx) (u : User) : Option User :=
  (changes.changed u).set (changes.newUsername u) c.now u

/-- The data with the row edited. -/
def saved (changes : ProfileChanges) (c : Ctx) (u : User) : Db → Db :=
  users.set u.id ((changes.changed u).set (changes.newUsername u) c.now)
    ((changes.changed u).set_id (changes.newUsername u) c.now)

variable {changes : ProfileChanges} {c : Ctx} {db : Db} {u u' : User} {username : String}

/-! ## The edited row -/

/-- Leaving out the fields that are as they were changes nothing. -/
theorem edited_eq_set : changes.edited c u = changes.set (changes.newUsername u) c.now u := by
  simp only [edited, set, changed, Field.notNull_changed, Field.nullable_changed]

/-- The edit leaves a row unless it gives a `null` where none may be. -/
theorem edited_eq_none : changes.edited c u = none ↔ ¬ changes.KeepsRequired := by
  have hrequired : changes.KeepsRequired ↔
      changes.displayName.notNull u.displayName ≠ none ∧
        changes.locale.notNull u.locale ≠ none := by
    rw [ne_eq, ne_eq, Field.notNull_eq_none, Field.notNull_eq_none]
    exact ⟨fun h => ⟨h.displayName, h.locale⟩, fun h => ⟨h.1, h.2⟩⟩
  rw [edited_eq_set, hrequired, set]
  cases changes.displayName.notNull u.displayName with
  | none => simp
  | some displayName =>
    cases changes.locale.notNull u.locale with
    | none => simp
    | some locale => simp

/-- An edit that keeps the required columns makes a row. -/
theorem exists_edited (h : changes.KeepsRequired) (c : Ctx) (u : User) :
    ∃ u', changes.edited c u = some u' :=
  Option.ne_none_iff_exists'.mp fun hnone => edited_eq_none.mp hnone h

/-- The edit keeps what it does not mention. -/
theorem edited_eq_some (h : changes.edited c u = some u') :
    u'.id = u.id ∧ u'.authProvider = u.authProvider ∧ u'.authProviderId = u.authProviderId ∧
      u'.email = u.email ∧ u'.username = (changes.newUsername u).getD u.username := by
  simp only [edited, set, Option.bind_eq_bind, Option.bind_eq_some_iff, Option.pure_def,
    Option.some.injEq] at h
  obtain ⟨_, _, _, _, rfl⟩ := h
  exact ⟨rfl, rfl, rfl, rfl, rfl⟩

/-- The constraints pass the edited row unless somebody else has its handle: its other columns are
those of the stored row, or under no constraint. -/
theorem constraints_edited (hdb : Consistent db) (hu : u ∈ db.users)
    (hedit : changes.edited c u = some u') :
    usersConstraints db u' = true ↔ ¬ db.HeldByOther u u'.username := by
  obtain ⟨hid, hprovider, hsub, hemail, -⟩ := edited_eq_some hedit
  have hcons : usersConstraints db u = true := hdb.users u hu
  simp only [usersConstraints, Bool.and_eq_true] at hcons ⊢
  have hidentity : uniqueIn db.users (fun x => some (x.authProvider, x.authProviderId)) u' = true :=
    uniqueIn_of_forall hcons.1 hid (.inl (by rw [hprovider, hsub]))
      fun x hx => ⟨x, hx, rfl, .inl rfl⟩
  have hmail : uniqueIn db.users User.email u' = true :=
    uniqueIn_of_forall hcons.2.2 hid (.inl hemail) fun x hx => ⟨x, hx, rfl, .inl rfl⟩
  simp only [hidentity, hmail, true_and, and_true, uniqueIn_eq_true, Db.HeldByOther, hid,
    Option.some.injEq, reduceCtorEq, imp_false, not_exists, not_and]

/-! ## The search for the handle -/

/-- A user sees everybody but those in a block with them. -/
theorem holds_select_iff {x : User} (hu : u ∈ db.users) :
    ((usersPolicy (some u.id) db).select x).Holds ↔
      u.role = UserRole.admin ∨ ¬ db.Blocked x.id u.id := by
  have hstored : db.Stored u := ⟨u, hu, rfl, rfl⟩
  rw [holds_usersPolicy_select, hstored.isAdmin_iff]
  simp

/-- `_ensure_username_available` raises when the user sees somebody with the handle, and passes
otherwise. -/
theorem run_ensureUsernameAvailable (hdb : Consistent db) (hu : u ∈ db.users) :
    (db.SeesHolder u username ∧
        (ensureUsernameAvailable username u.id).run (Conn.start (some u.id) db) =
          (.error (.domain .usernameTaken ("username already taken: " ++ username)),
            Conn.start (some u.id) db)) ∨
      (¬ db.SeesHolder u username ∧
        (ensureUsernameAvailable username u.id).run (Conn.start (some u.id) db) =
          (.ok (), Conn.start (some u.id) db)) := by
  simp only [ensureUsernameAvailable, select, Prog.bind_eq, run_query_bind, Conn.start_vars,
    Conn.start_working]
  have hmem : ∀ x, x ∈ users.rows (some u.id) db (fun x =>
      decide (x.username = username) && decide (x.id ≠ u.id)) ↔
        x ∈ db.users ∧ x.id ≠ u.id ∧ x.username = username ∧
          (u.role = UserRole.admin ∨ ¬ db.Blocked x.id u.id) := by
    intro x
    rw [users.mem_rows, users_policy, holds_select_iff hu]
    simp only [users_read, Bool.and_eq_true, decide_eq_true_eq]
    tauto
  have hnodup := users.rows_nodup (l := some u.id) (s := db)
    (p := fun x => decide (x.username = username) && decide (x.id ≠ u.id))
  generalize users.rows (some u.id) db _ = rows at hmem hnodup
  rcases rows with _ | ⟨x, _ | ⟨x', rest⟩⟩
  · refine .inr ⟨?_, rfl⟩
    rintro ⟨x, hx⟩
    exact absurd ((hmem x).mpr hx) List.not_mem_nil
  · exact .inl ⟨⟨x, (hmem x).mp List.mem_cons_self⟩, rfl⟩
  · -- two rows with one handle
    obtain ⟨hx, -, hname, -⟩ := (hmem x).mp List.mem_cons_self
    obtain ⟨hx', -, hname', -⟩ := (hmem x').mp (List.mem_cons_of_mem _ List.mem_cons_self)
    have hcons : usersConstraints db x = true := hdb.users x hx
    simp only [usersConstraints, Bool.and_eq_true] at hcons
    have hsame : x' = x := eq_of_uniqueIn hcons.2.1 hx hx' (congrArg some hname)
      (congrArg some hname')
    rw [hsame] at hnodup
    exact absurd List.mem_cons_self (List.nodup_cons.mp hnodup).1

/-! ## The edit alone -/

/-- An edit that changes no column leaves the row as it is. -/
theorem edited_of_unchanged (h : ¬ ((changes.newUsername u).isSome ∨ changes.changed u ≠ {})) :
    changes.edited c u = some u ∧ changes.saved c u db = db := by
  obtain ⟨hname, hchanged⟩ := not_or.mp h
  have hname : changes.newUsername u = none := by simpa using hname
  have hchanged : changes.changed u = {} := by simpa using hchanged
  have hset : ∀ x, ({} : ProfileChanges).set none c.now x = some x := fun _ => rfl
  constructor
  · rw [edited, hchanged, hname, hset]
  · have hsame : (changes.saved c u db).users = db.users := by
      refine @Table.modify_eq_self _ _ _ _ _ _ (TableDef.key_getD ((changes.changed u).set_id _ _))
        fun x => ?_
      rw [hchanged, hname, hset, Option.getD_some]
    show { db with users := (changes.saved c u db).users } = db
    rw [hsame]

/-- The row is stored as edited. -/
theorem mem_saved (hu : u ∈ db.users) (hedit : changes.edited c u = some u') {x : User} :
    x ∈ (changes.saved c u db).users ↔ x = u' ∨ x ∈ db.users ∧ x.id ≠ u.id := by
  have hmem := Table.mem_modify_key (x := x)
    (TableDef.key_getD ((changes.changed u).set_id (changes.newUsername u) c.now)) hu
  rw [show ((changes.changed u).set (changes.newUsername u) c.now u) = some u' from hedit,
    Option.getD_some] at hmem
  exact hmem

/-- The end of `update_profile`: the edited row is stored and read back if the constraints pass it
and the data fit. -/
theorem run_saveProfile (fits : Db → Bool) (c : Ctx) (changes : ProfileChanges)
    (hdb : Consistent db) (hfits : fits db = true) (hu : u ∈ db.users) :
    (∃ u', changes.edited c u = some u' ∧ usersConstraints db u' = true ∧
        fits (changes.saved c u db) = true ∧
        ((saveProfile c u changes).within fits).run (Conn.start (some u.id) db) =
          (.ok u', Conn.start (some u.id) (changes.saved c u db))) ∨
      ((∀ u', changes.edited c u = some u' → usersConstraints db u' = true →
          fits (changes.saved c u db) = false) ∧
        ∃ e, ((saveProfile c u changes).within fits).run (Conn.start (some u.id) db) =
          (.error (.database e), Conn.start (some u.id) db)) := by
  have howner : (rlsIsOwnerOrAdmin (some u.id) db (some u.id)).Holds :=
    holds_rlsIsOwnerOrAdmin.mpr (.inl rfl)
  have hid : ∀ u', changes.edited c u = some u' → u'.id = u.id := fun _ h => (edited_eq_some h).1
  refine run_save fits (f := (changes.changed u).set (changes.newUsername u) c.now)
    (lookup_self hdb hu) (hdb.users u hu) hfits howner (fun u' hedit => ?_)
    (fun u' hedit => ?_) edited_of_unchanged
  · refine ⟨?_, ?_⟩
    · show (rlsIsOwnerOrAdmin (some u.id) db (some u'.id)).Holds
      rw [hid u' hedit]
      exact howner
    · rw [← hid u' hedit]
      exact hdb.sees_self rfl u'
  · refine users.lookup_eq_some.mpr ⟨(mem_saved hu hedit).mpr (.inl rfl), hid u' hedit, ?_⟩
    have hsees := hdb.sees_self (s := changes.saved c u db) rfl u'
    rw [hid u' hedit] at hsees
    exact hsees

/-! ## A new handle -/

/-- The interval is checked first. -/
theorem run_updateProfile_of_recent (fits : Db → Bool)
    (hname : changes.newUsername u = some username)
    (hrecent : u.ChangedTooRecently c.now) :
    ∃ message, ((updateProfile c u changes).within fits).run (Conn.start (some u.id) db) =
      (.error (.domain .usernameChangedTooRecently message), Conn.start (some u.id) db) := by
  obtain ⟨changedAt, hat, hlt⟩ := hrecent
  simp only [updateProfile, hname, hat, Option.filter, decide_eq_true hlt, if_true]
  exact ⟨_, rfl⟩

/-- Outside the interval the search decides, and after it the end. -/
theorem run_updateProfile (fits : Db → Bool) (hname : changes.newUsername u = some username)
    (hrecent : ¬ u.ChangedTooRecently c.now) (hdb : Consistent db) (hu : u ∈ db.users) :
    (db.SeesHolder u username ∧
        ((updateProfile c u changes).within fits).run (Conn.start (some u.id) db) =
          (.error (.domain .usernameTaken ("username already taken: " ++ username)),
            Conn.start (some u.id) db)) ∨
      (¬ db.SeesHolder u username ∧
        ((updateProfile c u changes).within fits).run (Conn.start (some u.id) db) =
          ((saveProfile c u changes).within fits).run (Conn.start (some u.id) db)) := by
  have hlate : u.usernameChangedAt.filter
      (fun changedAt => decide (c.now < nextUsernameChangeAllowedAt changedAt)) = none :=
    Option.filter_eq_none_iff.mpr fun changedAt hat hlt =>
      hrecent ⟨changedAt, hat, of_decide_eq_true hlt⟩
  simp only [updateProfile, hname, hlate, Prog.bind_eq, Prog.within_bind,
    (readOnly_ensureUsernameAvailable _ _).within]
  rcases @run_ensureUsernameAvailable db u username hdb hu with ⟨hsee, hrun⟩ | ⟨hsee, hrun⟩
  · refine .inl ⟨hsee, ?_⟩
    rw [Prog.run_bind, hrun]
  · refine .inr ⟨hsee, ?_⟩
    rw [Prog.run_bind, hrun]

end ProfileChanges

def holder : User := User.create 2 "clerk" "sub_2" "grace" "Grace" 0

end OburBackend
