import OburBackend.Model.Tables
import OburBackend.Sql.Query
import OburBackend.Sql.Keeps
import OburBackend.Sql.Rules
import OburBackend.Sql.Within

/-!
# Requests

A service function is a `Service`: a program of statements on `Db`, whose session variable is the
identity that the row policies read. What a request takes from outside the database (the clock, new
ids, the time zone database, the ordering keys of a third-party package) is its `Ctx`.
-/

namespace OburBackend

open Sql

/-- The exception classes of `app/exceptions` that the modelled functions raise. -/
inductive ErrorClass where
  | invalidToken
  | invalidWebhookSignature
  | checkinNotFound
  | futureVisitDate
  | notCheckinOwner
  | contentReportNotFound
  | selfFollow
  | followNotFound
  | notAFollower
  | closeFriendNotFound
  | listNotFound
  | notListOwner
  | listItemNotFound
  | duplicateListItem
  | likeNotFound
  | bookmarkNotFound
  | selfBlock
  | blockNotFound
  | selfMute
  | muteNotFound
  | usernameTaken
  | usernameChangedTooRecently
  | accountNotFrozen
  | userNotFound
  | venueNotFound
  | duplicateVenueNearby
  | venueCategoryNotFound
  | venueNotEligibleForVerification
  | venueSaveNotFound
  | notVenueSaveOwner
  deriving DecidableEq, Repr

/-- What a request can raise. -/
inductive PyError where
  /-- An exception of `app/exceptions`, with its message. -/
  | domain (cls : ErrorClass) (message : String)
  /-- `ProblemError`, with the problem's code. -/
  | problem (code : String)
  /-- An error of the database, or of the flush that sent the statement. -/
  | database (e : DbError)
  /-- `InvalidRequestError`: `session.refresh` finds no row. -/
  | couldNotRefresh
  /-- `MultipleResultsFound`: `scalar_one_or_none` on two rows or more. -/
  | multipleResultsFound
  /-- `ValidationError`: a payload without the fields of its schema. -/
  | validationError
  /-- `TypeError`: comparing `None` with a date. -/
  | typeError
  /-- `ZoneInfoNotFoundError` -/
  | zoneInfoNotFound (key : String)
  /-- The error of `fractional_indexing`. -/
  | invalidOrderKey
  deriving DecidableEq, Repr

instance : OfDbError PyError := ⟨.database⟩

/-- A request, or a part of one. -/
abbrev Service := Prog Db Lock Identity Stmt PyError

/-- What a request takes from outside the database. -/
structure Ctx where
  now : Timestamp
  /-- `uuid.uuid4()`: the id of the request's `n`-th new row. -/
  uuid4 : ℕ → Uuid
  /-- `datetime.now(ZoneInfo(tz)).date()`, if there is such a zone. -/
  localToday : String → Option Date
  /-- `fractional_indexing.generate_key_between`, if it does not raise. -/
  generateKeyBetween : Option String → Option String → Option String
  /-- `uuid.uuid5` in the namespace of handles. -/
  uuid5 : String → Uuid
  /-- The order in which the database meets the items of a list. -/
  itemPlan : Plan ListItem

/-- A context with a stopped clock that hands out one id, for runs on concrete data. -/
def Ctx.fixed (now : Timestamp) (id : Uuid) : Ctx where
  now := now
  uuid4 _ := id
  localToday _ := none
  generateKeyBetween _ _ := none
  uuid5 _ := 0
  itemPlan := .sequential

/-- `raise cls(message)` -/
def raiseDomain {α : Type} (cls : ErrorClass) (message : String) : Service α :=
  .raise (.domain cls message)

@[simp] theorem readOnly_raiseDomain {α : Type} (cls : ErrorClass) (message : String) :
    (raiseDomain cls message : Service α).ReadOnly := trivial

section

variable {ρ π : Type} {key : ρ → π} (T : DbTable key)

/-- `select(Model).where(p)`, labelled with the ids it is about. -/
def select (table : TableName) (params : List Uuid) (p : ρ → Bool) : Service (List ρ) :=
  query ⟨.select, table, params⟩ fun me db => T.rows me db p

/-- A `SELECT` only reads. -/
theorem readOnly_select {table : TableName} {params : List Uuid} {p : ρ → Bool} :
    (select T table params p).ReadOnly := Prog.readOnly_query _ _

/-- `result.scalar_one_or_none()` -/
def scalarOneOrNone : List ρ → Service (Option ρ)
  | [] => return none
  | [r] => return some r
  | _ => .raise .multipleResultsFound

variable [DecidableEq π]

/-- `session.refresh(obj)`: the row as it is now. -/
def refresh (k : π) : Service ρ := do
  match ← T.get k with
  | some r => return r
  | none => .raise .couldNotRefresh

/-- Reading back writes nothing. -/
theorem readOnly_refresh (k : π) : (refresh T k).ReadOnly := by
  refine (readOnly_get k).bind fun r => ?_
  cases r <;> trivial

variable {T}

/-- Committing and reading back what was written. -/
theorem keeps_commit_refresh {Inv : Db → Prop} {me : Identity} {k : π} :
    (commit >>= fun _ => refresh T k : Service ρ).Keeps Inv me :=
  Prog.keeps_commit.bind fun _ => (readOnly_refresh _ _).keeps

/-- A row that the session sees is found again. -/
theorem run_refresh {conn : Conn Db Identity} {k : π} {r : ρ}
    (h : T.lookup conn.vars conn.working k = some r) : (refresh T k).run conn = (.ok r, conn) := by
  simp only [refresh, Prog.bind_eq, run_get_bind, h]
  rfl

/-- Changing a row that the session may change, committing and reading it back: the constraints
decide, and whether the data fit. -/
theorem run_write (fits : Db → Bool) {conn : Conn Db Identity} {k : π} {f : ρ → Option ρ}
    {hf : ∀ r r', f r = some r' → key r' = key r} {r : ρ}
    (hr : T.lookup conn.vars conn.working k = some r)
    (husing : ((T.policy conn.vars conn.working).updateUsing r).Holds)
    (hpass : ∀ r', f r = some r' → ((T.policy conn.vars conn.working).updateCheck r').Holds ∧
      ((T.policy conn.vars conn.working).select r').Holds)
    (hfound : ∀ r', f r = some r' → T.lookup conn.vars (T.set k f hf conn.working) k = some r') :
    let write : Service ρ := (T.update k f hf).bind fun _ => commit.bind fun _ => refresh T k
    let changed := T.set k f hf conn.working
    (∃ r', f r = some r' ∧ T.constraints conn.working r' = true ∧ fits changed = true ∧
        (write.within fits).run conn =
          (.ok r', { vars := conn.vars, committed := changed, working := changed })) ∨
      ((∀ r', f r = some r' → T.constraints conn.working r' = true → fits changed = false) ∧
        ∃ e, (write.within fits).run conn = (.error (.database e), conn.discard)) := by
  dsimp only
  have hwrite : T.updateWrite conn.vars conn.working k f hf = _ :=
    T.updateWrite_of_match hr husing hpass
  rw [Prog.within_bind, run_within_update_bind]
  by_cases hok : ∃ r', f r = some r' ∧ T.constraints conn.working r' = true ∧
      fits (T.set k f hf conn.working) = true
  · obtain ⟨r', hset, hcons, hfits⟩ := hok
    simp only [hset, hcons, if_true] at hwrite
    rw [fitting_eq_ok.mpr ⟨hwrite, hfits⟩]
    refine .inl ⟨r', hset, hcons, hfits, ?_⟩
    dsimp only
    rw [Prog.within_bind, Prog.within_commit, run_commit_bind, (readOnly_refresh _ _).within]
    exact run_refresh (hfound r' hset)
  · obtain ⟨e, he⟩ : ∃ e, fitting fits (T.updateWrite conn.vars conn.working k f hf) conn.working =
        .error e := by
      refine fitting_of_not fun wr hw => ?_
      obtain ⟨x, r', hx, -, hset, -, -, hcons, rfl⟩ := T.updateWrite_eq_ok hw
      obtain rfl : r = x := Option.some.inj (hr.symm.trans hx)
      exact Bool.eq_false_iff.mpr fun hfits => hok ⟨r', hset, hcons, hfits⟩
    rw [he]
    refine .inr ⟨fun r' hset hcons => ?_, e, rfl⟩
    exact Bool.eq_false_iff.mpr fun hfits => hok ⟨r', hset, hcons, hfits⟩

/-- The same in a fresh session, where nothing is sent when `p` fails: there is nothing to change
then. -/
theorem run_save (fits : Db → Bool) {p : Prop} [Decidable p] {me : Identity} {db : Db} {k : π}
    {f : ρ → Option ρ} {hf : ∀ r r', f r = some r' → key r' = key r} {r : ρ}
    (hr : T.lookup me db k = some r) (hcons : T.constraints db r = true) (hfits : fits db = true)
    (husing : ((T.policy me db).updateUsing r).Holds)
    (hpass : ∀ r', f r = some r' →
      ((T.policy me db).updateCheck r').Holds ∧ ((T.policy me db).select r').Holds)
    (hfound : ∀ r', f r = some r' → T.lookup me (T.set k f hf db) k = some r')
    (hsame : ¬ p → f r = some r ∧ T.set k f hf db = db) :
    let save : Service ρ :=
      if p then (T.update k f hf).bind fun _ => commit.bind fun _ => refresh T k
      else commit.bind fun _ => refresh T k
    (∃ r', f r = some r' ∧ T.constraints db r' = true ∧ fits (T.set k f hf db) = true ∧
        (save.within fits).run (Conn.start me db) = (.ok r', Conn.start me (T.set k f hf db))) ∨
      ((∀ r', f r = some r' → T.constraints db r' = true → fits (T.set k f hf db) = false) ∧
        ∃ e, (save.within fits).run (Conn.start me db) =
          (.error (.database e), Conn.start me db)) := by
  dsimp only
  split
  · exact @run_write _ _ _ T _ fits (Conn.start me db) k f hf r hr husing hpass hfound
  · next hp =>
    obtain ⟨hset, hdb⟩ := hsame hp
    refine .inl ⟨r, hset, hcons, by rw [hdb, hfits], ?_⟩
    rw [Prog.within_bind, Prog.within_commit, run_commit_bind, (readOnly_refresh _ _).within, hdb]
    exact run_refresh hr

end

/-- Nor does taking the one row of a result. -/
theorem readOnly_scalarOneOrNone {ρ : Type} (rows : List ρ) : (scalarOneOrNone rows).ReadOnly := by
  match rows with
  | [] | [_] | _ :: _ :: _ => trivial

/-- A field of an update: absent, or a value that may be `None`. -/
abbrev Field (α : Type) := Option (Option α)

/-- The field as the `UPDATE` sends it: a value equal to the loaded one is no change. -/
def Field.changed {α : Type} [DecidableEq α] (f : Field α) (loaded : Option α) : Field α :=
  f.filter fun v => decide (v ≠ loaded)

/-- The new value of a nullable column. -/
def Field.nullable {α : Type} (f : Field α) (old : Option α) : Option α := f.getD old

/-- The new value of a `NOT NULL` column, `none` when it would be `NULL`. -/
def Field.notNull {α : Type} (f : Field α) (old : α) : Option α := f.getD (some old)

/-- Leaving out a value that the column has already changes nothing. -/
theorem Field.notNull_changed {α : Type} [DecidableEq α] (f : Field α) (old : α) :
    (f.changed (some old)).notNull old = f.notNull old := by
  cases f with
  | none => rfl
  | some v =>
    by_cases hv : v = some old
    · simp [Field.changed, Field.notNull, Option.filter, hv]
    · simp [Field.changed, Field.notNull, Option.filter, hv]

/-- The same for a nullable column. -/
theorem Field.nullable_changed {α : Type} [DecidableEq α] (f : Field α) (old : Option α) :
    (f.changed old).nullable old = f.nullable old := by
  cases f with
  | none => rfl
  | some v =>
    by_cases hv : v = old
    · simp [Field.changed, Field.nullable, Option.filter, hv]
    · simp [Field.changed, Field.nullable, Option.filter, hv]

/-- A `NOT NULL` column becomes `NULL` when the field is an explicit `null`. -/
theorem Field.notNull_eq_none {α : Type} {f : Field α} {old : α} :
    f.notNull old = none ↔ f = some none := by
  cases f <;> simp [Field.notNull]

/-- A `NOT NULL` column takes the value that the field gives, if it gives one. -/
theorem Field.notNull_eq_some {α : Type} {f : Field α} {old new : α} :
    f.notNull old = some new ↔ f = none ∧ old = new ∨ f = some (some new) := by
  cases f <;> simp [Field.notNull]

/-- A `NOT NULL` column keeps its value when the field is absent. -/
theorem Field.notNull_of_none {α : Type} {f : Field α} {old new : α} (h : f.notNull old = some new)
    (hf : f = none) : new = old := by
  rw [hf] at h
  exact (Option.some.inj h).symm

/-! ## Handled endings -/

section

variable {α : Type} {p : Service α} {me : Identity} {db db' : Db} {Q : α → Db → Prop}

/-- A request that raises one of the exceptions of `app/exceptions` and changes nothing. -/
structure Refuses (p : Service α) (me : Identity) (db : Db) : Prop where
  raises : ∃ cls message, p.outcome me db = .error (.domain cls message)
  unchanged : p.after me db = db

/-- A request ends with a result and data as `Q` asks, or refuses. -/
def Settles (p : Service α) (me : Identity) (db : Db) (Q : α → Db → Prop) : Prop :=
  (∃ a, p.outcome me db = .ok a ∧ Q a (p.after me db)) ∨ Refuses p me db

/-- A request that raises an exception of the domain and changes nothing settles. -/
theorem settles_of_domain {cls : ErrorClass} {message : String}
    (h : p.run (Conn.start me db) = (.error (.domain cls message), Conn.start me db)) :
    Settles p me db Q := by
  obtain ⟨hout, hafter⟩ := Prog.alone_of_run h
  exact .inr ⟨⟨cls, message, hout⟩, hafter⟩

/-- An error of another kind is not handled. -/
theorem not_settles_of_error {e : PyError} (he : ∀ cls message, e ≠ .domain cls message)
    (h : p.outcome me db = .error e) : ¬ Settles p me db Q := by
  rintro (⟨a, hok, -⟩ | ⟨⟨cls, message, hraise⟩, -⟩)
  · exact absurd (h.symm.trans hok) nofun
  · exact he cls message (Except.error.inj (h.symm.trans hraise))

/-- One that returns settles when its result and its data are as asked. -/
theorem settles_iff_of_ok {a : α} (hout : p.outcome me db = .ok a) (hafter : p.after me db = db') :
    Settles p me db Q ↔ Q a db' := by
  constructor
  · rintro (⟨b, hok, hb⟩ | ⟨⟨cls, message, hraise⟩, -⟩)
    · obtain rfl := Except.ok.inj (hout.symm.trans hok)
      exact hafter ▸ hb
    · exact absurd (hout.symm.trans hraise) nofun
  · exact fun ha => .inl ⟨a, hout, hafter.symm ▸ ha⟩

end

end OburBackend
