import OburBackend.Sql.Keeps
import OburBackend.Sql.Rules

/-!
# Data that the database cannot hold

The types of a program may have more values than the columns of the tables. `Prog.within fits` is
the program on a database that holds the data that `fits` accepts and no others: a statement that
would leave other data raises `DbError.data`, and its transaction is aborted. What the database
holds fits at any time (`Prog.run_within_fits`), and a program of queries runs as before
(`Prog.ReadOnly.within`). A statement that writes is decided by what decided it before and then by
`fits` (`fitting_eq_ok`).
-/

namespace Sql

variable {σ κ ℓ τ ε α β : Type} (fits : σ → Bool)

/-- What a statement writes on the data `s`, if the data fit after it. -/
def fitting (w : Except DbError (Write σ κ)) (s : σ) : Except DbError (Write σ κ) :=
  w.bind fun wr => if fits (wr.effect s) then .ok wr else .error .data

/-- The program on a database that holds just the data that fit. -/
@[simp] def Prog.within : Prog σ κ ℓ τ ε α → Prog σ κ ℓ τ ε α
  | .ret a => .ret a
  | .raise e => .raise e
  | .select st k => .select st fun l s => (k l s).within
  | .execute st w ok err =>
    .execute st (fun l s => fitting fits (w l s) s) ok.within fun e => (err e).within
  | .commit k => .commit k.within
  | .rollback k => .rollback k.within
  | .assign l k => .assign l k.within

variable {fits}

/-- A statement goes through when it has gone through before, and the data fit then. -/
theorem fitting_eq_ok {w : Except DbError (Write σ κ)} {s : σ} {wr : Write σ κ} :
    fitting fits w s = .ok wr ↔ w = .ok wr ∧ fits (wr.effect s) = true := by
  cases w with
  | error e => simp [fitting, Except.bind]
  | ok wr' =>
    by_cases hfits : fits (wr'.effect s) = true
    · simp only [fitting, Except.bind, hfits, if_true, Except.ok.injEq]
      exact ⟨fun h => ⟨h, h ▸ hfits⟩, And.left⟩
    · simp only [fitting, Except.bind, hfits, Bool.false_eq_true, if_false, reduceCtorEq,
        Except.ok.injEq, false_iff, not_and]
      exact fun h => h ▸ hfits

/-- It fails as before, or because the data do not fit. -/
theorem fitting_of_not {w : Except DbError (Write σ κ)} {s : σ}
    (h : ∀ wr, w = .ok wr → fits (wr.effect s) = false) : ∃ e, fitting fits w s = .error e := by
  cases hw : fitting fits w s with
  | error e => exact ⟨e, rfl⟩
  | ok wr =>
    obtain ⟨hok, hfits⟩ := fitting_eq_ok.mp hw
    exact absurd hfits (by simp [h wr hok])

namespace Prog

@[simp] theorem within_commit : (Sql.commit : Prog σ κ ℓ τ ε Unit).within fits = Sql.commit := rfl

/-- The parts of a program are taken one by one. -/
@[simp] theorem within_bind (p : Prog σ κ ℓ τ ε α) (f : α → Prog σ κ ℓ τ ε β) :
    (p.bind f).within fits = (p.within fits).bind fun a => (f a).within fits := by
  induction p with
  | ret a | raise e => rfl
  | select st k ih => simp only [bind, within, ih]
  | execute st w ok err ihok iherr => simp only [bind, within, ihok, iherr]
  | commit k ih | rollback k ih | assign l k ih => simp only [bind, within, ih]

/-- Queries are as they were. -/
theorem ReadOnly.within {p : Prog σ κ ℓ τ ε α} (hp : p.ReadOnly) : p.within fits = p := by
  induction p with
  | ret a | raise e => rfl
  | select st k ih =>
    rw [Prog.within]
    exact congrArg _ (funext fun l => funext fun s => ih l s (hp l s))
  | execute | commit | rollback | assign => exact hp.elim

/-- If all data fit, so is every program. -/
theorem within_true (p : Prog σ κ ℓ τ ε α) : p.within (fun _ => true) = p := by
  have hfitting : ∀ (w : Except DbError (Write σ κ)) (s : σ),
      fitting (fun _ => true) w s = w := by
    intro w s
    cases w <;> rfl
  induction p with
  | ret a | raise e => rfl
  | select st k ih => simp only [within, ih]
  | execute st w ok err ihok iherr => simp only [within, ihok, iherr, hfitting]
  | commit k ih | rollback k ih | assign l k ih => simp only [within, ih]

/-- The data fit at any time. -/
theorem run_within_fits (p : Prog σ κ ℓ τ ε α) {c : Conn σ ℓ} (hcommitted : fits c.committed = true)
    (hworking : fits c.working = true) :
    fits ((p.within fits).run c).2.committed = true ∧
      fits ((p.within fits).run c).2.working = true := by
  induction p generalizing c with
  | ret a | raise e => exact ⟨hcommitted, hworking⟩
  | select st k ih => exact ih _ _ hcommitted hworking
  | execute st w ok err ihok iherr =>
    rw [within, run]
    cases hw : fitting fits (w c.vars c.working) c.working with
    | ok wr => exact ihok hcommitted (fitting_eq_ok.mp hw).2
    | error e => exact iherr e hcommitted hcommitted
  | commit k ih => exact ih hworking hworking
  | rollback k ih => exact ih hcommitted hcommitted
  | assign l k ih => exact ih hcommitted hworking

end Prog

/-! ## The statements -/

section Statements

variable {ρ π : Type} {key : ρ → π} {T : TableDef σ κ ℓ τ key} [DecidableEq π] {c : Conn σ ℓ}

@[simp] theorem within_get {k : π} :
    (T.get k : Prog σ κ ℓ τ ε (Option ρ)).within fits = T.get k := rfl

variable [OfDbError ε]

/-- A statement that raises what it fails with: it goes through when the data fit after it. -/
theorem run_within_execute_bind {st : τ} {w : ℓ → σ → Except DbError (Write σ κ)}
    {f : Unit → Prog σ κ ℓ τ ε β} :
    (((Prog.execute st w (.ret ()) fun e => .raise (OfDbError.ofDbError e)).within fits).bind f).run
        c =
      match fitting fits (w c.vars c.working) c.working with
      | .ok wr => (f ()).run { c with working := wr.effect c.working }
      | .error e => (.error (OfDbError.ofDbError e), c.discard) := by
  cases hw : fitting fits (w c.vars c.working) c.working <;>
    simp only [Prog.within, Prog.bind, Prog.run, hw]

/-- An insert goes through when the data fit with the row. -/
theorem run_within_insert_bind {r : ρ} {f : Unit → Prog σ κ ℓ τ ε β} :
    (((T.insert r).within fits).bind f).run c =
      match fitting fits (T.insertWrite c.vars c.working r) c.working with
      | .ok wr => (f ()).run { c with working := wr.effect c.working }
      | .error e => (.error (OfDbError.ofDbError e), c.discard) :=
  run_within_execute_bind

/-- An update goes through when they fit with the row as it becomes. -/
theorem run_within_update_bind {k : π} {g : ρ → Option ρ}
    {hg : ∀ r r', g r = some r' → key r' = key r} {f : Unit → Prog σ κ ℓ τ ε β} :
    (((T.update k g hg).within fits).bind f).run c =
      match fitting fits (T.updateWrite c.vars c.working k g hg) c.working with
      | .ok wr => (f ()).run { c with working := wr.effect c.working }
      | .error e => (.error (OfDbError.ofDbError e), c.discard) :=
  run_within_execute_bind

/-- A deletion goes through when they fit without the row. -/
theorem run_within_delete_bind {k : π} {f : Unit → Prog σ κ ℓ τ ε β} :
    (((T.delete k).within fits).bind f).run c =
      match fitting fits (T.deleteWrite c.vars c.working fun r => decide (key r = k)) c.working with
      | .ok wr => (f ()).run { c with working := wr.effect c.working }
      | .error e => (.error (OfDbError.ofDbError e), c.discard) :=
  run_within_execute_bind

end Statements

end Sql
