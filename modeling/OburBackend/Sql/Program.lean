import Mathlib.Logic.Basic

/-!
# Requests as programs of statements

A request is a tree of the statements it sends to the database: a `SELECT` continues with the
snapshot it sees, a data-changing statement either raises or adds a `Write` to the open
transaction, and `COMMIT` publishes what the transaction wrote. The same tree is run in two ways:
alone on a connection (`Prog.run`, below) and interleaved with other requests, statement by
statement (`Sql.World`).

The parameters are the database state `σ`, the row locks `κ`, the session variables `ℓ` that a
statement reads beside the data, the statement labels `τ`, and the errors `ε` of the program.
-/

namespace Sql

/-- What the database, or the layer that flushes statements to it, raises. -/
inductive DbError where
  /-- A new row violates a row policy. -/
  | rowSecurity
  /-- A primary key, unique, foreign key, `CHECK` or `NOT NULL` constraint is violated. -/
  | integrity
  /-- A single-row `UPDATE` matched no row. -/
  | staleData
  /-- A value is none that its column can hold. -/
  | data
  deriving DecidableEq, Repr

/-- What a data-changing statement has done inside its transaction: the rows it changes, as an
effect on the data it will be committed to, and the row locks it holds until the transaction
ends. -/
structure Write (σ κ : Type) where
  effect : σ → σ
  locks : List κ

/-- A program of statements with result `α`. -/
inductive Prog (σ κ ℓ τ ε α : Type) where
  | ret (a : α)
  | raise (e : ε)
  /-- A read-only statement. -/
  | select (st : τ) (k : ℓ → σ → Prog σ κ ℓ τ ε α)
  /-- A data-changing statement. When it fails, the transaction is aborted. -/
  | execute (st : τ) (w : ℓ → σ → Except DbError (Write σ κ)) (ok : Prog σ κ ℓ τ ε α)
      (err : DbError → Prog σ κ ℓ τ ε α)
  | commit (k : Prog σ κ ℓ τ ε α)
  | rollback (k : Prog σ κ ℓ τ ε α)
  /-- Set the session variables. -/
  | assign (l : ℓ) (k : Prog σ κ ℓ τ ε α)

variable {σ κ ℓ τ ε α β : Type}

namespace Prog

/-- Run `p`, then `f` on its result. -/
def bind : Prog σ κ ℓ τ ε α → (α → Prog σ κ ℓ τ ε β) → Prog σ κ ℓ τ ε β
  | .ret a, f => f a
  | .raise e, _ => .raise e
  | .select st k, f => .select st fun l s => (k l s).bind f
  | .execute st w ok err, f => .execute st w (ok.bind f) fun e => (err e).bind f
  | .commit k, f => .commit (k.bind f)
  | .rollback k, f => .rollback (k.bind f)
  | .assign l k, f => .assign l (k.bind f)

/-- `try p except e: h e`. -/
def recover : Prog σ κ ℓ τ ε α → (ε → Prog σ κ ℓ τ ε α) → Prog σ κ ℓ τ ε α
  | .ret a, _ => .ret a
  | .raise e, h => h e
  | .select st k, h => .select st fun l s => (k l s).recover h
  | .execute st w ok err, h => .execute st w (ok.recover h) fun e => (err e).recover h
  | .commit k, h => .commit (k.recover h)
  | .rollback k, h => .rollback (k.recover h)
  | .assign l k, h => .assign l (k.recover h)

/-- The next move of the program is a `COMMIT`. -/
def isCommit : Prog σ κ ℓ τ ε α → Bool
  | .commit _ => true
  | _ => false

instance : Monad (Prog σ κ ℓ τ ε) where
  pure := .ret
  bind := .bind

@[simp] theorem pure_eq (a : α) : (pure a : Prog σ κ ℓ τ ε α) = .ret a := rfl

@[simp] theorem bind_eq (p : Prog σ κ ℓ τ ε α) (f : α → Prog σ κ ℓ τ ε β) :
    p >>= f = p.bind f := rfl

@[simp] theorem ret_bind (a : α) (f : α → Prog σ κ ℓ τ ε β) : (ret a).bind f = f a := rfl

@[simp] theorem raise_bind (e : ε) (f : α → Prog σ κ ℓ τ ε β) : (raise e).bind f = .raise e := rfl

/-- Returning the result changes nothing. -/
theorem bind_ret (p : Prog σ κ ℓ τ ε α) : p.bind .ret = p := by
  induction p with
  | ret a => rfl
  | raise e => rfl
  | select st k ih => simp only [bind, ih]
  | execute st w ok err ihok iherr => simp only [bind, ihok, iherr]
  | commit k ih | rollback k ih | assign l k ih => simp only [bind, ih]

/-- Programs may be put together in any grouping. -/
theorem bind_assoc {γ : Type} (p : Prog σ κ ℓ τ ε α) (f : α → Prog σ κ ℓ τ ε β)
    (g : β → Prog σ κ ℓ τ ε γ) : (p.bind f).bind g = p.bind fun a => (f a).bind g := by
  induction p with
  | ret a => rfl
  | raise e => rfl
  | select st k ih => simp only [bind, ih]
  | execute st w ok err ihok iherr => simp only [bind, ihok, iherr]
  | commit k ih | rollback k ih | assign l k ih => simp only [bind, ih]

instance : LawfulMonad (Prog σ κ ℓ τ ε) :=
  LawfulMonad.mk' _ (fun p => bind_ret p) (fun _ _ => rfl) (fun p f g => bind_assoc p f g)

end Prog

/-- A query: the label of its statement and what it reads. -/
def query (st : τ) (f : ℓ → σ → α) : Prog σ κ ℓ τ ε α := .select st fun l s => .ret (f l s)

/-- `session.commit()`, once nothing is left to flush. -/
def commit : Prog σ κ ℓ τ ε Unit := .commit (.ret ())

/-- `session.rollback()`. -/
def rollback : Prog σ κ ℓ τ ε Unit := .rollback (.ret ())

/-- Set the session variables. -/
def assign (l : ℓ) : Prog σ κ ℓ τ ε Unit := .assign l (.ret ())

/-! ## A request alone on its connection -/

/-- A connection on which one request runs alone: its session variables, the committed data, and
the data as the open transaction sees it. -/
structure Conn (σ ℓ : Type) where
  vars : ℓ
  committed : σ
  working : σ

namespace Conn

/-- A connection at the start of a request, with no transaction open. -/
def start (l : ℓ) (s : σ) : Conn σ ℓ := ⟨l, s, s⟩

/-- The connection after `ROLLBACK`. -/
def discard (c : Conn σ ℓ) : Conn σ ℓ := { c with working := c.committed }

/-- The connection after `COMMIT`. -/
def publish (c : Conn σ ℓ) : Conn σ ℓ := { c with committed := c.working }

@[simp] theorem start_vars (l : ℓ) (s : σ) : (start l s).vars = l := rfl
@[simp] theorem start_committed (l : ℓ) (s : σ) : (start l s).committed = s := rfl
@[simp] theorem start_working (l : ℓ) (s : σ) : (start l s).working = s := rfl
@[simp] theorem discard_vars (c : Conn σ ℓ) : c.discard.vars = c.vars := rfl
@[simp] theorem discard_committed (c : Conn σ ℓ) : c.discard.committed = c.committed := rfl
@[simp] theorem discard_working (c : Conn σ ℓ) : c.discard.working = c.committed := rfl
@[simp] theorem publish_vars (c : Conn σ ℓ) : c.publish.vars = c.vars := rfl
@[simp] theorem publish_committed (c : Conn σ ℓ) : c.publish.committed = c.working := rfl
@[simp] theorem publish_working (c : Conn σ ℓ) : c.publish.working = c.working := rfl

end Conn

namespace Prog

/-- Run a program alone: its result, and the connection it leaves. -/
def run : Prog σ κ ℓ τ ε α → Conn σ ℓ → Except ε α × Conn σ ℓ
  | .ret a, c => (.ok a, c)
  | .raise e, c => (.error e, c)
  | .select _ k, c => (k c.vars c.working).run c
  | .execute _ w ok err, c =>
    match w c.vars c.working with
    | .ok wr => ok.run { c with working := wr.effect c.working }
    | .error e => (err e).run c.discard
  | .commit k, c => k.run c.publish
  | .rollback k, c => k.run c.discard
  | .assign l k, c => k.run { c with vars := l }

@[simp] theorem run_ret (a : α) (c : Conn σ ℓ) :
    (ret a : Prog σ κ ℓ τ ε α).run c = (.ok a, c) := rfl

@[simp] theorem run_raise (e : ε) (c : Conn σ ℓ) :
    (raise e : Prog σ κ ℓ τ ε α).run c = (.error e, c) := rfl

@[simp] theorem run_commit (k : Prog σ κ ℓ τ ε α) (c : Conn σ ℓ) :
    (commit k).run c = k.run c.publish := rfl

/-- Sequential composition: the second program starts on the connection the first one leaves, and
an error skips it. -/
theorem run_bind (p : Prog σ κ ℓ τ ε α) (f : α → Prog σ κ ℓ τ ε β) (c : Conn σ ℓ) :
    (p.bind f).run c =
      match p.run c with
      | (.ok a, c') => (f a).run c'
      | (.error e, c') => (.error e, c') := by
  induction p generalizing c with
  | ret a => rfl
  | raise e => rfl
  | select st k ih => exact ih _ _ c
  | execute st w ok err ihok iherr =>
    simp only [bind, run]
    cases w c.vars c.working with
    | ok wr => exact ihok _
    | error e => exact iherr e _
  | commit k ih | rollback k ih | assign l k ih => exact ih _

/-- The handler takes up on the connection that the error leaves. -/
theorem run_recover (p : Prog σ κ ℓ τ ε α) (h : ε → Prog σ κ ℓ τ ε α) (c : Conn σ ℓ) :
    (p.recover h).run c =
      match p.run c with
      | (.ok a, c') => (.ok a, c')
      | (.error e, c') => (h e).run c' := by
  induction p generalizing c with
  | ret a | raise e => rfl
  | select st k ih => exact ih _ _ c
  | execute st w ok err ihok iherr =>
    simp only [recover, run]
    cases w c.vars c.working with
    | ok wr => exact ihok _
    | error e => exact iherr e _
  | commit k ih | rollback k ih | assign l k ih => exact ih _

/-- The value, or the error `e` when there is none. -/
def orRaise (e : ε) : Option α → Except ε α
  | some a => .ok a
  | none => .error e

@[simp] theorem orRaise_some (e : ε) (a : α) : orRaise e (some a) = .ok a := rfl

@[simp] theorem orRaise_none (e : ε) : orRaise e (none : Option α) = .error e := rfl

/-- The result of a request that runs alone from the committed state `s`. -/
def outcome (p : Prog σ κ ℓ τ ε α) (l : ℓ) (s : σ) : Except ε α := (p.run (Conn.start l s)).1

/-- The state committed once a request has run alone from `s` and its session is closed: closing
rolls back what the request has not committed. -/
def after (p : Prog σ κ ℓ τ ε α) (l : ℓ) (s : σ) : σ := (p.run (Conn.start l s)).2.committed

/-- What a run that ends in a fresh session says about the program alone. -/
theorem alone_of_run {p : Prog σ κ ℓ τ ε α} {l : ℓ} {s s' : σ} {r : Except ε α}
    (h : p.run (Conn.start l s) = (r, Conn.start l s')) : p.outcome l s = r ∧ p.after l s = s' := by
  rw [outcome, after, h]
  exact ⟨rfl, rfl⟩

/-- The states that a program run alone from `s` can leave behind: what it has committed, when its
session is closed, and what its session sees, when another program goes on with it. -/
inductive Leaves (p : Prog σ κ ℓ τ ε α) (l : ℓ) (s : σ) : σ → Prop where
  | committed : Leaves p l s (p.run (Conn.start l s)).2.committed
  | working : Leaves p l s (p.run (Conn.start l s)).2.working

/-- Dropping the result of a program does not change the connection it leaves. -/
theorem run_bind_ret (p : Prog σ κ ℓ τ ε α) (b : β) (c : Conn σ ℓ) :
    ((p.bind fun _ => .ret b).run c).2 = (p.run c).2 := by
  rw [run_bind]
  obtain ⟨r, c'⟩ := p.run c
  cases r <;> rfl

/-- What a program leaves is what its connection has committed, or what it works on. -/
theorem Leaves.of_conn {p : Prog σ κ ℓ τ ε α} {l : ℓ} {s s' : σ} {c : Conn σ ℓ}
    (h : p.Leaves l s s') (hc : (p.run (Conn.start l s)).2 = c) :
    s' = c.committed ∨ s' = c.working := by
  subst hc
  cases h with
  | committed => exact .inl rfl
  | working => exact .inr rfl

/-- Its result does not matter to that. -/
theorem leaves_bind_ret {p : Prog σ κ ℓ τ ε α} {b : β} {l : ℓ} {s s' : σ} :
    (p.bind fun _ => .ret b).Leaves l s s' ↔ p.Leaves l s s' := by
  constructor
  · rintro (_ | _)
    · rw [run_bind_ret]; exact .committed
    · rw [run_bind_ret]; exact .working
  · rintro (_ | _)
    · rw [← run_bind_ret p b]; exact .committed
    · rw [← run_bind_ret p b]; exact .working

/-- Nor does it change what a request commits. -/
theorem after_bind_ret (p : Prog σ κ ℓ τ ε α) (b : β) (l : ℓ) (s : σ) :
    (p.bind fun _ => .ret b).after l s = p.after l s := by
  rw [after, run_bind_ret, after]

end Prog

end Sql
