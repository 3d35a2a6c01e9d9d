import OburBackend.Sql.Writes

/-!
# What a program can tell apart

`Prog.ReadsUpTo R l` says of a program that it only reads, and that in a session with the variables
`l` its reads are the same on states that `R` relates. It composes with the program, and such a
program returns the same on related states (`ReadsUpTo.run`). What a session sees of a table under
its row policies is such a relation: a session to which a table looks the same reads the same from
it under every condition (`TableDef.rows_congr`).
-/

namespace Sql

variable {σ κ ℓ τ ε ε' α β : Type}

namespace Prog

/-- The program only reads, and reads the same on related states. -/
def ReadsUpTo (R : σ → σ → Prop) (l : ℓ) : Prog σ κ ℓ τ ε α → Prop
  | .ret _ | .raise _ => True
  | .select _ k => (∀ s s', R s s' → k l s = k l s') ∧ ∀ s, (k l s).ReadsUpTo R l
  | .execute .. | .commit _ | .rollback _ | .assign .. => False

variable {R : σ → σ → Prop} {l : ℓ}

@[simp] theorem readsUpTo_ret (a : α) : (ret a : Prog σ κ ℓ τ ε α).ReadsUpTo R l := trivial

@[simp] theorem readsUpTo_raise (e : ε) : (raise e : Prog σ κ ℓ τ ε α).ReadsUpTo R l := trivial

/-- A query depends on the view when it answers alike on equal views. -/
theorem readsUpTo_query {st : τ} {f : ℓ → σ → α} (h : ∀ s s', R s s' → f l s = f l s') :
    (query st f : Prog σ κ ℓ τ ε α).ReadsUpTo R l :=
  ⟨fun s s' hs => congrArg Prog.ret (h s s' hs), fun _ => trivial⟩

/-- The rule of sequential composition. -/
theorem ReadsUpTo.bind {p : Prog σ κ ℓ τ ε α} {f : α → Prog σ κ ℓ τ ε β} (hp : p.ReadsUpTo R l)
    (hf : ∀ a, (f a).ReadsUpTo R l) : (p.bind f).ReadsUpTo R l := by
  induction p with
  | ret a => exact hf a
  | raise e => trivial
  | select st k ih =>
    exact ⟨fun s s' hs => congrArg (·.bind f) (hp.1 s s' hs), fun s => ih _ _ (hp.2 s)⟩
  | execute st w ok err ihok iherr => exact hp.elim
  | commit k ih | rollback k ih | assign l k ih => exact hp.elim

/-- The names of the errors do not matter. -/
theorem ReadsUpTo.mapError {p : Prog σ κ ℓ τ ε α} (hp : p.ReadsUpTo R l) (g : ε → ε') :
    (p.mapError g).ReadsUpTo R l := by
  induction p with
  | ret a | raise e => trivial
  | select st k ih =>
    exact ⟨fun s s' hs => congrArg (·.mapError g) (hp.1 s s' hs), fun s => ih _ _ (hp.2 s)⟩
  | execute st w ok err ihok iherr => exact hp.elim
  | commit k ih | rollback k ih | assign l k ih => exact hp.elim

/-- On related states the program returns the same. -/
theorem ReadsUpTo.run {p : Prog σ κ ℓ τ ε α} (hp : p.ReadsUpTo R l) {s s' t t' : σ} (h : R s s') :
    (p.run ⟨l, t, s⟩).1 = (p.run ⟨l, t', s'⟩).1 := by
  induction p with
  | ret a | raise e => rfl
  | select st k ih =>
    simp only [Prog.run]
    rw [ih _ _ (hp.2 s), hp.1 s s' h]
  | execute st w ok err ihok iherr => exact hp.elim
  | commit k ih | rollback k ih | assign l k ih => exact hp.elim

end Prog

namespace TableDef

variable {ρ π : Type} {key : ρ → π} (T : TableDef σ κ ℓ τ key) {l : ℓ} {s s' : σ}

/-- All rows of the table that the session sees. -/
def seen (l : ℓ) (s : σ) : List ρ := T.rows l s fun _ => true

variable {T}

/-- A query selects among the rows that are seen. -/
theorem rows_eq_filter_seen (p : ρ → Bool) : T.rows l s p = (T.seen l s).filter p := by
  rw [seen, rows, rows, Table.select, Table.select, List.filter_filter]
  exact List.filter_congr fun r _ => by rw [Bool.true_and]

/-- So it selects the same when the same rows are seen. -/
theorem rows_congr (h : T.seen l s = T.seen l s') {p p' : ρ → Bool} (hp : ∀ r, p r = p' r) :
    T.rows l s p = T.rows l s' p' := by
  rw [rows_eq_filter_seen, rows_eq_filter_seen, h, funext hp]

variable [DecidableEq π]

/-- A lookup finds the same then. -/
theorem lookup_congr (h : T.seen l s = T.seen l s') (k : π) : T.lookup l s k = T.lookup l s' k := by
  refine Option.ext fun r => ?_
  have hseen : r ∈ T.seen l s ↔ r ∈ T.seen l s' := by rw [h]
  simp only [seen, mem_rows, true_and] at hseen
  rw [lookup_eq_some, lookup_eq_some, and_left_comm, hseen, and_left_comm]

/-- A lookup depends on the rows that are seen. -/
theorem readsUpTo_get {R : σ → σ → Prop} (h : ∀ s s', R s s' → T.seen l s = T.seen l s') (k : π) :
    (T.get k : Prog σ κ ℓ τ ε (Option ρ)).ReadsUpTo R l :=
  Prog.readsUpTo_query fun s s' hs => lookup_congr (h s s' hs) k

end TableDef

end Sql
