import OburBackend.Sql.Truth
import OburBackend.Sql.Table
import OburBackend.Sql.Program

/-!
# Statements on tables under row policies

`TableDef` describes one table of a schema: where it lives in the database state, its row policies,
the constraints a new row has to meet, what a deletion takes with it, and the lock of a row. The
statements follow PostgreSQL's documented behaviour for a role that is subject to the policies:

* a `SELECT` returns the rows whose `SELECT` policy is true, and silently omits the others;
* an `INSERT ... RETURNING` raises when the new row fails the `INSERT` check or the `SELECT` policy,
  and then when it violates a constraint;
* an `UPDATE` or `DELETE` with a `WHERE` clause acts on the rows that pass both the `SELECT` policy
  and its own, so a row that fails either is not matched; a changed row has to pass the check and
  the `SELECT` policy again;
* the deletions and checks of foreign keys bypass the policies;
* a row that is inserted, changed or deleted stays locked until the transaction ends, and so do the
  values it takes under a unique constraint.

A single-row `UPDATE` flushed by the object-relational layer that matches no row raises
`DbError.staleData`. A single-row `DELETE` that matches none does not.
-/

namespace Sql

variable {σ κ ℓ τ ε ρ π : Type}

/-- The row policies of a table for one session on one snapshot. A command without a policy is
denied: its field is constantly `Truth.no`. -/
structure RowPolicy (ρ : Type) where
  select : ρ → Truth
  insert : ρ → Truth
  updateUsing : ρ → Truth
  updateCheck : ρ → Truth
  delete : ρ → Truth

/-- The command of a statement. -/
inductive Verb where
  | select
  | insert
  | update
  | delete
  deriving DecidableEq, Repr

/-- One table of a schema over the database state `σ`, read by sessions with variables `ℓ`. -/
structure TableDef (σ κ ℓ τ : Type) {ρ π : Type} (key : ρ → π) where
  read : σ → Table key
  write : (Table key → Table key) → σ → σ
  /-- Delete rows of this table, with the rows that cascade from them. -/
  erase : (ρ → Bool) → σ → σ
  /-- Whether a row that does not cascade still refers to the row, which then cannot be deleted. -/
  referenced : σ → ρ → Bool := fun _ _ => false
  policy : ℓ → σ → RowPolicy ρ
  /-- The constraints a new or changed row has to meet, its primary key apart. -/
  constraints : σ → ρ → Bool
  lock : π → κ
  /-- The locks on the values of the row under the unique constraints. -/
  unique : ρ → List κ := fun _ => []
  /-- The label of a statement on the row with the given key. -/
  stmt : Verb → π → τ

/-- An error type into which the errors of the database are mapped. -/
class OfDbError (ε : Type) where
  ofDbError : DbError → ε

namespace TableDef

variable {key : ρ → π} (T : TableDef σ κ ℓ τ key)

/-- Whether the session may see the row. -/
def visible (l : ℓ) (s : σ) (r : ρ) : Bool := decide ((T.policy l s).select r).Holds

/-- The rows a `SELECT ... WHERE p` returns. -/
def rows (l : ℓ) (s : σ) (p : ρ → Bool) : List ρ :=
  (T.read s).select fun r => p r && T.visible l s r

/-- The rows a `DELETE ... WHERE p` deletes. -/
def deletable (l : ℓ) (s : σ) (p : ρ → Bool) : List ρ :=
  (T.read s).select fun r => p r && (T.visible l s r && decide ((T.policy l s).delete r).Holds)

@[simp] theorem visible_eq_true {l : ℓ} {s : σ} {r : ρ} :
    T.visible l s r = true ↔ ((T.policy l s).select r).Holds := by
  simp [visible]

/-- A query selects the rows that satisfy its condition and that the policy shows. -/
theorem mem_rows {l : ℓ} {s : σ} {p : ρ → Bool} {r : ρ} :
    r ∈ T.rows l s p ↔ r ∈ T.read s ∧ p r = true ∧ ((T.policy l s).select r).Holds := by
  simp [rows]

/-- No row is selected twice. -/
theorem rows_nodup {l : ℓ} {s : σ} {p : ρ → Bool} : (T.rows l s p).Nodup :=
  (T.read s).select_nodup _

/-- The rows a `SELECT` returns are those of the rows that satisfy its condition that it sees. -/
theorem rows_eq_filter (l : ℓ) (s : σ) (p : ρ → Bool) :
    T.rows l s p = ((T.read s).select p).filter (T.visible l s) := by
  rw [rows, Table.select, Table.select, List.filter_filter]
  exact List.filter_congr fun r _ => Bool.and_comm _ _

/-- A deletion takes the rows that both policies let it. -/
theorem mem_deletable {l : ℓ} {s : σ} {p : ρ → Bool} {r : ρ} :
    r ∈ T.deletable l s p ↔ r ∈ T.read s ∧ p r = true ∧ ((T.policy l s).select r).Holds ∧
      ((T.policy l s).delete r).Holds := by
  simp [deletable]

section Keyed

variable [DecidableEq π]

/-- `session.get`: the row with the given primary key, if the session may see it. -/
def lookup (l : ℓ) (s : σ) (k : π) : Option ρ := ((T.read s).get k).filter (T.visible l s)

/-- A lookup finds the row with the key, if the policy shows it. -/
theorem lookup_eq_some {l : ℓ} {s : σ} {k : π} {r : ρ} :
    T.lookup l s k = some r ↔
      r ∈ T.read s ∧ key r = k ∧ ((T.policy l s).select r).Holds := by
  simp [lookup, Option.filter_eq_some_iff, Table.get_eq_some, and_assoc]

/-- It finds none if no such row is shown. -/
theorem lookup_eq_none {l : ℓ} {s : σ} {k : π} :
    T.lookup l s k = none ↔
      ∀ r ∈ T.read s, key r = k → ¬ ((T.policy l s).select r).Holds := by
  rw [Option.eq_none_iff_forall_not_mem]
  simp only [Option.mem_def, lookup_eq_some, not_and]

/-- A row that the session may see is found by its key. -/
theorem lookup_eq_get {l : ℓ} {s : σ} {k : π}
    (h : ∀ r ∈ T.read s, key r = k → ((T.policy l s).select r).Holds) :
    T.lookup l s k = (T.read s).get k := by
  refine Option.ext fun r => ?_
  rw [lookup_eq_some, Table.get_eq_some]
  exact ⟨fun ⟨hr, hk, _⟩ => ⟨hr, hk⟩, fun ⟨hr, hk⟩ => ⟨hr, hk, h r hr hk⟩⟩

/-- A condition that fixes the key selects at most the row with that key. -/
theorem rows_of_key {l : ℓ} {s : σ} {p : ρ → Bool} {k : π} (hp : ∀ r, p r = true → key r = k) :
    T.rows l s p = ((T.lookup l s k).filter p).toList := by
  have hp' : ∀ r, (p r && T.visible l s r) = true → key r = k := by
    intro r h
    exact hp r (Bool.and_eq_true_iff.mp h).1
  rw [rows, Table.select_of_key hp', lookup, Option.filter_filter]
  simp only [Bool.and_comm]

/-- What an `INSERT ... RETURNING` of the row `r` writes. -/
def insertWrite (l : ℓ) (s : σ) (r : ρ) : Except DbError (Write σ κ) :=
  if ((T.policy l s).insert r).Holds ∧ ((T.policy l s).select r).Holds then
    if (T.read s).get (key r) = none ∧ T.constraints s r = true then
      .ok { effect := T.write (·.insert r), locks := T.lock (key r) :: T.unique r }
    else .error .integrity
  else .error .rowSecurity

/-- An insert succeeds when the policies and the constraints pass the row. -/
theorem insertWrite_eq_ok {l : ℓ} {s : σ} {r : ρ} {wr : Write σ κ} :
    T.insertWrite l s r = .ok wr ↔
      ((T.policy l s).insert r).Holds ∧ ((T.policy l s).select r).Holds ∧
        (T.read s).get (key r) = none ∧ T.constraints s r = true ∧
        wr = { effect := T.write (·.insert r), locks := T.lock (key r) :: T.unique r } := by
  unfold insertWrite
  split
  · next h1 =>
    split
    · next h2 => simp [h1, h2, eq_comm]
    · next h2 => simpa [h1] using fun h3 h4 => absurd ⟨h3, h4⟩ h2
  · next h1 => simpa using fun h3 h4 => absurd ⟨h3, h4⟩ h1

/-- The data with `f` applied to the row with key `k`, where `f` gives `none` for no change. -/
def set (k : π) (f : ρ → Option ρ) (hf : ∀ r r', f r = some r' → key r' = key r) : σ → σ :=
  T.write fun t => t.modify (fun x => decide (key x = k)) (fun x => (f x).getD x) fun x => by
    cases h : f x with
    | none => rfl
    | some y => exact hf x y h

omit [DecidableEq π] in
/-- A row that is set keeps its key. -/
theorem key_getD {f : ρ → Option ρ} (hf : ∀ r r', f r = some r' → key r' = key r) (x : ρ) :
    key ((f x).getD x) = key x := by
  cases h : f x with
  | none => rfl
  | some y => exact hf x y h

/-- What a single-row `UPDATE` by primary key writes, where `f` sets the columns, or gives `none`
when it sets a `NOT NULL` column to `NULL`. -/
def updateWrite (l : ℓ) (s : σ) (k : π) (f : ρ → Option ρ)
    (hf : ∀ r r', f r = some r' → key r' = key r) : Except DbError (Write σ κ) :=
  match (T.lookup l s k).filter fun r => decide ((T.policy l s).updateUsing r).Holds with
  | none => .error .staleData
  | some r =>
    match f r with
    | none => .error .integrity
    | some r' =>
      if ((T.policy l s).updateCheck r').Holds ∧ ((T.policy l s).select r').Holds then
        if T.constraints s r' = true then
          .ok { effect := T.set k f hf, locks := T.lock k :: T.unique r' }
        else .error .integrity
      else .error .rowSecurity

/-- An update that succeeds has matched the row and passed the changed row. -/
theorem updateWrite_eq_ok {l : ℓ} {s : σ} {k : π} {f : ρ → Option ρ}
    {hf : ∀ r r', f r = some r' → key r' = key r} {wr : Write σ κ}
    (h : T.updateWrite l s k f hf = .ok wr) :
    ∃ r r', T.lookup l s k = some r ∧ ((T.policy l s).updateUsing r).Holds ∧ f r = some r' ∧
      ((T.policy l s).updateCheck r').Holds ∧ ((T.policy l s).select r').Holds ∧
      T.constraints s r' = true ∧
      wr = { effect := T.set k f hf, locks := T.lock k :: T.unique r' } := by
  unfold updateWrite at h
  split at h
  · cases h
  · next r hr =>
    obtain ⟨hl, hu⟩ := Option.filter_eq_some_iff.mp hr
    split at h
    · cases h
    · next r' hf' =>
      split at h
      · next h1 =>
        split at h
        · next h2 =>
          cases h
          exact ⟨r, r', hl, of_decide_eq_true hu, hf', h1.1, h1.2, h2, rfl⟩
        · cases h
      · cases h

/-- An update succeeds when the policies and the constraints pass both rows. -/
theorem updateWrite_of_pass {l : ℓ} {s : σ} {k : π} {f : ρ → Option ρ}
    {hf : ∀ r r', f r = some r' → key r' = key r} {r r' : ρ} (hr : T.lookup l s k = some r)
    (husing : ((T.policy l s).updateUsing r).Holds) (hset : f r = some r')
    (hcheck : ((T.policy l s).updateCheck r').Holds) (hsee : ((T.policy l s).select r').Holds)
    (hcons : T.constraints s r' = true) :
    T.updateWrite l s k f hf =
      .ok { effect := T.set k f hf, locks := T.lock k :: T.unique r' } := by
  have hmatch : (T.lookup l s k).filter (fun r => decide ((T.policy l s).updateUsing r).Holds) =
      some r := Option.filter_eq_some_iff.mpr ⟨hr, decide_eq_true husing⟩
  simp only [updateWrite, hmatch, hset, hcheck, hsee, hcons, and_self, if_true]

/-- An update of a row that the policies let the session change: the constraints decide. -/
theorem updateWrite_of_match {l : ℓ} {s : σ} {k : π} {f : ρ → Option ρ}
    {hf : ∀ r r', f r = some r' → key r' = key r} {r : ρ} (hr : T.lookup l s k = some r)
    (husing : ((T.policy l s).updateUsing r).Holds)
    (hpass : ∀ r', f r = some r' →
      ((T.policy l s).updateCheck r').Holds ∧ ((T.policy l s).select r').Holds) :
    T.updateWrite l s k f hf =
      match f r with
      | none => .error .integrity
      | some r' =>
        if T.constraints s r' = true then
          .ok { effect := T.set k f hf, locks := T.lock k :: T.unique r' }
        else .error .integrity := by
  have hmatch : (T.lookup l s k).filter (fun r => decide ((T.policy l s).updateUsing r).Holds) =
      some r := Option.filter_eq_some_iff.mpr ⟨hr, decide_eq_true husing⟩
  simp only [updateWrite, hmatch]
  cases hset : f r with
  | none => rfl
  | some r' => exact if_pos (hpass r' hset)

/-- An update finds no row to change when the policies hide the row from it. -/
theorem updateWrite_eq_staleData {l : ℓ} {s : σ} {k : π} {f : ρ → Option ρ}
    {hf : ∀ r r', f r = some r' → key r' = key r}
    (h : ∀ r, T.lookup l s k = some r → ¬ ((T.policy l s).updateUsing r).Holds) :
    T.updateWrite l s k f hf = .error .staleData := by
  have hnone : ((T.lookup l s k).filter fun r =>
      decide ((T.policy l s).updateUsing r).Holds) = none := by
    rw [Option.filter_eq_none_iff]
    intro r hr
    simpa using h r hr
  rw [updateWrite, hnone]

/-- What a `DELETE ... WHERE p` writes: the rows it matches are deleted by their keys. -/
def deleteWrite (l : ℓ) (s : σ) (p : ρ → Bool) : Except DbError (Write σ κ) :=
  let rs := T.deletable l s p
  if rs.any (T.referenced s) then .error .integrity
  else .ok
    { effect := T.erase fun r => decide (key r ∈ rs.map key)
      locks := rs.map fun r => T.lock (key r) }

/-- A deletion that succeeds takes the rows it may delete, and nothing else refers to them. -/
theorem deleteWrite_eq_ok {l : ℓ} {s : σ} {p : ρ → Bool} {wr : Write σ κ} :
    T.deleteWrite l s p = .ok wr ↔
      (∀ r ∈ T.deletable l s p, T.referenced s r = false) ∧
        wr = { effect := T.erase fun r => decide (key r ∈ (T.deletable l s p).map key)
               locks := (T.deletable l s p).map fun r => T.lock (key r) } := by
  unfold deleteWrite
  by_cases h : (T.deletable l s p).any (T.referenced s) = true
  · simp only [h, if_true, reduceCtorEq, false_iff, not_and]
    intro hf
    obtain ⟨r, hr, hr'⟩ := List.any_eq_true.mp h
    exact absurd hr' (by simp [hf r hr])
  · have hf : ∀ r ∈ T.deletable l s p, T.referenced s r = false := by
      simpa using h
    simp only [h, Bool.false_eq_true, if_false, Except.ok.injEq]
    exact ⟨fun hw => ⟨hf, hw.symm⟩, fun hw => hw.2.symm⟩

/-- A row that is found by its key, may be deleted and is not referred to is deleted, alone. -/
theorem deleteWrite_of_pass {l : ℓ} {s : σ} {k : π} {r : ρ} (hr : T.lookup l s k = some r)
    (hdelete : ((T.policy l s).delete r).Holds) (href : T.referenced s r = false) :
    T.deleteWrite l s (fun x => decide (key x = k)) =
      .ok { effect := T.erase fun x => decide (key x = k), locks := [T.lock k] } := by
  obtain ⟨hmem, rfl, hsee⟩ := T.lookup_eq_some.mp hr
  have hrows : T.deletable l s (fun x => decide (key x = key r)) = [r] := by
    refine Table.select_eq_singleton hmem (by simp [hsee, hdelete]) fun x hx hp => ?_
    rw [Bool.and_eq_true] at hp
    exact Table.eq_of_key_eq hx hmem (of_decide_eq_true hp.1)
  have hcond : (fun x : ρ => decide (key x ∈ [r].map key)) = fun x => decide (key x = key r) := by
    funext x
    simp
  rw [deleteWrite_eq_ok, hrows, hcond]
  refine ⟨fun x hx => ?_, rfl⟩
  rw [List.mem_singleton.mp hx]
  exact href

end Keyed

/-- What a `DELETE ... WHERE p` writes when the policies do not apply. -/
def definerDeleteWrite [DecidableEq π] (s : σ) (p : ρ → Bool) : Write σ κ :=
  let rs := (T.read s).select p
  { effect := T.erase fun r => decide (key r ∈ rs.map key)
    locks := rs.map fun r => T.lock (key r) }

/-- On the data it has read, such a statement deletes the rows that satisfy its condition. -/
theorem definerDeleteWrite_effect [DecidableEq π] {s : σ} {p : ρ → Bool}
    (herase : ∀ q q', (T.read s).erase q = (T.read s).erase q' → T.erase q s = T.erase q' s) :
    (T.definerDeleteWrite s p).effect s = T.erase p s :=
  herase _ _ (Table.erase_keys_select _ _)

/-! ## The statements as programs -/

variable [DecidableEq π]

/-- `session.get(Model, k)`. -/
def get (k : π) : Prog σ κ ℓ τ ε (Option ρ) :=
  .select (T.stmt .select k) fun l s => .ret (T.lookup l s k)

variable [OfDbError ε]

/-- `INSERT INTO ... RETURNING`, as a flush sends it for an added object. -/
def insert (r : ρ) : Prog σ κ ℓ τ ε Unit :=
  .execute (T.stmt .insert (key r)) (fun l s => T.insertWrite l s r) (.ret ())
    fun e => .raise (OfDbError.ofDbError e)

/-- `UPDATE ... WHERE pk = k`, as a flush sends it for a changed object. -/
def update (k : π) (f : ρ → Option ρ) (hf : ∀ r r', f r = some r' → key r' = key r) :
    Prog σ κ ℓ τ ε Unit :=
  .execute (T.stmt .update k) (fun l s => T.updateWrite l s k f hf) (.ret ())
    fun e => .raise (OfDbError.ofDbError e)

/-- `DELETE ... WHERE pk = k`, as a flush sends it for a deleted object. -/
def delete (k : π) : Prog σ κ ℓ τ ε Unit :=
  .execute (T.stmt .delete k) (fun l s => T.deleteWrite l s fun r => decide (key r = k))
    (.ret ()) fun e => .raise (OfDbError.ofDbError e)

/-- `DELETE ... WHERE p` inside a `SECURITY DEFINER` function: the policies do not apply. -/
def definerDelete (st : τ) (p : σ → ρ → Bool) : Prog σ κ ℓ τ ε Unit :=
  .execute st (fun _ s => .ok (T.definerDeleteWrite s (p s))) (.ret ())
    fun e => .raise (OfDbError.ofDbError e)

end TableDef

end Sql
