import OburBackend.Sql.Statement

/-!
# Any statement that writes

The statements of `Sql/Statement.lean` are those that the object-relational layer sends. `Dml` is
any `INSERT`, `UPDATE` or `DELETE` on one table: any number of rows, any condition, any new values
of any column, the keys included. A statement either fails, which leaves the table as it was, or
changes it.

What the row policies of a session let it insert, change and delete bounds what such a statement can
do (`RowPolicy.Confines.of_run`), whatever the constraints of the table make of it.
-/

namespace Sql

variable {σ κ ℓ τ ρ π : Type} {key : ρ → π}

/-- What an `INSERT` does about a row with which its row conflicts. The first argument of a function
is the row that it proposes, the second one the stored row. -/
inductive OnConflict (ρ : Type) where
  | fail
  /-- `ON CONFLICT ... DO NOTHING` -/
  | doNothing (conflicts : ρ → ρ → Bool)
  /-- `ON CONFLICT ... DO UPDATE SET ... WHERE cond` -/
  | doUpdate (conflicts : ρ → ρ → Bool) (cond : ρ → ρ → Bool) (set : ρ → ρ → ρ)

/-- A statement that writes. It `reads` the table if it has a `WHERE` or a `RETURNING` clause, or
otherwise mentions a column. -/
inductive Dml (ρ : Type) where
  | insert (rows : List ρ) (onConflict : OnConflict ρ) (reads : Bool)
  | update (cond : ρ → Bool) (set : ρ → ρ) (reads : Bool)
  | delete (cond : ρ → Bool) (reads : Bool)

namespace RowPolicy

variable (P : RowPolicy ρ)

/-- A statement that reads the table needs to see the row. -/
def Readable (reads : Bool) (r : ρ) : Prop := reads = true → (P.select r).Holds

instance (reads : Bool) (r : ρ) : Decidable (P.Readable reads r) :=
  inferInstanceAs (Decidable (_ → _))

/-- The rows that an `UPDATE` matches. -/
def updates (cond : ρ → Bool) (reads : Bool) (r : ρ) : Bool :=
  cond r && (decide (P.Readable reads r) && decide (P.updateUsing r).Holds)

/-- The rows that a `DELETE` matches. -/
def deletes (cond : ρ → Bool) (reads : Bool) (r : ρ) : Bool :=
  cond r && (decide (P.Readable reads r) && decide (P.delete r).Holds)

/-- The new version of a row passes. -/
def Passes (reads : Bool) (r : ρ) : Prop := (P.updateCheck r).Holds ∧ P.Readable reads r

instance (reads : Bool) (r : ρ) : Decidable (P.Passes reads r) :=
  inferInstanceAs (Decidable (_ ∧ _))

/-- `DO UPDATE` of the first row with which `r` conflicts, or else a new row. -/
def upsertRow (conflicts : ρ → ρ → Bool) (cond : ρ → ρ → Bool) (set : ρ → ρ → ρ) (r : ρ) :
    List ρ → Except DbError (List ρ)
  | [] => .ok [r]
  | x :: rest =>
    if conflicts r x then
      if (P.updateUsing x).Holds ∧ (P.select x).Holds then
        if cond r x then
          if P.Passes true (set r x) then .ok (set r x :: rest) else .error .rowSecurity
        else .ok (x :: rest)
      else .error .rowSecurity
    else (upsertRow conflicts cond set r rest).map fun rest => x :: rest

/-- The rows after one row of an `INSERT`. -/
def insertRow (onConflict : OnConflict ρ) (reads : Bool) (rows : List ρ) (r : ρ) :
    Except DbError (List ρ) :=
  if (P.insert r).Holds ∧ P.Readable reads r then
    match onConflict with
    | .fail => .ok (rows ++ [r])
    | .doNothing conflicts => .ok (if rows.any (conflicts r) then rows else rows ++ [r])
    | .doUpdate conflicts cond set => P.upsertRow conflicts cond set r rows
  else .error .rowSecurity

/-- The rows that a statement leaves, before the constraints are checked. -/
def write : Dml ρ → List ρ → Except DbError (List ρ)
  | .insert rs onConflict reads, rows => rs.foldlM (P.insertRow onConflict reads) rows
  | .update cond set reads, rows =>
    if ∀ r ∈ rows, P.updates cond reads r = true → P.Passes reads (set r) then
      .ok (rows.map fun r => if P.updates cond reads r then set r else r)
    else .error .rowSecurity
  | .delete cond reads, rows => .ok (rows.filter fun r => !P.deletes cond reads r)

variable [DecidableEq π]

/-- The table that a statement leaves; `accepts` is what the constraints say of its rows, unique
keys apart. -/
def run (accepts : List ρ → Bool) (st : Dml ρ) (t : Table key) : Except DbError (Table key) :=
  match P.write st t.rows with
  | .error e => .error e
  | .ok rows =>
    if h : (rows.map key).Nodup then
      if accepts rows then .ok ⟨rows, h⟩ else .error .integrity
    else .error .integrity

end RowPolicy

/-! ## What the policies confine a statement to -/

/-- A row version that is gone satisfies `old`, and one that is new satisfies `new`. -/
structure Confined (old new : ρ → Prop) (rows rows' : List ρ) : Prop where
  gone : ∀ r ∈ rows, r ∉ rows' → old r
  added : ∀ r ∈ rows', r ∉ rows → new r

/-- The policies let a session take rows that satisfy `old` only, and add rows that satisfy `new`
only. -/
structure RowPolicy.Confines (P : RowPolicy ρ) (old new : ρ → Prop) : Prop where
  insert : ∀ r, (P.insert r).Holds → new r
  updateUsing : ∀ r, (P.updateUsing r).Holds → old r
  updateCheck : ∀ r r', (P.updateUsing r).Holds → (P.updateCheck r').Holds → new r'
  delete : ∀ r, (P.delete r).Holds → old r

namespace Confined

variable {old new : ρ → Prop} {rows rows' rows'' : List ρ}

/-- Nothing is gone and nothing is new. -/
theorem refl (rows : List ρ) : Confined old new rows rows :=
  ⟨fun _ hr hnot => absurd hr hnot, fun _ hr hnot => absurd hr hnot⟩

/-- Two statements confined in one way are so together. -/
theorem trans (h : Confined old new rows rows') (h' : Confined old new rows' rows'') :
    Confined old new rows rows'' where
  gone r hr hnot := by
    by_cases hr' : r ∈ rows'
    · exact h'.gone r hr' hnot
    · exact h.gone r hr hr'
  added r hr hnot := by
    by_cases hr' : r ∈ rows'
    · exact h.added r hr' hnot
    · exact h'.added r hr hr'

/-- A new row at the end satisfies `new`. -/
theorem append {r : ρ} (h : new r) : Confined old new rows (rows ++ [r]) where
  gone x hx hnot := absurd (List.mem_append_left _ hx) hnot
  added x hx hnot := by
    rcases List.mem_append.mp hx with hx | hx
    · exact absurd hx hnot
    · rwa [List.mem_singleton.mp hx]

/-- A row in front does not matter. -/
theorem cons {x : ρ} (h : Confined old new rows rows') :
    Confined old new (x :: rows) (x :: rows') where
  gone r hr hnot := by
    rcases List.mem_cons.mp hr with rfl | hr
    · exact absurd List.mem_cons_self hnot
    · exact h.gone r hr fun hr' => hnot (List.mem_cons_of_mem _ hr')
  added r hr hnot := by
    rcases List.mem_cons.mp hr with rfl | hr
    · exact absurd List.mem_cons_self hnot
    · exact h.added r hr fun hr' => hnot (List.mem_cons_of_mem _ hr')

/-- A row is replaced by one that satisfies `new`. -/
theorem head {x y : ρ} (hold : old x) (hnew : new y) :
    Confined old new (x :: rows) (y :: rows) where
  gone r hr hnot := by
    rcases List.mem_cons.mp hr with rfl | hr
    · exact hold
    · exact absurd (List.mem_cons_of_mem _ hr) hnot
  added r hr hnot := by
    rcases List.mem_cons.mp hr with rfl | hr
    · exact hnew
    · exact absurd (List.mem_cons_of_mem _ hr) hnot

end Confined

namespace RowPolicy

variable {P : RowPolicy ρ} {old new : ρ → Prop} {rows rows' : List ρ}

/-- One row of an upsert stays within the policies. -/
theorem Confines.upsertRow (h : P.Confines old new) {conflicts cond : ρ → ρ → Bool}
    {set : ρ → ρ → ρ} {r : ρ} (hr : (P.insert r).Holds)
    (hrun : P.upsertRow conflicts cond set r rows = .ok rows') : Confined old new rows rows' := by
  induction rows generalizing rows' with
  | nil =>
    cases hrun
    exact @Confined.append _ _ _ [] r (h.insert r hr)
  | cons x rest ih =>
    simp only [RowPolicy.upsertRow] at hrun
    split at hrun
    · split at hrun
      · next husing =>
        split at hrun
        · split at hrun
          · next hpass =>
            cases hrun
            exact .head (h.updateUsing x husing.1) (h.updateCheck x _ husing.1 hpass.1)
          · cases hrun
        · cases hrun
          exact .refl _
      · cases hrun
    · cases hrest : P.upsertRow conflicts cond set r rest with
      | error e =>
        rw [hrest] at hrun
        cases hrun
      | ok rest' =>
        rw [hrest] at hrun
        cases hrun
        exact (ih hrest).cons

/-- So does one row of an insert. -/
theorem Confines.insertRow (h : P.Confines old new) {onConflict : OnConflict ρ} {reads : Bool}
    {r : ρ} (hrun : P.insertRow onConflict reads rows r = .ok rows') :
    Confined old new rows rows' := by
  unfold RowPolicy.insertRow at hrun
  split at hrun
  swap
  · cases hrun
  next hr =>
  cases onConflict with
  | fail =>
    cases hrun
    exact .append (h.insert r hr.1)
  | doNothing conflicts =>
    cases hrun
    split
    · exact .refl rows
    · exact .append (h.insert r hr.1)
  | doUpdate conflicts cond set => exact h.upsertRow hr.1 hrun

/-- A statement that succeeds, on the rows of the table. -/
theorem Confines.write (h : P.Confines old new) {st : Dml ρ} (hrun : P.write st rows = .ok rows') :
    Confined old new rows rows' := by
  cases st with
  | insert rs onConflict reads =>
    -- row by row
    simp only [RowPolicy.write] at hrun
    induction rs generalizing rows with
    | nil =>
      cases hrun
      exact .refl _
    | cons r rs ih =>
      simp only [List.foldlM_cons] at hrun
      cases hrow : P.insertRow onConflict reads rows r with
      | error e =>
        rw [hrow] at hrun
        cases hrun
      | ok rows₁ =>
        rw [hrow] at hrun
        exact (h.insertRow hrow).trans (ih hrun)
  | update cond set reads =>
    simp only [RowPolicy.write] at hrun
    split at hrun
    swap
    · cases hrun
    next hpass =>
    cases hrun
    have husing : ∀ r, P.updates cond reads r = true → (P.updateUsing r).Holds := by
      intro r hr
      simp only [updates, Bool.and_eq_true, decide_eq_true_eq] at hr
      exact hr.2.2
    refine ⟨fun r hr hnot => ?_, fun r' hr' hnot => ?_⟩
    · by_cases hmatch : P.updates cond reads r = true
      · exact h.updateUsing r (husing r hmatch)
      · have hstays : r ∈ rows.map fun r => if P.updates cond reads r then set r else r :=
          List.mem_map.mpr ⟨r, hr, if_neg hmatch⟩
        exact absurd hstays hnot
    · obtain ⟨r, hr, rfl⟩ := List.mem_map.mp hr'
      by_cases hmatch : P.updates cond reads r = true
      · rw [if_pos hmatch]
        exact h.updateCheck r _ (husing r hmatch) (hpass r hr hmatch).1
      · rw [if_neg hmatch] at hnot
        exact absurd hr hnot
  | delete cond reads =>
    cases hrun
    refine ⟨fun r hr hnot => ?_, fun r hr hnot => absurd (List.mem_filter.mp hr).1 hnot⟩
    by_cases hmatch : P.deletes cond reads r = true
    · simp only [deletes, Bool.and_eq_true, decide_eq_true_eq] at hmatch
      exact h.delete r hmatch.2.2
    · exact absurd (List.mem_filter.mpr ⟨hr, by simp [hmatch]⟩) hnot

variable [DecidableEq π]

/-- So does any statement as a whole. -/
theorem Confines.of_run (h : P.Confines old new) {accepts : List ρ → Bool} {st : Dml ρ}
    {t t' : Table key} (hrun : P.run accepts st t = .ok t') : Confined old new t.rows t'.rows := by
  unfold RowPolicy.run at hrun
  split at hrun
  · cases hrun
  · next rows hwrite =>
    split at hrun
    · split at hrun
      · cases hrun
        exact h.write hwrite
      · cases hrun
    · cases hrun

end RowPolicy

/-! ## The statements of the object-relational layer

They are such statements, so what confines any statement confines them. -/

section Instances

variable [DecidableEq π]

/-- A statement that leaves the rows of a table leaves that table. -/
theorem RowPolicy.run_of_write {P : RowPolicy ρ} {st : Dml ρ} {t t' : Table key}
    (h : P.write st t.rows = .ok t'.rows) : P.run (fun _ => true) st t = .ok t' := by
  simp only [RowPolicy.run, h, if_true]
  exact dif_pos t'.nodup

namespace TableDef

variable {T : TableDef σ κ ℓ τ key} {l : ℓ} {s : σ} {wr : Write σ κ}

/-- `INSERT ... RETURNING` of one row. -/
theorem run_of_insertWrite (hread : ∀ f s, T.read (T.write f s) = f (T.read s)) {r : ρ}
    (h : T.insertWrite l s r = .ok wr) :
    (T.policy l s).run (fun _ => true) (.insert [r] .fail true) (T.read s) =
      .ok (T.read (wr.effect s)) := by
  obtain ⟨hinsert, hselect, hfree, -, rfl⟩ := T.insertWrite_eq_ok.mp h
  have hnew : key r ∉ (T.read s).rows.map key := by
    intro hmem
    obtain ⟨x, hx, hkey⟩ := List.mem_map.mp hmem
    exact Table.get_eq_none.mp hfree x hx hkey
  have hrows : ((T.read s).insert r).rows = (T.read s).rows ++ [r] := by
    rw [Table.insert, dif_neg hnew]
  refine RowPolicy.run_of_write ?_
  rw [hread, hrows]
  simp only [RowPolicy.write, List.foldlM_cons, List.foldlM_nil]
  have hrow : (T.policy l s).insertRow .fail true (T.read s).rows r =
      .ok ((T.read s).rows ++ [r]) := if_pos ⟨hinsert, fun _ => hselect⟩
  rw [hrow]
  rfl

/-- `UPDATE` of one row by its key. -/
theorem run_of_updateWrite (hread : ∀ f s, T.read (T.write f s) = f (T.read s)) {k : π}
    {f : ρ → Option ρ} {hf : ∀ r r', f r = some r' → key r' = key r}
    (h : T.updateWrite l s k f hf = .ok wr) :
    (T.policy l s).run (fun _ => true)
        (.update (fun r => decide (key r = k)) (fun r => (f r).getD r) true) (T.read s) =
      .ok (T.read (wr.effect s)) := by
  obtain ⟨r, r', hlookup, husing, hset, hcheck, hsee, -, rfl⟩ := T.updateWrite_eq_ok h
  obtain ⟨hr, rfl, hselect⟩ := T.lookup_eq_some.mp hlookup
  have hmatch : ∀ x ∈ (T.read s).rows,
      (T.policy l s).updates (fun x => decide (key x = key r)) true x = decide (key x = key r) := by
    intro x hx
    by_cases hkey : key x = key r
    · obtain rfl := Table.eq_of_key_eq hx hr hkey
      simp [RowPolicy.updates, RowPolicy.Readable, husing, hselect]
    · simp [RowPolicy.updates, hkey]
  refine RowPolicy.run_of_write ?_
  simp only [RowPolicy.write]
  rw [if_pos]
  · simp only [set, hread, Table.modify]
    refine congrArg Except.ok (List.map_congr_left fun x hx => ?_)
    rw [hmatch x hx]
  · intro x hx hx'
    rw [hmatch x hx, decide_eq_true_eq] at hx'
    obtain rfl := Table.eq_of_key_eq hx hr hx'
    rw [hset]
    exact ⟨hcheck, fun _ => hsee⟩

/-- `DELETE ... WHERE`, on the table that it names. -/
theorem run_of_deleteWrite (herase : ∀ p s, T.read (T.erase p s) = (T.read s).erase p)
    {p : ρ → Bool} (h : T.deleteWrite l s p = .ok wr) :
    (T.policy l s).run (fun _ => true) (.delete p true) (T.read s) =
      .ok (T.read (wr.effect s)) := by
  obtain ⟨-, rfl⟩ := T.deleteWrite_eq_ok.mp h
  refine RowPolicy.run_of_write ?_
  rw [herase, deletable, Table.erase_keys_select]
  refine congrArg Except.ok (List.filter_congr fun r _ => ?_)
  simp [RowPolicy.deletes, RowPolicy.Readable, visible]

end TableDef

end Instances

end Sql
