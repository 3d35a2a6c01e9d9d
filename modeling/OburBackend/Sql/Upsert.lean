import OburBackend.Sql.Statement

/-!
# `INSERT ... ON CONFLICT DO UPDATE` of many rows

`Upsert.values` puts the rows of a list into a table one after the other: a row whose key is free is
inserted, and else the stored row takes its columns. Row policies and unique indexes are checked
with each row, and foreign keys when all of them are stored. A statement that sets every column but
the key replaces the rows (`Upsert.Replaces`): afterwards each proposed row is stored, and of the
rows under other keys those that were (`mem_of_values`). To run it once more changes nothing
(`values_eq_self`).
-/

namespace Sql

variable {ρ κ : Type} {key : ρ → κ}

/-- A change that changes none of the rows it selects. -/
theorem Table.modify_eq_self_of {t : Table key} {p : ρ → Bool} {f : ρ → ρ}
    {hf : ∀ r, key (f r) = key r} (h : ∀ r ∈ t, p r = true → f r = r) : t.modify p f hf = t := by
  have hrows : t.rows.map (fun r => if p r then f r else r) = t.rows := by
    refine (List.map_congr_left fun r hr => ?_).trans (List.map_id t.rows)
    split
    · next hp => exact h r hr hp
    · rfl
  rw [Table.modify]
  congr

/-- A change of the row with one key leaves what is stored under another. -/
theorem Table.get_modify_of_ne [DecidableEq κ] {t : Table key} {f : ρ → ρ}
    (hf : ∀ r, key (f r) = key r) {k k' : κ} (h : k' ≠ k) :
    (t.modify (fun r => decide (key r = k)) f hf).get k' = t.get k' := by
  refine Table.get_congr fun r hr => ?_
  have hne : key r ≠ k := fun hk => h (hr.symm.trans hk)
  rw [Table.mem_modify]
  constructor
  · rintro ⟨x, hx, rfl⟩
    split at hne
    · next hp => exact absurd ((hf x).trans (of_decide_eq_true hp)) hne
    · next hp => rwa [if_neg hp]
  · exact fun hmem => ⟨r, hmem, if_neg (by simpa using hne)⟩

/-- The policies of a session that no policy binds. -/
def RowPolicy.exempt : RowPolicy ρ := ⟨fun _ => .yes, fun _ => .yes, fun _ => .yes, fun _ => .yes,
  fun _ => .yes⟩

/-- The clause `DO UPDATE SET`, with the policies and the constraints of the table. -/
structure Upsert (key : ρ → κ) where
  /-- The stored row with the columns of the proposed one. -/
  set : ρ → ρ → ρ
  set_key : ∀ proposed r, key (set proposed r) = key r
  policy : RowPolicy ρ
  /-- The row agrees with no other one in a unique column. -/
  unique : Table key → ρ → Bool
  /-- The rows that the row refers to are stored. -/
  foreign : Table key → ρ → Bool

namespace Upsert

variable [DecidableEq κ] (u : Upsert key)

/-- The table with one proposed row, before its constraints are checked. -/
def put (t : Table key) (r : ρ) : Table key :=
  match t.get (key r) with
  | some _ => t.modify (fun x => decide (key x = key r)) (u.set r) (u.set_key r)
  | none => t.insert r

/-- Whether the policies let the session put the row: insert it and, if its key is taken, update the
stored one. A stored row that may not be updated is an error here, and not left out. -/
def allowed (t : Table key) (r : ρ) : Bool :=
  decide (u.policy.insert r).Holds && (t.get (key r)).all fun x =>
    decide ((u.policy.select x).Holds ∧ (u.policy.updateUsing x).Holds ∧
      (u.policy.updateCheck (u.set r x)).Holds ∧ (u.policy.select (u.set r x)).Holds)

/-- One proposed row. -/
def row (t : Table key) (r : ρ) : Option (Table key) :=
  if u.allowed t r ∧ ((u.put t r).get (key r)).all (u.unique (u.put t r)) then some (u.put t r)
  else none

/-- The statement. It also fails when it would affect a row a second time. -/
def values (t : Table key) (rows : List ρ) : Option (Table key) :=
  if (rows.map key).Nodup then
    (rows.foldlM u.row t).filter fun t' => rows.all fun r => (t'.get (key r)).all (u.foreign t')
  else none

/-- Every column but the key is set. -/
def Replaces : Prop := ∀ proposed r, key proposed = key r → u.set proposed r = proposed

variable {u} {t t' : Table key} {r x : ρ} {rows : List ρ} {k : κ}

/-- The row is stored under its key, and the other keys are looked up as before. -/
theorem get_put (hu : u.Replaces) :
    (u.put t r).get k = if k = key r then some r else t.get k := by
  unfold put
  cases hget : t.get (key r) with
  | none =>
    dsimp only
    split
    · next hk =>
      subst hk
      exact Table.get_eq_some.mpr ⟨(Table.mem_insert hget).mpr (.inr rfl), rfl⟩
    · next hk => exact Table.get_insert_of_ne hk
  | some y =>
    dsimp only
    split
    · next hk =>
      subst hk
      rw [Table.get_modify_key, hget, Option.map_some, hu r y (Table.get_eq_some.mp hget).2.symm]
    · next hk => exact Table.get_modify_of_ne (u.set_key r) hk

/-- It takes the place of the row with its key. -/
theorem mem_put (hu : u.Replaces) : x ∈ u.put t r ↔ x = r ∨ x ∈ t ∧ key x ≠ key r := by
  have hmem : ∀ t : Table key, x ∈ t ↔ t.get (key x) = some x := fun t =>
    ⟨fun h => Table.get_eq_some.mpr ⟨h, rfl⟩, fun h => (Table.get_eq_some.mp h).1⟩
  rw [hmem, get_put hu, hmem t]
  split
  · next hk =>
    rw [Option.some.injEq]
    exact ⟨fun h => .inl h.symm, fun h => (h.resolve_right fun h => h.2 hk).symm⟩
  · next hk =>
    refine ⟨fun h => .inr ⟨h, hk⟩, fun h => (h.resolve_left ?_).1⟩
    rintro rfl
    exact hk rfl

/-- A stored row is put where it is. -/
theorem put_of_mem (hu : u.Replaces) (h : r ∈ t) : u.put t r = t := by
  have hget : t.get (key r) = some r := Table.get_eq_some.mpr ⟨h, rfl⟩
  rw [put, hget]
  refine Table.modify_eq_self_of fun x hx hkey => ?_
  obtain rfl := Table.eq_of_key_eq hx h (of_decide_eq_true hkey)
  exact hu x x rfl

/-- A row that passes the checks is put. -/
theorem row_eq_some (h : u.row t r = some t') : t' = u.put t r := by
  unfold row at h
  split at h
  · exact (Option.some.inj h).symm
  · cases h

/-- The rows that are stored afterwards. -/
theorem mem_of_foldlM (hu : u.Replaces) (hnodup : (rows.map key).Nodup)
    (h : rows.foldlM u.row t = some t') :
    x ∈ t' ↔ x ∈ rows ∨ x ∈ t ∧ key x ∉ rows.map key := by
  induction rows generalizing t with
  | nil =>
    obtain rfl : t = t' := Option.some.inj h
    simp
  | cons r rows ih =>
    rw [List.map_cons, List.nodup_cons] at hnodup
    rw [List.foldlM_cons, Option.bind_eq_bind, Option.bind_eq_some_iff] at h
    obtain ⟨s, hrow, hrest⟩ := h
    obtain rfl := row_eq_some hrow
    rw [ih hnodup.2 hrest, mem_put hu, List.mem_cons, List.map_cons, List.mem_cons, not_or]
    constructor
    · rintro (h | ⟨rfl | ⟨h, hne⟩, hkey⟩)
      · exact .inl (.inr h)
      · exact .inl (.inl rfl)
      · exact .inr ⟨h, hne, hkey⟩
    · rintro ((rfl | h) | ⟨h, hne, hkey⟩)
      · exact .inr ⟨.inl rfl, hnodup.1⟩
      · exact .inl h
      · exact .inr ⟨.inr ⟨h, hne⟩, hkey⟩

/-- The statement goes through when the keys differ, each row passes, and the foreign keys hold at
the end. -/
theorem values_eq_some (h : u.values t rows = some t') :
    (rows.map key).Nodup ∧ rows.foldlM u.row t = some t' ∧
      ∀ r ∈ rows, (t'.get (key r)).all (u.foreign t') = true := by
  unfold values at h
  split at h
  · next hnodup =>
    obtain ⟨hrows, hforeign⟩ := Option.filter_eq_some_iff.mp h
    exact ⟨hnodup, hrows, List.all_eq_true.mp hforeign⟩
  · cases h

/-- After the statement the proposed rows are stored, and of the others those that were. -/
theorem mem_of_values (hu : u.Replaces) (h : u.values t rows = some t') :
    x ∈ t' ↔ x ∈ rows ∨ x ∈ t ∧ key x ∉ rows.map key :=
  have h := values_eq_some h
  mem_of_foldlM hu h.1 h.2.1

/-- Whoever is exempt from row security may put any row. -/
theorem allowed_of_exempt (h : u.policy = .exempt) : u.allowed t r = true := by
  simp [allowed, h, RowPolicy.exempt]

/-- A session without an `INSERT` policy puts no row. -/
theorem values_eq_none (h : ∀ r, ¬ (u.policy.insert r).Holds) (hrows : rows ≠ []) :
    u.values t rows = none := by
  obtain ⟨r, rest, rfl⟩ := List.exists_cons_of_ne_nil hrows
  have hrow : u.row t r = none := by
    refine if_neg fun hrow => ?_
    exact h r (of_decide_eq_true (Bool.and_eq_true_iff.mp hrow.1).1)
  unfold values
  split
  · rw [List.foldlM_cons, hrow]
    rfl
  · rfl

/-- An exempt session succeeds if what it has stored so far never is in the way of its next row, and
the references hold in the end. -/
theorem exists_values {P : Table key → Prop} (hpolicy : u.policy = .exempt) (hu : u.Replaces)
    (hnodup : (rows.map key).Nodup) (hstart : P t)
    (hput : ∀ s, P s → ∀ r ∈ rows, u.unique (u.put s r) r = true ∧ P (u.put s r))
    (hforeign : ∀ s, P s → (∀ r ∈ rows, r ∈ s) → ∀ r ∈ rows, u.foreign s r = true) :
    ∃ t', u.values t rows = some t' ∧ P t' := by
  have hfold : ∀ l, l ⊆ rows → ∀ s, P s → ∃ t', l.foldlM u.row s = some t' ∧ P t' := by
    intro l
    induction l with
    | nil => exact fun _ s hs => ⟨s, rfl, hs⟩
    | cons r l ih =>
      intro hl s hs
      obtain ⟨hr, hl⟩ := List.cons_subset.mp hl
      obtain ⟨hunique, hnext⟩ := hput s hs r hr
      obtain ⟨t', ht', hP⟩ := ih hl _ hnext
      have hrow : u.row s r = some (u.put s r) := by
        rw [row, get_put hu, if_pos rfl, Option.all_some]
        exact if_pos ⟨allowed_of_exempt hpolicy, hunique⟩
      refine ⟨t', ?_, hP⟩
      rw [List.foldlM_cons, hrow]
      exact ht'
  obtain ⟨t', ht', hP⟩ := hfold rows (List.Subset.refl rows) t hstart
  refine ⟨t', ?_, hP⟩
  have hstored : ∀ r ∈ rows, r ∈ t' := fun r hr => (mem_of_foldlM hu hnodup ht').mpr (.inl hr)
  rw [values, if_pos hnodup, ht']
  refine Option.filter_eq_some_iff.mpr ⟨rfl, List.all_eq_true.mpr fun r hr => ?_⟩
  rw [Table.get_eq_some.mpr ⟨hstored r hr, rfl⟩]
  exact hforeign t' hP hstored r hr

/-- The statement changes nothing where its rows are stored already. -/
theorem values_eq_self (hpolicy : u.policy = .exempt) (hu : u.Replaces)
    (hnodup : (rows.map key).Nodup)
    (hstored : ∀ r ∈ rows, r ∈ t) (hunique : ∀ r ∈ rows, u.unique t r = true)
    (hforeign : ∀ r ∈ rows, u.foreign t r = true) : u.values t rows = some t := by
  obtain ⟨t', ht', rfl⟩ := exists_values (P := fun s => s = t) hpolicy hu hnodup rfl
    (by
      rintro s rfl r hr
      rw [put_of_mem hu (hstored r hr)]
      exact ⟨hunique r hr, rfl⟩)
    (by
      rintro s rfl - r hr
      exact hforeign r hr)
  exact ht'

end Upsert

end Sql
