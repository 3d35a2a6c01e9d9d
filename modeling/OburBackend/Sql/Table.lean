import Mathlib.Data.List.Nodup

/-!
# Tables with a primary key

A table is a list of rows in which no two rows have the same key; the uniqueness travels with the
table, so that a lookup by key has one answer (`Table.get_eq_some`) and no operation can build a
table with a duplicate. The operations are the effects of `INSERT`, `DELETE` and `UPDATE` once the
statement has settled which rows they touch; each comes with its membership lemma.
-/

namespace Sql

variable {ρ κ : Type} {key : ρ → κ}

/-- The rows of a table with primary key `key`. -/
structure Table (key : ρ → κ) where
  rows : List ρ
  nodup : (rows.map key).Nodup

namespace Table

instance : Membership ρ (Table key) := ⟨fun t r => r ∈ t.rows⟩

/-- The rows of a table are its elements. -/
theorem mem_rows {t : Table key} {r : ρ} : r ∈ t.rows ↔ r ∈ t := Iff.rfl

instance [DecidableEq ρ] (t : Table key) (r : ρ) : Decidable (r ∈ t) :=
  inferInstanceAs (Decidable (r ∈ t.rows))

/-- The table without rows. -/
def empty : Table key := ⟨[], List.nodup_nil⟩

@[simp] theorem not_mem_empty (r : ρ) : r ∉ (empty : Table key) := List.not_mem_nil

/-- A table has each row once. -/
theorem rows_nodup (t : Table key) : t.rows.Nodup := List.Nodup.of_map key t.nodup

/-- Two rows of a table with the same key are the same row. -/
theorem eq_of_key_eq {t : Table key} {r r' : ρ} (hr : r ∈ t) (hr' : r' ∈ t)
    (h : key r = key r') : r = r' :=
  List.inj_on_of_nodup_map t.nodup hr hr' h

section Lookup

variable [DecidableEq κ]

/-- The row with key `k`, if there is one. -/
def get (t : Table key) (k : κ) : Option ρ := t.rows.find? fun r => key r = k

/-- A lookup finds the row with the key. -/
theorem get_eq_some {t : Table key} {k : κ} {r : ρ} : t.get k = some r ↔ r ∈ t ∧ key r = k := by
  constructor
  · intro h
    exact ⟨List.mem_of_find?_eq_some h, by simpa using List.find?_some h⟩
  · rintro ⟨hr, rfl⟩
    cases h : t.get (key r) with
    | none => simpa using List.find?_eq_none.mp h r hr
    | some r' =>
      have hk : key r' = key r := by simpa using List.find?_some h
      rw [eq_of_key_eq (List.mem_of_find?_eq_some h) hr hk]

/-- It finds none when no row has it. -/
theorem get_eq_none {t : Table key} {k : κ} : t.get k = none ↔ ∀ r ∈ t, key r ≠ k := by
  simp [get, List.find?_eq_none, mem_rows]

/-- What is found under a key depends on the rows with that key alone. -/
theorem get_congr {t t' : Table key} {k : κ} (h : ∀ r, key r = k → (r ∈ t ↔ r ∈ t')) :
    t.get k = t'.get k := by
  refine Option.ext fun r => ?_
  rw [get_eq_some, get_eq_some]
  constructor
  · rintro ⟨hr, hk⟩
    exact ⟨(h r hk).mp hr, hk⟩
  · rintro ⟨hr, hk⟩
    exact ⟨(h r hk).mpr hr, hk⟩

/-- A search by key in a list finds the row of the table, if the list has the same rows with that
key as the table. -/
theorem find?_eq_get {t : Table key} {l : List ρ} {k : κ}
    (h : ∀ r, key r = k → (r ∈ l ↔ r ∈ t)) : (l.find? fun r => key r = k) = t.get k := by
  cases hget : t.get k with
  | none =>
    refine List.find?_eq_none.mpr fun r hr => ?_
    rw [decide_eq_true_eq]
    exact fun hk => get_eq_none.mp hget r ((h r hk).mp hr) hk
  | some r =>
    obtain ⟨hr, hk⟩ := get_eq_some.mp hget
    cases hfind : l.find? fun r => key r = k with
    | none => exact absurd hk (by simpa using List.find?_eq_none.mp hfind r ((h r hk).mpr hr))
    | some r' =>
      have hk' : key r' = k := by simpa using List.find?_some hfind
      have hr' : r' ∈ t := (h r' hk').mp (List.mem_of_find?_eq_some hfind)
      rw [eq_of_key_eq hr' hr (hk'.trans hk.symm)]

@[simp] theorem get_empty (k : κ) : (empty : Table key).get k = none := rfl

/-- The table with `r` added, or the table itself when the key of `r` is taken: an `INSERT` checks
the key first and raises. -/
def insert (t : Table key) (r : ρ) : Table key :=
  if h : key r ∈ t.rows.map key then t
  else ⟨t.rows ++ [r], by
    rw [List.map_append, List.nodup_append]
    refine ⟨t.nodup, List.nodup_singleton _, fun a ha b hb hab => h ?_⟩
    rw [List.map_cons, List.map_nil, List.mem_singleton] at hb
    exact hb ▸ hab ▸ ha⟩

/-- Adding a row again changes nothing. -/
theorem insert_insert (t : Table key) (r : ρ) : (t.insert r).insert r = t.insert r := by
  by_cases h : key r ∈ t.rows.map key
  · simp only [insert, dif_pos h]
  · have hthere : key r ∈ (t.insert r).rows.map key := by
      rw [insert, dif_neg h]
      exact List.mem_map_of_mem (List.mem_append_right _ (List.mem_singleton_self r))
    exact dif_pos hthere

/-- A row of the extended table is the new row or an old one. -/
theorem mem_or_eq_of_mem_insert {t : Table key} {r x : ρ} (h : x ∈ t.insert r) :
    x ∈ t ∨ x = r := by
  unfold insert at h
  split at h
  · exact .inl h
  · rcases List.mem_append.mp h with h | h
    · exact .inl h
    · exact .inr (List.mem_singleton.mp h)

/-- What is stored stays when a row is added. -/
theorem mem_insert_of_mem {t : Table key} {r x : ρ} (h : x ∈ t) : x ∈ t.insert r := by
  unfold insert
  split
  · exact h
  · exact List.mem_append_left _ h

/-- With a free key, `insert` adds the row and nothing else. -/
theorem mem_insert {t : Table key} {r x : ρ} (hk : t.get (key r) = none) :
    x ∈ t.insert r ↔ x ∈ t ∨ x = r := by
  refine ⟨mem_or_eq_of_mem_insert, fun h => ?_⟩
  rcases h with h | rfl
  · exact mem_insert_of_mem h
  · have hfree : key x ∉ t.rows.map key := by
      rintro hm
      obtain ⟨y, hy, hyk⟩ := List.mem_map.mp hm
      exact get_eq_none.mp hk y hy hyk
    rw [insert, dif_neg hfree]
    exact List.mem_append_right _ (List.mem_singleton.mpr rfl)

/-- Other keys are looked up as before. -/
theorem get_insert_of_ne {t : Table key} {r : ρ} {k : κ} (hk : k ≠ key r) :
    (t.insert r).get k = t.get k := by
  refine get_congr fun x hx => ⟨fun h => ?_, mem_insert_of_mem⟩
  rcases mem_or_eq_of_mem_insert h with h | rfl
  · exact h
  · exact absurd hx.symm hk

end Lookup

/-- The table without the rows that satisfy `p`. -/
def erase (t : Table key) (p : ρ → Bool) : Table key :=
  ⟨t.rows.filter fun r => !p r, (List.filter_sublist.map key).nodup t.nodup⟩

@[simp] theorem mem_erase {t : Table key} {p : ρ → Bool} {x : ρ} :
    x ∈ t.erase p ↔ x ∈ t ∧ p x = false := by
  simp [erase, ← mem_rows]

/-- The table with `f` applied to the rows that satisfy `p`, where `f` keeps the key. -/
def modify (t : Table key) (p : ρ → Bool) (f : ρ → ρ) (hf : ∀ r, key (f r) = key r) : Table key :=
  ⟨t.rows.map fun r => if p r then f r else r, by
    rw [List.map_map]
    have h : (key ∘ fun r => if p r then f r else r) = key := by
      funext r
      by_cases hp : p r <;> simp [hp, hf]
    rw [h]
    exact t.nodup⟩

/-- A modified table has the changed rows and the others. -/
theorem mem_modify {t : Table key} {p : ρ → Bool} {f : ρ → ρ} {hf : ∀ r, key (f r) = key r}
    {x : ρ} : x ∈ t.modify p f hf ↔ ∃ r ∈ t, (if p r then f r else r) = x := by
  simp [modify, ← mem_rows]

/-- A change that changes no row. -/
theorem modify_eq_self {t : Table key} {p : ρ → Bool} {f : ρ → ρ} {hf : ∀ r, key (f r) = key r}
    (h : ∀ r, f r = r) : t.modify p f hf = t := by
  simp only [modify, h, ite_self, List.map_id']

/-- Changing one row leaves the others. -/
theorem mem_modify_key [DecidableEq κ] {t : Table key} {f : ρ → ρ} (hf : ∀ r, key (f r) = key r)
    {r x : ρ} (hr : r ∈ t) : x ∈ t.modify (fun y => decide (key y = key r)) f hf ↔
      x = f r ∨ x ∈ t ∧ key x ≠ key r := by
  rw [mem_modify]
  constructor
  · rintro ⟨y, hy, rfl⟩
    by_cases hkey : key y = key r
    · obtain rfl := eq_of_key_eq hy hr hkey
      exact .inl (by simp)
    · exact .inr (by simp [hkey, hy])
  · rintro (rfl | ⟨hx, hkey⟩)
    · exact ⟨r, hr, by simp⟩
    · exact ⟨x, hx, by simp [hkey]⟩

/-- What is found under the key of the row that has been changed. -/
theorem get_modify_key [DecidableEq κ] {t : Table key} {f : ρ → ρ} (hf : ∀ r, key (f r) = key r)
    {k : κ} : (t.modify (fun y => decide (key y = k)) f hf).get k = (t.get k).map f := by
  refine Option.ext fun x => ?_
  simp only [get_eq_some, mem_modify, Option.map_eq_some_iff, decide_eq_true_eq]
  constructor
  · rintro ⟨⟨r, hr, rfl⟩, hkey⟩
    by_cases hk : key r = k
    · exact ⟨r, ⟨hr, hk⟩, by rw [if_pos hk]⟩
    · rw [if_neg hk] at hkey
      exact absurd hkey hk
  · rintro ⟨r, ⟨hr, hk⟩, rfl⟩
    exact ⟨⟨r, hr, by rw [if_pos hk]⟩, (hf r).trans hk⟩

/-- A row that is not deleted is looked up as before. -/
theorem get_erase_of_not [DecidableEq κ] {t : Table key} {p : ρ → Bool} {k : κ}
    (h : ∀ r ∈ t, key r = k → p r = false) : (t.erase p).get k = t.get k := by
  refine get_congr fun r hr => ?_
  rw [mem_erase]
  exact ⟨And.left, fun hmem => ⟨hmem, h r hmem hr⟩⟩

/-- The rows that satisfy `p`, in the order of the table: a `SELECT ... WHERE`. -/
def select (t : Table key) (p : ρ → Bool) : List ρ := t.rows.filter p

@[simp] theorem mem_select {t : Table key} {p : ρ → Bool} {x : ρ} :
    x ∈ t.select p ↔ x ∈ t ∧ p x = true := by
  simp [select, ← mem_rows]

/-- A selection has no row twice. -/
theorem select_nodup (t : Table key) (p : ρ → Bool) : (t.select p).Nodup :=
  t.rows_nodup.filter p

/-- The only row that satisfies the condition. -/
theorem select_eq_singleton {t : Table key} {p : ρ → Bool} {r : ρ} (hr : r ∈ t) (hp : p r = true)
    (honly : ∀ x ∈ t, p x = true → x = r) : t.select p = [r] := by
  have hmem : ∀ x, x ∈ t.select p ↔ x ∈ [r] := by
    intro x
    rw [mem_select, List.mem_singleton]
    exact ⟨fun hx => honly x hx.1 hx.2, fun hx => hx ▸ ⟨hr, hp⟩⟩
  exact List.perm_singleton.mp
    ((List.perm_ext_iff_of_nodup (t.select_nodup p) (List.nodup_singleton r)).mpr hmem)

/-- The one row with a key. -/
theorem select_key [DecidableEq κ] {t : Table key} {k : κ} {r : ρ} (h : t.get k = some r) :
    t.select (fun x => decide (key x = k)) = [r] := by
  obtain ⟨hr, hk⟩ := get_eq_some.mp h
  refine select_eq_singleton hr (decide_eq_true hk) fun x hx hxk => ?_
  exact eq_of_key_eq hx hr ((of_decide_eq_true hxk).trans hk.symm)

/-- It is empty when no row satisfies the condition. -/
theorem select_eq_nil {t : Table key} {p : ρ → Bool} (h : ∀ x ∈ t, p x = false) :
    t.select p = [] := by
  refine List.eq_nil_iff_forall_not_mem.mpr fun x hx => ?_
  obtain ⟨hmem, hp⟩ := mem_select.mp hx
  rw [h x hmem] at hp
  cases hp

/-- A condition that fixes the key selects at most the row with that key. -/
theorem select_of_key [DecidableEq κ] {t : Table key} {p : ρ → Bool} {k : κ}
    (hp : ∀ r, p r = true → key r = k) : t.select p = ((t.get k).filter p).toList := by
  obtain ⟨rows, nodup⟩ := t
  simp only [select, get]
  induction rows with
  | nil => rfl
  | cons r rows ih =>
    rw [List.map_cons, List.nodup_cons] at nodup
    by_cases hk : key r = k
    · -- the key of `r` is taken, so no later row has it
      have hnone : rows.filter p = [] := by
        rw [List.filter_eq_nil_iff]
        intro x hx hpx
        exact nodup.1 (List.mem_map.mpr ⟨x, hx, (hp x hpx).trans hk.symm⟩)
      cases hpr : p r <;> simp [hk, hpr, hnone, Option.filter]
    · have hpr : p r = false := by
        cases h : p r with
        | false => rfl
        | true => exact absurd (hp r h) hk
      simpa [hk, hpr] using ih nodup.2

/-- Deleting the selected rows by their keys deletes the rows that satisfy the condition. -/
theorem erase_keys_select [DecidableEq κ] (t : Table key) (p : ρ → Bool) :
    (t.erase fun r => decide (key r ∈ (t.select p).map key)) = t.erase p := by
  obtain ⟨rows, nodup⟩ := t
  simp only [erase, select, mk.injEq]
  refine List.filter_congr fun r hr => ?_
  have hiff : key r ∈ (rows.filter p).map key ↔ p r = true := by
    constructor
    · intro h
      obtain ⟨x, hx, hkey⟩ := List.mem_map.mp h
      obtain ⟨hx, hp⟩ := List.mem_filter.mp hx
      rwa [← List.inj_on_of_nodup_map nodup hx hr hkey]
    · intro h
      exact List.mem_map_of_mem (List.mem_filter.mpr ⟨hr, h⟩)
  simp [hiff]

/-- Whether some row satisfies `p`: `SELECT EXISTS (...)`. -/
def any (t : Table key) (p : ρ → Bool) : Bool := t.rows.any p

@[simp] theorem any_eq_true {t : Table key} {p : ρ → Bool} :
    t.any p = true ↔ ∃ r ∈ t, p r = true := by
  simp [any, ← mem_rows]

@[simp] theorem any_eq_false {t : Table key} {p : ρ → Bool} :
    t.any p = false ↔ ∀ r ∈ t, p r = false := by
  simp [any, ← mem_rows]

/-! ## Deleting before and after another operation -/

/-- Two conditions that agree on the rows delete the same. -/
theorem erase_congr {t : Table key} {p q : ρ → Bool} (h : ∀ r ∈ t, p r = q r) :
    t.erase p = t.erase q := by
  simp only [erase, mk.injEq]
  exact List.filter_congr fun r hr => by rw [h r hr]

/-- The order of two deletions does not matter. -/
theorem erase_comm (t : Table key) (p q : ρ → Bool) :
    (t.erase p).erase q = (t.erase q).erase p := by
  simp only [erase, mk.injEq, List.filter_filter]
  exact List.filter_congr fun r _ => Bool.and_comm _ _

/-- A new row that stays. -/
theorem erase_insert [DecidableEq κ] {t : Table key} {p : ρ → Bool} {r : ρ}
    (hk : t.get (key r) = none) (hp : p r = false) :
    (t.insert r).erase p = (t.erase p).insert r := by
  have hfree : key r ∉ t.rows.map key := by
    intro hm
    obtain ⟨x, hx, hxk⟩ := List.mem_map.mp hm
    exact get_eq_none.mp hk x hx hxk
  have hfree' : key r ∉ (t.erase p).rows.map key := fun hm =>
    hfree ((List.filter_sublist.map key).subset hm)
  rw [insert, dif_neg hfree, insert, dif_neg hfree']
  simp [erase, hp]

/-- A new row that lacks the property changes no answer about the row with a key. -/
theorem any_get_insert [DecidableEq κ] {t : Table key} {p : ρ → Bool} {r : ρ} (k : κ)
    (hk : t.get (key r) = none) (hp : p r = false) :
    ((t.insert r).get k).any p = (t.get k).any p := by
  by_cases hkey : k = key r
  · subst hkey
    have hnew : (t.insert r).get (key r) = some r :=
      get_eq_some.mpr ⟨(mem_insert hk).mpr (.inr rfl), rfl⟩
    rw [hnew, hk, Option.any_some, hp, Option.any_none]
  · rw [get_insert_of_ne hkey]

/-- A change that no row notices. -/
theorem erase_modify {t : Table key} {p q : ρ → Bool} {f : ρ → ρ} {hf : ∀ r, key (f r) = key r}
    (hp : ∀ r, p (f r) = p r) : (t.modify q f hf).erase p = (t.erase p).modify q f hf := by
  simp only [erase, modify, mk.injEq, List.filter_map]
  refine congrArg _ (List.filter_congr fun r _ => ?_)
  by_cases hq : q r = true
  · simp [hq, hp]
  · simp [hq]

/-- What is selected among the rows that stay. -/
theorem select_erase {t : Table key} {p q : ρ → Bool} (h : ∀ r ∈ t, q r = true → p r = false) :
    (t.erase p).select q = t.select q := by
  simp only [erase, select, List.filter_filter]
  refine List.filter_congr fun r hr => ?_
  cases hq : q r with
  | false => rfl
  | true => simp [h r hr hq]

/-- Whether a row is there that is not deleted. -/
theorem any_erase {t : Table key} {p q : ρ → Bool} (h : ∀ r ∈ t, q r = true → p r = false) :
    (t.erase p).any q = t.any q := by
  rw [Bool.eq_iff_iff, any_eq_true, any_eq_true]
  constructor
  · rintro ⟨r, hr, hq⟩
    exact ⟨r, (mem_erase.mp hr).1, hq⟩
  · rintro ⟨r, hr, hq⟩
    exact ⟨r, mem_erase.mpr ⟨hr, h r hr hq⟩, hq⟩

end Table

end Sql
