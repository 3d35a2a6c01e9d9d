import OburBackend.Sql.Writes

/-!
# What becomes of the rows of a table

Two relations between a table and what it is later, for the tables whose statements keep to
`ChangeRules`. `ChangeRules.Evolves` says where each row comes from: it is a row of the old table or
one that was added, edited within the rules since. `Table.Agrees` says that the rows of one kind are
the same in both. `TableDef.Changes.evolves` and `TableDef.Changes.agrees` are what one statement
preserves, on data that others may have changed since the statement read it.
-/

namespace Sql

variable {σ κ ℓ τ ρ π : Type} {key : ρ → π}

namespace ChangeRules

variable (R : ChangeRules ρ)

/-- The row is as it was, or has been edited. -/
def Became (r r' : ρ) : Prop := r' = r ∨ R.edit r r'

/-- Every row of `t'` comes from a row of `t`, or from one that has been added. -/
def Evolves (t t' : Table key) : Prop := ∀ x ∈ t', ∃ r, (r ∈ t ∨ R.add r) ∧ R.Became r x

/-- Every row of `t` is still there, perhaps edited. -/
def Persists (t t' : Table key) : Prop := ∀ r ∈ t, ∃ x ∈ t', R.Became r x

variable {R} {t t' t'' : Table key} {r r' r'' : ρ}

/-- A row is as it was. -/
theorem Became.refl (r : ρ) : R.Became r r := .inl rfl

/-- Two edits one after the other are one, if the rule allows it. -/
theorem Became.trans (htrans : ∀ {x y z}, R.edit x y → R.edit y z → R.edit x z)
    (h : R.Became r r') (h' : R.Became r' r'') : R.Became r r'' := by
  rcases h with rfl | h
  · exact h'
  · rcases h' with rfl | h'
    · exact .inr h
    · exact .inr (htrans h h')

/-- Where a row may be edited into itself, there is no need for the other case. -/
theorem Became.edit (h : R.Became r r') (hrefl : ∀ x, R.edit x x) : R.edit r r' := by
  rcases h with rfl | h
  · exact hrefl r'
  · exact h

/-- A table has evolved from itself. -/
theorem Evolves.refl (t : Table key) : R.Evolves t t := fun x hx => ⟨x, .inl hx, .inl rfl⟩

/-- What has evolved in two stretches has evolved. -/
theorem Evolves.trans (htrans : ∀ {x y z}, R.edit x y → R.edit y z → R.edit x z)
    (h : R.Evolves t t') (h' : R.Evolves t' t'') : R.Evolves t t'' := by
  intro x hx
  obtain ⟨y, hy, hyx⟩ := h' x hx
  rcases hy with hy | hy
  · obtain ⟨r, hr, hry⟩ := h y hy
    exact ⟨r, hr, hry.trans htrans hyx⟩
  · exact ⟨y, .inr hy, hyx⟩

/-- All rows of a table persist in itself. -/
theorem Persists.refl (t : Table key) : R.Persists t t := fun r hr => ⟨r, hr, .inl rfl⟩

/-- What persists over two stretches persists. -/
theorem Persists.trans (htrans : ∀ {x y z}, R.edit x y → R.edit y z → R.edit x z)
    (h : R.Persists t t') (h' : R.Persists t' t'') : R.Persists t t'' := by
  intro r hr
  obtain ⟨x, hx, hrx⟩ := h r hr
  obtain ⟨y, hy, hxy⟩ := h' x hx
  exact ⟨y, hy, hrx.trans htrans hxy⟩

/-- Rows that go. -/
theorem Evolves.of_subset (h : ∀ x ∈ t', x ∈ t) : R.Evolves t t' :=
  fun x hx => ⟨x, .inl (h x hx), .inl rfl⟩

/-- Edits of any of the rows. -/
theorem evolves_modify {p : ρ → Bool} {f : ρ → ρ} (hf : ∀ r, key (f r) = key r)
    (h : ∀ r, R.Became r (f r)) : R.Evolves t (t.modify p f hf) := by
  intro x hx
  obtain ⟨r, hr, rfl⟩ := Table.mem_modify.mp hx
  refine ⟨r, .inl hr, ?_⟩
  split
  · exact h r
  · exact .refl r

/-- Every row persists when the changed ones are edited. -/
theorem persists_modify {p : ρ → Bool} {f : ρ → ρ} (hf : ∀ r, key (f r) = key r)
    (h : ∀ r, R.Became r (f r)) : R.Persists t (t.modify p f hf) := by
  intro r hr
  refine ⟨_, Table.mem_modify.mpr ⟨r, hr, rfl⟩, ?_⟩
  split
  · exact h r
  · exact .refl r

/-- What can be said of an old row with the key of a row of the new table, when the added rows have
other keys. -/
theorem Evolves.of_key (h : R.Evolves t t') (hkey : ∀ r r', R.edit r r' → key r' = key r)
    (hadd : ∀ x, R.add x → key x ≠ key r) (hr : r ∈ t) {x : ρ} (hx : x ∈ t')
    (hxr : key x = key r) : R.Became r x := by
  obtain ⟨y, hy, hyx⟩ := h x hx
  have hyk : key x = key y := by
    rcases hyx with rfl | hedit
    · rfl
    · exact hkey y x hedit
  rcases hy with hy | hy
  · rwa [Table.eq_of_key_eq hr hy (hxr.symm.trans hyk)]
  · exact absurd (hyk.symm.trans hxr) (hadd y hy)

end ChangeRules

/-- The rows that satisfy `mine` are the same. -/
def Table.Agrees (mine : ρ → Prop) (t t' : Table key) : Prop := ∀ r, mine r → (r ∈ t' ↔ r ∈ t)

/-- Among the rows that satisfy `mine`, none is new. -/
def Table.AddsNone (mine : ρ → Prop) (t t' : Table key) : Prop := ∀ r, mine r → r ∈ t' → r ∈ t

/-- A table agrees with itself. -/
theorem Table.Agrees.refl {mine : ρ → Prop} (t : Table key) : t.Agrees mine t :=
  fun _ _ => Iff.rfl

/-- At first nothing has been added. -/
theorem Table.AddsNone.refl {mine : ρ → Prop} (t : Table key) : t.AddsNone mine t :=
  fun _ _ h => h

/-- Nothing is added when rows go. -/
theorem Table.AddsNone.erase {mine : ρ → Prop} {t t' : Table key} (h : t.AddsNone mine t')
    (p : ρ → Bool) : t.AddsNone mine (t'.erase p) :=
  fun r hr hmem => h r hr (Table.mem_erase.mp hmem).1

/-- A deletion that spares the rows that satisfy `mine`. -/
theorem Table.Agrees.erase {mine : ρ → Prop} {t t' : Table key} (h : t.Agrees mine t')
    {p : ρ → Bool} (hp : ∀ r, mine r → r ∈ t' → p r = false) : t.Agrees mine (t'.erase p) := by
  intro r hr
  rw [Table.mem_erase]
  refine ⟨fun hmem => (h r hr).mp hmem.1, fun hmem => ?_⟩
  have hr' := (h r hr).mpr hmem
  exact ⟨hr', hp r hr hr'⟩

/-- A deletion of nothing. -/
theorem Table.erase_eq_self {t : Table key} {p : ρ → Bool} (h : ∀ r ∈ t, p r = false) :
    t.erase p = t := by
  obtain ⟨rows, nodup⟩ := t
  simp only [erase, mk.injEq]
  exact List.filter_eq_self.mpr fun r hr => by rw [h r hr, Bool.not_false]

/-- The row `r` has come into the table, in place of the one with its key if there was one, and
otherwise the table is the same. -/
structure Table.Puts (r : ρ) (t t' : Table key) : Prop where
  rows : ∀ x ∈ t', x = r ∨ x ∈ t ∧ key x ≠ key r
  stays : ∀ x ∈ t, ∃ y ∈ t', key y = key x

/-- An insert puts a row with a new key. -/
theorem Table.puts_insert [DecidableEq π] {t : Table key} {r : ρ} (hk : t.get (key r) = none) :
    t.Puts r (t.insert r) where
  rows x hx := by
    rcases (Table.mem_insert hk).mp hx with hx | rfl
    · exact .inr ⟨hx, Table.get_eq_none.mp hk x hx⟩
    · exact .inl rfl
  stays x hx := ⟨x, Table.mem_insert_of_mem hx, rfl⟩

/-- An update puts a row in place of the one with its key. -/
theorem Table.puts_modify [DecidableEq π] {t : Table key} {f : ρ → ρ}
    (hf : ∀ r, key (f r) = key r) {r : ρ} (hr : r ∈ t) :
    t.Puts (f r) (t.modify (fun x => decide (key x = key r)) f hf) where
  rows x hx := by
    rw [hf]
    exact (Table.mem_modify_key hf hr).mp hx
  stays x hx := by
    refine ⟨_, Table.mem_modify.mpr ⟨x, hx, rfl⟩, ?_⟩
    split
    · exact hf x
    · rfl

namespace TableDef

variable [DecidableEq π] {T : TableDef σ κ ℓ τ key} {R : ChangeRules ρ} {l : ℓ} {s t : σ}
  {wr : Write σ κ} {mine : ρ → Prop} {t₀ : Table key}

/-- The table is a part of the data of its own: a write and a deletion act on it as on a table. -/
structure Lens (T : TableDef σ κ ℓ τ key) : Prop where
  write : ∀ g t, T.read (T.write g t) = g (T.read t)
  erase : ∀ p t, T.read (T.erase p t) = (T.read t).erase p

omit [DecidableEq π] in
/-- The change of one row, where `f` gives `none` for no change. -/
theorem became_getD {f : ρ → Option ρ} (hf : ∀ r r', f r = some r' → R.edit r r') (r : ρ) :
    R.Became r ((f r).getD r) := by
  cases h : f r with
  | none => exact .inl rfl
  | some r' => exact .inr (hf r r' h)

/-- A statement writes to its table, or deletes from it. -/
theorem Changes.effect (h : T.Changes R l s wr) :
    (∃ g, wr.effect = T.write g) ∨ ∃ p, wr.effect = T.erase p := by
  cases h with
  | insert hadd h =>
    obtain ⟨-, -, -, -, rfl⟩ := T.insertWrite_eq_ok.mp h
    exact .inl ⟨_, rfl⟩
  | update hedit h =>
    obtain ⟨_, _, -, -, -, -, -, -, rfl⟩ := T.updateWrite_eq_ok h
    exact .inl ⟨_, rfl⟩
  | delete hdelete h =>
    obtain ⟨-, rfl⟩ := T.deleteWrite_eq_ok.mp h
    exact .inr ⟨_, rfl⟩

/-- On the data that it has seen, a statement puts a row that satisfies the constraints, or deletes
one row or none. -/
inductive Changes.OnSeen (T : TableDef σ κ ℓ τ key) (R : ChangeRules ρ) (s : σ) (wr : Write σ κ) :
    Prop where
  | puts {r : ρ} {g : Table key → Table key} (hcons : T.constraints s r = true)
      (heffect : wr.effect = T.write g) (hputs : (T.read s).Puts r (g (T.read s)))
  | erases {r : ρ} (hdelete : R.delete) (hr : r ∈ T.read s)
      (heffect : wr.effect = T.erase fun x => decide (key x = key r))
  | nothing (hdelete : R.delete) (heffect : wr.effect = T.erase fun _ => false)

/-- A change is one of these on the data that the statement has seen. -/
theorem Changes.onSeen (h : T.Changes R l s wr) : Changes.OnSeen T R s wr := by
  cases h with
  | insert hadd h =>
    obtain ⟨-, -, hfree, hcons, rfl⟩ := T.insertWrite_eq_ok.mp h
    exact .puts hcons rfl (Table.puts_insert hfree)
  | @update k f hf hedit h =>
    obtain ⟨r, r', hlookup, -, hset, -, -, hcons, rfl⟩ := T.updateWrite_eq_ok h
    obtain ⟨hr, rfl, -⟩ := T.lookup_eq_some.mp hlookup
    have hputs := Table.puts_modify (f := fun x => (f x).getD x) (key_getD hf) hr
    rw [show (f r).getD r = r' by rw [hset, Option.getD_some]] at hputs
    exact .puts hcons rfl hputs
  | @delete k hdelete h =>
    obtain ⟨-, rfl⟩ := T.deleteWrite_eq_ok.mp h
    have hkeys : ∀ x ∈ T.deletable l s (fun r => decide (key r = k)), key x = k :=
      fun x hx => of_decide_eq_true (T.mem_deletable.mp hx).2.1
    generalize hrows : T.deletable l s (fun r => decide (key r = k)) = rows at hkeys
    cases rows with
    | nil => exact .nothing hdelete (by simp)
    | cons r rest =>
      have hr : r ∈ T.read s :=
        (T.mem_deletable.mp (hrows ▸ List.mem_cons_self (l := rest))).1
      refine .erases hdelete hr (congrArg T.erase (funext fun x => ?_))
      rw [decide_eq_decide, List.mem_map]
      constructor
      · rintro ⟨y, hy, hyx⟩
        rw [← hyx, hkeys y hy, hkeys r List.mem_cons_self]
      · exact fun hx => ⟨r, List.mem_cons_self, hx.symm⟩

/-- On a table from which nothing cascades, a deletion is a write too. -/
theorem Changes.effect_write (h : T.Changes R l s wr)
    (hsimple : ∀ p, T.erase p = T.write fun t => t.erase p) : ∃ g, wr.effect = T.write g := by
  rcases h.effect with ⟨g, hg⟩ | ⟨p, hp⟩
  · exact ⟨g, hg⟩
  · exact ⟨_, hp.trans (hsimple p)⟩

/-- A statement within the rules moves the table within the rules. -/
theorem Changes.evolves (h : T.Changes R l s wr) (hT : T.Lens) (t : σ) :
    R.Evolves (T.read t) (T.read (wr.effect t)) := by
  cases h with
  | insert hadd h =>
    obtain ⟨-, -, -, -, rfl⟩ := T.insertWrite_eq_ok.mp h
    rw [hT.write]
    intro x hx
    rcases Table.mem_or_eq_of_mem_insert hx with hx | rfl
    · exact ⟨x, .inl hx, .refl x⟩
    · exact ⟨x, .inr hadd, .refl x⟩
  | @update k f hf hedit h =>
    obtain ⟨_, _, -, -, -, -, -, -, rfl⟩ := T.updateWrite_eq_ok h
    show R.Evolves _ (T.read (T.set k f hf t))
    rw [set, hT.write]
    exact ChangeRules.evolves_modify _ (became_getD hedit)
  | delete hdelete h =>
    obtain ⟨-, rfl⟩ := T.deleteWrite_eq_ok.mp h
    rw [hT.erase]
    exact .of_subset fun x hx => (Table.mem_erase.mp hx).1

/-- Where the rules allow no deletion, no row goes. -/
theorem Changes.persists (h : T.Changes R l s wr) (hT : T.Lens) (hno : ¬ R.delete) (t : σ) :
    R.Persists (T.read t) (T.read (wr.effect t)) := by
  cases h with
  | insert hadd h =>
    obtain ⟨-, -, -, -, rfl⟩ := T.insertWrite_eq_ok.mp h
    rw [hT.write]
    exact fun r hr => ⟨r, Table.mem_insert_of_mem hr, .refl r⟩
  | @update k f hf hedit h =>
    obtain ⟨_, _, -, -, -, -, -, -, rfl⟩ := T.updateWrite_eq_ok h
    show R.Persists _ (T.read (T.set k f hf t))
    rw [set, hT.write]
    exact ChangeRules.persists_modify _ (became_getD hedit)
  | delete hdelete h => exact absurd hdelete hno

/-- The session is kept from rows that satisfy `mine`: it may insert none, and change and delete
none of those that it sees; and an edit makes no other row one of them. -/
structure Spares (T : TableDef σ κ ℓ τ key) (R : ChangeRules ρ) (mine : ρ → Prop) (l : ℓ) (s : σ) :
    Prop where
  insert : ∀ r, R.add r → ((T.policy l s).insert r).Holds → ¬ mine r
  update : ∀ r ∈ T.read s, ((T.policy l s).updateUsing r).Holds → ¬ mine r
  delete : ∀ r ∈ T.read s, ((T.policy l s).delete r).Holds → ¬ mine r
  edit : ∀ r r', R.edit r r' → mine r' → mine r

/-- The rows that the session may not touch stay as they are, whatever else has changed since it
read the data. -/
theorem Changes.agrees (h : T.Changes R l s wr) (hT : T.Lens) (hspares : T.Spares R mine l s)
    (hs : t₀.Agrees mine (T.read s)) (ht : t₀.Agrees mine (T.read t)) :
    t₀.Agrees mine (T.read (wr.effect t)) := by
  cases h with
  | insert hadd h =>
    obtain ⟨hinsert, -, -, -, rfl⟩ := T.insertWrite_eq_ok.mp h
    rw [hT.write]
    intro x hx
    refine ⟨fun hmem => ?_, fun hmem => Table.mem_insert_of_mem ((ht x hx).mpr hmem)⟩
    rcases Table.mem_or_eq_of_mem_insert hmem with hmem | rfl
    · exact (ht x hx).mp hmem
    · exact absurd hx (hspares.insert x hadd hinsert)
  | @update k f hf hedit h =>
    obtain ⟨r, _, hlookup, husing, -, -, -, -, rfl⟩ := T.updateWrite_eq_ok h
    obtain ⟨hr, rfl, -⟩ := T.lookup_eq_some.mp hlookup
    have hnot := hspares.update r hr husing
    -- A row of the kind is one of those that the session has seen, so it has another key.
    have hkey : ∀ x, mine x → x ∈ t₀ → key x ≠ key r := by
      intro x hx hmem hk
      exact hnot (Table.eq_of_key_eq ((hs x hx).mpr hmem) hr hk ▸ hx)
    show t₀.Agrees mine (T.read (T.set (key r) f hf t))
    rw [set, hT.write]
    intro x hx
    rw [Table.mem_modify]
    constructor
    · rintro ⟨y, hy, rfl⟩
      split at hx
      · next hyk =>
        have hy' : mine y := by
          rcases became_getD hedit y with h | h
          · rwa [h] at hx
          · exact hspares.edit _ _ h hx
        exact absurd (of_decide_eq_true hyk) (hkey y hy' ((ht y hy').mp hy))
      · next hyk =>
        rw [if_neg hyk]
        exact (ht y hx).mp hy
    · intro hmem
      exact ⟨x, (ht x hx).mpr hmem, if_neg (by simpa using hkey x hx hmem)⟩
  | delete hdelete h =>
    obtain ⟨-, rfl⟩ := T.deleteWrite_eq_ok.mp h
    rw [hT.erase]
    refine ht.erase fun x hx hmem => decide_eq_false fun hk => ?_
    obtain ⟨r, hr, hrk⟩ := List.mem_map.mp hk
    obtain ⟨hr, -, -, hpolicy⟩ := T.mem_deletable.mp hr
    have hxs := (hs x hx).mpr ((ht x hx).mp hmem)
    exact hspares.delete r hr hpolicy (Table.eq_of_key_eq hxs hr hrk.symm ▸ hx)

/-- The session adds no row of the kind. -/
theorem Changes.addsNone (h : T.Changes R l s wr) (hT : T.Lens)
    (hinsert : ∀ r, ((T.policy l s).insert r).Holds → ¬ mine r)
    (hedit : ∀ r r', R.edit r r' → r' = r) (ht : t₀.AddsNone mine (T.read t)) :
    t₀.AddsNone mine (T.read (wr.effect t)) := by
  cases h with
  | insert hadd h =>
    obtain ⟨hpolicy, -, -, -, rfl⟩ := T.insertWrite_eq_ok.mp h
    rw [hT.write]
    intro x hx hmem
    rcases Table.mem_or_eq_of_mem_insert hmem with hmem | rfl
    · exact ht x hx hmem
    · exact absurd hx (hinsert x hpolicy)
  | @update k f hf hedit' h =>
    obtain ⟨_, _, -, -, -, -, -, -, rfl⟩ := T.updateWrite_eq_ok h
    show t₀.AddsNone mine (T.read (T.set k f hf t))
    rw [set, hT.write, Table.modify_eq_self]
    · exact ht
    · intro r
      rcases became_getD hedit' r with h | h
      · exact h
      · exact hedit _ _ h
  | delete hdelete h =>
    obtain ⟨-, rfl⟩ := T.deleteWrite_eq_ok.mp h
    rw [hT.erase]
    exact ht.erase _

end TableDef

end Sql
