import OburBackend.Sql.Keeps
import OburBackend.Sql.Rules

/-!
# Two runs of a program

When no answer of a program depends on a part of the data, the program ends in the same way with
that part as without it. `Prog.Alike` says so statement by statement, for any relation between the
two states: every query is answered alike, and every write succeeds on both states, which it leaves
related, or fails on both with one error. `Prog.Alike.run` concludes that the whole program ends
alike and leaves related data.
-/

namespace Sql

variable {σ κ ℓ τ ε α β : Type}

/-- The two writes fail with one error, or both succeed and leave related data. -/
def SameWrite (R : σ → σ → Prop) (s s' : σ) :
    Except DbError (Write σ κ) → Except DbError (Write σ κ) → Prop
  | .ok wr, .ok wr' => R (wr.effect s) (wr'.effect s')
  | .error e, .error e' => e = e'
  | .ok _, .error _ | .error _, .ok _ => False

namespace Prog

/-- On data related by `R`, and under the session variables `l`, which the program leaves alone,
each of its statements does the same. -/
def Alike (R : σ → σ → Prop) (l : ℓ) : Prog σ κ ℓ τ ε α → Prop
  | .ret _ | .raise _ => True
  | .select _ k => ∀ s s', R s s' → k l s' = k l s ∧ (k l s).Alike R l
  | .execute _ w ok err =>
    (∀ s s', R s s' → SameWrite R s s' (w l s) (w l s')) ∧ ok.Alike R l ∧
      ∀ e, (err e).Alike R l
  | .commit k | .rollback k => k.Alike R l
  | .assign .. => False

variable {R : σ → σ → Prop} {l : ℓ}

/-- Two programs that go alike do so one after the other. -/
theorem Alike.bind {p : Prog σ κ ℓ τ ε α} {f : α → Prog σ κ ℓ τ ε β} (hp : p.Alike R l)
    (hf : ∀ a, (f a).Alike R l) : (p.bind f).Alike R l := by
  induction p with
  | ret a => exact hf a
  | raise e => trivial
  | select st k ih =>
    intro s s' hR
    obtain ⟨heq, hk⟩ := hp s s' hR
    refine ⟨?_, ih _ _ hk⟩
    show (k l s').bind f = (k l s).bind f
    rw [heq]
  | execute st w ok err ihok iherr =>
    exact ⟨hp.1, ihok hp.2.1, fun e => iherr e (hp.2.2 e)⟩
  | commit k ih | rollback k ih => exact ih hp
  | assign => exact hp.elim

end Prog

/-- Two connections with the same session variables, on related data. -/
structure Conn.Related (R : σ → σ → Prop) (c c' : Conn σ ℓ) : Prop where
  vars : c'.vars = c.vars
  committed : R c.committed c'.committed
  working : R c.working c'.working

/-- Sessions that start on related data are related. -/
theorem Conn.related_start {R : σ → σ → Prop} {l : ℓ} {s s' : σ} (hs : R s s') :
    (Conn.start l s).Related R (Conn.start l s') :=
  ⟨rfl, hs, hs⟩

namespace Prog

variable {R : σ → σ → Prop} {l : ℓ}

/-- Run alone on related data, the program ends in the same way and leaves related data. -/
theorem Alike.run {p : Prog σ κ ℓ τ ε α} (hp : p.Alike R l) {c c' : Conn σ ℓ} (hvars : c.vars = l)
    (hc : c.Related R c') :
    (p.run c').1 = (p.run c).1 ∧ (p.run c).2.Related R (p.run c').2 := by
  induction p generalizing c c' with
  | ret a | raise e => exact ⟨rfl, hc⟩
  | select st k ih =>
    obtain ⟨heq, hk⟩ := hp _ _ hc.working
    have hrun : (Prog.select st k).run c' = (k l c.working).run c' := by
      rw [Prog.run, hc.vars, hvars, heq]
    have hrun' : (Prog.select st k).run c = (k l c.working).run c := by
      rw [Prog.run, hvars]
    rw [hrun, hrun']
    exact ih _ _ hk hvars hc
  | execute st w ok err ihok iherr =>
    obtain ⟨hsame, hok, herr⟩ := hp
    have hw := hsame _ _ hc.working
    subst hvars
    simp only [Prog.run, hc.vars]
    -- the write fails in both runs, or in neither
    cases hfirst : w c.vars c.working with
    | ok wr =>
      cases hsecond : w c.vars c'.working with
      | ok wr' =>
        rw [hfirst, hsecond] at hw
        exact ihok hok rfl ⟨rfl, hc.committed, hw⟩
      | error e =>
        rw [hfirst, hsecond] at hw
        exact hw.elim
    | error e =>
      cases hsecond : w c.vars c'.working with
      | ok wr' =>
        rw [hfirst, hsecond] at hw
        exact hw.elim
      | error e' =>
        rw [hfirst, hsecond] at hw
        obtain rfl : e = e' := hw
        exact iherr e (herr e) rfl ⟨hc.vars, hc.committed, hc.committed⟩
  | commit k ih => exact ih hp hvars ⟨hc.vars, hc.working, hc.working⟩
  | rollback k ih => exact ih hp hvars ⟨hc.vars, hc.committed, hc.committed⟩
  | assign => exact hp.elim

/-- The program ends in the same way on both data. -/
theorem Alike.outcome {p : Prog σ κ ℓ τ ε α} {s s' : σ} (hp : p.Alike R l) (hs : R s s') :
    p.outcome l s' = p.outcome l s :=
  (hp.run rfl (Conn.related_start hs)).1

/-- And it leaves related data. -/
theorem Alike.after {p : Prog σ κ ℓ τ ε α} {s s' : σ} (hp : p.Alike R l) (hs : R s s') :
    R (p.after l s) (p.after l s') :=
  (hp.run rfl (Conn.related_start hs)).2.committed

end Prog

/-! ## The statements -/

section Statements

variable {R : σ → σ → Prop} {l : ℓ}

/-- A query goes alike when it reads the same on both. -/
theorem alike_query {st : τ} {g : ℓ → σ → α} (h : ∀ s s', R s s' → g l s' = g l s) :
    (query st g : Prog σ κ ℓ τ ε α).Alike R l :=
  fun s s' hR => ⟨congrArg Prog.ret (h s s' hR), trivial⟩

/-- A commit goes alike. -/
theorem alike_commit : (commit : Prog σ κ ℓ τ ε Unit).Alike R l := trivial

variable {ρ π : Type} {key : ρ → π} {T : TableDef σ κ ℓ τ key} [DecidableEq π]

/-- So does a lookup that finds the same row. -/
theorem alike_get {k : π} (h : ∀ s s', R s s' → T.lookup l s' k = T.lookup l s k) :
    (T.get k : Prog σ κ ℓ τ ε (Option ρ)).Alike R l :=
  fun s s' hR => ⟨congrArg Prog.ret (h s s' hR), trivial⟩

/-- What follows a lookup has to go alike for the row that is found. -/
theorem alike_get_bind {k : π} {f : Option ρ → Prog σ κ ℓ τ ε β} :
    ((T.get k).bind f).Alike R l ↔
      ∀ s s', R s s' → f (T.lookup l s' k) = f (T.lookup l s k) ∧
        (f (T.lookup l s k)).Alike R l := Iff.rfl

variable [OfDbError ε]

/-- An `INSERT` does the same when the policies and the constraints say the same of the new row, and
its key is free on both sides or on neither. -/
theorem alike_insert {r : ρ}
    (hinsert : ∀ s s', R s s' →
      (((T.policy l s').insert r).Holds ↔ ((T.policy l s).insert r).Holds))
    (hselect : ∀ s s', R s s' →
      (((T.policy l s').select r).Holds ↔ ((T.policy l s).select r).Holds))
    (hkey : ∀ s s', R s s' →
      ((T.read s').get (key r) = none ↔ (T.read s).get (key r) = none))
    (hcons : ∀ s s', R s s' → T.constraints s' r = T.constraints s r)
    (hR : ∀ s s', R s s' → (T.read s).get (key r) = none → T.constraints s r = true →
      R (T.write (·.insert r) s) (T.write (·.insert r) s')) :
    (T.insert r : Prog σ κ ℓ τ ε Unit).Alike R l := by
  refine ⟨fun s s' h => ?_, trivial, fun _ => trivial⟩
  unfold TableDef.insertWrite
  simp only [hinsert s s' h, hselect s s' h, hkey s s' h, hcons s s' h]
  split
  · split
    · next hpass => exact hR s s' h hpass.1 hpass.2
    · rfl
  · rfl

/-- An `UPDATE` does the same when it finds the same row, and the policies and the constraints say
the same of the row it makes of it. -/
theorem alike_update {k : π} {f : ρ → Option ρ} {hf : ∀ r r', f r = some r' → key r' = key r}
    (hlookup : ∀ s s', R s s' → T.lookup l s' k = T.lookup l s k)
    (hpolicy : ∀ s s', R s s' → T.policy l s' = T.policy l s)
    (hcons : ∀ s s' r r', R s s' → f r = some r' → key r = k →
      T.constraints s' r' = T.constraints s r')
    (hR : ∀ s s', R s s' → R (T.set k f hf s) (T.set k f hf s')) :
    (T.update k f hf : Prog σ κ ℓ τ ε Unit).Alike R l := by
  refine ⟨fun s s' h => ?_, trivial, fun _ => trivial⟩
  simp only [TableDef.updateWrite, hlookup s s' h, hpolicy s s' h]
  cases hfound : (T.lookup l s k).filter
      fun r => decide ((T.policy l s).updateUsing r).Holds with
  | none => rfl
  | some r =>
    have hkey : key r = k := (T.lookup_eq_some.mp (Option.filter_eq_some_iff.mp hfound).1).2.1
    dsimp only
    cases hset : f r with
    | none => rfl
    | some r' =>
      simp only [hcons s s' r r' h hset hkey]
      split
      · split
        · exact hR s s' h
        · rfl
      · rfl

/-- A `DELETE` by key does the same when it deletes the same rows, which nothing refers to. -/
theorem alike_delete {k : π}
    (hrows : ∀ s s', R s s' → T.deletable l s' (fun r => decide (key r = k)) =
      T.deletable l s fun r => decide (key r = k))
    (href : ∀ s r, T.referenced s r = false)
    (hR : ∀ s s' p, R s s' → R (T.erase p s) (T.erase p s')) :
    (T.delete k : Prog σ κ ℓ τ ε Unit).Alike R l := by
  refine ⟨fun s s' h => ?_, trivial, fun _ => trivial⟩
  have hnone : ∀ s (rows : List ρ), rows.any (T.referenced s) = false := by
    intro s rows
    rw [List.any_eq_false]
    intro r _
    rw [href, Bool.not_eq_true]
  simp only [TableDef.deleteWrite, hnone, hrows s s' h, Bool.false_eq_true, if_false]
  exact hR s s' _ h

/-- A `DELETE` that the policies do not restrict. -/
theorem alike_definerDelete {st : τ} {q : σ → ρ → Bool}
    (hR : ∀ s s', R s s' →
      R ((T.definerDeleteWrite s (q s)).effect s) ((T.definerDeleteWrite s' (q s')).effect s')) :
    (T.definerDelete st q : Prog σ κ ℓ τ ε Unit).Alike R l :=
  ⟨hR, trivial, fun _ => trivial⟩

end Statements

/-! ## A table without some of its rows -/

section Erased

variable {ρ π : Type} {key : ρ → π} {T : TableDef σ κ ℓ τ key} {l : ℓ} {s s' : σ} {p : ρ → Bool}

/-- A query does not tell whether rows are there that it does not return. -/
theorem rows_of_erase {q : ρ → Bool} (hread : T.read s' = (T.read s).erase p)
    (hvisible : ∀ r, q r = true → p r = false → T.visible l s' r = T.visible l s r)
    (hp : ∀ r ∈ T.read s, q r = true → T.visible l s r = true → p r = false) :
    T.rows l s' q = T.rows l s q := by
  have hleft : T.rows l s' q = ((T.read s).erase p).select fun r => q r && T.visible l s r := by
    rw [TableDef.rows, hread]
    refine List.filter_congr fun r hr => ?_
    have hstays := (Table.mem_erase.mp hr).2
    cases hq : q r with
    | false => rfl
    | true => rw [hvisible r hq hstays]
  rw [hleft]
  refine Table.select_erase fun r hr hq => ?_
  rw [Bool.and_eq_true] at hq
  exact hp r hr hq.1 hq.2

/-- Nor does `session.get`. -/
theorem lookup_of_erase [DecidableEq π] {k : π} (hread : T.read s' = (T.read s).erase p)
    (hvisible : ∀ r, key r = k → p r = false → T.visible l s' r = T.visible l s r)
    (hp : ∀ r ∈ T.read s, key r = k → T.visible l s r = true → p r = false) :
    T.lookup l s' k = T.lookup l s k := by
  have hsee : ∀ r, key r = k → p r = false →
      (((T.policy l s').select r).Holds ↔ ((T.policy l s).select r).Holds) := by
    intro r hk hstays
    rw [← T.visible_eq_true, hvisible r hk hstays, T.visible_eq_true]
  refine Option.ext fun r => ?_
  rw [T.lookup_eq_some, T.lookup_eq_some, hread, Table.mem_erase]
  constructor
  · rintro ⟨⟨hr, hstays⟩, hk, hs⟩
    exact ⟨hr, hk, (hsee r hk hstays).mp hs⟩
  · rintro ⟨hr, hk, hs⟩
    have hstays := hp r hr hk (T.visible_eq_true.mpr hs)
    exact ⟨⟨hr, hstays⟩, hk, (hsee r hk hstays).mpr hs⟩

end Erased

end Sql
