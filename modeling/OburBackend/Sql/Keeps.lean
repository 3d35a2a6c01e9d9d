import OburBackend.Sql.Statement
import OburBackend.Sql.RelyGuarantee
import OburBackend.Sql.Reads

/-!
# Invariants kept write by write

Most requests keep an invariant of the data for a simple reason: each statement that writes keeps
it, whatever was read before. `Prog.Keeps` says so for a program, statement by statement, and
`Prog.Keeps.after` concludes that the invariant holds of what the program commits. A program that
breaks the invariant for a moment inside its transaction is a matter for `Wp` instead.

`Prog.ReadOnly` is the extreme case: a program of queries keeps everything. `Prog.RaisesOnly` bounds
the errors of a program in the same way, raise by raise.
-/

namespace Sql

variable {σ κ ℓ τ ε α β : Type}

namespace Prog

/-- The program consists of queries. -/
def ReadOnly : Prog σ κ ℓ τ ε α → Prop
  | .ret _ | .raise _ => True
  | .select _ k => ∀ l s, (k l s).ReadOnly
  | .execute .. | .commit _ | .rollback _ | .assign .. => False

/-- Every error that the program raises satisfies `P`. -/
def RaisesOnly (P : ε → Prop) : Prog σ κ ℓ τ ε α → Prop
  | .ret _ => True
  | .raise e => P e
  | .select _ k => ∀ l s, (k l s).RaisesOnly P
  | .execute _ _ ok err => ok.RaisesOnly P ∧ ∀ e, (err e).RaisesOnly P
  | .commit k | .rollback k | .assign _ k => k.RaisesOnly P

/-- Under the session variables `l`, which the program leaves alone, each of its writes keeps
`Inv`. -/
def Keeps (Inv : σ → Prop) (l : ℓ) : Prog σ κ ℓ τ ε α → Prop
  | .ret _ | .raise _ => True
  | .select _ k => ∀ s, (k l s).Keeps Inv l
  | .execute _ f ok err =>
    (∀ s wr, Inv s → f l s = .ok wr → Inv (wr.effect s)) ∧ ok.Keeps Inv l ∧
      ∀ e, (err e).Keeps Inv l
  | .commit k | .rollback k => k.Keeps Inv l
  | .assign .. => False

variable {Inv : σ → Prop} {l : ℓ}

@[simp] theorem readOnly_ret (a : α) : (ret a : Prog σ κ ℓ τ ε α).ReadOnly := trivial

@[simp] theorem readOnly_raise (e : ε) : (raise e : Prog σ κ ℓ τ ε α).ReadOnly := trivial

@[simp] theorem readOnly_query (st : τ) (f : ℓ → σ → α) :
    (query st f : Prog σ κ ℓ τ ε α).ReadOnly := fun _ _ => trivial

/-- Two programs of queries are one. -/
theorem ReadOnly.bind {p : Prog σ κ ℓ τ ε α} {f : α → Prog σ κ ℓ τ ε β} (hp : p.ReadOnly)
    (hf : ∀ a, (f a).ReadOnly) : (p.bind f).ReadOnly := by
  induction p with
  | ret a => exact hf a
  | raise e => trivial
  | select st k ih => exact fun l s => ih l s (hp l s)
  | execute | commit | rollback | assign => exact hp.elim

/-- A program of queries leaves its connection as it is. -/
theorem ReadOnly.run {p : Prog σ κ ℓ τ ε α} (hp : p.ReadOnly) (c : Conn σ ℓ) :
    p.run c = ((p.run c).1, c) := by
  induction p with
  | ret a | raise e => rfl
  | select st k ih => exact ih _ _ (hp _ _)
  | execute | commit | rollback | assign => exact hp.elim

/-- Queries, and then a program on what they have returned. -/
theorem ReadOnly.run_bind {p : Prog σ κ ℓ τ ε α} (hp : p.ReadOnly) (f : α → Prog σ κ ℓ τ ε β)
    (c : Conn σ ℓ) :
    (p.bind f).run c =
      match (p.run c).1 with
      | .ok a => (f a).run c
      | .error e => (.error e, c) := by
  rw [Prog.run_bind, hp.run c]
  cases (p.run c).1 <;> rfl

/-- A query raises nothing. -/
theorem raisesOnly_query (P : ε → Prop) (st : τ) (f : ℓ → σ → α) :
    (query st f : Prog σ κ ℓ τ ε α).RaisesOnly P := fun _ _ => trivial

/-- Two programs one after the other raise what either may raise. -/
theorem RaisesOnly.bind {P : ε → Prop} {p : Prog σ κ ℓ τ ε α} {f : α → Prog σ κ ℓ τ ε β}
    (hp : p.RaisesOnly P) (hf : ∀ a, (f a).RaisesOnly P) : (p.bind f).RaisesOnly P := by
  induction p with
  | ret a => exact hf a
  | raise e => exact hp
  | select st k ih => exact fun l s => ih l s (hp l s)
  | execute st w ok err ihok iherr => exact ⟨ihok hp.1, fun e => iherr e (hp.2 e)⟩
  | commit k ih | rollback k ih | assign l k ih => exact ih hp

/-- The error of a run. -/
theorem RaisesOnly.run {P : ε → Prop} {p : Prog σ κ ℓ τ ε α} (hp : p.RaisesOnly P) {c : Conn σ ℓ}
    {e : ε} (h : (p.run c).1 = .error e) : P e := by
  induction p generalizing c with
  | ret a => exact absurd h (by simp)
  | raise e' =>
    obtain rfl : e' = e := Except.error.inj h
    exact hp
  | select st k ih => exact ih _ _ (hp _ _) h
  | execute st w ok err ihok iherr =>
    simp only [Prog.run] at h
    split at h
    · exact ihok hp.1 h
    · exact iherr _ (hp.2 _) h
  | commit k ih | rollback k ih | assign l k ih => exact ih hp h

/-- What queries cannot disturb, holds after a read-only program, whatever it returns. -/
theorem ReadOnly.wp {rely guar : Local σ κ ℓ τ → σ → σ → Prop}
    {K : Except ε α → Local σ κ ℓ τ → σ → Prop} {I : Local σ κ ℓ τ → σ → Prop}
    (hrely : ∀ L s s', I L s → rely L s s' → I L s') (hsaw : ∀ L st s, I L s → I (L.saw st) s)
    (hK : ∀ r L s, I L s → K r L s) {p : Prog σ κ ℓ τ ε α} (hp : p.ReadOnly)
    {L : Local σ κ ℓ τ} {s : σ} (h : I L s) : Wp rely guar K p L s := by
  induction p generalizing L s with
  | ret a | raise e => exact hK _ _ _ h
  | select st k ih =>
    intro s' hr
    exact ih _ _ (hp _ _) (hsaw _ _ _ (hrely _ _ _ h hr))
  | execute | commit | rollback | assign => exact hp.elim

/-- A read-only program needs nothing to end, whatever it returns. -/
theorem ReadOnly.wp_of_forall {rely guar : Local σ κ ℓ τ → σ → σ → Prop}
    {K : Except ε α → Local σ κ ℓ τ → σ → Prop} {p : Prog σ κ ℓ τ ε α} (hp : p.ReadOnly)
    (hK : ∀ r L s, K r L s) {L : Local σ κ ℓ τ} {s : σ} : Wp rely guar K p L s :=
  ReadOnly.wp (I := fun _ _ => True) (fun _ _ _ h _ => h) (fun _ _ _ h => h)
    (fun r L s _ => hK r L s) hp trivial

/-- Queries change neither the session variables nor the open transaction. -/
theorem ReadOnly.readsWp {guar : List σ → σ → σ → Prop}
    {K : Except ε α → Local σ κ ℓ τ → List σ → Prop} {p : Prog σ κ ℓ τ ε α} (hp : p.ReadOnly)
    {L : Local σ κ ℓ τ} {rs : List σ}
    (hK : ∀ res L' rs', L'.vars = L.vars → L'.pending = L.pending → K res L' rs') :
    ReadsWp Inv guar K p L rs := by
  induction p generalizing L rs with
  | ret a | raise e => exact hK _ _ _ rfl rfl
  | select st k ih => exact fun s _ => ih _ _ (hp _ _) hK
  | execute | commit | rollback | assign => exact hp.elim

@[simp] theorem keeps_ret (a : α) : (ret a : Prog σ κ ℓ τ ε α).Keeps Inv l := trivial

@[simp] theorem keeps_raise (e : ε) : (raise e : Prog σ κ ℓ τ ε α).Keeps Inv l := trivial

@[simp] theorem keeps_commit : (Sql.commit : Prog σ κ ℓ τ ε Unit).Keeps Inv l := trivial

/-- Queries keep every invariant. -/
theorem ReadOnly.keeps {p : Prog σ κ ℓ τ ε α} (hp : p.ReadOnly) : p.Keeps Inv l := by
  induction p with
  | ret a | raise e => trivial
  | select st k ih => exact fun s => ih l s (hp l s)
  | execute | commit | rollback | assign => exact hp.elim

/-- Two programs that keep an invariant keep it together. -/
theorem Keeps.bind {p : Prog σ κ ℓ τ ε α} {f : α → Prog σ κ ℓ τ ε β} (hp : p.Keeps Inv l)
    (hf : ∀ a, (f a).Keeps Inv l) : (p.bind f).Keeps Inv l := by
  induction p with
  | ret a => exact hf a
  | raise e => trivial
  | select st k ih => exact fun s => ih l s (hp s)
  | execute st g ok err ihok iherr =>
    exact ⟨hp.1, ihok hp.2.1, fun e => iherr e (hp.2.2 e)⟩
  | commit k ih | rollback k ih => exact ih hp
  | assign => exact hp.elim

/-- A program that keeps the invariant, run alone on data that satisfies it. -/
theorem Keeps.run {p : Prog σ κ ℓ τ ε α} (hp : p.Keeps Inv l) {c : Conn σ ℓ} (hvars : c.vars = l)
    (hcommitted : Inv c.committed) (hworking : Inv c.working) :
    Inv (p.run c).2.committed ∧ Inv (p.run c).2.working := by
  induction p generalizing c with
  | ret a | raise e => exact ⟨hcommitted, hworking⟩
  | select st k ih => exact ih _ _ (hvars ▸ hp c.working) hvars hcommitted hworking
  | execute st f ok err ihok iherr =>
    subst hvars
    simp only [Prog.run]
    cases hf : f c.vars c.working with
    | ok wr => exact ihok hp.2.1 rfl hcommitted (hp.1 _ _ hworking hf)
    | error e => exact iherr e (hp.2.2 e) rfl hcommitted hcommitted
  | commit k ih => exact ih hp hvars hworking hworking
  | rollback k ih => exact ih hp hvars hcommitted hcommitted
  | assign => exact hp.elim

/-- Run alone, the program leaves data with the invariant. -/
theorem Keeps.after {p : Prog σ κ ℓ τ ε α} {s : σ} (hp : p.Keeps Inv l) (hs : Inv s) :
    Inv (p.after l s) :=
  (hp.run rfl hs hs).1

/-- So do the data with its uncommitted writes or without them. -/
theorem Keeps.leaves {p : Prog σ κ ℓ τ ε α} {s s' : σ} (hp : p.Keeps Inv l) (hs : Inv s)
    (h : p.Leaves l s s') : Inv s' := by
  cases h with
  | committed => exact (hp.run rfl hs hs).1
  | working => exact (hp.run rfl hs hs).2

/-- What it returns does not matter to that. -/
theorem Keeps.after_drop {p : Prog σ κ ℓ τ ε α} {b : β} {s : σ} (hp : p.Keeps Inv l) (hs : Inv s) :
    Inv ((p.bind fun _ => .ret b).after l s) := by
  rw [after_bind_ret]
  exact hp.after hs

end Prog

/-! ## The statements -/

section Statements

variable {ρ π : Type} {key : ρ → π} {T : TableDef σ κ ℓ τ key} [DecidableEq π] {Inv : σ → Prop}
  {l : ℓ}

/-- A lookup is a query. -/
theorem readOnly_get (k : π) : (T.get k : Prog σ κ ℓ τ ε (Option ρ)).ReadOnly := fun _ _ => trivial

/-- It raises nothing. -/
theorem raisesOnly_get (P : ε → Prop) (k : π) :
    (T.get k : Prog σ κ ℓ τ ε (Option ρ)).RaisesOnly P := fun _ _ => trivial

variable [OfDbError ε]

/-- An insert keeps what adding a row keeps that the policies and the constraints let in. -/
theorem keeps_insert {r : ρ}
    (h : ∀ s, Inv s → ((T.policy l s).insert r).Holds → ((T.policy l s).select r).Holds →
      T.constraints s r = true → Inv (T.write (·.insert r) s)) :
    (T.insert r : Prog σ κ ℓ τ ε Unit).Keeps Inv l := by
  refine ⟨?_, trivial, fun _ => trivial⟩
  intro s wr hs hw
  obtain ⟨hinsert, hselect, -, hcons, rfl⟩ := T.insertWrite_eq_ok.mp hw
  exact h s hs hinsert hselect hcons

/-- An update keeps what setting the row keeps. -/
theorem keeps_update {k : π} {f : ρ → Option ρ} {hf : ∀ r r', f r = some r' → key r' = key r}
    (h : ∀ s, Inv s → Inv (T.set k f hf s)) :
    (T.update k f hf : Prog σ κ ℓ τ ε Unit).Keeps Inv l := by
  refine ⟨?_, trivial, fun _ => trivial⟩
  intro s wr hs hw
  obtain ⟨r, r', -, -, -, -, -, -, rfl⟩ := T.updateWrite_eq_ok hw
  exact h s hs

/-- A deletion keeps what removing rows keeps. -/
theorem keeps_delete {k : π} (h : ∀ s p, Inv s → Inv (T.erase p s)) :
    (T.delete k : Prog σ κ ℓ τ ε Unit).Keeps Inv l := by
  refine ⟨?_, trivial, fun _ => trivial⟩
  intro s wr hs hw
  obtain ⟨-, rfl⟩ := T.deleteWrite_eq_ok.mp hw
  exact h s _ hs

/-- So does a deletion past the policies. -/
theorem keeps_definerDelete {st : τ} {q : σ → ρ → Bool} (h : ∀ s p, Inv s → Inv (T.erase p s)) :
    (T.definerDelete st q : Prog σ κ ℓ τ ε Unit).Keeps Inv l := by
  refine ⟨?_, trivial, fun _ => trivial⟩
  intro s wr hs hw
  cases hw
  exact h s _ hs

end Statements

end Sql
