import OburBackend.Sql.Keeps

/-!
# What a program writes

`Prog.Writes W A` bounds a program statement by statement: each of its writes is one that `W` allows
on the session variables and the data which the statement sees, and it sets the session variables to
values that `A` allows. It is a property of the text of the program and composes with it, so that a
program is inspected once and its bound serves every invariant.

Two rules use such a bound. `Prog.Writes.after` is about a program alone: what each allowed write
keeps on the data it has seen, the program keeps. `World.Guarded.exec` is about an interleaving: a
write takes effect at the commit, on data that others have changed since, so each allowed write has
to keep the invariant on all data (`Prog.Safe`). `TableDef.Changes` is the bound for the statements
of one table.
-/

namespace Sql

variable {σ κ ℓ τ ε ε' α β ι : Type}

namespace Prog

/-- Every write of the program satisfies `W`, and the session variables that it sets satisfy `A`. -/
def Writes (W : ℓ → σ → Write σ κ → Prop) (A : ℓ → Prop) : Prog σ κ ℓ τ ε α → Prop
  | .ret _ | .raise _ => True
  | .select _ k => ∀ l s, (k l s).Writes W A
  | .execute _ w ok err =>
    (∀ l s wr, w l s = .ok wr → W l s wr) ∧ ok.Writes W A ∧ ∀ e, (err e).Writes W A
  | .commit k | .rollback k => k.Writes W A
  | .assign l k => A l ∧ k.Writes W A

/-- The same program with its errors renamed. -/
def mapError (g : ε → ε') : Prog σ κ ℓ τ ε α → Prog σ κ ℓ τ ε' α
  | .ret a => .ret a
  | .raise e => .raise (g e)
  | .select st k => .select st fun l s => (k l s).mapError g
  | .execute st w ok err => .execute st w (ok.mapError g) fun e => (err e).mapError g
  | .commit k => .commit (k.mapError g)
  | .rollback k => .rollback (k.mapError g)
  | .assign l k => .assign l (k.mapError g)

/-- Renaming the errors of a program renames the error of its run, and changes nothing else. -/
theorem run_mapError (g : ε → ε') (p : Prog σ κ ℓ τ ε α) (c : Conn σ ℓ) :
    (p.mapError g).run c = (((p.run c).1.mapError g), (p.run c).2) := by
  induction p generalizing c with
  | ret a | raise e => rfl
  | select st k ih => exact ih _ _ c
  | execute st w ok err ihok iherr =>
    simp only [mapError, run]
    cases w c.vars c.working with
    | ok wr => exact ihok _
    | error e => exact iherr e _
  | commit k ih | rollback k ih | assign l k ih => exact ih _

variable {W : ℓ → σ → Write σ κ → Prop} {A : ℓ → Prop}

@[simp] theorem writes_ret (a : α) : (ret a : Prog σ κ ℓ τ ε α).Writes W A := trivial

@[simp] theorem writes_raise (e : ε) : (raise e : Prog σ κ ℓ τ ε α).Writes W A := trivial

@[simp] theorem writes_query (st : τ) (f : ℓ → σ → α) :
    (query st f : Prog σ κ ℓ τ ε α).Writes W A := fun _ _ => trivial

@[simp] theorem writes_commit : (Sql.commit : Prog σ κ ℓ τ ε Unit).Writes W A := trivial

@[simp] theorem writes_rollback : (Sql.rollback : Prog σ κ ℓ τ ε Unit).Writes W A := trivial

/-- Queries write nothing. -/
theorem ReadOnly.writes {p : Prog σ κ ℓ τ ε α} (hp : p.ReadOnly) : p.Writes W A := by
  induction p with
  | ret a | raise e => trivial
  | select st k ih => exact fun l s => ih l s (hp l s)
  | execute | commit | rollback | assign => exact hp.elim

/-- Two programs one after the other write what either may write. -/
theorem Writes.bind {p : Prog σ κ ℓ τ ε α} {f : α → Prog σ κ ℓ τ ε β} (hp : p.Writes W A)
    (hf : ∀ a, (f a).Writes W A) : (p.bind f).Writes W A := by
  induction p with
  | ret a => exact hf a
  | raise e => trivial
  | select st k ih => exact fun l s => ih l s (hp l s)
  | execute st w ok err ihok iherr => exact ⟨hp.1, ihok hp.2.1, fun e => iherr e (hp.2.2 e)⟩
  | commit k ih | rollback k ih => exact ih hp
  | assign l k ih => exact ⟨hp.1, ih hp.2⟩

/-- So do a program and the handler of its errors. -/
theorem Writes.recover {p : Prog σ κ ℓ τ ε α} {h : ε → Prog σ κ ℓ τ ε α} (hp : p.Writes W A)
    (hh : ∀ e, (h e).Writes W A) : (p.recover h).Writes W A := by
  induction p with
  | ret a => trivial
  | raise e => exact hh e
  | select st k ih => exact fun l s => ih l s (hp l s)
  | execute st w ok err ihok iherr => exact ⟨hp.1, ihok hp.2.1, fun e => iherr e (hp.2.2 e)⟩
  | commit k ih | rollback k ih => exact ih hp
  | assign l k ih => exact ⟨hp.1, ih hp.2⟩

/-- Queries stay queries under other names of their errors. -/
theorem ReadOnly.mapError {p : Prog σ κ ℓ τ ε α} (hp : p.ReadOnly) (g : ε → ε') :
    (p.mapError g).ReadOnly := by
  induction p with
  | ret a | raise e => trivial
  | select st k ih => exact fun l s => ih l s (hp l s)
  | execute | commit | rollback | assign => exact hp.elim

/-- The names of the errors do not matter. -/
theorem Writes.mapError {p : Prog σ κ ℓ τ ε α} (hp : p.Writes W A) (g : ε → ε') :
    (p.mapError g).Writes W A := by
  induction p with
  | ret a | raise e => trivial
  | select st k ih => exact fun l s => ih l s (hp l s)
  | execute st w ok err ihok iherr => exact ⟨hp.1, ihok hp.2.1, fun e => iherr e (hp.2.2 e)⟩
  | commit k ih | rollback k ih => exact ih hp
  | assign l k ih => exact ⟨hp.1, ih hp.2⟩

/-! ### A program alone -/

section Alone

variable {Inv : σ → Prop}

/-- What each write keeps on the data that it has seen, the program keeps. -/
theorem Writes.run {p : Prog σ κ ℓ τ ε α} (hp : p.Writes W A)
    (hW : ∀ l s wr, W l s wr → Inv s → Inv (wr.effect s)) {c : Conn σ ℓ}
    (hcommitted : Inv c.committed) (hworking : Inv c.working) :
    Inv (p.run c).2.committed ∧ Inv (p.run c).2.working := by
  induction p generalizing c with
  | ret a | raise e => exact ⟨hcommitted, hworking⟩
  | select st k ih => exact ih _ _ (hp _ _) hcommitted hworking
  | execute st w ok err ihok iherr =>
    simp only [Prog.run]
    cases hw : w c.vars c.working with
    | ok wr => exact ihok hp.2.1 hcommitted (hW _ _ _ (hp.1 _ _ _ hw) hworking)
    | error e => exact iherr e (hp.2.2 e) hcommitted hcommitted
  | commit k ih => exact ih hp hworking hworking
  | rollback k ih => exact ih hp hcommitted hcommitted
  | assign l k ih => exact ih hp.2 hcommitted hworking

/-- Run alone, the program leaves data with what its writes keep. -/
theorem Writes.after {p : Prog σ κ ℓ τ ε α} (hp : p.Writes W A)
    (hW : ∀ l s wr, W l s wr → Inv s → Inv (wr.effect s)) {l : ℓ} {s : σ} (hs : Inv s) :
    Inv (p.after l s) :=
  (hp.run hW hs hs).1

end Alone

/-! ### A program among others -/

/-- A session whose variables satisfy `V`, and which sees data that satisfies `J`, writes only what
keeps `J` on all data, sets its variables to values that satisfy `V`, and returns what satisfies
`Q`. -/
def Safe (V : ℓ → Prop) (J : σ → Prop) (Q : α → Prop) : Prog σ κ ℓ τ ε α → Prop
  | .ret a => Q a
  | .raise _ => True
  | .select _ k => ∀ l s, V l → J s → (k l s).Safe V J Q
  | .execute _ w ok err =>
    (∀ l s wr, V l → J s → w l s = .ok wr → ∀ t, J t → J (wr.effect t)) ∧ ok.Safe V J Q ∧
      ∀ e, (err e).Safe V J Q
  | .commit k | .rollback k => k.Safe V J Q
  | .assign l k => V l ∧ k.Safe V J Q

variable {V : ℓ → Prop} {J : σ → Prop} {Q : α → Prop} {Q' : β → Prop}

@[simp] theorem safe_raise (e : ε) : (raise e : Prog σ κ ℓ τ ε α).Safe V J Q := trivial

/-- A program whose writes are within a bound that keeps `J` is safe. -/
theorem Writes.safe {p : Prog σ κ ℓ τ ε α} (hp : p.Writes W A)
    (hW : ∀ l s wr, V l → J s → W l s wr → ∀ t, J t → J (wr.effect t)) (hA : ∀ l, A l → V l) :
    p.Safe V J fun _ => True := by
  induction p with
  | ret a | raise e => trivial
  | select st k ih => exact fun l s _ _ => ih l s (hp l s)
  | execute st w ok err ihok iherr =>
    exact ⟨fun l s wr hl hs h => hW l s wr hl hs (hp.1 l s wr h), ihok hp.2.1,
      fun e => iherr e (hp.2.2 e)⟩
  | commit k ih | rollback k ih => exact ih hp
  | assign l k ih => exact ⟨hA l hp.1, ih hp.2⟩

/-- The second program goes on with what the first one may return. -/
theorem Safe.bind {p : Prog σ κ ℓ τ ε α} {f : α → Prog σ κ ℓ τ ε β} (hp : p.Safe V J Q)
    (hf : ∀ a, Q a → (f a).Safe V J Q') : (p.bind f).Safe V J Q' := by
  induction p with
  | ret a => exact hf a hp
  | raise e => trivial
  | select st k ih => exact fun l s hl hs => ih l s (hp l s hl hs)
  | execute st w ok err ihok iherr => exact ⟨hp.1, ihok hp.2.1, fun e => iherr e (hp.2.2 e)⟩
  | commit k ih | rollback k ih => exact ih hp
  | assign l k ih => exact ⟨hp.1, ih hp.2⟩

/-- The handler has to be safe by itself. -/
theorem Safe.recover {p : Prog σ κ ℓ τ ε α} {h : ε → Prog σ κ ℓ τ ε α} (hp : p.Safe V J Q)
    (hh : ∀ e, (h e).Safe V J Q) : (p.recover h).Safe V J Q := by
  induction p with
  | ret a => exact hp
  | raise e => exact hh e
  | select st k ih => exact fun l s hl hs => ih l s (hp l s hl hs)
  | execute st w ok err ihok iherr => exact ⟨hp.1, ihok hp.2.1, fun e => iherr e (hp.2.2 e)⟩
  | commit k ih | rollback k ih => exact ih hp
  | assign l k ih => exact ⟨hp.1, ih hp.2⟩

/-- The names of the errors do not matter. -/
theorem Safe.mapError {p : Prog σ κ ℓ τ ε α} (hp : p.Safe V J Q) (g : ε → ε') :
    (p.mapError g).Safe V J Q := by
  induction p with
  | ret a => exact hp
  | raise e => trivial
  | select st k ih => exact fun l s hl hs => ih l s (hp l s hl hs)
  | execute st w ok err ihok iherr => exact ⟨hp.1, ihok hp.2.1, fun e => iherr e (hp.2.2 e)⟩
  | commit k ih | rollback k ih => exact ih hp
  | assign l k ih => exact ⟨hp.1, ih hp.2⟩

end Prog

/-! ## The rule for interleavings -/

/-- A session that is safe from here on, with what it has written so far. -/
structure Session.Guarded (V : ℓ → Prop) (J : σ → Prop) (S : Session σ κ ℓ τ ε α) : Prop where
  vars : V S.vars
  prog : S.prog.Safe V J fun _ => True
  pending : ∀ wr ∈ S.pending, ∀ t, J t → J (wr.effect t)

/-- A fresh session. -/
theorem Session.Guarded.start {V : ℓ → Prop} {J : σ → Prop} {l : ℓ} {p : Prog σ κ ℓ τ ε α}
    (hl : V l) (hp : p.Safe V J fun _ => True) : (Session.start l p).Guarded V J :=
  ⟨hl, hp, fun _ h => absurd h List.not_mem_nil⟩

/-- The data as a safe session sees it. -/
theorem Local.view_of_pending {J : σ → Prop} {L : Local σ κ ℓ τ}
    (h : ∀ wr ∈ L.pending, ∀ t, J t → J (wr.effect t)) {s : σ} (hs : J s) : J (L.view s) := by
  rw [view]
  generalize L.pending = ws at h
  induction ws generalizing s with
  | nil => exact hs
  | cons wr ws ih =>
    exact ih (h wr List.mem_cons_self s hs) fun wr' h' => h wr' (List.mem_cons_of_mem _ h')

namespace World

variable [DecidableEq ι] {V : ι → ℓ → Prop} {J : σ → Prop}

/-- The committed data satisfies `J`, and every session is safe. -/
structure Guarded (V : ι → ℓ → Prop) (J : σ → Prop) (w : World ι σ κ ℓ τ ε α) : Prop where
  committed : J w.committed
  sessions : ∀ i, (w.sessions i).Guarded (V i) J

variable {w w' : World ι σ κ ℓ τ ε α} {i : ι}

/-- A session moves without committing. -/
theorem Guarded.put {S : Session σ κ ℓ τ ε α} (h : w.Guarded V J) (hS : S.Guarded (V i) J) :
    (w.put i S).Guarded V J := by
  refine ⟨h.committed, fun j => ?_⟩
  by_cases hj : j = i
  · subst hj
    simpa using hS
  · simpa [Function.update_of_ne hj] using h.sessions j

/-- A session moves and commits. -/
theorem Guarded.publish {S : Session σ κ ℓ τ ε α} {s : σ} (h : w.Guarded V J) (hs : J s)
    (hS : S.Guarded (V i) J) : (w.publish i s S).Guarded V J := by
  refine ⟨hs, fun j => ?_⟩
  by_cases hj : j = i
  · subst hj
    simpa using hS
  · simpa [Function.update_of_ne hj] using h.sessions j

variable [Fintype ι] [DecidableEq κ]

/-- What one step preserves. -/
theorem Guarded.step (h : w.Guarded V J) (hs : w.step i = some w') : w'.Guarded V J := by
  have hi := h.sessions i
  have hprog := hi.prog
  have hview := Local.view_of_pending hi.pending h.committed
  have hended : ∀ wr ∈ ([] : List (Write σ κ)), ∀ t, J t → J (wr.effect t) :=
    fun _ hwr => absurd hwr List.not_mem_nil
  cases move_of_step hs with
  | closeRet hp | closeRaise hp => exact h.put ⟨hi.vars, hi.prog, hended⟩
  | select hp =>
    rw [hp] at hprog
    exact h.put ⟨hi.vars, hprog _ _ hi.vars hview, hi.pending⟩
  | ok hp hf =>
    rw [hp] at hprog
    refine h.put ⟨hi.vars, hprog.2.1, fun wr hwr => ?_⟩
    rcases List.mem_append.mp hwr with hwr | hwr
    · exact hi.pending wr hwr
    · rw [List.mem_singleton.mp hwr]
      exact hprog.1 _ _ _ hi.vars hview hf
  | error hp hf =>
    rw [hp] at hprog
    exact h.put ⟨hi.vars, hprog.2.2 _, hended⟩
  | commit hp =>
    rw [hp] at hprog
    exact h.publish hview ⟨hi.vars, hprog, hended⟩
  | rollback hp =>
    rw [hp] at hprog
    exact h.put ⟨hi.vars, hprog, hended⟩
  | assign hp =>
    rw [hp] at hprog
    exact h.put ⟨hprog.1, hprog.2, hi.pending⟩

/-- Whatever the order of the statements, the invariant holds of the data committed at the end, and
so does every session's part of it. -/
theorem Guarded.exec {sched : List ι} (h : w.Guarded V J) (hexec : w.exec sched = some w') :
    w'.Guarded V J :=
  exec_induction (C := fun _ _ => True) (fun _ _ _ hw _ hs => Guarded.step hw hs) h
    (always_true w sched) hexec

end World

/-! ## The statements of one table -/

/-- What the statements of a program do to the rows of a table: the rows that they add satisfy
`add`, a row that they change becomes one related to it by `edit`, and they delete rows only if
`delete` says so. -/
structure ChangeRules (ρ : Type) where
  add : ρ → Prop
  edit : ρ → ρ → Prop
  delete : Prop

namespace TableDef

variable {ρ π : Type} {key : ρ → π} (T : TableDef σ κ ℓ τ key) [DecidableEq π]

/-- The writes of single-row statements within the rules. -/
inductive Changes (R : ChangeRules ρ) (l : ℓ) (s : σ) (wr : Write σ κ) : Prop where
  | insert {r : ρ} (hadd : R.add r) (h : T.insertWrite l s r = .ok wr)
  | update {k : π} {f : ρ → Option ρ} {hf : ∀ r r', f r = some r' → key r' = key r}
      (hedit : ∀ r r', f r = some r' → R.edit r r') (h : T.updateWrite l s k f hf = .ok wr)
  | delete {k : π} (hdelete : R.delete)
      (h : T.deleteWrite l s (fun r => decide (key r = k)) = .ok wr)

variable {T} {R : ChangeRules ρ} {W : ℓ → σ → Write σ κ → Prop} {A : ℓ → Prop} {l : ℓ} {s : σ}
  {wr : Write σ κ}

variable [OfDbError ε]

/-- An insert is a change when the rules let the row in. -/
theorem writes_insert {r : ρ} (hadd : R.add r) (hW : ∀ l s wr, T.Changes R l s wr → W l s wr) :
    (T.insert r : Prog σ κ ℓ τ ε Unit).Writes W A :=
  ⟨fun _ _ _ h => hW _ _ _ (.insert hadd h), trivial, fun _ => trivial⟩

/-- An update is one when they allow the edit. -/
theorem writes_update {k : π} {f : ρ → Option ρ} {hf : ∀ r r', f r = some r' → key r' = key r}
    (hedit : ∀ r r', f r = some r' → R.edit r r')
    (hW : ∀ l s wr, T.Changes R l s wr → W l s wr) :
    (T.update k f hf : Prog σ κ ℓ τ ε Unit).Writes W A :=
  ⟨fun _ _ _ h => hW _ _ _ (.update hedit h), trivial, fun _ => trivial⟩

/-- A deletion is one when they allow deletions. -/
theorem writes_delete {k : π} (hdelete : R.delete)
    (hW : ∀ l s wr, T.Changes R l s wr → W l s wr) :
    (T.delete k : Prog σ κ ℓ τ ε Unit).Writes W A :=
  ⟨fun _ _ _ h => hW _ _ _ (.delete hdelete h), trivial, fun _ => trivial⟩

end TableDef

end Sql
