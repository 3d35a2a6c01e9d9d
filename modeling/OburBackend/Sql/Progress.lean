import Mathlib.Data.DFinsupp.WellFounded
import Mathlib.SetTheory.Cardinal.Order
import OburBackend.Sql.Keeps
import OburBackend.Sql.World

/-!
# Requests that come to an end

A session waits only for the row locks of other sessions. A program that never waits while it holds
locks itself (`Prog.NoHoldAndWait`) cannot be part of a deadlock: whoever holds a lock can move.
Each move uses up a part of a finite program, so a run of such programs comes to an end whichever
sessions are scheduled, and it ends with every session closed (`World.Unwaiting.ends`).
-/

namespace Sql

variable {σ κ ℓ τ ε α β ι : Type}

namespace Prog

/-- What the program has ended with, if it has ended. -/
def result : Prog σ κ ℓ τ ε α → Option (Except ε α)
  | .ret a => some (.ok a)
  | .raise e => some (.error e)
  | _ => none

/-- The program sends no data-changing statement while its transaction holds the locks of an earlier
one. `holding` says whether it holds some now, and `Q` has to hold of its result and of whether it
holds some at its end. -/
def NoHoldAndWait (Q : Except ε α → Bool → Prop) : Prog σ κ ℓ τ ε α → Bool → Prop
  | .ret a, holding => Q (.ok a) holding
  | .raise e, holding => Q (.error e) holding
  | .select _ k, holding => ∀ l s, (k l s).NoHoldAndWait Q holding
  | .execute _ _ ok err, holding =>
    holding = false ∧ ok.NoHoldAndWait Q true ∧ ∀ e, (err e).NoHoldAndWait Q false
  | .commit k, _ | .rollback k, _ => k.NoHoldAndWait Q false
  | .assign _ k, holding => k.NoHoldAndWait Q holding

/-- What holds in the end may be weakened. -/
theorem NoHoldAndWait.mono {Q Q' : Except ε α → Bool → Prop} (hQ : ∀ r b, Q r b → Q' r b) :
    ∀ {p : Prog σ κ ℓ τ ε α} {b : Bool}, p.NoHoldAndWait Q b → p.NoHoldAndWait Q' b := by
  intro p
  induction p with
  | ret a | raise e => intro b h; exact hQ _ _ h
  | select st k ih => intro b h l s; exact ih l s (h l s)
  | execute st w ok err ihok iherr =>
    intro b h
    exact ⟨h.1, ihok h.2.1, fun e => iherr e (h.2.2 e)⟩
  | commit k ih | rollback k ih | assign l k ih => intro b h; exact ih h

/-- The rule of sequential composition. -/
theorem noHoldAndWait_bind {Q : Except ε β → Bool → Prop} {f : α → Prog σ κ ℓ τ ε β} :
    ∀ {p : Prog σ κ ℓ τ ε α} {b : Bool}, (p.bind f).NoHoldAndWait Q b ↔
      p.NoHoldAndWait (fun r b => match r with
        | .ok a => (f a).NoHoldAndWait Q b
        | .error e => Q (.error e) b) b := by
  intro p
  induction p with
  | ret a | raise e => intro b; exact Iff.rfl
  | select st k ih => intro b; simp only [bind, NoHoldAndWait, ih]
  | execute st w ok err ihok iherr => intro b; simp only [bind, NoHoldAndWait, ihok, iherr]
  | commit k ih | rollback k ih | assign l k ih => intro b; simp only [bind, NoHoldAndWait, ih]

/-- The rule of `try`. -/
theorem noHoldAndWait_recover {Q : Except ε α → Bool → Prop} {h : ε → Prog σ κ ℓ τ ε α} :
    ∀ {p : Prog σ κ ℓ τ ε α} {b : Bool}, (p.recover h).NoHoldAndWait Q b ↔
      p.NoHoldAndWait (fun r b => match r with
        | .ok a => Q (.ok a) b
        | .error e => (h e).NoHoldAndWait Q b) b := by
  intro p
  induction p with
  | ret a | raise e => intro b; exact Iff.rfl
  | select st k ih => intro b; simp only [recover, NoHoldAndWait, ih]
  | execute st w ok err ihok iherr => intro b; simp only [recover, NoHoldAndWait, ihok, iherr]
  | commit k ih | rollback k ih | assign l k ih => intro b; simp only [recover, NoHoldAndWait, ih]

/-- Queries never wait. -/
theorem ReadOnly.noHoldAndWait {Q : Except ε α → Bool → Prop} {p : Prog σ κ ℓ τ ε α} {b : Bool}
    (hp : p.ReadOnly) (hQ : ∀ r, Q r b) : p.NoHoldAndWait Q b := by
  induction p with
  | ret a | raise e => exact hQ _
  | select st k ih => exact fun l s => ih l s (hp l s)
  | execute | commit | rollback | assign => exact hp.elim

/-- The program `p` is what is left of the second one after its first move. -/
inductive Rest : Prog σ κ ℓ τ ε α → Prog σ κ ℓ τ ε α → Prop where
  | select (st : τ) (k : ℓ → σ → Prog σ κ ℓ τ ε α) (l : ℓ) (s : σ) : Rest (k l s) (.select st k)
  | ok (st : τ) (w : ℓ → σ → Except DbError (Write σ κ)) (ok : Prog σ κ ℓ τ ε α)
      (err : DbError → Prog σ κ ℓ τ ε α) : Rest ok (.execute st w ok err)
  | error (st : τ) (w : ℓ → σ → Except DbError (Write σ κ)) (ok : Prog σ κ ℓ τ ε α)
      (err : DbError → Prog σ κ ℓ τ ε α) (e : DbError) : Rest (err e) (.execute st w ok err)
  | commit (k : Prog σ κ ℓ τ ε α) : Rest k (.commit k)
  | rollback (k : Prog σ κ ℓ τ ε α) : Rest k (.rollback k)
  | assign (l : ℓ) (k : Prog σ κ ℓ τ ε α) : Rest k (.assign l k)

/-- A program with something left to do has no result. -/
theorem Rest.result_eq_none {p q : Prog σ κ ℓ τ ε α} (h : p.Rest q) : q.result = none := by
  cases h <;> rfl

/-- A program has finitely many moves, whatever it reads on the way. -/
theorem wellFounded_rest : WellFounded (Rest (σ := σ) (κ := κ) (ℓ := ℓ) (τ := τ) (ε := ε)
    (α := α)) := by
  refine ⟨fun p => ?_⟩
  induction p with
  | ret a | raise e => exact ⟨_, fun q h => by cases h⟩
  | select st k ih =>
    refine ⟨_, fun q h => ?_⟩
    cases h with
    | select _ _ l s => exact ih l s
  | execute st w ok err ihok iherr =>
    refine ⟨_, fun q h => ?_⟩
    cases h with
    | ok => exact ihok
    | error _ _ _ _ e => exact iherr e
  | commit k ih | rollback k ih | assign l k ih =>
    refine ⟨_, fun q h => ?_⟩
    cases h
    exact ih

end Prog

/-! ## Sessions -/

namespace Session

/-- A session that is not closed has its closing still before it. -/
def remaining (S : Session σ κ ℓ τ ε α) : Bool × Prog σ κ ℓ τ ε α := (!S.closed, S.prog)

/-- One session has less before it than the other. -/
def Less (S S' : Session σ κ ℓ τ ε α) : Prop :=
  Prod.Lex (· < ·) Prog.Rest S.remaining S'.remaining

/-- No session has less and less before it for ever. -/
theorem wellFounded_less : WellFounded (Less (σ := σ) (κ := κ) (ℓ := ℓ) (τ := τ) (ε := ε)
    (α := α)) :=
  InvImage.wf remaining (WellFounded.prod_lex wellFounded_lt Prog.wellFounded_rest)

/-- The session does not wait while it holds locks. It is closed only when its program has ended,
and holds none then. -/
structure Unwaiting (S : Session σ κ ℓ τ ε α) : Prop where
  prog : S.prog.NoHoldAndWait (fun _ _ => True) !S.pending.isEmpty
  ended : S.closed = true → S.prog.result.isSome = true
  released : S.closed = true → S.pending = []

/-- A fresh session. -/
theorem unwaiting_start {l : ℓ} {p : Prog σ κ ℓ τ ε α}
    (h : p.NoHoldAndWait (fun _ _ => True) false) : (start l p).Unwaiting where
  prog := h
  ended hclosed := absurd hclosed Bool.false_ne_true
  released _ := rfl

/-- A session whose program goes on is not closed, and stays open. -/
theorem Unwaiting.moved {S S' : Session σ κ ℓ τ ε α} (h : S.Unwaiting)
    (hrest : S'.prog.Rest S.prog) (hclosed : S'.closed = S.closed)
    (hprog : S'.prog.NoHoldAndWait (fun _ _ => True) !S'.pending.isEmpty) : S'.Unwaiting := by
  have hopen : S'.closed ≠ true := by
    rw [hclosed]
    intro hS
    have hended := h.ended hS
    rw [hrest.result_eq_none] at hended
    cases hended
  exact ⟨hprog, fun hS' => absurd hS' hopen, fun hS' => absurd hS' hopen⟩

end Session

namespace World

variable [DecidableEq ι] [Fintype ι] [DecidableEq κ] {w w' : World ι σ κ ℓ τ ε α} {i : ι}

/-- A step changes the session that moves: it has less before it, and does not begin to wait while
it holds locks. -/
theorem step_less (hs : w.step i = some w') : ∃ S, w'.sessions = Function.update w.sessions i S ∧
    S.Less (w.sessions i) ∧ ((w.sessions i).Unwaiting → S.Unwaiting) := by
  have hgo : ∀ S : Session σ κ ℓ τ ε α, w'.sessions = Function.update w.sessions i S →
      S.closed = (w.sessions i).closed → S.prog.Rest (w.sessions i).prog →
      ((w.sessions i).prog.NoHoldAndWait (fun _ _ => True) (!(w.sessions i).pending.isEmpty) →
        S.prog.NoHoldAndWait (fun _ _ => True) !S.pending.isEmpty) →
      ∃ S, w'.sessions = Function.update w.sessions i S ∧ S.Less (w.sessions i) ∧
        ((w.sessions i).Unwaiting → S.Unwaiting) := by
    intro S hS hclosed hrest hprog
    refine ⟨S, hS, ?_, fun h => h.moved hrest hclosed (hprog h.prog)⟩
    simp only [Session.Less, Session.remaining, hclosed]
    exact .right _ hrest
  cases move_of_step hs with
  | closeRet hp hopen | closeRaise hp hopen =>
    refine ⟨_, rfl, ?_, fun _ => ⟨?_, fun _ => ?_, fun _ => rfl⟩⟩
    · refine Prod.Lex.left _ _ ?_
      simp only [Session.close, hopen]
      decide
    · simp only [Session.close, hp]
      trivial
    · simp only [Session.close, hp]
      rfl
  | @select st k hp =>
    refine hgo _ rfl rfl (hp ▸ .select st k _ _) fun hprog => ?_
    rw [hp] at hprog
    exact hprog _ _
  | @ok st f ok err wr hp =>
    refine hgo _ rfl rfl (hp ▸ .ok st f ok err) fun hprog => ?_
    rw [hp] at hprog
    have hpending : (!((w.sessions i).pending ++ [wr]).isEmpty) = true := by simp
    simp only [Session.next, Local.wrote, Local.saw, hpending]
    exact hprog.2.1
  | @error st f ok err e hp =>
    refine hgo _ rfl rfl (hp ▸ .error st f ok err e) fun hprog => ?_
    rw [hp] at hprog
    exact hprog.2.2 e
  | @commit k hp =>
    refine hgo _ rfl rfl (hp ▸ .commit k) fun hprog => ?_
    rw [hp] at hprog
    exact hprog
  | @rollback k hp =>
    refine hgo _ rfl rfl (hp ▸ .rollback k) fun hprog => ?_
    rw [hp] at hprog
    exact hprog
  | @assign l k hp =>
    refine hgo _ rfl rfl (hp ▸ .assign l k) fun hprog => ?_
    rw [hp] at hprog
    exact hprog

/-- No run goes on for ever. -/
theorem wellFounded_step : WellFounded fun w' w : World ι σ κ ℓ τ ε α =>
    ∃ i, w.step i = some w' := by
  have hsessions := Pi.Lex.wellFounded (WellOrderingRel (α := ι))
    fun _ : ι => Session.wellFounded_less (σ := σ) (κ := κ) (ℓ := ℓ) (τ := τ) (ε := ε) (α := α)
  refine Subrelation.wf ?_ (InvImage.wf World.sessions hsessions)
  rintro w' w ⟨i, hs⟩
  obtain ⟨S, hS, hless, -⟩ := step_less hs
  refine ⟨i, fun j hj => ?_, ?_⟩
  · rw [hS, Function.update_of_ne]
    rintro rfl
    exact irrefl _ hj
  · rw [hS, Function.update_self]
    exact hless

/-- No session waits while it holds locks. -/
def Unwaiting (w : World ι σ κ ℓ τ ε α) : Prop := ∀ i, (w.sessions i).Unwaiting

/-- No session comes to wait while it holds locks. -/
theorem Unwaiting.step (h : w.Unwaiting) (hs : w.step i = some w') : w'.Unwaiting := by
  obtain ⟨S, hS, -, hkeep⟩ := step_less hs
  intro j
  rw [hS]
  by_cases hj : j = i
  · subst hj
    rw [Function.update_self]
    exact hkeep (h j)
  · rw [Function.update_of_ne hj]
    exact h j

/-- A session that holds a lock can move: it has no write before it. -/
theorem Unwaiting.step_of_holding (h : w.Unwaiting) (hpending : (w.sessions i).pending ≠ []) :
    ∃ w', w.step i = some w' := by
  have hprog := (h i).prog
  have hopen : (w.sessions i).closed ≠ true := fun hclosed => hpending ((h i).released hclosed)
  simp only [World.step]
  cases hp : (w.sessions i).prog with
  | ret a | raise e => exact ⟨_, if_neg hopen⟩
  | select st k | commit k | rollback k | assign l k => exact ⟨_, rfl⟩
  | execute st f ok err =>
    rw [hp] at hprog
    have hholding := hprog.1
    rw [Bool.not_eq_false', List.isEmpty_iff] at hholding
    exact absurd hholding hpending

/-- A session that cannot move is closed, or another one holds a lock. -/
theorem closed_or_held_of_step (hs : w.step i = none) :
    (w.sessions i).closed = true ∨ ∃ j, j ≠ i ∧ (w.sessions j).pending ≠ [] := by
  by_contra hnot
  obtain ⟨hopen, hfree⟩ := not_or.mp hnot
  simp only [World.step] at hs
  cases hp : (w.sessions i).prog with
  | ret a | raise e =>
    simp only [hp] at hs
    rw [if_neg hopen] at hs
    cases hs
  | select st k | commit k | rollback k | assign l k =>
    simp only [hp] at hs
    cases hs
  | execute st f ok err =>
    simp only [hp] at hs
    cases hf : f (w.sessions i).vars ((w.sessions i).view w.committed) with
    | error e =>
      simp only [hf] at hs
      cases hs
    | ok wr =>
      simp only [hf] at hs
      split at hs
      · cases hs
      · next hheld =>
        simp only [Free, not_forall] at hheld
        obtain ⟨j, hj, k, -, wr', hwr', -⟩ := hheld
        exact hfree ⟨j, hj, List.ne_nil_of_mem hwr'⟩

/-- There is no deadlock: a session that cannot move is closed, or waits for one that can. -/
theorem Unwaiting.exists_step (h : w.Unwaiting) (hopen : ¬ w.Closed) :
    ∃ i w', w.step i = some w' := by
  obtain ⟨i, hi⟩ := not_forall.mp hopen
  cases hs : w.step i with
  | some w' => exact ⟨i, w', hs⟩
  | none =>
    obtain ⟨j, -, hpending⟩ := (closed_or_held_of_step hs).resolve_left hi
    obtain ⟨w', hw'⟩ := h.step_of_holding hpending
    exact ⟨j, w', hw'⟩

/-- Whichever sessions move, the run comes to an end, and it does so only when every session is
closed. -/
inductive Ends : World ι σ κ ℓ τ ε α → Prop where
  | intro (w : World ι σ κ ℓ τ ε α) : (¬ w.Closed → ∃ i w', w.step i = some w') →
      (∀ i w', w.step i = some w' → Ends w') → Ends w

/-- A run comes to an end if the worlds that it reaches satisfy an invariant under which some
session can move until all are closed. -/
theorem ends_of_invariant {I : World ι σ κ ℓ τ ε α → Prop}
    (hmove : ∀ w, I w → ¬ w.Closed → ∃ i w', w.step i = some w')
    (hstep : ∀ w i w', I w → w.step i = some w' → I w') (h : I w) : w.Ends := by
  refine wellFounded_step.induction (C := fun w => I w → w.Ends) w ?_ h
  intro w ih h
  exact ⟨w, hmove w h, fun i w' hs => ih w' ⟨i, hs⟩ (hstep w i w' h hs)⟩

/-- Sessions that do not wait while they hold locks come to an end. -/
theorem Unwaiting.ends (h : w.Unwaiting) : w.Ends :=
  ends_of_invariant (fun _ h hopen => h.exists_step hopen) (fun _ _ _ h hs => h.step hs) h

end World

/-! ## Requests that take the same lock first

A request that writes more than once in a transaction waits while it holds locks. Requests whose
transactions all begin with the same lock still come to an end: while one of them holds locks, no
other one does. -/

namespace Prog

variable {key : κ}

/-- The first write of every transaction takes the lock `key`. `holding` says whether the open
transaction has written already. -/
def LocksFirst (key : κ) : Prog σ κ ℓ τ ε α → Bool → Prop
  | .ret _, _ | .raise _, _ => True
  | .select _ k, holding => ∀ l s, (k l s).LocksFirst key holding
  | .execute _ w ok err, holding =>
    (holding = true ∨ ∀ l s wr, w l s = .ok wr → key ∈ wr.locks) ∧ ok.LocksFirst key true ∧
      ∀ e, (err e).LocksFirst key false
  | .commit k, _ | .rollback k, _ => k.LocksFirst key false
  | .assign _ k, holding => k.LocksFirst key holding

/-- Queries take no lock. -/
theorem ReadOnly.locksFirst_bind {p : Prog σ κ ℓ τ ε α} {f : α → Prog σ κ ℓ τ ε β} {b : Bool}
    (hp : p.ReadOnly) (hf : ∀ a, (f a).LocksFirst key b) : (p.bind f).LocksFirst key b := by
  induction p with
  | ret a => exact hf a
  | raise e => trivial
  | select st k ih => exact fun l s => ih l s (hp l s)
  | execute | commit | rollback | assign => exact hp.elim

/-- Queries take no locks at all. -/
theorem ReadOnly.locksFirst {p : Prog σ κ ℓ τ ε α} {b : Bool} (hp : p.ReadOnly) :
    p.LocksFirst key b := by
  induction p with
  | ret a | raise e => trivial
  | select st k ih => exact fun l s => ih l s (hp l s)
  | execute | commit | rollback | assign => exact hp.elim

end Prog

/-- The first write of every transaction of the session takes the lock `key`, and the session keeps
it as long as its transaction is open. -/
structure Session.LocksFirst (S : Session σ κ ℓ τ ε α) (key : κ) : Prop where
  prog : S.prog.LocksFirst key !S.pending.isEmpty
  holds : S.pending ≠ [] → key ∈ S.locks
  released : S.closed = true → S.pending = [] ∧ S.prog.result.isSome = true

namespace World

variable [DecidableEq ι] [Fintype ι] [DecidableEq κ] {w w' : World ι σ κ ℓ τ ε α} {i : ι} {key : κ}

omit [DecidableEq ι] [Fintype ι] [DecidableEq κ] in
/-- A session starts without locks. -/
theorem locksFirst_start {l : ℓ} {p : Prog σ κ ℓ τ ε α} (h : p.LocksFirst key false) :
    (Session.start l p).LocksFirst key where
  prog := h
  holds hpending := absurd rfl hpending
  released hclosed := absurd hclosed Bool.false_ne_true

/-- The moves of a session keep this. -/
theorem locksFirst_step (h : ∀ j, (w.sessions j).LocksFirst key) (hs : w.step i = some w') (j : ι) :
    (w'.sessions j).LocksFirst key := by
  by_cases hj : j = i
  swap
  · rw [step_sessions_of_ne hs hj]
    exact h j
  subst hj
  obtain ⟨hprog, hholds, hreleased⟩ := h j
  have hopen : (w.sessions j).prog.result = none → (w.sessions j).closed ≠ true := by
    intro hnone hclosed
    have hended := (hreleased hclosed).2
    rw [hnone] at hended
    cases hended
  cases move_of_step hs with
  | closeRet hp | closeRaise hp =>
    rw [put_sessions, Function.update_self]
    refine ⟨?_, fun hpending => absurd rfl hpending, fun _ => ⟨rfl, ?_⟩⟩
    · simp only [Session.close, hp]
      trivial
    · simp only [Session.close, hp]
      rfl
  | select hp =>
    rw [put_sessions, Function.update_self]
    rw [hp] at hprog
    exact ⟨hprog _ _, hholds, fun hclosed => absurd hclosed (hopen (by rw [hp]; rfl))⟩
  | @ok st f ok err wr hp hf =>
    rw [put_sessions, Function.update_self]
    rw [hp] at hprog
    have hlocks : key ∈ (((w.sessions j).saw st).wrote wr).locks := by
      simp only [Local.locks, Local.wrote_pending, Local.saw_pending, List.flatMap_append,
        List.flatMap_singleton, List.mem_append]
      rcases hprog.1 with hholding | hlock
      · refine .inl (hholds fun hnil => ?_)
        rw [hnil] at hholding
        cases hholding
      · exact .inr (hlock _ _ _ hf)
    refine ⟨?_, fun _ => hlocks, fun hclosed => absurd hclosed (hopen (by rw [hp]; rfl))⟩
    have hpending : (!((w.sessions j).pending ++ [wr]).isEmpty) = true := by simp
    simp only [Session.next, Local.wrote, Local.saw, hpending]
    exact hprog.2.1
  | error hp =>
    rw [put_sessions, Function.update_self]
    rw [hp] at hprog
    exact ⟨hprog.2.2 _, fun hpending => absurd rfl hpending,
      fun hclosed => absurd hclosed (hopen (by rw [hp]; rfl))⟩
  | commit hp =>
    rw [publish_sessions, Function.update_self]
    rw [hp] at hprog
    exact ⟨hprog, fun hpending => absurd rfl hpending,
      fun hclosed => absurd hclosed (hopen (by rw [hp]; rfl))⟩
  | rollback hp =>
    rw [put_sessions, Function.update_self]
    rw [hp] at hprog
    exact ⟨hprog, fun hpending => absurd rfl hpending,
      fun hclosed => absurd hclosed (hopen (by rw [hp]; rfl))⟩
  | assign hp =>
    rw [put_sessions, Function.update_self]
    rw [hp] at hprog
    exact ⟨hprog, hholds, fun hclosed => absurd hclosed (hopen (by rw [hp]; rfl))⟩

/-- Sessions whose transactions begin with the same lock come to an end: a session that holds locks
holds this one, so nobody else holds any and it can move. -/
theorem ends_of_locksFirst (hlocks : ∀ j, (w.sessions j).LocksFirst key)
    (hexclusive : w.Exclusive) : w.Ends := by
  refine ends_of_invariant (I := fun w => (∀ j, (w.sessions j).LocksFirst key) ∧ w.Exclusive)
    ?_ (fun w i w' h hs => ⟨locksFirst_step h.1 hs, h.2.step hs⟩) ⟨hlocks, hexclusive⟩
  rintro w ⟨hlocks, hexclusive⟩ hopen
  obtain ⟨i, hi⟩ := not_forall.mp hopen
  cases hs : w.step i with
  | some w' => exact ⟨i, w', hs⟩
  | none =>
    obtain ⟨j, -, hj⟩ := (closed_or_held_of_step hs).resolve_left hi
    cases hs' : w.step j with
    | some w' => exact ⟨j, w', hs'⟩
    | none =>
      rcases closed_or_held_of_step hs' with hclosed | ⟨k, hk, hpending⟩
      · exact absurd ((hlocks j).released hclosed).1 hj
      · have hheld := hexclusive j k (Ne.symm hk) key ((hlocks j).holds hj)
        exact absurd ((hlocks k).holds hpending) hheld

end World

end Sql
