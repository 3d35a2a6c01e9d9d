import OburBackend.Sql.World

/-!
# Rely and guarantee for interleaved requests

A `Protocol` says of one session what it may assume of the commits of the others (`rely`), what its
own commits promise them (`guar`) and what it claims when it is over (`post`). `Wp` computes, by
recursion on the program, what has to hold now for the session to keep the protocol whatever the
others do in between: before each statement the committed data may move along `rely`, and each
`COMMIT` owes a `guar` step. `World.holds_step` is the parallel rule: if every session keeps its
protocol and the promise of the one that moves is covered by the reliances of the others, every
session keeps its protocol after the step.

The reliance of a session may depend on what it has done so far (`Local`), so that a session which
has read a table can rely on less than one which has not.
-/

namespace Sql

variable {σ κ ℓ τ ε α β ι : Type}

/-- The contract of one session with the others. -/
structure Protocol (σ κ ℓ τ ε α : Type) where
  rely : Local σ κ ℓ τ → σ → σ → Prop
  guar : Local σ κ ℓ τ → σ → σ → Prop
  post : Except ε α → List τ → σ → Prop
  rely_refl : ∀ L s, rely L s s
  rely_trans : ∀ {L s s' s''}, rely L s s' → rely L s' s'' → rely L s s''
  /-- Once its transaction has ended, a session holds no lock: it can rely on no more. -/
  rely_ended : ∀ {L s s'}, rely L s s' → rely L.ended s s'

section Wp

variable (rely guar : Local σ κ ℓ τ → σ → σ → Prop)

/-- What has to hold of the session `L` and the committed data for the program to promise `guar` at
each commit and to end with `K`, when the others move the committed data along `rely`. -/
def Wp (K : Except ε α → Local σ κ ℓ τ → σ → Prop) :
    Prog σ κ ℓ τ ε α → Local σ κ ℓ τ → σ → Prop
  | .ret a, L, s => K (.ok a) L s
  | .raise e, L, s => K (.error e) L s
  | .select st k, L, s => ∀ s', rely L s s' → Wp K (k L.vars (L.view s')) (L.saw st) s'
  | .execute st f ok err, L, s => ∀ s', rely L s s' →
      (∀ wr, f L.vars (L.view s') = .ok wr → Wp K ok ((L.saw st).wrote wr) s') ∧
      (∀ e, f L.vars (L.view s') = .error e → Wp K (err e) (L.saw st).ended s')
  | .commit k, L, s => ∀ s', rely L s s' →
      guar L s' (L.view s') ∧ Wp K k L.ended (L.view s')
  | .rollback k, L, s => ∀ s', rely L s s' → Wp K k L.ended s'
  | .assign l k, L, s => ∀ s', rely L s s' → Wp K k (L.assigned l) s'

variable {rely guar}

/-- Weaken what holds at the end. -/
theorem Wp.mono {K K' : Except ε α → Local σ κ ℓ τ → σ → Prop} (hK : ∀ r L s, K r L s → K' r L s) :
    ∀ {p : Prog σ κ ℓ τ ε α} {L : Local σ κ ℓ τ} {s : σ},
      Wp rely guar K p L s → Wp rely guar K' p L s := by
  intro p
  induction p with
  | ret a | raise e => intro L s h; exact hK _ _ _ h
  | select st k ih => intro L s h s' hr; exact ih _ _ (h s' hr)
  | execute st f ok err ihok iherr =>
    intro L s h s' hr
    exact ⟨fun wr hw => ihok ((h s' hr).1 wr hw), fun e he => iherr e ((h s' hr).2 e he)⟩
  | commit k ih => intro L s h s' hr; exact ⟨(h s' hr).1, ih (h s' hr).2⟩
  | rollback k ih | assign l k ih => intro L s h s' hr; exact ih (h s' hr)

/-- The rule of sequential composition. -/
theorem wp_bind {K : Except ε β → Local σ κ ℓ τ → σ → Prop} {f : α → Prog σ κ ℓ τ ε β} :
    ∀ {p : Prog σ κ ℓ τ ε α} {L : Local σ κ ℓ τ} {s : σ},
      Wp rely guar K (p.bind f) L s ↔
        Wp rely guar (fun r L s => match r with
          | .ok a => Wp rely guar K (f a) L s
          | .error e => K (.error e) L s) p L s := by
  intro p
  induction p with
  | ret a | raise e => intro L s; exact Iff.rfl
  | select st k ih => intro L s; simp only [Prog.bind, Wp, ih]
  | execute st g ok err ihok iherr => intro L s; simp only [Prog.bind, Wp, ihok, iherr]
  | commit k ih | rollback k ih | assign l k ih => intro L s; simp only [Prog.bind, Wp, ih]

/-- The rule of `try`: the handler takes up the errors. -/
theorem wp_recover {K : Except ε α → Local σ κ ℓ τ → σ → Prop} {h : ε → Prog σ κ ℓ τ ε α} :
    ∀ {p : Prog σ κ ℓ τ ε α} {L : Local σ κ ℓ τ} {s : σ},
      Wp rely guar K (p.recover h) L s ↔
        Wp rely guar (fun r L s => match r with
          | .ok a => K (.ok a) L s
          | .error e => Wp rely guar K (h e) L s) p L s := by
  intro p
  induction p with
  | ret a | raise e => intro L s; exact Iff.rfl
  | select st k ih => intro L s; simp only [Prog.recover, Wp, ih]
  | execute st g ok err ihok iherr => intro L s; simp only [Prog.recover, Wp, ihok, iherr]
  | commit k ih | rollback k ih | assign l k ih => intro L s; simp only [Prog.recover, Wp, ih]

/-- A session that has not moved may let the others move first. -/
theorem Wp.stable_of_trans (htrans : ∀ L s s' s'', rely L s s' → rely L s' s'' → rely L s s'')
    {K : Except ε α → Local σ κ ℓ τ → σ → Prop}
    (hK : ∀ r L s s', rely L s s' → K r L s → K r L s') {p : Prog σ κ ℓ τ ε α}
    {L : Local σ κ ℓ τ} {s s' : σ} (hr : rely L s s') (h : Wp rely guar K p L s) :
    Wp rely guar K p L s' := by
  cases p with
  | ret a | raise e => exact hK _ _ _ _ hr h
  | select st k | execute st f ok err | commit k | rollback k | assign l k =>
    exact fun s'' hr' => h s'' (htrans _ _ _ _ hr hr')

end Wp

/-! ## A request alone -/

/-- Run alone, a program whose commits all lead to `Inv` commits data that satisfies `Inv`. -/
theorem Prog.inv_run {Inv : σ → Prop} {K : Except ε α → Local σ κ ℓ τ → σ → Prop}
    {p : Prog σ κ ℓ τ ε α} {L : Local σ κ ℓ τ} {s : σ} (hs : Inv s)
    (h : Wp (fun _ s s' => s = s') (fun _ _ s' => Inv s') K p L s) :
    Inv (p.run ⟨L.vars, s, L.view s⟩).2.committed := by
  induction p generalizing L s with
  | ret a | raise e => exact hs
  | select st k ih => exact ih _ _ (L := L.saw st) hs (h s rfl)
  | execute st f ok err ihok iherr =>
    have hL := h s rfl
    simp only [Prog.run]
    cases hf : f L.vars (L.view s) with
    | ok wr => simpa using ihok hs (hL.1 wr hf)
    | error e => exact iherr e hs (hL.2 e hf)
  | commit k ih => exact ih (L := L.ended) (h s rfl).1 (h s rfl).2
  | rollback k ih => exact ih (L := L.ended) hs (h s rfl)
  | assign l k ih => exact ih (L := L.assigned l) hs (h s rfl)

/-- The session state at the start of a request. -/
def Local.start (l : ℓ) : Local σ κ ℓ τ := ⟨l, [], []⟩

@[simp] theorem Local.start_vars (l : ℓ) : (Local.start l : Local σ κ ℓ τ).vars = l := rfl

@[simp] theorem Local.view_start (l : ℓ) (s : σ) : (Local.start l : Local σ κ ℓ τ).view s = s := rfl

/-- Run alone, a program leaves data with the invariant of its commits. -/
theorem Prog.inv_after {Inv : σ → Prop} {p : Prog σ κ ℓ τ ε α} {l : ℓ} {s : σ} (hs : Inv s)
    (h : Wp (fun _ s s' => s = s') (fun _ _ s' => Inv s') (fun _ _ _ => True) p
      (Local.start l) s) : Inv (p.after l s) :=
  Prog.inv_run (L := Local.start l) hs h

namespace Protocol

/-- The session keeps the protocol from here on. A finished session claims `post` with its
transaction ended, since closing rolls back what it has not committed. -/
def Holds (P : Protocol σ κ ℓ τ ε α) (p : Prog σ κ ℓ τ ε α) (L : Local σ κ ℓ τ) (s : σ) : Prop :=
  Wp P.rely P.guar (fun r L s => ∀ s', P.rely L.ended s s' → P.post r L.log s') p L s

variable {P : Protocol σ κ ℓ τ ε α}

/-- What holds of a session holds while others move on. -/
theorem Holds.stable {p : Prog σ κ ℓ τ ε α} {L : Local σ κ ℓ τ} {s s' : σ}
    (h : P.Holds p L s) (hr : P.rely L s s') : P.Holds p L s' := by
  have htrans : ∀ L s s' s'', P.rely L s s' → P.rely L s' s'' → P.rely L s s'' :=
    fun _ _ _ _ h1 h2 => P.rely_trans h1 h2
  refine Wp.stable_of_trans htrans ?_ hr h
  intro r L s s' hr hk s'' hr'
  exact hk s'' (P.rely_trans (P.rely_ended hr) hr')

/-- What a finished session claims. -/
theorem Holds.post_ok {a : α} {L : Local σ κ ℓ τ} {s : σ} (h : P.Holds (.ret a) L s) :
    P.post (.ok a) L.log s :=
  h s (P.rely_refl _ _)

end Protocol

namespace World

variable [DecidableEq ι] [Fintype ι] [DecidableEq κ] {P : ι → Protocol σ κ ℓ τ ε α}

/-- Every session keeps its protocol. -/
def Holds (P : ι → Protocol σ κ ℓ τ ε α) (w : World ι σ κ ℓ τ ε α) : Prop :=
  ∀ j, (P j).Holds (w.sessions j).prog (w.sessions j).toLocal w.committed

omit [Fintype ι] [DecidableEq κ] in
/-- A session moves without committing: the others stay where they are. -/
theorem Holds.put {w : World ι σ κ ℓ τ ε α} {i : ι} {S : Session σ κ ℓ τ ε α} (h : w.Holds P)
    (hi : (P i).Holds S.prog S.toLocal w.committed) : (w.put i S).Holds P := by
  intro j
  by_cases hj : j = i
  · subst hj
    simpa using hi
  · simpa [Function.update_of_ne hj] using h j

/-- The parallel rule, one step: the promise of the session that moves has to be covered by the
reliances of the others. -/
theorem Holds.step {w w' : World ι σ κ ℓ τ ε α} {i : ι} (h : w.Holds P)
    (hs : w.step i = some w')
    (hint : (P i).guar (w.sessions i).toLocal w.committed w'.committed →
      ∀ j, j ≠ i → (P j).rely (w.sessions j).toLocal w.committed w'.committed) :
    w'.Holds P := by
  have hi := h i
  have hrefl := (P i).rely_refl (w.sessions i).toLocal w.committed
  cases move_of_step hs with
  | closeRet hp | closeRaise hp =>
    refine h.put ?_
    rw [hp] at hi
    simp only [Session.close, hp]
    exact hi
  | select hp =>
    rw [hp] at hi
    exact h.put (hi _ hrefl)
  | ok hp hf =>
    rw [hp] at hi
    exact h.put ((hi _ hrefl).1 _ hf)
  | error hp hf =>
    rw [hp] at hi
    exact h.put ((hi _ hrefl).2 _ hf)
  | commit hp =>
    rw [hp] at hi
    intro j
    by_cases hj : j = i
    · subst hj
      rw [publish_sessions, Function.update_self]
      exact (hi _ hrefl).2
    · simpa [Function.update_of_ne hj] using (h j).stable (hint (hi _ hrefl).1 j hj)
  | rollback hp | assign hp =>
    rw [hp] at hi
    exact h.put (hi _ hrefl)

/-- What a step commits is what the session that moves has promised. -/
theorem Holds.guar_of_step {w w' : World ι σ κ ℓ τ ε α} {i : ι} (h : w.Holds P)
    (hs : w.step i = some w') : w'.committed = w.committed ∨
      (P i).guar (w.sessions i).toLocal w.committed w'.committed := by
  obtain ⟨-, -, -, -, hcommit⟩ := step_spec hs
  rcases hcommit with hsame | ⟨k, hk, hview⟩
  · exact .inl hsame
  · right
    have hi := h i
    rw [hk] at hi
    rw [hview]
    exact (hi _ ((P i).rely_refl _ _)).1

end World

end Sql
