import OburBackend.Sql.World

/-!
# Requests that compute with what they have read

A `Reading` is a world with a record of the committed data that the `SELECT`s of each session have
seen. The record does not influence the run (`Reading.exec_world`); conditions on a run may speak of
it, when a request writes what it has computed from several reads.

`ReadsWp` is the condition for a program that relies on an invariant of the committed data alone:
each of its commits owes a promise `guar rs s s'` that relates the data it leads from and to with
the data `rs` that the session has read. `Reading.Holds.step` is the rule for one step: the
invariant is kept if the promise of the session that commits implies it.
-/

namespace Sql

variable {σ κ ℓ τ ε α β ι : Type}

/-- The next move of the program is a `SELECT`. -/
def Prog.isSelect : Prog σ κ ℓ τ ε α → Bool
  | .select .. => true
  | _ => false

/-- A world, and the committed data that the `SELECT`s of each session have seen, the latest
first. -/
structure Reading (ι σ κ ℓ τ ε α : Type) where
  world : World ι σ κ ℓ τ ε α
  reads : ι → List σ

/-! ## The condition for a program -/

section ReadsWp

variable (Inv : σ → Prop) (guar : List σ → σ → σ → Prop)

/-- What has to hold of the session `L`, whose `SELECT`s have seen the committed data `rs`, for the
program to promise `guar` at each commit and to end with `K`, while the committed data satisfies
`Inv`. -/
def ReadsWp (K : Except ε α → Local σ κ ℓ τ → List σ → Prop) :
    Prog σ κ ℓ τ ε α → Local σ κ ℓ τ → List σ → Prop
  | .ret a, L, rs => K (.ok a) L rs
  | .raise e, L, rs => K (.error e) L rs
  | .select st k, L, rs =>
    ∀ s, Inv s → ReadsWp K (k L.vars (L.view s)) (L.saw st) (s :: rs)
  | .execute st f ok err, L, rs => ∀ s, Inv s →
      (∀ wr, f L.vars (L.view s) = .ok wr → ReadsWp K ok ((L.saw st).wrote wr) rs) ∧
      (∀ e, f L.vars (L.view s) = .error e → ReadsWp K (err e) (L.saw st).ended rs)
  | .commit k, L, rs => (∀ s, Inv s → guar rs s (L.view s)) ∧ ReadsWp K k L.ended rs
  | .rollback k, L, rs => ReadsWp K k L.ended rs
  | .assign l k, L, rs => ReadsWp K k (L.assigned l) rs

variable {Inv guar}

/-- Weaken what holds at the end. -/
theorem ReadsWp.mono {K K' : Except ε α → Local σ κ ℓ τ → List σ → Prop}
    (hK : ∀ res L rs, K res L rs → K' res L rs) {p : Prog σ κ ℓ τ ε α} {L : Local σ κ ℓ τ}
    {rs : List σ} (h : ReadsWp Inv guar K p L rs) : ReadsWp Inv guar K' p L rs := by
  induction p generalizing L rs with
  | ret a | raise e => exact hK _ _ _ h
  | select st k ih => exact fun s hs => ih _ _ (h s hs)
  | execute st f ok err ihok iherr =>
    exact fun s hs =>
      ⟨fun wr hw => ihok ((h s hs).1 wr hw), fun e he => iherr e ((h s hs).2 e he)⟩
  | commit k ih => exact ⟨h.1, ih h.2⟩
  | rollback k ih | assign l k ih => exact ih h

/-- The rule of sequential composition. -/
theorem readsWp_bind {K : Except ε β → Local σ κ ℓ τ → List σ → Prop}
    {f : α → Prog σ κ ℓ τ ε β} {p : Prog σ κ ℓ τ ε α} {L : Local σ κ ℓ τ} {rs : List σ} :
    ReadsWp Inv guar K (p.bind f) L rs ↔
      ReadsWp Inv guar (fun res L rs => match res with
        | .ok a => ReadsWp Inv guar K (f a) L rs
        | .error e => K (.error e) L rs) p L rs := by
  induction p generalizing L rs with
  | ret a | raise e => exact Iff.rfl
  | select st k ih => simp only [Prog.bind, ReadsWp, ih]
  | execute st g ok err ihok iherr => simp only [Prog.bind, ReadsWp, ihok, iherr]
  | commit k ih | rollback k ih | assign l k ih => simp only [Prog.bind, ReadsWp, ih]

end ReadsWp

/-! ## Runs -/

namespace Reading

variable [DecidableEq ι]

/-- Before the first step nobody has read anything. -/
def start (s : σ) (S : ι → Session σ κ ℓ τ ε α) : Reading ι σ κ ℓ τ ε α :=
  ⟨World.start s S, fun _ => []⟩

/-- What the sessions have read after the next move of session `i`. -/
def readsNext (w : Reading ι σ κ ℓ τ ε α) (i : ι) : ι → List σ :=
  if (w.world.sessions i).prog.isSelect then
    Function.update w.reads i (w.world.committed :: w.reads i)
  else w.reads

variable [Fintype ι] [DecidableEq κ]

/-- The next move of session `i`. -/
def step (w : Reading ι σ κ ℓ τ ε α) (i : ι) : Option (Reading ι σ κ ℓ τ ε α) :=
  (w.world.step i).map fun world => ⟨world, w.readsNext i⟩

/-- Run a schedule. -/
def exec (w : Reading ι σ κ ℓ τ ε α) : List ι → Option (Reading ι σ κ ℓ τ ε α)
  | [] => some w
  | i :: rest => (w.step i).bind fun w' => w'.exec rest

/-- Every step of the schedule is taken in a state that satisfies `C`. -/
def Always (C : Reading ι σ κ ℓ τ ε α → ι → Prop) (w : Reading ι σ κ ℓ τ ε α) : List ι → Prop
  | [] => True
  | i :: rest => C w i ∧ ∀ w', w.step i = some w' → Always C w' rest

instance decidableAlways {C : Reading ι σ κ ℓ τ ε α → ι → Prop} [∀ w i, Decidable (C w i)] :
    (sched : List ι) → (w : Reading ι σ κ ℓ τ ε α) → Decidable (w.Always C sched)
  | [], _ => isTrue trivial
  | i :: rest, w =>
    match h : w.step i with
    | none => decidable_of_iff (C w i) (by simp [Always, h])
    | some w' =>
      haveI : Decidable (w'.Always C rest) := decidableAlways rest w'
      decidable_of_iff (C w i ∧ w'.Always C rest) (by simp [Always, h])

variable {w w' : Reading ι σ κ ℓ τ ε α} {i : ι}

/-- The record does not influence the run. -/
theorem exec_world (sched : List ι) (w : Reading ι σ κ ℓ τ ε α) :
    (w.exec sched).map Reading.world = w.world.exec sched := by
  induction sched generalizing w with
  | nil => rfl
  | cons i rest ih =>
    rw [exec, World.exec, step]
    cases w.world.step i with
    | none => rfl
    | some world => exact ih ⟨world, w.readsNext i⟩

/-- The induction over a run whose steps all meet `C`. -/
theorem exec_induction {C : Reading ι σ κ ℓ τ ε α → ι → Prop}
    {I : Reading ι σ κ ℓ τ ε α → Prop}
    (hstep : ∀ w i w', I w → C w i → w.step i = some w' → I w') {sched : List ι}
    (hw : I w) (hC : w.Always C sched) (h : w.exec sched = some w') : I w' := by
  induction sched generalizing w with
  | nil =>
    obtain rfl := Option.some.inj h
    exact hw
  | cons i rest ih =>
    rw [exec, Option.bind_eq_some_iff] at h
    obtain ⟨w₁, hs, hrest⟩ := h
    exact ih (hstep w i w₁ hw hC.1 hs) (hC.2 w₁ hs) hrest

/-- The committed data satisfies the invariant, and every session keeps its promises. -/
structure Holds (Inv : σ → Prop) (guar : ι → List σ → σ → σ → Prop)
    (w : Reading ι σ κ ℓ τ ε α) : Prop where
  inv : Inv w.world.committed
  promised : ∀ j, ReadsWp Inv (guar j) (fun _ _ _ => True) (w.world.sessions j).prog
    (w.world.sessions j).toLocal (w.reads j)

variable {Inv : σ → Prop} {guar : ι → List σ → σ → σ → Prop}

omit [DecidableEq ι] [Fintype ι] [DecidableEq κ] in
/-- At first every session has its program before it, and the data have the invariant. -/
theorem holds_start {s : σ} {S : ι → Session σ κ ℓ τ ε α} (hs : Inv s)
    (hS : ∀ j, ReadsWp Inv (guar j) (fun _ _ _ => True) (S j).prog (S j).toLocal []) :
    (start s S).Holds Inv guar :=
  ⟨hs, hS⟩

omit [Fintype ι] [DecidableEq κ] in
/-- A session moves: the others stay where they are, and have read what they had read. -/
theorem Holds.moved (h : w.Holds Inv guar) {world : World ι σ κ ℓ τ ε α}
    {S : Session σ κ ℓ τ ε α} (hinv : Inv world.committed)
    (hsessions : world.sessions = Function.update w.world.sessions i S)
    (hi : ReadsWp Inv (guar i) (fun _ _ _ => True) S.prog S.toLocal (w.readsNext i i)) :
    (Reading.mk world (w.readsNext i)).Holds Inv guar := by
  refine ⟨hinv, fun j => ?_⟩
  by_cases hj : j = i
  · subst hj
    simpa [hsessions] using hi
  · have hreads : w.readsNext i j = w.reads j := by
      rw [readsNext]
      split
      · exact Function.update_of_ne hj _ _
      · rfl
    simpa [hsessions, hreads, Function.update_of_ne hj] using h.promised j

/-- What one step preserves. -/
theorem Holds.step (h : w.Holds Inv guar) (hs : w.step i = some w')
    (hcommit : ∀ s', (w.world.sessions i).prog.isCommit = true →
      guar i (w.reads i) w.world.committed s' → Inv s') : w'.Holds Inv guar := by
  obtain ⟨world, hworld, rfl⟩ := Option.map_eq_some_iff.mp hs
  have hi := h.promised i
  have hnext : w.readsNext i i =
      if (w.world.sessions i).prog.isSelect then w.world.committed :: w.reads i
      else w.reads i := by
    rw [readsNext]
    split
    · exact Function.update_self ..
    · rfl
  cases World.move_of_step hworld with
  | closeRet hp | closeRaise hp =>
    refine h.moved h.inv rfl ?_
    simp only [Session.close, hp, ReadsWp]
  | select hp =>
    rw [hp] at hi hnext
    refine h.moved h.inv rfl ?_
    rw [hnext]
    exact hi _ h.inv
  | ok hp hf =>
    rw [hp] at hi hnext
    refine h.moved h.inv rfl ?_
    rw [hnext]
    exact (hi _ h.inv).1 _ hf
  | error hp hf =>
    rw [hp] at hi hnext
    refine h.moved h.inv rfl ?_
    rw [hnext]
    exact (hi _ h.inv).2 _ hf
  | commit hp =>
    rw [hp] at hi hnext hcommit
    refine h.moved (hcommit _ rfl (hi.1 _ h.inv)) rfl ?_
    rw [hnext]
    exact hi.2
  | rollback hp | assign hp =>
    rw [hp] at hi hnext
    refine h.moved h.inv rfl ?_
    rw [hnext]
    exact hi

/-- A step commits nothing, or what its session has promised. -/
theorem Holds.commit_of_step (h : w.Holds Inv guar) (hs : w.step i = some w') :
    w'.world.committed = w.world.committed ∨ (w.world.sessions i).prog.isCommit = true ∧
      guar i (w.reads i) w.world.committed w'.world.committed := by
  obtain ⟨world, hworld, rfl⟩ := Option.map_eq_some_iff.mp hs
  obtain ⟨-, -, -, -, hcommit⟩ := World.step_spec hworld
  rcases hcommit with hsame | ⟨k, hk, hview⟩
  · exact .inl hsame
  · have hi := h.promised i
    rw [hk] at hi ⊢
    refine .inr ⟨rfl, ?_⟩
    rw [hview]
    exact hi.1 _ h.inv

end Reading

end Sql
