import OburBackend.Sql.Reads
import OburBackend.Sql.Statement

/-!
# Requests that commit all or nothing

A request that reads back what it has committed can still fail after its commit. `Prog.AllOrNothing`
says of a program that it cannot: whatever it reads, as long as the committed data satisfies an
invariant, it returns once it has committed. In a run of such programs a request that has raised has
committed nothing (`World.AllOrNothing.not_mem_history`), and so no step of it has changed the data
(`World.always_unchanged`).
-/

namespace Sql

variable {σ κ ℓ τ ε α β ι : Type}

namespace Prog

variable (Inv : σ → Prop)

/-- The program sends queries and returns, whatever it reads of data that satisfies `Inv`. -/
def Returns (l : ℓ) : Prog σ κ ℓ τ ε α → Prop
  | .ret _ => True
  | .select _ k => ∀ s, Inv s → (k l s).Returns l
  | .raise _ | .execute .. | .commit _ | .rollback _ | .assign .. => False

/-- From the session `L` on, the program returns once it has committed. -/
def AllOrNothing : Prog σ κ ℓ τ ε α → Local σ κ ℓ τ → Prop
  | .ret _, _ | .raise _, _ => True
  | .select st k, L => ∀ s, Inv s → (k L.vars (L.view s)).AllOrNothing (L.saw st)
  | .execute st f ok err, L => ∀ s, Inv s →
      (∀ wr, f L.vars (L.view s) = .ok wr → ok.AllOrNothing ((L.saw st).wrote wr)) ∧
      (∀ e, f L.vars (L.view s) = .error e → (err e).AllOrNothing (L.saw st).ended)
  | .commit k, L => k.Returns Inv L.vars
  | .rollback k, L => k.AllOrNothing L.ended
  | .assign l k, L => k.AllOrNothing (L.assigned l)

variable {Inv} {L : Local σ κ ℓ τ}

@[simp] theorem allOrNothing_query_bind {st : τ} {g : ℓ → σ → β} {f : β → Prog σ κ ℓ τ ε α} :
    ((query st g).bind f).AllOrNothing Inv L ↔
      ∀ s, Inv s → (f (g L.vars (L.view s))).AllOrNothing Inv (L.saw st) := Iff.rfl

@[simp] theorem allOrNothing_assign_bind {l : ℓ} {f : Unit → Prog σ κ ℓ τ ε α} :
    ((Sql.assign l).bind f).AllOrNothing Inv L ↔ (f ()).AllOrNothing Inv (L.assigned l) := Iff.rfl

@[simp] theorem allOrNothing_commit_bind {f : Unit → Prog σ κ ℓ τ ε α} :
    (Sql.commit.bind f).AllOrNothing Inv L ↔ (f ()).Returns Inv L.vars := Iff.rfl

section TableDef

variable {ρ π : Type} {key : ρ → π} {T : TableDef σ κ ℓ τ key} [DecidableEq π]

@[simp] theorem returns_get_bind {l : ℓ} {k : π} {f : Option ρ → Prog σ κ ℓ τ ε α} :
    ((T.get k).bind f).Returns Inv l ↔ ∀ s, Inv s → (f (T.lookup l s k)).Returns Inv l := Iff.rfl

@[simp] theorem allOrNothing_update_bind [OfDbError ε] {k : π} {g : ρ → Option ρ}
    {hg : ∀ r r', g r = some r' → key r' = key r} {f : Unit → Prog σ κ ℓ τ ε α} :
    ((T.update k g hg).bind f).AllOrNothing Inv L ↔ ∀ s, Inv s →
      ∀ wr, T.updateWrite L.vars (L.view s) k g hg = .ok wr →
        (f ()).AllOrNothing Inv ((L.saw (T.stmt .update k)).wrote wr) :=
  forall₂_congr fun _ _ => and_iff_left fun _ _ => trivial

end TableDef

end Prog

namespace World

variable [DecidableEq ι]

/-- Every session has committed nothing and is all or nothing, or returns. -/
def AllOrNothing (Inv : σ → Prop) (w : World ι σ κ ℓ τ ε α) : Prop :=
  ∀ j, j ∉ w.history ∧ (w.sessions j).prog.AllOrNothing Inv (w.sessions j).toLocal ∨
    (w.sessions j).pending = [] ∧ (w.sessions j).prog.Returns Inv (w.sessions j).vars

variable {Inv : σ → Prop} {w w' : World ι σ κ ℓ τ ε α} {i : ι}

omit [DecidableEq ι] in
/-- A request that raises has committed nothing. -/
theorem AllOrNothing.not_mem_history {e : ε} (h : w.AllOrNothing Inv)
    (he : (w.sessions i).prog = .raise e) : i ∉ w.history := by
  rcases h i with ⟨hnot, -⟩ | ⟨-, hreturns⟩
  · exact hnot
  · rw [he] at hreturns
    exact hreturns.elim

/-- A session moves without committing. -/
theorem AllOrNothing.put {S : Session σ κ ℓ τ ε α} (h : w.AllOrNothing Inv)
    (hi : i ∉ w.history ∧ S.prog.AllOrNothing Inv S.toLocal ∨
      S.pending = [] ∧ S.prog.Returns Inv S.vars) : (w.put i S).AllOrNothing Inv := by
  intro j
  by_cases hj : j = i
  · subst hj
    simpa using hi
  · simpa [Function.update_of_ne hj] using h j

variable [Fintype ι] [DecidableEq κ]

/-- What one step preserves, while the committed data satisfies the invariant. -/
theorem AllOrNothing.step (h : w.AllOrNothing Inv) (hinv : Inv w.committed)
    (hs : w.step i = some w') : w'.AllOrNothing Inv := by
  have hi := h i
  cases move_of_step hs with
  | closeRet hp =>
    refine h.put ?_
    rw [hp] at hi
    simp only [Session.close, hp]
    exact hi.imp_right fun h => ⟨rfl, h.2⟩
  | closeRaise hp =>
    refine h.put (.inl ⟨h.not_mem_history hp, ?_⟩)
    simp only [Session.close, hp]
    trivial
  | select hp =>
    rw [hp] at hi
    refine h.put ?_
    rcases hi with ⟨hnot, hi⟩ | ⟨hpending, hi⟩
    · exact .inl ⟨hnot, hi _ hinv⟩
    · refine .inr ⟨hpending, ?_⟩
      have hview := Local.view_eq_self hpending w.committed
      show (_ : Prog σ κ ℓ τ ε α).Returns Inv _
      rw [hview]
      exact hi _ hinv
  | ok hp hf =>
    rw [hp] at hi
    rcases hi with ⟨hnot, hi⟩ | ⟨-, hi⟩
    · exact h.put (.inl ⟨hnot, (hi _ hinv).1 _ hf⟩)
    · exact hi.elim
  | error hp hf =>
    rw [hp] at hi
    rcases hi with ⟨hnot, hi⟩ | ⟨-, hi⟩
    · exact h.put (.inl ⟨hnot, (hi _ hinv).2 _ hf⟩)
    · exact hi.elim
  | commit hp =>
    rw [hp] at hi
    obtain ⟨-, hreturns⟩ := hi.resolve_right fun h => h.2.elim
    intro j
    by_cases hj : j = i
    · subst hj
      rw [publish_sessions, Function.update_self]
      exact .inr ⟨rfl, hreturns⟩
    · simpa [Function.update_of_ne hj, hj] using h j
  | rollback hp | assign hp =>
    rw [hp] at hi
    rcases hi with ⟨hnot, hi⟩ | ⟨-, hi⟩
    · exact h.put (.inl ⟨hnot, hi⟩)
    · exact hi.elim

/-- A commit stays in the history. -/
theorem mem_history_of_step (hs : w.step i = some w') {j : ι} (hj : j ∈ w.history) :
    j ∈ w'.history := by
  cases move_of_step hs with
  | commit => exact List.mem_cons_of_mem _ hj
  | closeRet | closeRaise | select | ok | error | rollback | assign => exact hj

/-- A step that commits nothing leaves the committed data. -/
theorem committed_of_not_mem_history (hs : w.step i = some w') (hi : i ∉ w'.history) :
    w'.committed = w.committed := by
  cases move_of_step hs with
  | commit => exact absurd List.mem_cons_self hi
  | closeRet | closeRaise | select | ok | error | rollback | assign => rfl

end World

namespace Reading

variable [DecidableEq ι] [Fintype ι] [DecidableEq κ] {w w' : Reading ι σ κ ℓ τ ε α} {i : ι}

/-- Who has committed once has. -/
theorem mem_history_of_exec {sched : List ι} (hexec : w.exec sched = some w')
    (hi : i ∈ w.world.history) : i ∈ w'.world.history := by
  induction sched generalizing w with
  | nil =>
    obtain rfl := Option.some.inj hexec
    exact hi
  | cons j rest ih =>
    obtain ⟨w₁, hs, hrest⟩ := Option.bind_eq_some_iff.mp hexec
    obtain ⟨world, hworld, rfl⟩ := Option.map_eq_some_iff.mp hs
    exact ih hrest (World.mem_history_of_step hworld hi)

/-- The steps of session `i` leave the committed data alone. -/
def Unchanged (i : ι) (w : Reading ι σ κ ℓ τ ε α) (j : ι) : Prop :=
  j = i → ∀ w₁, w.step j = some w₁ → w₁.world.committed = w.world.committed

/-- No step of a session that has committed nothing at the end of a run has changed the data. -/
theorem always_unchanged {sched : List ι} (hexec : w.exec sched = some w')
    (hi : i ∉ w'.world.history) : w.Always (Unchanged i) sched := by
  induction sched generalizing w with
  | nil => trivial
  | cons j rest ih =>
    obtain ⟨w₁, hs, hrest⟩ := Option.bind_eq_some_iff.mp hexec
    refine ⟨?_, fun w₂ hs₂ => ?_⟩
    · rintro rfl w₂ hs₂
      obtain rfl : w₁ = w₂ := Option.some.inj (hs.symm.trans hs₂)
      have hnot : j ∉ w₁.world.history := fun hj => hi (mem_history_of_exec hrest hj)
      obtain ⟨world, hworld, rfl⟩ := Option.map_eq_some_iff.mp hs
      exact World.committed_of_not_mem_history hworld hnot
    · obtain rfl : w₁ = w₂ := Option.some.inj (hs.symm.trans hs₂)
      exact ih hrest

end Reading

end Sql
