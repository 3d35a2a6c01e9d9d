import OburBackend.Sql.RelyGuarantee

/-!
# Requests that act on what they have read

A request often branches on rows it has read and commits much later, when others may have changed
them. `ReadWp` is the condition for a program that relies on nobody: what it remembers is the
committed data `r` at its last `SELECT`, and each of its commits owes a promise `guar r L s s'` that
relates the data it leads from and to with the data that was read.

`World.Tracked` is the invariant of the runs of such programs. For each session, the data it has
read last leads to the data that is committed now through the commits that came since
(`World.since`), each of them as its session promised (`CommitChain`). What a stale read can do
wrong is then a matter of the commits in this list.
-/

namespace Sql

variable {σ κ ℓ τ ε α β ι : Type} (isRead : τ → Bool)

section ReadWp

variable (guar : σ → Local σ κ ℓ τ → σ → σ → Prop)

/-- What has to hold of the session `L`, whose last `SELECT` saw the committed data `r`, for the
program to promise `guar` at each commit and to end with `K`, whatever the others commit. -/
def ReadWp (K : Except ε α → Local σ κ ℓ τ → σ → Prop) :
    Prog σ κ ℓ τ ε α → Local σ κ ℓ τ → σ → Prop
  | .ret a, L, r => K (.ok a) L r
  | .raise e, L, r => K (.error e) L r
  | .select st k, L, _ =>
    isRead st = true ∧ ∀ s, ReadWp K (k L.vars (L.view s)) (L.saw st) s
  | .execute st f ok err, L, r => isRead st = false ∧ ∀ s,
      (∀ wr, f L.vars (L.view s) = .ok wr → ReadWp K ok ((L.saw st).wrote wr) r) ∧
      (∀ e, f L.vars (L.view s) = .error e → ReadWp K (err e) (L.saw st).ended r)
  | .commit k, L, r => (∀ s, guar r L s (L.view s)) ∧ ReadWp K k L.ended r
  | .rollback k, L, r => ReadWp K k L.ended r
  | .assign l k, L, r => ReadWp K k (L.assigned l) r

variable {isRead guar}

/-- Weaken what holds at the end. -/
theorem ReadWp.mono {K K' : Except ε α → Local σ κ ℓ τ → σ → Prop}
    (hK : ∀ res L r, K res L r → K' res L r) :
    ∀ {p : Prog σ κ ℓ τ ε α} {L : Local σ κ ℓ τ} {r : σ},
      ReadWp isRead guar K p L r → ReadWp isRead guar K' p L r := by
  intro p
  induction p with
  | ret a | raise e => intro L r h; exact hK _ _ _ h
  | select st k ih => intro L r h; exact ⟨h.1, fun s => ih _ _ (h.2 s)⟩
  | execute st f ok err ihok iherr =>
    intro L r h
    exact ⟨h.1, fun s =>
      ⟨fun wr hw => ihok ((h.2 s).1 wr hw), fun e he => iherr e ((h.2 s).2 e he)⟩⟩
  | commit k ih => intro L r h; exact ⟨h.1, ih h.2⟩
  | rollback k ih | assign l k ih => intro L r h; exact ih h

/-- The rule of sequential composition. -/
theorem readWp_bind {K : Except ε β → Local σ κ ℓ τ → σ → Prop} {f : α → Prog σ κ ℓ τ ε β} :
    ∀ {p : Prog σ κ ℓ τ ε α} {L : Local σ κ ℓ τ} {r : σ},
      ReadWp isRead guar K (p.bind f) L r ↔
        ReadWp isRead guar (fun res L r => match res with
          | .ok a => ReadWp isRead guar K (f a) L r
          | .error e => K (.error e) L r) p L r := by
  intro p
  induction p with
  | ret a | raise e => intro L r; exact Iff.rfl
  | select st k ih => intro L r; simp only [Prog.bind, ReadWp, ih]
  | execute st g ok err ihok iherr => intro L r; simp only [Prog.bind, ReadWp, ihok, iherr]
  | commit k ih | rollback k ih | assign l k ih => intro L r; simp only [Prog.bind, ReadWp, ih]

/-- The rule of handlers. -/
theorem readWp_recover {K : Except ε α → Local σ κ ℓ τ → σ → Prop} {h : ε → Prog σ κ ℓ τ ε α} :
    ∀ {p : Prog σ κ ℓ τ ε α} {L : Local σ κ ℓ τ} {r : σ},
      ReadWp isRead guar K (p.recover h) L r ↔
        ReadWp isRead guar (fun res L r => match res with
          | .ok a => K (.ok a) L r
          | .error e => ReadWp isRead guar K (h e) L r) p L r := by
  intro p
  induction p with
  | ret a | raise e => intro L r; exact Iff.rfl
  | select st k ih => intro L r; simp only [Prog.recover, ReadWp, ih]
  | execute st g ok err ihok iherr => intro L r; simp only [Prog.recover, ReadWp, ihok, iherr]
  | commit k ih | rollback k ih | assign l k ih => intro L r; simp only [Prog.recover, ReadWp, ih]

end ReadWp

/-! ## The commits since the last read -/

/-- The number of commits that the last `SELECT` of the session saw. -/
def Session.lastRead (S : Session σ κ ℓ τ ε α) : ℕ :=
  (((S.log.zip S.snapshots).filter fun x => isRead x.1).getLast?.map Prod.snd).getD 0

/-- The sessions that have committed since the last `SELECT` of session `i`, the latest first. -/
def World.since (w : World ι σ κ ℓ τ ε α) (i : ι) : List ι :=
  w.history.take (w.history.length - (w.sessions i).lastRead isRead)

/-- The commits of `js` lead from `r` to `s`, each as its session has promised. -/
inductive CommitChain (guar : ι → σ → Local σ κ ℓ τ → σ → σ → Prop) : σ → List ι → σ → Prop where
  | nil (r : σ) : CommitChain guar r [] r
  | cons {r r' s s' : σ} {js : List ι} {j : ι} {L : Local σ κ ℓ τ} (h : CommitChain guar r js s)
      (hj : guar j r' L s s') : CommitChain guar r (j :: js) s'

variable {isRead}

/-- A session that reads now has read everything that is committed. -/
theorem Session.lastRead_next_read {S : Session σ κ ℓ τ ε α} {L : Local σ κ ℓ τ} {n : ℕ}
    {p : Prog σ κ ℓ τ ε α} {st : τ} (hlength : S.log.length = S.snapshots.length)
    (hlog : L.log = S.log ++ [st]) (hst : isRead st = true) :
    (S.next L n p).lastRead isRead = n := by
  simp [Session.lastRead, Session.next, hlog, List.zip_append hlength, hst]

/-- A statement that does not read leaves the last read as it was. -/
theorem Session.lastRead_next_write {S : Session σ κ ℓ τ ε α} {L : Local σ κ ℓ τ} {n : ℕ}
    {p : Prog σ κ ℓ τ ε α} {st : τ} (hlength : S.log.length = S.snapshots.length)
    (hlog : L.log = S.log ++ [st]) (hst : isRead st = false) :
    (S.next L n p).lastRead isRead = S.lastRead isRead := by
  simp [Session.lastRead, Session.next, hlog, List.zip_append hlength, hst]

variable (isRead)

/-- The session `S` of `i` keeps its promises, and what it has read last leads to the committed data
`s` by the commits since. -/
structure Tracked (guar : ι → σ → Local σ κ ℓ τ → σ → σ → Prop) (i : ι) (history : List ι) (s : σ)
    (S : Session σ κ ℓ τ ε α) : Prop where
  aligned : S.log.length = S.snapshots.length
  lastRead_le : S.lastRead isRead ≤ history.length
  promised : ∃ r, ReadWp isRead (guar i) (fun _ _ _ => True) S.prog S.toLocal r ∧
    CommitChain guar r (history.take (history.length - S.lastRead isRead)) s

variable {isRead} {guar : ι → σ → Local σ κ ℓ τ → σ → σ → Prop} {i : ι} {history : List ι}
  {s s' : σ} {S : Session σ κ ℓ τ ε α}

/-- A session before its first statement. -/
theorem tracked_start {l : ℓ} {p : Prog σ κ ℓ τ ε α}
    (h : ReadWp isRead (guar i) (fun _ _ _ => True) p (Local.start l) s) :
    Tracked isRead guar i [] s (Session.start l p) where
  aligned := rfl
  lastRead_le := Nat.le_refl 0
  promised := ⟨s, h, .nil s⟩

/-- Another commit is one more since the last read. -/
theorem Tracked.published {j : ι} {r : σ} {L : Local σ κ ℓ τ}
    (h : Tracked isRead guar i history s S) (hj : guar j r L s s') :
    Tracked isRead guar i (j :: history) s' S where
  aligned := h.aligned
  lastRead_le := Nat.le_succ_of_le h.lastRead_le
  promised := by
    obtain ⟨r', hwp, hchain⟩ := h.promised
    refine ⟨r', hwp, ?_⟩
    rw [List.length_cons, Nat.succ_sub h.lastRead_le, List.take_succ_cons]
    exact hchain.cons hj

/-- The session after a move that sends no statement. -/
theorem Tracked.moved {S' : Session σ κ ℓ τ ε α} (h : Tracked isRead guar i history s S)
    (hlog : S'.log = S.log) (hsnapshots : S'.snapshots = S.snapshots)
    (hp : ∀ r, ReadWp isRead (guar i) (fun _ _ _ => True) S.prog S.toLocal r →
      ReadWp isRead (guar i) (fun _ _ _ => True) S'.prog S'.toLocal r) :
    Tracked isRead guar i history s S' := by
  have hread : S'.lastRead isRead = S.lastRead isRead := by
    rw [Session.lastRead, hlog, hsnapshots]
    rfl
  obtain ⟨r, hwp, hchain⟩ := h.promised
  refine ⟨?_, ?_, r, hp r hwp, ?_⟩
  · rw [hlog, hsnapshots]
    exact h.aligned
  · rw [hread]
    exact h.lastRead_le
  · rw [hread]
    exact hchain

/-- The session after a statement that reads. -/
theorem Tracked.read {st : τ} {p : Prog σ κ ℓ τ ε α} (h : Tracked isRead guar i history s S)
    (hst : isRead st = true)
    (hp : ReadWp isRead (guar i) (fun _ _ _ => True) p (S.toLocal.saw st) s) :
    Tracked isRead guar i history s (S.next (S.toLocal.saw st) history.length p) where
  aligned := by simp [Session.next, h.aligned]
  lastRead_le := (Session.lastRead_next_read h.aligned rfl hst).le
  promised := by
    refine ⟨s, hp, ?_⟩
    rw [Session.lastRead_next_read h.aligned rfl hst, Nat.sub_self, List.take_zero]
    exact .nil s

/-- The session after a statement that writes. -/
theorem Tracked.write {st : τ} {L : Local σ κ ℓ τ} {p : Prog σ κ ℓ τ ε α}
    (h : Tracked isRead guar i history s S) (hlog : L.log = S.log ++ [st]) (hst : isRead st = false)
    (hp : ∀ r, ReadWp isRead (guar i) (fun _ _ _ => True) S.prog S.toLocal r →
      ReadWp isRead (guar i) (fun _ _ _ => True) p L r) :
    Tracked isRead guar i history s (S.next L history.length p) where
  aligned := by simp [Session.next, hlog, h.aligned]
  lastRead_le := by
    rw [Session.lastRead_next_write h.aligned hlog hst]
    exact h.lastRead_le
  promised := by
    obtain ⟨r, hwp, hchain⟩ := h.promised
    refine ⟨r, hp r hwp, ?_⟩
    rw [Session.lastRead_next_write h.aligned hlog hst]
    exact hchain

namespace World

variable [DecidableEq ι] {w w' : World ι σ κ ℓ τ ε α}

/-- Every session is tracked. -/
def Tracked (isRead : τ → Bool) (guar : ι → σ → Local σ κ ℓ τ → σ → σ → Prop)
    (w : World ι σ κ ℓ τ ε α) : Prop :=
  ∀ j, Sql.Tracked isRead guar j w.history w.committed (w.sessions j)

/-- A session moves without committing. -/
theorem Tracked.put {S : Session σ κ ℓ τ ε α} (h : w.Tracked isRead guar)
    (hi : Sql.Tracked isRead guar i w.history w.committed S) :
    (w.put i S).Tracked isRead guar := by
  intro j
  by_cases hj : j = i
  · subst hj
    simpa using hi
  · simpa [Function.update_of_ne hj] using h j

variable [Fintype ι] [DecidableEq κ]

/-- What one step preserves. -/
theorem Tracked.step (h : w.Tracked isRead guar) (hs : w.step i = some w') :
    w'.Tracked isRead guar := by
  have hi := h i
  obtain ⟨r, hwp, -⟩ := hi.promised
  cases move_of_step hs with
  | closeRet hp | closeRaise hp =>
    refine h.put (hi.moved rfl rfl fun r _ => ?_)
    simp only [Session.close, hp, ReadWp]
  | select hp =>
    rw [hp] at hwp
    exact h.put (hi.read hwp.1 (hwp.2 _))
  | ok hp hf =>
    rw [hp] at hwp
    refine h.put (hi.write rfl hwp.1 fun r hwp => ?_)
    rw [hp] at hwp
    exact (hwp.2 _).1 _ hf
  | error hp hf =>
    rw [hp] at hwp
    refine h.put (hi.write rfl hwp.1 fun r hwp => ?_)
    rw [hp] at hwp
    exact (hwp.2 _).2 _ hf
  | commit hp =>
    rw [hp] at hwp
    have hguar := hwp.1 w.committed
    intro j
    by_cases hj : j = i
    · subst hj
      rw [publish_sessions, Function.update_self]
      refine (hi.published hguar).moved rfl rfl fun r hwp => ?_
      rw [hp] at hwp
      exact hwp.2
    · simpa [Function.update_of_ne hj] using (h j).published hguar
  | rollback hp | assign hp =>
    refine h.put (hi.moved rfl rfl fun r hwp => ?_)
    rw [hp] at hwp
    exact hwp

/-- A step commits nothing, or what its session has promised of the data it has read last and that
has come to be what it is by the commits since. -/
theorem Tracked.commit_of_step (h : w.Tracked isRead guar) (hs : w.step i = some w') :
    w'.committed = w.committed ∨ ∃ k r, (w.sessions i).prog = .commit k ∧
      guar i r (w.sessions i).toLocal w.committed w'.committed ∧
      CommitChain guar r (w.since isRead i) w.committed := by
  obtain ⟨-, -, -, -, hcommit⟩ := step_spec hs
  rcases hcommit with hsame | ⟨k, hk, hview⟩
  · exact .inl hsame
  · obtain ⟨r, hwp, hchain⟩ := (h i).promised
    rw [hk] at hwp
    refine .inr ⟨k, r, hk, ?_, hchain⟩
    rw [hview]
    exact hwp.1 w.committed

end World

end Sql
