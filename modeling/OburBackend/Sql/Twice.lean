import OburBackend.Sql.Progress

/-!
# A request that is sent twice

A request that creates something looks first whether it is there, and creates it otherwise. Sent
twice at the same time, both may look before either commits, and then both create. If no session
commits when another has looked already (`World.CommitsBeforeLook`), the run is as good as one after
the other: the session that commits first ends as it does alone, and the other ends as it does when
it starts on what the first has left (`World.serial_of_exec`).

The two sessions are numbered by `Bool`, so that `!i` is the other one.
-/

namespace Sql

variable {σ κ ℓ τ ε α β ι : Type}

namespace Prog

/-- What a program ends with when it is run alone, and what is committed then. -/
def finish (p : Prog σ κ ℓ τ ε α) (c : Conn σ ℓ) : Except ε α × σ :=
  ((p.run c).1, (p.run c).2.committed)

/-- The program reads and writes, and does not end its transaction. A statement that fails ends the
program. -/
def Uncommitted : Prog σ κ ℓ τ ε α → Prop
  | .ret _ | .raise _ => True
  | .select _ k => ∀ l s, (k l s).Uncommitted
  | .execute _ _ ok err => ok.Uncommitted ∧ ∀ e, ∃ x, err e = .raise x
  | .commit _ | .rollback _ | .assign .. => False

/-- The program commits once at most, and only queries follow the commit. -/
def CommitsOnce : Prog σ κ ℓ τ ε α → Prop
  | .ret _ | .raise _ => True
  | .select _ k => ∀ l s, (k l s).CommitsOnce
  | .execute _ _ ok err => ok.CommitsOnce ∧ ∀ e, (err e).CommitsOnce
  | .commit k => k.ReadOnly
  | .rollback k | .assign _ k => k.CommitsOnce

/-- Run alone from here, the program sends queries only. -/
def Quiet : Prog σ κ ℓ τ ε α → Conn σ ℓ → Prop
  | .ret _, _ | .raise _, _ => True
  | .select _ k, c => (k c.vars c.working).Quiet c
  | .execute .., _ | .commit _, _ | .rollback _, _ | .assign .., _ => False

/-- Run alone on `s`, the program sends queries only, and each of them reads the same in `s'`. -/
def Agrees (l : ℓ) (s s' : σ) : Prog σ κ ℓ τ ε α → Prop
  | .ret _ | .raise _ => True
  | .select _ k => k l s' = k l s ∧ (k l s).Agrees l s s'
  | .execute .. | .commit _ | .rollback _ | .assign .. => False

/-- The same for what the program does before the statement `look`. -/
def AgreesUntil (look : τ) (l : ℓ) (s s' : σ) : Prog σ κ ℓ τ ε α → Prop
  | .ret _ | .raise _ => True
  | .select st k => st = look ∨ k l s' = k l s ∧ (k l s).AgreesUntil look l s s'
  | .execute .. | .commit _ | .rollback _ | .assign .. => False

section Rules

variable {p : Prog σ κ ℓ τ ε α} {f : α → Prog σ κ ℓ τ ε β} {c : Conn σ ℓ} {look : τ} {l : ℓ}
  {s s' : σ}

/-- Queries end no transaction. -/
theorem ReadOnly.uncommitted (hp : p.ReadOnly) : p.Uncommitted := by
  induction p with
  | ret a | raise e => trivial
  | select st k ih => exact fun l s => ih l s (hp l s)
  | execute | commit | rollback | assign => exact hp.elim

/-- Nor do they commit. -/
theorem ReadOnly.commitsOnce (hp : p.ReadOnly) : p.CommitsOnce := by
  induction p with
  | ret a | raise e => trivial
  | select st k ih => exact fun l s => ih l s (hp l s)
  | execute | commit | rollback | assign => exact hp.elim

/-- They send queries only, on any data. -/
theorem ReadOnly.quiet (hp : p.ReadOnly) : p.Quiet c := by
  induction p with
  | ret a | raise e => trivial
  | select st k ih => exact ih _ _ (hp _ _)
  | execute | commit | rollback | assign => exact hp.elim

/-- Queries leave what is committed. -/
theorem ReadOnly.finish_eq (hp : p.ReadOnly) : p.finish c = ((p.run c).1, c.committed) := by
  rw [finish, hp.run c]

/-- Two such programs one after the other are one. -/
theorem Uncommitted.bind (hp : p.Uncommitted) (hf : ∀ a, (f a).Uncommitted) :
    (p.bind f).Uncommitted := by
  induction p with
  | ret a => exact hf a
  | raise e => trivial
  | select st k ih => exact fun l s => ih l s (hp l s)
  | execute st w ok err ihok iherr =>
    refine ⟨ihok hp.1, fun e => ?_⟩
    obtain ⟨x, hx⟩ := hp.2 e
    refine ⟨x, ?_⟩
    show (err e).bind f = _
    rw [hx, raise_bind]
  | commit | rollback | assign => exact hp.elim

/-- The commit may come in the second one. -/
theorem Uncommitted.commitsOnce_bind (hp : p.Uncommitted) (hf : ∀ a, (f a).CommitsOnce) :
    (p.bind f).CommitsOnce := by
  induction p with
  | ret a => exact hf a
  | raise e => trivial
  | select st k ih => exact fun l s => ih l s (hp l s)
  | execute st w ok err ihok iherr =>
    refine ⟨ihok hp.1, fun e => ?_⟩
    obtain ⟨x, hx⟩ := hp.2 e
    show ((err e).bind f).CommitsOnce
    rw [hx]
    trivial
  | commit | rollback | assign => exact hp.elim

/-- A transaction that holds the first lock may go on to write. -/
theorem Uncommitted.locksFirst_bind {key : κ} (hp : p.Uncommitted)
    (hf : ∀ a, (f a).LocksFirst key true) : (p.bind f).LocksFirst key true := by
  induction p with
  | ret a => exact hf a
  | raise e => trivial
  | select st k ih => exact fun l s => ih l s (hp l s)
  | execute st w ok err ihok iherr =>
    refine ⟨.inl rfl, ihok hp.1, fun e => ?_⟩
    obtain ⟨x, hx⟩ := hp.2 e
    show ((err e).bind f).LocksFirst key false
    rw [hx]
    trivial
  | commit | rollback | assign => exact hp.elim

/-- What is committed stays as it is, and so do the session variables. -/
theorem Uncommitted.run (hp : p.Uncommitted) :
    (p.run c).2.committed = c.committed ∧ (p.run c).2.vars = c.vars := by
  induction p generalizing c with
  | ret a | raise e => exact ⟨rfl, rfl⟩
  | select st k ih => exact ih _ _ (hp _ _)
  | execute st w ok err ihok iherr =>
    simp only [Prog.run]
    cases w c.vars c.working with
    | ok wr => exact ihok hp.1
    | error e =>
      obtain ⟨x, hx⟩ := hp.2 e
      simp only [hx]
      exact ⟨rfl, rfl⟩
  | commit | rollback | assign => exact hp.elim

/-- Queries read the same on both data, so they end in the same way. -/
theorem Agrees.run (hp : p.Agrees l s s') :
    p.run (Conn.start l s') = ((p.run (Conn.start l s)).1, Conn.start l s') ∧
      p.run (Conn.start l s) = ((p.run (Conn.start l s)).1, Conn.start l s) ∧
      p.Quiet (Conn.start l s') := by
  induction p with
  | ret a | raise e => exact ⟨rfl, rfl, trivial⟩
  | select st k ih =>
    obtain ⟨heq, hp⟩ := hp
    obtain ⟨h', h, hquiet⟩ := ih _ _ hp
    refine ⟨?_, h, ?_⟩
    · show (k l s').run (Conn.start l s') = _
      rw [heq]
      exact h'
    · show (k l s').Quiet (Conn.start l s')
      rw [heq]
      exact hquiet
  | execute | commit | rollback | assign => exact hp.elim

/-- Both programs read the same on the two data. -/
theorem Agrees.bind (hp : p.Agrees l s s') (hf : ∀ a, (f a).Agrees l s s') :
    (p.bind f).Agrees l s s' := by
  induction p with
  | ret a => exact hf a
  | raise e => trivial
  | select st k ih =>
    obtain ⟨heq, hp⟩ := hp
    refine ⟨?_, ih _ _ hp⟩
    show (k l s').bind f = (k l s).bind f
    rw [heq]
  | execute | commit | rollback | assign => exact hp.elim

/-- The statement that looks may come in the second one. -/
theorem Agrees.until_bind (hp : p.Agrees l s s') (hf : ∀ a, (f a).AgreesUntil look l s s') :
    (p.bind f).AgreesUntil look l s s' := by
  induction p with
  | ret a => exact hf a
  | raise e => trivial
  | select st k ih =>
    obtain ⟨heq, hp⟩ := hp
    refine .inr ⟨?_, ih _ _ hp⟩
    show (k l s').bind f = (k l s).bind f
    rw [heq]
  | execute | commit | rollback | assign => exact hp.elim

/-- Only queries are sent before the result is there. -/
theorem Quiet.bind {a : α} (hp : p.Quiet c) (ha : (p.run c).1 = .ok a) (hf : (f a).Quiet c) :
    (p.bind f).Quiet c := by
  induction p with
  | ret b =>
    cases ha
    exact hf
  | raise e => trivial
  | select st k ih => exact ih _ _ hp ha
  | execute | commit | rollback | assign => exact hp.elim

end Rules

section Statements

variable {ρ π : Type} {key : ρ → π} {T : TableDef σ κ ℓ τ key} [DecidableEq π] [OfDbError ε]

/-- An insert commits nothing. -/
theorem uncommitted_insert (r : ρ) : (T.insert r : Prog σ κ ℓ τ ε Unit).Uncommitted :=
  ⟨trivial, fun _ => ⟨_, rfl⟩⟩

/-- Nor does a deletion. -/
theorem uncommitted_delete (k : π) : (T.delete k : Prog σ κ ℓ τ ε Unit).Uncommitted :=
  ⟨trivial, fun _ => ⟨_, rfl⟩⟩

/-- Nor does a deletion past the policies. -/
theorem uncommitted_definerDelete (st : τ) (q : σ → ρ → Bool) :
    (T.definerDelete st q : Prog σ κ ℓ τ ε Unit).Uncommitted :=
  ⟨trivial, fun _ => ⟨_, rfl⟩⟩

end Statements

end Prog

namespace Session

/-- Nothing is left of the session but queries, which end in `r` when they read `s`. -/
structure Answers (S : Session σ κ ℓ τ ε α) (s : σ) (r : Except ε α) : Prop where
  pending : S.pending = []
  quiet : S.prog.Quiet ⟨S.vars, s, s⟩
  result : (S.prog.run ⟨S.vars, s, s⟩).1 = r

/-- The session has not looked yet. What it has read reads the same in `s'`, and from there it only
answers. -/
structure Unlooked (S : Session σ κ ℓ τ ε α) (look : τ) (l : ℓ) (s s' : σ) (r : Except ε α) :
    Prop where
  vars : S.vars = l
  agrees : S.prog.AgreesUntil look l s s'
  answers : S.Answers s' r

/-- Nobody has committed. The session is on the way to `ending`, what it ends with alone, and if it
has not looked, then also to `r`, what it ends with on `s'`. -/
structure Heads (S : Session σ κ ℓ τ ε α) (look : τ) (l : ℓ) (s s' : σ)
    (ending : Except ε α × σ) (r : Except ε α) : Prop where
  finish : S.prog.finish ⟨S.vars, s, S.view s⟩ = ending
  once : S.prog.CommitsOnce
  looked : look ∈ S.log ∨ S.Unlooked look l s s' r

/-- A session that is about to write, or to end its transaction, has looked. -/
theorem Heads.mem_log {S : Session σ κ ℓ τ ε α} {look : τ} {l : ℓ} {s s' : σ}
    {ending : Except ε α × σ} {r : Except ε α} (h : S.Heads look l s s' ending r)
    (hnot : ¬ S.prog.AgreesUntil look l s s') : look ∈ S.log :=
  h.looked.resolve_right fun hun => hnot hun.agrees

end Session

namespace World

section Answered

variable [DecidableEq ι] [Fintype ι] [DecidableEq κ] {w w' : World ι σ κ ℓ τ ε α} {i : ι}
  {s : σ} {r : ι → Except ε α}

/-- Every session has nothing left but to answer. -/
structure Answered (w : World ι σ κ ℓ τ ε α) (s : σ) (r : ι → Except ε α) : Prop where
  committed : w.committed = s
  answers : ∀ j, (w.sessions j).Answers s (r j)

omit [Fintype ι] [DecidableEq κ] in
/-- A session that answers in its turn leaves the world answered. -/
theorem Answered.put {S : Session σ κ ℓ τ ε α} (h : w.Answered s r) (hS : S.Answers s (r i)) :
    (w.put i S).Answered s r := by
  refine ⟨h.committed, fun j => ?_⟩
  by_cases hj : j = i
  · subst hj
    simpa using hS
  · simpa [Function.update_of_ne hj] using h.answers j

/-- Queries leave the data alone, so the answers stay the same. -/
theorem Answered.step (h : w.Answered s r) (hs : w.step i = some w') : w'.Answered s r := by
  obtain ⟨hpending, hquiet, hresult⟩ := h.answers i
  cases move_of_step hs with
  | closeRet hp | closeRaise hp =>
    rw [hp] at hquiet hresult
    exact h.put ⟨rfl, by rw [Session.close, hp]; trivial, by rw [Session.close, hp]; exact hresult⟩
  | select hp =>
    rw [hp] at hquiet hresult
    have hview : (w.sessions i).view w.committed = s := by
      rw [Local.view_eq_self hpending, h.committed]
    rw [hview]
    exact h.put ⟨hpending, hquiet, hresult⟩
  | ok hp | error hp | commit hp | rollback hp | assign hp =>
    rw [hp] at hquiet
    exact hquiet.elim

omit [DecidableEq ι] [Fintype ι] [DecidableEq κ] in
/-- What a session has ended with. -/
theorem Answered.result_eq {res : Except ε α} (h : w.Answered s r)
    (hres : (w.sessions i).prog.result = some res) : res = r i := by
  have hresult := (h.answers i).result
  cases hp : (w.sessions i).prog with
  | ret a | raise e =>
    rw [hp] at hres hresult
    cases hres
    exact hresult
  | select | execute | commit | rollback | assign =>
    rw [hp] at hres
    cases hres

end Answered

/-- A session commits only when no other session has looked. -/
def CommitsBeforeLook (look : τ) (w : World ι σ κ ℓ τ ε α) (i : ι) : Prop :=
  (w.sessions i).prog.isCommit = true → ∀ j, j ≠ i → look ∉ (w.sessions j).log

instance [Fintype ι] [DecidableEq ι] [DecidableEq τ] (look : τ) (w : World ι σ κ ℓ τ ε α) (i : ι) :
    Decidable (CommitsBeforeLook look w i) :=
  inferInstanceAs (Decidable (_ → _))

section Twice

variable [DecidableEq κ] {p : Bool → Prog σ κ ℓ τ ε α} {l : ℓ} {s : σ} {look : τ}
  {w w' : World Bool σ κ ℓ τ ε α} {i : Bool}

variable (p l s look) in
/-- Nobody has committed. -/
structure Untouched (w : World Bool σ κ ℓ τ ε α) : Prop where
  committed : w.committed = s
  heads : ∀ j, (w.sessions j).Heads look l s ((p !j).after l s) ((p j).finish (Conn.start l s))
    ((p j).outcome l ((p !j).after l s))

variable (p l s) in
/-- What the sessions end with when `i` is the one that commits. -/
def serialResult (i j : Bool) : Except ε α :=
  if j = i then (p i).outcome l s else (p j).outcome l ((p i).after l s)

omit [DecidableEq κ] in
/-- A session on its way leaves the world as nobody has committed to it. -/
theorem Untouched.put {S : Session σ κ ℓ τ ε α} (h : w.Untouched p l s look)
    (hS : S.Heads look l s ((p !i).after l s) ((p i).finish (Conn.start l s))
      ((p i).outcome l ((p !i).after l s))) : (w.put i S).Untouched p l s look := by
  refine ⟨h.committed, fun j => ?_⟩
  by_cases hj : j = i
  · subst hj
    simpa using hS
  · simpa [Function.update_of_ne hj] using h.heads j

omit [DecidableEq κ] in
/-- A commit before the other session has looked: from there on both only answer. -/
theorem Untouched.step_commit {k : Prog σ κ ℓ τ ε α} (h : w.Untouched p l s look)
    (hC : CommitsBeforeLook look w i) (hp : (w.sessions i).prog = .commit k) :
    (w.publish i ((w.sessions i).view w.committed)
      ((w.sessions i).goto (w.sessions i).ended k)).Answered ((p i).after l s)
        (serialResult p l s i) := by
  obtain ⟨hfinish, honce, -⟩ := h.heads i
  rw [hp] at hfinish honce
  have hk : k.ReadOnly := honce
  have hfinish : k.finish ⟨(w.sessions i).vars, (w.sessions i).view s, (w.sessions i).view s⟩ =
      (p i).finish (Conn.start l s) := hfinish
  rw [hk.finish_eq] at hfinish
  obtain ⟨hresult, hafter⟩ := Prod.mk.inj hfinish
  have hafter : (w.sessions i).view s = (p i).after l s := hafter
  rw [hafter] at hresult
  refine ⟨?_, fun j => ?_⟩
  · rw [publish_committed, h.committed, hafter]
  · by_cases hj : j = i
    · subst hj
      rw [publish_sessions, Function.update_self, serialResult, if_pos rfl]
      exact ⟨rfl, hk.quiet, hresult⟩
    · rw [publish_sessions, Function.update_of_ne hj, serialResult, if_neg hj]
      have hnot : look ∉ (w.sessions j).log := hC (by rw [hp]; rfl) j hj
      have hother : (!j) = i := by
        cases i <;> cases j <;> simp_all
      have hun := ((h.heads j).looked.resolve_left hnot).answers
      rwa [hother] at hun

/-- A step of a session while nobody has committed. -/
theorem Untouched.step (h : w.Untouched p l s look) (hC : CommitsBeforeLook look w i)
    (hs : w.step i = some w') :
    w'.Untouched p l s look ∨ ∃ j, w'.Answered ((p j).after l s) (serialResult p l s j) := by
  have hhead := h.heads i
  obtain ⟨hfinish, honce, hlooked⟩ := hhead
  have hview : (w.sessions i).view w.committed = (w.sessions i).view s := by rw [h.committed]
  cases move_of_step hs with
  | closeRet hp | closeRaise hp =>
    refine .inl (h.put ⟨?_, honce, ?_⟩)
    · rw [hp] at hfinish
      simp only [Session.close, hp]
      exact hfinish
    · exact hlooked.imp_right fun hun => ⟨hun.vars, hun.agrees, rfl, hun.answers.quiet,
        hun.answers.result⟩
  | @select st k hp =>
    rw [hp] at hfinish honce
    refine .inl (h.put ⟨hview ▸ hfinish, honce _ _, ?_⟩)
    rcases hlooked with hlook | ⟨hvars, hagrees, hpending, hquiet, hresult⟩
    · exact .inl (List.mem_append_left _ hlook)
    · rw [hp] at hagrees hquiet hresult
      rcases hagrees with rfl | ⟨hsame, hagrees⟩
      · exact .inl (List.mem_append_right _ (List.mem_singleton.mpr rfl))
      · have hs' : (w.sessions i).view w.committed = s := by
          rw [Local.view_eq_self hpending, h.committed]
        rw [hvars] at hquiet hresult
        refine .inr ⟨hvars, ?_, hpending, ?_, ?_⟩
        · simpa [Session.next, hvars, hs'] using hagrees
        · simp only [Session.next, Local.saw_vars, hvars, hs', ← hsame]
          exact hquiet
        · simp only [Session.next, Local.saw_vars, hvars, hs', ← hsame]
          exact hresult
  | @ok st f ok err wr hp hf =>
    have hlook := (h.heads i).mem_log (by rw [hp]; exact id)
    rw [hp] at hfinish honce
    rw [hview] at hf
    refine .inl (h.put ⟨?_, honce.1, .inl (List.mem_append_left _ hlook)⟩)
    simp only [Prog.finish, Prog.run, hf] at hfinish
    simpa [Session.next, Prog.finish] using hfinish
  | @error st f ok err e hp hf =>
    have hlook := (h.heads i).mem_log (by rw [hp]; exact id)
    rw [hp] at hfinish honce
    rw [hview] at hf
    refine .inl (h.put ⟨?_, honce.2 e, .inl (List.mem_append_left _ hlook)⟩)
    simp only [Prog.finish, Prog.run, hf] at hfinish
    simpa [Session.next, Prog.finish, Conn.discard] using hfinish
  | commit hp => exact .inr ⟨i, h.step_commit hC hp⟩
  | rollback hp =>
    have hlook := (h.heads i).mem_log (by rw [hp]; exact id)
    rw [hp] at hfinish honce
    exact .inl (h.put ⟨hfinish, honce, .inl hlook⟩)
  | assign hp =>
    have hlook := (h.heads i).mem_log (by rw [hp]; exact id)
    rw [hp] at hfinish honce
    exact .inl (h.put ⟨hfinish, honce, .inl hlook⟩)

omit [DecidableEq κ] in
/-- Before the first step. -/
theorem untouched_start (hend : ∀ j, (p j).CommitsOnce)
    (hagrees : ∀ j, (p j).AgreesUntil look l s ((p !j).after l s))
    (hquiet : ∀ j, (p j).Quiet (Conn.start l ((p !j).after l s))) :
    (World.start s fun j => Session.start l (p j) : World Bool σ κ ℓ τ ε α).Untouched p l s look :=
  ⟨rfl, fun j => ⟨rfl, hend j, .inr ⟨rfl, hagrees j, rfl, hquiet j, rfl⟩⟩⟩

/-- Two requests that each find what the other has created, when they look after the other has
committed. In a run in which nobody commits when the other has looked already, nobody commits, and
both are on the way to what they end with alone, or one commits, and the run is as good as this one
and then the other. -/
theorem serial_of_exec (hend : ∀ j, (p j).CommitsOnce)
    (hagrees : ∀ j, (p j).AgreesUntil look l s ((p !j).after l s))
    (hquiet : ∀ j, (p j).Quiet (Conn.start l ((p !j).after l s))) {sched : List Bool}
    (hexec : (World.start s fun j => Session.start l (p j)).exec sched = some w)
    (hC : (World.start s fun j => Session.start l (p j)).Always (CommitsBeforeLook look) sched) :
    w.Untouched p l s look ∨ ∃ i, w.Answered ((p i).after l s) (serialResult p l s i) := by
  refine exec_induction (I := fun w => w.Untouched p l s look ∨
    ∃ i, w.Answered ((p i).after l s) (serialResult p l s i)) ?_
    (.inl (untouched_start hend hagrees hquiet)) hC hexec
  rintro w i w' (h | ⟨j, h⟩) hC hs
  · exact h.step hC hs
  · exact .inr ⟨j, h.step hs⟩

omit [DecidableEq κ] in
/-- What a session has ended with while nobody has committed: alone it ends with the same, and
commits nothing. -/
theorem Untouched.result_eq {res : Except ε α} (h : w.Untouched p l s look)
    (hres : (w.sessions i).prog.result = some res) :
    res = (p i).outcome l s ∧ (p i).after l s = s := by
  have hfinish := (h.heads i).finish
  cases hp : (w.sessions i).prog with
  | ret a | raise e =>
    rw [hp] at hres hfinish
    cases hres
    exact ⟨congrArg Prod.fst hfinish, (congrArg Prod.snd hfinish).symm⟩
  | select | execute | commit | rollback | assign =>
    rw [hp] at hres
    cases hres

end Twice

end World

end Sql
