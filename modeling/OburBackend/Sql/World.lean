import Mathlib.Data.Fintype.Basic
import OburBackend.Sql.Program

/-!
# Requests interleaved under READ COMMITTED

A `World` is the committed data and, for each session, the rest of its program and what its open
transaction has written. `World.step i` runs the next statement of session `i`: a statement sees
the data committed before it and the writes of its own transaction (`Local.view`), a write waits
while another open transaction holds one of its row locks, a failed statement aborts its
transaction, and a finished session is closed, which rolls back what it has not committed. The
scheduler alone is nondeterministic: a schedule lists the sessions in the order they move, and
`World.exec` runs it.

`World.exec_alone` ties this to `Prog.run`: when nobody else holds an open transaction, scheduling
one session until it is closed commits what the program commits when it is run alone. What a session
has not committed when its program returns is lost (`World.exec_rolledBack`).
-/

namespace Sql

variable {σ κ ℓ τ ε α ι : Type}

/-- What a session has done so far: its variables, the labels of its statements in order, and the
writes of its open transaction. -/
structure Local (σ κ ℓ τ : Type) where
  vars : ℓ
  log : List τ
  pending : List (Write σ κ)

namespace Local

/-- The data a session sees when `s` is committed: `s` under its own uncommitted writes. -/
def view (L : Local σ κ ℓ τ) (s : σ) : σ := L.pending.foldl (fun s w => w.effect s) s

/-- The locks that the open transaction holds. -/
def locks (L : Local σ κ ℓ τ) : List κ := L.pending.flatMap Write.locks

/-- The session after a statement. -/
def saw (L : Local σ κ ℓ τ) (st : τ) : Local σ κ ℓ τ := { L with log := L.log ++ [st] }

/-- The session after a statement that writes. -/
def wrote (L : Local σ κ ℓ τ) (w : Write σ κ) : Local σ κ ℓ τ :=
  { L with pending := L.pending ++ [w] }

/-- The session after the end of its transaction. -/
def ended (L : Local σ κ ℓ τ) : Local σ κ ℓ τ := { L with pending := [] }

/-- The session with its variables set. -/
def assigned (L : Local σ κ ℓ τ) (l : ℓ) : Local σ κ ℓ τ := { L with vars := l }

@[simp] theorem saw_vars (L : Local σ κ ℓ τ) (st : τ) : (L.saw st).vars = L.vars := rfl
@[simp] theorem saw_log (L : Local σ κ ℓ τ) (st : τ) : (L.saw st).log = L.log ++ [st] := rfl
@[simp] theorem saw_pending (L : Local σ κ ℓ τ) (st : τ) : (L.saw st).pending = L.pending := rfl
@[simp] theorem wrote_vars (L : Local σ κ ℓ τ) (w : Write σ κ) : (L.wrote w).vars = L.vars := rfl
@[simp] theorem wrote_log (L : Local σ κ ℓ τ) (w : Write σ κ) : (L.wrote w).log = L.log := rfl
@[simp] theorem wrote_pending (L : Local σ κ ℓ τ) (w : Write σ κ) :
    (L.wrote w).pending = L.pending ++ [w] := rfl
@[simp] theorem ended_vars (L : Local σ κ ℓ τ) : L.ended.vars = L.vars := rfl
@[simp] theorem ended_log (L : Local σ κ ℓ τ) : L.ended.log = L.log := rfl
@[simp] theorem ended_pending (L : Local σ κ ℓ τ) : L.ended.pending = [] := rfl
@[simp] theorem assigned_vars (L : Local σ κ ℓ τ) (l : ℓ) : (L.assigned l).vars = l := rfl
@[simp] theorem assigned_log (L : Local σ κ ℓ τ) (l : ℓ) : (L.assigned l).log = L.log := rfl
@[simp] theorem assigned_pending (L : Local σ κ ℓ τ) (l : ℓ) :
    (L.assigned l).pending = L.pending := rfl

@[simp] theorem view_saw (L : Local σ κ ℓ τ) (st : τ) (s : σ) : (L.saw st).view s = L.view s := rfl

@[simp] theorem view_wrote (L : Local σ κ ℓ τ) (w : Write σ κ) (s : σ) :
    (L.wrote w).view s = w.effect (L.view s) := by
  simp [view, List.foldl_append]

/-- A session that has written nothing sees the committed data. -/
theorem view_eq_self {L : Local σ κ ℓ τ} (h : L.pending = []) (s : σ) : L.view s = s := by
  rw [view, h, List.foldl_nil]

@[simp] theorem view_ended (L : Local σ κ ℓ τ) (s : σ) : L.ended.view s = s := rfl

@[simp] theorem view_assigned (L : Local σ κ ℓ τ) (l : ℓ) (s : σ) :
    (L.assigned l).view s = L.view s := rfl

end Local

/-- A session: what it has done, what it still has to do, for each of its statements the number of
commits that the snapshot of the statement contains, and whether it has been closed. -/
structure Session (σ κ ℓ τ ε α : Type) extends Local σ κ ℓ τ where
  prog : Prog σ κ ℓ τ ε α
  snapshots : List ℕ
  closed : Bool

namespace Session

/-- A fresh session for a request. -/
def start (l : ℓ) (p : Prog σ κ ℓ τ ε α) : Session σ κ ℓ τ ε α :=
  { vars := l, log := [], pending := [], prog := p, snapshots := [], closed := false }

/-- The session after the statement `st`, on a snapshot of `n` commits, at the program `p`. -/
def next (S : Session σ κ ℓ τ ε α) (L : Local σ κ ℓ τ) (n : ℕ) (p : Prog σ κ ℓ τ ε α) :
    Session σ κ ℓ τ ε α :=
  { S with toLocal := L, prog := p, snapshots := S.snapshots ++ [n] }

/-- The session at the program `p`, with no statement sent. -/
def goto (S : Session σ κ ℓ τ ε α) (L : Local σ κ ℓ τ) (p : Prog σ κ ℓ τ ε α) :
    Session σ κ ℓ τ ε α :=
  { S with toLocal := L, prog := p }

/-- The session closed: its open transaction is rolled back. -/
def close (S : Session σ κ ℓ τ ε α) : Session σ κ ℓ τ ε α :=
  { S with toLocal := S.toLocal.ended, closed := true }

end Session

/-- The committed data, the sessions, and the order of the commits so far, the latest first. -/
structure World (ι σ κ ℓ τ ε α : Type) where
  committed : σ
  sessions : ι → Session σ κ ℓ τ ε α
  history : List ι

namespace World

variable [DecidableEq ι]

/-- The world before the first step. -/
def start (s : σ) (S : ι → Session σ κ ℓ τ ε α) : World ι σ κ ℓ τ ε α :=
  { committed := s, sessions := S, history := [] }

/-- The world with the session `S` at `i`. -/
def put (w : World ι σ κ ℓ τ ε α) (i : ι) (S : Session σ κ ℓ τ ε α) : World ι σ κ ℓ τ ε α :=
  { w with sessions := Function.update w.sessions i S }

/-- The world after session `i` has committed the data `s` and is `S`. -/
def publish (w : World ι σ κ ℓ τ ε α) (i : ι) (s : σ) (S : Session σ κ ℓ τ ε α) :
    World ι σ κ ℓ τ ε α :=
  { committed := s, sessions := Function.update w.sessions i S, history := i :: w.history }

@[simp] theorem put_committed (w : World ι σ κ ℓ τ ε α) (i : ι) (S : Session σ κ ℓ τ ε α) :
    (w.put i S).committed = w.committed := rfl
@[simp] theorem put_history (w : World ι σ κ ℓ τ ε α) (i : ι) (S : Session σ κ ℓ τ ε α) :
    (w.put i S).history = w.history := rfl
@[simp] theorem put_sessions (w : World ι σ κ ℓ τ ε α) (i : ι) (S : Session σ κ ℓ τ ε α) :
    (w.put i S).sessions = Function.update w.sessions i S := rfl
@[simp] theorem publish_committed (w : World ι σ κ ℓ τ ε α) (i : ι) (s : σ)
    (S : Session σ κ ℓ τ ε α) : (w.publish i s S).committed = s := rfl
@[simp] theorem publish_history (w : World ι σ κ ℓ τ ε α) (i : ι) (s : σ)
    (S : Session σ κ ℓ τ ε α) : (w.publish i s S).history = i :: w.history := rfl
@[simp] theorem publish_sessions (w : World ι σ κ ℓ τ ε α) (i : ι) (s : σ)
    (S : Session σ κ ℓ τ ε α) :
    (w.publish i s S).sessions = Function.update w.sessions i S := rfl

/-- No other session holds one of the locks `ks`. -/
def Free (w : World ι σ κ ℓ τ ε α) (i : ι) (ks : List κ) : Prop :=
  ∀ j, j ≠ i → ∀ k ∈ ks, ∀ wr ∈ (w.sessions j).pending, k ∉ wr.locks

variable [Fintype ι] [DecidableEq κ]

instance (w : World ι σ κ ℓ τ ε α) (i : ι) (ks : List κ) : Decidable (w.Free i ks) :=
  inferInstanceAs (Decidable (∀ j, j ≠ i → ∀ k ∈ ks, ∀ wr ∈ (w.sessions j).pending, k ∉ wr.locks))

/-- The next move of session `i`, if it can move: a closed session and one that waits for a lock
cannot. -/
def step (w : World ι σ κ ℓ τ ε α) (i : ι) : Option (World ι σ κ ℓ τ ε α) :=
  let S := w.sessions i
  let L := S.toLocal
  match S.prog with
  | .ret _ | .raise _ => if S.closed then none else some (w.put i S.close)
  | .select st k =>
    some (w.put i (S.next (L.saw st) w.history.length (k L.vars (L.view w.committed))))
  | .execute st f ok err =>
    match f L.vars (L.view w.committed) with
    | .ok wr =>
      if w.Free i wr.locks then
        some (w.put i (S.next ((L.saw st).wrote wr) w.history.length ok))
      else none
    | .error e => some (w.put i (S.next (L.saw st).ended w.history.length (err e)))
  | .commit k => some (w.publish i (L.view w.committed) (S.goto L.ended k))
  | .rollback k => some (w.put i (S.goto L.ended k))
  | .assign l k => some (w.put i (S.goto (L.assigned l) k))

/-- Run a schedule: the sessions move in the order listed. -/
def exec (w : World ι σ κ ℓ τ ε α) : List ι → Option (World ι σ κ ℓ τ ε α)
  | [] => some w
  | i :: rest => (w.step i).bind fun w' => w'.exec rest

/-- Every step of the schedule is taken in a world that satisfies `C`. -/
def Always (C : World ι σ κ ℓ τ ε α → ι → Prop) (w : World ι σ κ ℓ τ ε α) : List ι → Prop
  | [] => True
  | i :: rest => C w i ∧ ∀ w', w.step i = some w' → Always C w' rest

/-- Every session has been closed. -/
def Closed (w : World ι σ κ ℓ τ ε α) : Prop := ∀ i, (w.sessions i).closed = true

/-- The induction over a run: what holds at the start and is kept by every step that meets `C`
holds at the end of a run whose steps all meet `C`. -/
theorem exec_induction {C : World ι σ κ ℓ τ ε α → ι → Prop} {I : World ι σ κ ℓ τ ε α → Prop}
    (hstep : ∀ w i w', I w → C w i → w.step i = some w' → I w') :
    ∀ {sched : List ι} {w w' : World ι σ κ ℓ τ ε α},
      I w → w.Always C sched → w.exec sched = some w' → I w'
  | [], w, w', hw, _, h => by
    simp only [exec, Option.some.injEq] at h
    exact h ▸ hw
  | i :: rest, w, w', hw, hC, h => by
    simp only [exec, Option.bind_eq_some_iff] at h
    obtain ⟨w₁, hs, hr⟩ := h
    exact exec_induction hstep (hstep w i w₁ hw hC.1 hs) (hC.2 w₁ hs) hr

/-- Nothing is asked of the steps. -/
theorem always_true (w : World ι σ κ ℓ τ ε α) (sched : List ι) :
    w.Always (fun _ _ => True) sched := by
  induction sched generalizing w with
  | nil => trivial
  | cons i rest ih => exact ⟨trivial, fun w' _ => ih w'⟩

/-- The same induction for a property `D` of the steps, which each step has when it meets `C` in a
world that satisfies `I`. -/
theorem Always.of_invariant {C D : World ι σ κ ℓ τ ε α → ι → Prop}
    {I : World ι σ κ ℓ τ ε α → Prop} (hD : ∀ w i, I w → C w i → D w i)
    (hstep : ∀ w i w', I w → C w i → w.step i = some w' → I w') {sched : List ι}
    {w : World ι σ κ ℓ τ ε α} (hw : I w) (hC : w.Always C sched) : w.Always D sched := by
  induction sched generalizing w with
  | nil => trivial
  | cons i rest ih => exact ⟨hD w i hw hC.1, fun w' hs => ih (hstep w i w' hw hC.1 hs) (hC.2 w' hs)⟩

/-- The step that follows a part of the schedule meets the condition. -/
theorem Always.of_exec {C : World ι σ κ ℓ τ ε α → ι → Prop} {ys : List ι} {i : ι} :
    ∀ {xs : List ι} {w w' : World ι σ κ ℓ τ ε α},
      w.Always C (xs ++ i :: ys) → w.exec xs = some w' → C w' i
  | [], w, w', h, hx => by
    simp only [exec, Option.some.injEq] at hx
    exact hx ▸ h.1
  | x :: xs, w, w', h, hx => by
    simp only [exec, Option.bind_eq_some_iff] at hx
    obtain ⟨w₁, hs, hr⟩ := hx
    exact Always.of_exec (h.2 w₁ hs) hr

instance decidableAlways {C : World ι σ κ ℓ τ ε α → ι → Prop} [∀ w i, Decidable (C w i)] :
    (sched : List ι) → (w : World ι σ κ ℓ τ ε α) → Decidable (w.Always C sched)
  | [], _ => isTrue trivial
  | i :: rest, w =>
    match h : w.step i with
    | none => decidable_of_iff (C w i) (by simp [Always, h])
    | some w' =>
      haveI : Decidable (w'.Always C rest) := decidableAlways rest w'
      decidable_of_iff (C w i ∧ w'.Always C rest) (by simp [Always, h])

/-! ## What one step changes -/

variable {w w' : World ι σ κ ℓ τ ε α} {i j : ι}

omit [Fintype ι] [DecidableEq κ] in
/-- The moves of session `i`: the first command of its program runs, or the session is closed when
no command is left. -/
inductive Move (w : World ι σ κ ℓ τ ε α) (i : ι) : World ι σ κ ℓ τ ε α → Prop where
  | closeRet {a : α} (hp : (w.sessions i).prog = .ret a) (hopen : (w.sessions i).closed ≠ true) :
      Move w i (w.put i (w.sessions i).close)
  | closeRaise {e : ε} (hp : (w.sessions i).prog = .raise e)
      (hopen : (w.sessions i).closed ≠ true) : Move w i (w.put i (w.sessions i).close)
  | select {st : τ} {k : ℓ → σ → Prog σ κ ℓ τ ε α} (hp : (w.sessions i).prog = .select st k) :
      Move w i (w.put i ((w.sessions i).next ((w.sessions i).saw st) w.history.length
        (k (w.sessions i).vars ((w.sessions i).view w.committed))))
  | ok {st : τ} {f : ℓ → σ → Except DbError (Write σ κ)} {ok : Prog σ κ ℓ τ ε α}
      {err : DbError → Prog σ κ ℓ τ ε α} {wr : Write σ κ}
      (hp : (w.sessions i).prog = .execute st f ok err)
      (hf : f (w.sessions i).vars ((w.sessions i).view w.committed) = .ok wr)
      (hfree : w.Free i wr.locks) :
      Move w i (w.put i
        ((w.sessions i).next (((w.sessions i).saw st).wrote wr) w.history.length ok))
  | error {st : τ} {f : ℓ → σ → Except DbError (Write σ κ)} {ok : Prog σ κ ℓ τ ε α}
      {err : DbError → Prog σ κ ℓ τ ε α} {e : DbError}
      (hp : (w.sessions i).prog = .execute st f ok err)
      (hf : f (w.sessions i).vars ((w.sessions i).view w.committed) = .error e) :
      Move w i (w.put i
        ((w.sessions i).next ((w.sessions i).saw st).ended w.history.length (err e)))
  | commit {k : Prog σ κ ℓ τ ε α} (hp : (w.sessions i).prog = .commit k) :
      Move w i (w.publish i ((w.sessions i).view w.committed)
        ((w.sessions i).goto (w.sessions i).ended k))
  | rollback {k : Prog σ κ ℓ τ ε α} (hp : (w.sessions i).prog = .rollback k) :
      Move w i (w.put i ((w.sessions i).goto (w.sessions i).ended k))
  | assign {l : ℓ} {k : Prog σ κ ℓ τ ε α} (hp : (w.sessions i).prog = .assign l k) :
      Move w i (w.put i ((w.sessions i).goto ((w.sessions i).assigned l) k))

/-- A step is one of the moves. -/
theorem move_of_step (hs : w.step i = some w') : w.Move i w' := by
  simp only [step] at hs
  cases hp : (w.sessions i).prog with
  | ret a =>
    simp only [hp] at hs
    split at hs
    · cases hs
    · next hopen =>
      cases hs
      exact .closeRet hp hopen
  | raise e =>
    simp only [hp] at hs
    split at hs
    · cases hs
    · next hopen =>
      cases hs
      exact .closeRaise hp hopen
  | select st k =>
    simp only [hp, Option.some.injEq] at hs
    exact hs ▸ .select hp
  | execute st f ok err =>
    simp only [hp] at hs
    cases hf : f (w.sessions i).vars ((w.sessions i).view w.committed) with
    | ok wr =>
      simp only [hf] at hs
      split at hs
      · next hfree =>
        cases hs
        exact .ok hp hf hfree
      · cases hs
    | error e =>
      simp only [hf, Option.some.injEq] at hs
      exact hs ▸ .error hp hf
  | commit k =>
    simp only [hp, Option.some.injEq] at hs
    exact hs ▸ .commit hp
  | rollback k =>
    simp only [hp, Option.some.injEq] at hs
    exact hs ▸ .rollback hp
  | assign l k =>
    simp only [hp, Option.some.injEq] at hs
    exact hs ▸ .assign hp

/-- How the open transaction of the session that moves can change: not at all, by its end, or by one
more write whose locks nobody else holds. -/
def PendingStep (w : World ι σ κ ℓ τ ε α) (i : ι) (pending : List (Write σ κ)) : Prop :=
  pending = (w.sessions i).pending ∨ pending = [] ∨
    ∃ wr, pending = (w.sessions i).pending ++ [wr] ∧ w.Free i wr.locks

/-- A step replaces the session that moves, adding to its log. It commits what that session sees, or
leaves the committed data alone. -/
theorem step_spec (hs : w.step i = some w') :
    ∃ S, w'.sessions = Function.update w.sessions i S ∧ (∃ sts, S.log = (w.sessions i).log ++ sts) ∧
      w.PendingStep i S.pending ∧
      (w'.committed = w.committed ∨
        ∃ k, (w.sessions i).prog = .commit k ∧ w'.committed = (w.sessions i).view w.committed) := by
  have hnil : ∃ sts, (w.sessions i).log = (w.sessions i).log ++ sts :=
    ⟨[], (List.append_nil _).symm⟩
  cases move_of_step hs with
  | closeRet | closeRaise | rollback => exact ⟨_, rfl, hnil, .inr (.inl rfl), .inl rfl⟩
  | select => exact ⟨_, rfl, ⟨[_], rfl⟩, .inl rfl, .inl rfl⟩
  | ok hp hf hfree => exact ⟨_, rfl, ⟨[_], rfl⟩, .inr (.inr ⟨_, rfl, hfree⟩), .inl rfl⟩
  | error => exact ⟨_, rfl, ⟨[_], rfl⟩, .inr (.inl rfl), .inl rfl⟩
  | commit hp => exact ⟨_, rfl, hnil, .inr (.inl rfl), .inr ⟨_, hp, rfl⟩⟩
  | assign => exact ⟨_, rfl, hnil, .inl rfl, .inl rfl⟩

/-- The other sessions stay as they are. -/
theorem step_sessions_of_ne (hs : w.step i = some w') (hj : j ≠ i) :
    w'.sessions j = w.sessions j := by
  obtain ⟨S, hS, -⟩ := step_spec hs
  rw [hS, Function.update_of_ne hj]

/-- A statement that a session has sent stays in its log. -/
theorem mem_log_of_step {st : τ} (hs : w.step i = some w') (h : st ∈ (w.sessions j).log) :
    st ∈ (w'.sessions j).log := by
  by_cases hj : j = i
  · subst hj
    obtain ⟨S, hS, ⟨sts, hlog⟩, -⟩ := step_spec hs
    rw [hS, Function.update_self, hlog]
    exact List.mem_append_left _ h
  · rwa [step_sessions_of_ne hs hj]

/-! ## Locks -/

/-- No two sessions hold the same lock. -/
def Exclusive (w : World ι σ κ ℓ τ ε α) : Prop :=
  ∀ i j, i ≠ j → ∀ k ∈ (w.sessions i).locks, k ∉ (w.sessions j).locks

omit [DecidableEq ι] [Fintype ι] [DecidableEq κ] in
/-- Before the first step nobody holds a lock. -/
theorem exclusive_start {s : σ} {S : ι → Session σ κ ℓ τ ε α} (h : ∀ i, (S i).pending = []) :
    (start s S).Exclusive := by
  intro i j _ k hk
  simp [start, Local.locks, h i] at hk

/-- A write waits for the locks of the others, so locks stay exclusive. -/
theorem Exclusive.step (h : w.Exclusive) (hs : w.step i = some w') : w'.Exclusive := by
  obtain ⟨S, hS, -, hpending, -⟩ := step_spec hs
  have hmoved : ∀ j, j ≠ i → ∀ k ∈ S.locks, k ∉ (w.sessions j).locks := by
    intro j hj k hk
    rcases hpending with hp | hp | ⟨wr, hp, hfree⟩
    · rw [Local.locks, hp] at hk
      exact h i j (Ne.symm hj) k hk
    · simp [Local.locks, hp] at hk
    · rw [Local.locks, hp, List.flatMap_append, List.mem_append] at hk
      rcases hk with hk | hk
      · exact h i j (Ne.symm hj) k hk
      · rw [List.flatMap_singleton] at hk
        intro hheld
        obtain ⟨wr', hwr', hk'⟩ := List.mem_flatMap.mp hheld
        exact hfree j hj k hk wr' hwr' hk'
  intro a b hab k hka
  rw [hS] at hka ⊢
  by_cases ha : a = i
  · subst ha
    rw [Function.update_self] at hka
    rw [Function.update_of_ne (Ne.symm hab)]
    exact hmoved b (Ne.symm hab) k hka
  · rw [Function.update_of_ne ha] at hka
    by_cases hb : b = i
    · subst hb
      rw [Function.update_self]
      exact fun hkb => hmoved a ha k hkb hka
    · rw [Function.update_of_ne hb]
      exact h a b hab k hka

/-! ## What a session leaves uncommitted -/

section RolledBack

omit [Fintype ι] [DecidableEq κ]

/-- The world with the open transaction of session `i` rolled back. -/
def rolledBack (w : World ι σ κ ℓ τ ε α) (i : ι) : World ι σ κ ℓ τ ε α :=
  w.put i ((w.sessions i).goto (w.sessions i).ended (w.sessions i).prog)

@[simp] theorem rolledBack_committed (w : World ι σ κ ℓ τ ε α) (i : ι) :
    (w.rolledBack i).committed = w.committed := rfl
@[simp] theorem rolledBack_history (w : World ι σ κ ℓ τ ε α) (i : ι) :
    (w.rolledBack i).history = w.history := rfl

/-- The other sessions are as they were. -/
theorem rolledBack_sessions_of_ne (hj : j ≠ i) : (w.rolledBack i).sessions j = w.sessions j :=
  Function.update_of_ne hj _ _

/-- A step of another session that commits nothing is the same. -/
theorem rolledBack_put_of_ne {S : Session σ κ ℓ τ ε α} (hj : j ≠ i) :
    (w.put j S).rolledBack i = (w.rolledBack i).put j S := by
  simp [rolledBack, put, Function.update_of_ne hj.symm, Function.update_comm hj]

/-- So is one that commits. -/
theorem rolledBack_publish_of_ne {s : σ} {S : Session σ κ ℓ τ ε α} (hj : j ≠ i) :
    (w.publish j s S).rolledBack i = (w.rolledBack i).publish j s S := by
  simp [rolledBack, put, publish, Function.update_of_ne hj.symm, Function.update_comm hj]

/-- The closing of the session itself discards what it has left. -/
theorem rolledBack_close :
    (w.put i (w.sessions i).close).rolledBack i =
      (w.rolledBack i).put i ((w.rolledBack i).sessions i).close := by
  simp [rolledBack, put, Session.close, Session.goto, Local.ended]

/-- A lock that is free stays free. -/
theorem Free.rolledBack {ks : List κ} (h : w.Free j ks) : (w.rolledBack i).Free j ks := by
  intro i' hi' k hk wr hwr
  by_cases hi : i' = i
  · subst hi
    rw [World.rolledBack, put_sessions, Function.update_self] at hwr
    exact absurd hwr List.not_mem_nil
  · rw [rolledBack_sessions_of_ne hi] at hwr
    exact h i' hi' k hk wr hwr

end RolledBack

/-- Once session `i` has returned, its only step is to be closed. -/
theorem eq_close_of_step {a : α} (hret : (w.sessions i).prog = .ret a) (hs : w.step i = some w') :
    w' = w.put i (w.sessions i).close := by
  simp only [step, hret] at hs
  split at hs
  · cases hs
  · exact (Option.some.inj hs).symm

/-- Once session `i` has returned, nobody's step depends on what it has left uncommitted. -/
theorem step_rolledBack {a : α} (hret : (w.sessions i).prog = .ret a) (hs : w.step j = some w') :
    (w.rolledBack i).step j = some (w'.rolledBack i) ∧ (w'.sessions i).prog = .ret a := by
  by_cases hj : j = i
  · subst hj
    -- The session can only be closed.
    simp only [step, hret] at hs
    split at hs
    · cases hs
    · next hopen =>
      obtain rfl := Option.some.inj hs
      refine ⟨?_, by rw [put_sessions, Function.update_self]; exact hret⟩
      have hself : (w.rolledBack j).sessions j =
          (w.sessions j).goto (w.sessions j).ended (w.sessions j).prog := Function.update_self ..
      have hprog : ((w.rolledBack j).sessions j).prog = .ret a := by rw [hself]; exact hret
      have hopen' : ((w.rolledBack j).sessions j).closed ≠ true := by rw [hself]; exact hopen
      simp only [step, hprog, if_neg hopen', rolledBack_close]
  · refine ⟨?_, by rw [step_sessions_of_ne hs (Ne.symm hj)]; exact hret⟩
    have hsame := @rolledBack_sessions_of_ne _ _ _ _ _ _ _ _ w _ _ hj
    cases move_of_step hs with
    | closeRet hp hopen | closeRaise hp hopen =>
      simp only [step, hsame, hp, if_neg hopen, rolledBack_put_of_ne hj]
    | select hp | rollback hp | assign hp =>
      simp only [step, hsame, hp, rolledBack_committed, rolledBack_history,
        rolledBack_put_of_ne hj]
    | ok hp hf hfree =>
      simp only [step, hsame, hp, hf, rolledBack_committed, rolledBack_history,
        if_pos hfree.rolledBack, rolledBack_put_of_ne hj]
    | error hp hf =>
      simp only [step, hsame, hp, hf, rolledBack_committed, rolledBack_history,
        rolledBack_put_of_ne hj]
    | commit hp =>
      simp only [step, hsame, hp, rolledBack_committed, rolledBack_publish_of_ne hj]

/-- What a session leaves uncommitted when it returns is lost: whoever moves from then on, the run
goes as it would have gone without it. -/
theorem exec_rolledBack {a : α} {sched : List ι} (hret : (w.sessions i).prog = .ret a)
    (hexec : w.exec sched = some w') : (w.rolledBack i).exec sched = some (w'.rolledBack i) := by
  induction sched generalizing w with
  | nil =>
    simp only [exec, Option.some.injEq] at hexec ⊢
    rw [hexec]
  | cons j rest ih =>
    simp only [exec, Option.bind_eq_some_iff] at hexec ⊢
    obtain ⟨w₁, hs, hr⟩ := hexec
    obtain ⟨hs', hret'⟩ := step_rolledBack hret hs
    exact ⟨_, hs', ih hret' hr⟩

/-! ## A session that has the database to itself -/

/-- Nobody else has a transaction open, and the session is not closed. -/
structure Alone (w : World ι σ κ ℓ τ ε α) (i : ι) : Prop where
  others : ∀ j, j ≠ i → (w.sessions j).pending = []
  isOpen : (w.sessions i).closed = false

/-- The session `i` can be scheduled until it is closed, and `s` is committed by then. -/
def Finishes (w : World ι σ κ ℓ τ ε α) (i : ι) (s : σ) : Prop :=
  ∃ n w', w.exec (List.replicate n i) = some w' ∧ (w'.sessions i).closed = true ∧ w'.committed = s

/-- What the session ends with after its step is what it ends with. -/
theorem Finishes.step {s : σ} (hs : w.step i = some w') (h : w'.Finishes i s) : w.Finishes i s := by
  obtain ⟨n, w'', hexec, hclosed⟩ := h
  refine ⟨n + 1, w'', ?_, hclosed⟩
  rw [List.replicate_succ, exec, hs]
  exact hexec

/-- A step of the only open session leaves it the only one. -/
theorem Alone.step (h : w.Alone i) (hs : w.step i = some w')
    (hopen : (w'.sessions i).closed = false) : w'.Alone i :=
  ⟨fun j hj => by rw [step_sessions_of_ne hs hj]; exact h.others j hj, hopen⟩

/-- The interleaved semantics of a session that is alone is `Prog.run`: it goes on until the session
is closed, and commits what the program commits when it is run by itself. -/
theorem exec_alone (h : w.Alone i) :
    w.Finishes i ((w.sessions i).prog.run
      ⟨(w.sessions i).vars, w.committed, (w.sessions i).view w.committed⟩).2.committed := by
  generalize hp : (w.sessions i).prog = p
  induction p generalizing w with
  | ret a | raise e =>
    have hs : w.step i = some (w.put i (w.sessions i).close) := by
      simp [World.step, hp, h.isOpen]
    refine Finishes.step hs ⟨0, _, rfl, ?_, rfl⟩
    simp [Session.close]
  | select st k ih =>
    let S := w.sessions i
    let w₁ := w.put i (S.next (S.saw st) w.history.length (k S.vars (S.view w.committed)))
    have hs : w.step i = some w₁ := by simp only [World.step, hp]; rfl
    have h₁ : w₁.Alone i := h.step hs (by simpa [w₁, Session.next] using h.isOpen)
    have hprog : (w₁.sessions i).prog = k S.vars (S.view w.committed) := by
      simp [w₁, Session.next]
    refine Finishes.step hs ?_
    simpa [w₁, Session.next, Prog.run] using ih _ _ h₁ hprog
  | execute st f ok err ihok iherr =>
    let S := w.sessions i
    cases hf : f S.vars (S.view w.committed) with
    | ok wr =>
      let w₁ := w.put i (S.next ((S.saw st).wrote wr) w.history.length ok)
      have hfree : w.Free i wr.locks := by
        intro j hj k _ wr' hwr'
        rw [h.others j hj] at hwr'
        cases hwr'
      have hs : w.step i = some w₁ := by
        simp only [World.step, hp]
        simp only [S] at hf
        rw [hf]
        simp only [hfree, if_true]
        rfl
      have h₁ : w₁.Alone i := h.step hs (by simpa [w₁, Session.next] using h.isOpen)
      refine Finishes.step hs ?_
      have := ihok h₁ (by simp [w₁, Session.next])
      simpa [w₁, Session.next, Prog.run, S, hf] using this
    | error e =>
      let w₁ := w.put i (S.next (S.saw st).ended w.history.length (err e))
      have hs : w.step i = some w₁ := by
        simp only [World.step, hp]
        simp only [S] at hf
        rw [hf]
      have h₁ : w₁.Alone i := h.step hs (by simpa [w₁, Session.next] using h.isOpen)
      refine Finishes.step hs ?_
      have := iherr e h₁ (by simp [w₁, Session.next])
      simpa [w₁, Session.next, Prog.run, S, hf, Conn.discard] using this
  | commit k ih =>
    let S := w.sessions i
    let w₁ := w.publish i (S.view w.committed) (S.goto S.ended k)
    have hs : w.step i = some w₁ := by simp only [World.step, hp]; rfl
    have h₁ : w₁.Alone i := h.step hs (by simpa [w₁, Session.goto] using h.isOpen)
    refine Finishes.step hs ?_
    simpa [w₁, Session.goto, Prog.run, S, Conn.publish] using ih h₁ (by simp [w₁, Session.goto])
  | rollback k ih =>
    let S := w.sessions i
    let w₁ := w.put i (S.goto S.ended k)
    have hs : w.step i = some w₁ := by simp only [World.step, hp]; rfl
    have h₁ : w₁.Alone i := h.step hs (by simpa [w₁, Session.goto] using h.isOpen)
    refine Finishes.step hs ?_
    simpa [w₁, Session.goto, Prog.run, S, Conn.discard] using ih h₁ (by simp [w₁, Session.goto])
  | assign l k ih =>
    let S := w.sessions i
    let w₁ := w.put i (S.goto (S.assigned l) k)
    have hs : w.step i = some w₁ := by simp only [World.step, hp]; rfl
    have h₁ : w₁.Alone i := h.step hs (by simpa [w₁, Session.goto] using h.isOpen)
    refine Finishes.step hs ?_
    simpa [w₁, Session.goto, Prog.run, S] using ih h₁ (by simp [w₁, Session.goto])

end World

end Sql
