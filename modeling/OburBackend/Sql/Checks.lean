import OburBackend.Sql.Writes

/-!
# Requests that check, write and commit

A request is expected to refuse before it writes, and to commit what it has written before it
returns. `Prog.Checked` is the shape of such a program: it only reads, and then it is
`Prog.Finishes`, which raises no error of the kind that refuses (`Prog.NeverRaises`) and has no open
transaction when it returns (`Prog.Commits`). Writes that the bound `V` allows may stay uncommitted.

Before that comes a part of the program whose writes `W` allows under the session variables that
they see (`Prog.WritesFrom`). Among others this comes to two rules. What a request that is refused
in the end has committed on its way comes from writes that `W` allows
(`World.ChecksFirst.rel_of_raise`). What a request that has returned leaves uncommitted are writes
that `V` allows (`World.Commits.pending_of_ret`), and they are lost (`World.exec_rolledBack`).
-/

namespace Sql

variable {σ κ ℓ τ ε ε' α β ι : Type}

namespace Prog

variable (P : ε → Prop) (V W : ℓ → σ → Write σ κ → Prop)

/-- The program raises no error of the kind. -/
def NeverRaises : Prog σ κ ℓ τ ε α → Prop
  | .ret _ => True
  | .raise e => ¬ P e
  | .select _ k => ∀ l s, (k l s).NeverRaises
  | .execute _ _ ok err => ok.NeverRaises ∧ ∀ e, (err e).NeverRaises
  | .commit k | .rollback k | .assign _ k => k.NeverRaises

/-- The program returns, or raises an error of the kind, with nothing uncommitted, apart from writes
that `V` allows. `clean` says whether that is so already; a failed statement aborts its transaction,
and there is nothing left of it then. -/
def Commits : Prog σ κ ℓ τ ε α → Bool → Prop
  | .ret _, clean => clean = true
  | .raise e, clean => P e → clean = true
  | .select _ k, clean => ∀ l s, (k l s).Commits clean
  | .execute _ w ok err, clean =>
    (ok.Commits false ∨ (∀ l s wr, w l s = .ok wr → V l s wr) ∧ ok.Commits clean) ∧
      ∀ e, (err e).Commits true
  | .commit k, _ | .rollback k, _ => k.Commits true
  | .assign _ k, clean => k.Commits clean

/-- The program raises no error of the kind, and leaves nothing uncommitted, nor what was there
before it. -/
structure Finishes (p : Prog σ κ ℓ τ ε α) : Prop where
  neverRaises : p.NeverRaises P
  commits : p.Commits P V false

/-- The program only reads, as long as it may raise an error of the kind, and commits what it
writes. -/
def Checked : Prog σ κ ℓ τ ε α → Prop
  | .ret _ | .raise _ => True
  | .select _ k => ∀ l s, (k l s).Checked
  | .execute st w ok err =>
    NeverRaises P (.execute st w ok err) ∧ Commits P V (.execute st w ok err) true
  | .commit k => k.NeverRaises P ∧ k.Commits P V true
  | .rollback k => k.NeverRaises P ∧ k.Commits P V true
  | .assign _ k => k.NeverRaises P ∧ k.Commits P V true

/-- Started under the session variables, the program writes only what `W` allows under those that it
has by then. `Q` holds of the variables that it returns under and of its result, and `E` of those
that it raises an error under. -/
def WritesFrom (Q : ℓ → α → Prop) (E : ℓ → Prop) : Prog σ κ ℓ τ ε α → ℓ → Prop
  | .ret a, l => Q l a
  | .raise _, l => E l
  | .select _ k, l => ∀ s, (k l s).WritesFrom Q E l
  | .execute _ w ok err, l =>
    (∀ s wr, w l s = .ok wr → W l s wr) ∧ ok.WritesFrom Q E l ∧ ∀ e, (err e).WritesFrom Q E l
  | .commit k, l | .rollback k, l => k.WritesFrom Q E l
  | .assign l k, _ => k.WritesFrom Q E l

/-- Started under the session variables, the program raises errors of the kind only before its first
write other than those that `W` allows. -/
def ChecksFirst : Prog σ κ ℓ τ ε α → ℓ → Prop
  | .ret _, _ | .raise _, _ => True
  | .select _ k, l => ∀ s, (k l s).ChecksFirst l
  | .execute st w ok err, l =>
    ((∀ s wr, w l s = .ok wr → W l s wr) ∧ ok.ChecksFirst l ∧ ∀ e, (err e).ChecksFirst l) ∨
      NeverRaises P (.execute st w ok err)
  | .commit k, l | .rollback k, l => k.ChecksFirst l
  | .assign l k, _ => k.ChecksFirst l

variable {P V W} {p : Prog σ κ ℓ τ ε α} {f : α → Prog σ κ ℓ τ ε β} {clean : Bool} {l : ℓ}
  {Q : ℓ → α → Prop} {Q' : ℓ → β → Prop} {E E' : ℓ → Prop}

/-! ### Errors that are not raised -/

@[simp] theorem neverRaises_ret (a : α) : (ret a : Prog σ κ ℓ τ ε α).NeverRaises P := trivial

@[simp] theorem neverRaises_query (st : τ) (g : ℓ → σ → α) :
    (query st g : Prog σ κ ℓ τ ε α).NeverRaises P := fun _ _ => trivial

/-- A sequence of two such programs raises none either. -/
theorem NeverRaises.bind (hp : p.NeverRaises P) (hf : ∀ a, (f a).NeverRaises P) :
    (p.bind f).NeverRaises P := by
  induction p with
  | ret a => exact hf a
  | raise e => exact hp
  | select st k ih => exact fun l s => ih l s (hp l s)
  | execute st w ok err ihok iherr => exact ⟨ihok hp.1, fun e => iherr e (hp.2 e)⟩
  | commit k ih | rollback k ih | assign l k ih => exact ih hp

/-- Nor does one whose errors are renamed, if no other error gets such a name. -/
theorem NeverRaises.mapError {P' : ε' → Prop} {g : ε → ε'} (hp : p.NeverRaises P)
    (hg : ∀ e, P' (g e) → P e) : (p.mapError g).NeverRaises P' := by
  induction p with
  | ret a => trivial
  | raise e => exact fun h => hp (hg e h)
  | select st k ih => exact fun l s => ih l s (hp l s)
  | execute st w ok err ihok iherr => exact ⟨ihok hp.1, fun e => iherr e (hp.2 e)⟩
  | commit k ih | rollback k ih | assign l k ih => exact ih hp

/-- Where no such error is raised, none comes too late. -/
theorem NeverRaises.checksFirst (hp : p.NeverRaises P) : p.ChecksFirst P W l := by
  induction p generalizing l with
  | ret a | raise e => trivial
  | select st k ih => exact fun s => ih l s (hp l s)
  | execute => exact .inr hp
  | commit k ih | rollback k ih | assign l k ih => exact ih hp

/-! ### Transactions that are committed -/

/-- What commits what was there before it also commits if there was nothing. -/
theorem Commits.of_false (hp : p.Commits P V false) : p.Commits P V clean := by
  induction p generalizing clean with
  | ret a => cases hp
  | raise e => exact fun he => absurd (hp he) Bool.false_ne_true
  | select st k ih => exact fun l s => ih l s (hp l s)
  | execute st w ok err ihok iherr => exact ⟨hp.1.elim .inl fun h => .inl h.2, hp.2⟩
  | commit | rollback => exact hp
  | assign l k ih => exact ih hp

/-- Whatever has been done, what comes after it commits it. -/
theorem commits_bind_of_false (hp : p.NeverRaises P) (hf : ∀ a, (f a).Commits P V false) :
    (p.bind f).Commits P V clean := by
  induction p generalizing clean with
  | ret a => exact (hf a).of_false
  | raise e => exact fun he => absurd he hp
  | select st k ih => exact fun l s => ih l s (hp l s)
  | execute st w ok err ihok iherr => exact ⟨.inl (ihok hp.1), fun e => iherr e (hp.2 e)⟩
  | commit k ih | rollback k ih | assign l k ih => exact ih hp

/-- The second program starts with nothing uncommitted. -/
theorem Commits.bind (hp : p.Commits P V clean) (hf : ∀ a, (f a).Commits P V true) :
    (p.bind f).Commits P V clean := by
  induction p generalizing clean with
  | ret a =>
    obtain rfl : clean = true := hp
    exact hf a
  | raise e => exact hp
  | select st k ih => exact fun l s => ih l s (hp l s)
  | execute st w ok err ihok iherr =>
    exact ⟨hp.1.imp ihok fun h => ⟨h.1, ihok h.2⟩, fun e => iherr e (hp.2 e)⟩
  | commit k ih | rollback k ih | assign l k ih => exact ih hp

/-- A handler starts with nothing uncommitted after an error of the kind, and with anything after
another one. -/
theorem Commits.recover {h : ε → Prog σ κ ℓ τ ε α} (hp : p.Commits P V clean)
    (hP : ∀ e, P e → (h e).Commits P V true) (hother : ∀ e, ¬ P e → (h e).Commits P V false) :
    (p.recover h).Commits P V clean := by
  induction p generalizing clean with
  | ret a => exact hp
  | raise e =>
    by_cases he : P e
    · obtain rfl : clean = true := hp he
      exact hP e he
    · exact (hother e he).of_false
  | select st k ih => exact fun l s => ih l s (hp l s)
  | execute st w ok err ihok iherr =>
    exact ⟨hp.1.imp ihok fun h => ⟨h.1, ihok h.2⟩, fun e => iherr e (hp.2 e)⟩
  | commit k ih | rollback k ih | assign l k ih => exact ih hp

/-- The names of the errors change nothing about what is committed. -/
theorem Commits.mapError {P' : ε' → Prop} {g : ε → ε'} (hp : p.Commits P V clean)
    (hg : ∀ e, P' (g e) → P e) : (p.mapError g).Commits P' V clean := by
  induction p generalizing clean with
  | ret a => exact hp
  | raise e => exact fun he => hp (hg e he)
  | select st k ih => exact fun l s => ih l s (hp l s)
  | execute st w ok err ihok iherr =>
    exact ⟨hp.1.imp ihok fun h => ⟨h.1, ihok h.2⟩, fun e => iherr e (hp.2 e)⟩
  | commit k ih | rollback k ih | assign l k ih => exact ih hp

/-- A program that only reads leaves nothing uncommitted. -/
theorem ReadOnly.commits (hp : p.ReadOnly) : p.Commits P V true := by
  induction p with
  | ret a => rfl
  | raise e => exact fun _ => rfl
  | select st k ih => exact fun l s => ih l s (hp l s)
  | execute | commit | rollback | assign => exact hp.elim

/-! ### Finishing -/

/-- A part of a transaction, and the rest of it. -/
theorem NeverRaises.bind_finishes (hp : p.NeverRaises P) (hf : ∀ a, (f a).Finishes P V) :
    (p.bind f).Finishes P V where
  neverRaises := hp.bind fun a => (hf a).neverRaises
  commits := commits_bind_of_false hp fun a => (hf a).commits

/-- The end of a transaction. -/
theorem finishes_commit : (Sql.commit : Prog σ κ ℓ τ ε Unit).Finishes P V := ⟨trivial, rfl⟩

/-- The end of a transaction, and what is read then. -/
theorem finishes_commit_bind (hnever : p.NeverRaises P) (hcommits : p.Commits P V true) :
    (Sql.commit.bind fun _ => p).Finishes P V := ⟨hnever, hcommits⟩

/-- A program that raises no error of the kind has nothing to check. -/
theorem Finishes.checked (hp : p.Finishes P V) : p.Checked P V := by
  obtain ⟨hnever, hcommits⟩ := hp
  induction p with
  | ret a | raise e => trivial
  | select st k ih => exact fun l s => ih l s (hnever l s) (hcommits l s)
  | execute => exact ⟨hnever, hcommits.of_false⟩
  | commit | rollback => exact ⟨hnever, hcommits⟩
  | assign l k ih => exact ⟨hnever, hcommits.of_false⟩

/-! ### Checking -/

/-- A program that writes nothing may raise any error. -/
theorem ReadOnly.checked (hp : p.ReadOnly) : p.Checked P V := by
  induction p with
  | ret a | raise e => trivial
  | select st k ih => exact fun l s => ih l s (hp l s)
  | execute | commit | rollback | assign => exact hp.elim

/-- A check, and what is done when it passes. -/
theorem ReadOnly.bind_checked (hp : p.ReadOnly) (hf : ∀ a, (f a).Checked P V) :
    (p.bind f).Checked P V := by
  induction p with
  | ret a => exact hf a
  | raise e => trivial
  | select st k ih => exact fun l s => ih l s (hp l s)
  | execute | commit | rollback | assign => exact hp.elim

/-- What is made of the result. -/
theorem Checked.bind (hp : p.Checked P V) (hnever : ∀ a, (f a).NeverRaises P)
    (hcommits : ∀ a, (f a).Commits P V true) (hf : ∀ a, (f a).Checked P V) :
    (p.bind f).Checked P V := by
  induction p with
  | ret a => exact hf a
  | raise e => trivial
  | select st k ih => exact fun l s => ih l s (hp l s)
  | execute st w ok err => exact ⟨NeverRaises.bind hp.1 hnever, Commits.bind hp.2 hcommits⟩
  | commit k | rollback k | assign l k =>
    exact ⟨NeverRaises.bind hp.1 hnever, Commits.bind hp.2 hcommits⟩

/-- The result may be renamed. -/
theorem Checked.map (hp : p.Checked P V) (g : α → β) :
    (p.bind fun a => .ret (g a)).Checked P V :=
  hp.bind (fun _ => trivial) (fun _ => rfl) fun _ => trivial

/-- So may the errors. -/
theorem Checked.mapError {P' : ε' → Prop} {g : ε → ε'} (hp : p.Checked P V)
    (hg : ∀ e, P' (g e) → P e) : (p.mapError g).Checked P' V := by
  induction p with
  | ret a | raise e => trivial
  | select st k ih => exact fun l s => ih l s (hp l s)
  | execute st w ok err => exact ⟨NeverRaises.mapError hp.1 hg, Commits.mapError hp.2 hg⟩
  | commit k | rollback k | assign l k =>
    exact ⟨NeverRaises.mapError hp.1 hg, Commits.mapError hp.2 hg⟩

/-- A checked program leaves nothing uncommitted. -/
theorem Checked.commits (hp : p.Checked P V) : p.Commits P V true := by
  induction p with
  | ret a => rfl
  | raise e => exact fun _ => rfl
  | select st k ih => exact fun l s => ih l s (hp l s)
  | execute | commit | rollback | assign => exact hp.2

/-- It checks before it writes, whatever else may be written first. -/
theorem Checked.checksFirst (hp : p.Checked P V) : p.ChecksFirst P W l := by
  induction p generalizing l with
  | ret a | raise e => trivial
  | select st k ih => exact fun s => ih l s (hp l s)
  | execute => exact .inr hp.1
  | commit | rollback | assign => exact NeverRaises.checksFirst hp.1

/-! ### Writes under the variables of the session -/

/-- A program that only reads ends under the variables that it has started under. -/
theorem ReadOnly.writesFrom (hp : p.ReadOnly) (hQ : ∀ a, Q l a) (hE : E l) :
    p.WritesFrom W Q E l := by
  induction p with
  | ret a => exact hQ a
  | raise e => exact hE
  | select st k ih => exact fun s => ih l s (hp l s)
  | execute | commit | rollback | assign => exact hp.elim

/-- What holds in the end may be weakened. -/
theorem WritesFrom.mono {Q'' : ℓ → α → Prop} (hp : p.WritesFrom W Q E l)
    (hQ : ∀ l a, Q l a → Q'' l a) (hE : ∀ l, E l → E' l) : p.WritesFrom W Q'' E' l := by
  induction p generalizing l with
  | ret a => exact hQ l a hp
  | raise e => exact hE l hp
  | select st k ih => exact fun s => ih l s (hp s)
  | execute st w ok err ihok iherr => exact ⟨hp.1, ihok hp.2.1, fun e => iherr e (hp.2.2 e)⟩
  | commit k ih | rollback k ih | assign l k ih => exact ih hp

/-- The second program starts under the variables and with the result of the first one. -/
theorem WritesFrom.bind (hp : p.WritesFrom W Q E l)
    (hf : ∀ l a, Q l a → (f a).WritesFrom W Q' E l) : (p.bind f).WritesFrom W Q' E l := by
  induction p generalizing l with
  | ret a => exact hf l a hp
  | raise e => exact hp
  | select st k ih => exact fun s => ih l s (hp s)
  | execute st w ok err ihok iherr => exact ⟨hp.1, ihok hp.2.1, fun e => iherr e (hp.2.2 e)⟩
  | commit k ih | rollback k ih | assign l k ih => exact ih hp

/-- The handler starts under the variables that the error was raised under. -/
theorem WritesFrom.recover {h : ε → Prog σ κ ℓ τ ε α} (hp : p.WritesFrom W Q E l)
    (hh : ∀ l e, E l → (h e).WritesFrom W Q E' l) : (p.recover h).WritesFrom W Q E' l := by
  induction p generalizing l with
  | ret a => exact hp
  | raise e => exact hh l e hp
  | select st k ih => exact fun s => ih l s (hp s)
  | execute st w ok err ihok iherr => exact ⟨hp.1, ihok hp.2.1, fun e => iherr e (hp.2.2 e)⟩
  | commit k ih | rollback k ih | assign l k ih => exact ih hp

/-- The names of the errors do not matter. -/
theorem WritesFrom.mapError (hp : p.WritesFrom W Q E l) (g : ε → ε') :
    (p.mapError g).WritesFrom W Q E l := by
  induction p generalizing l with
  | ret a | raise e => exact hp
  | select st k ih => exact fun s => ih l s (hp s)
  | execute st w ok err ihok iherr => exact ⟨hp.1, ihok hp.2.1, fun e => iherr e (hp.2.2 e)⟩
  | commit k ih | rollback k ih | assign l k ih => exact ih hp

/-- What writes only what is allowed, and a program that checks. -/
theorem WritesFrom.bind_checksFirst (hp : p.WritesFrom W Q E l)
    (hf : ∀ l a, Q l a → (f a).ChecksFirst P W l) : (p.bind f).ChecksFirst P W l := by
  induction p generalizing l with
  | ret a => exact hf l a hp
  | raise e => trivial
  | select st k ih => exact fun s => ih l s (hp s)
  | execute st w ok err ihok iherr =>
    exact .inl ⟨hp.1, ihok hp.2.1, fun e => iherr e (hp.2.2 e)⟩
  | commit k ih | rollback k ih | assign l k ih => exact ih hp

end Prog

/-! ## Among others -/

namespace World

variable [DecidableEq ι] {P : ε → Prop} {W : ℓ → σ → Write σ κ → Prop}
  {w w' : World ι σ κ ℓ τ ε α} {i : ι}

/-- The session has written only what is allowed so far and checks first. -/
structure Checking (P : ε → Prop) (W : ℓ → σ → Write σ κ → Prop) (S : Session σ κ ℓ τ ε α) :
    Prop where
  pending : ∀ wr ∈ S.pending, ∃ l s, W l s wr
  prog : S.prog.ChecksFirst P W S.vars

/-- The session is checking, or raises no error of the kind. -/
def ChecksFirst (P : ε → Prop) (W : ℓ → σ → Write σ κ → Prop) (S : Session σ κ ℓ τ ε α) : Prop :=
  Checking P W S ∨ S.prog.NeverRaises P

omit [DecidableEq ι] in
/-- A session that starts the program checks first. -/
theorem checksFirst_start {l : ℓ} {p : Prog σ κ ℓ τ ε α} (hp : p.ChecksFirst P W l) :
    ChecksFirst P W (Session.start l p) :=
  .inl ⟨fun _ h => absurd h List.not_mem_nil, hp⟩

variable [Fintype ι] [DecidableEq κ]

/-- A session that raises no error of the kind goes on so. -/
theorem neverRaises_step (h : (w.sessions i).prog.NeverRaises P) (hs : w.step i = some w') :
    (w'.sessions i).prog.NeverRaises P := by
  cases move_of_step hs with
  | closeRet | closeRaise =>
    rw [put_sessions, Function.update_self]
    exact h
  | select hp =>
    rw [hp] at h
    rw [put_sessions, Function.update_self]
    exact h _ _
  | ok hp hf =>
    rw [hp] at h
    rw [put_sessions, Function.update_self]
    exact h.1
  | error hp hf =>
    rw [hp] at h
    rw [put_sessions, Function.update_self]
    exact h.2 _
  | commit hp =>
    rw [hp] at h
    rw [publish_sessions, Function.update_self]
    exact h
  | rollback hp | assign hp =>
    rw [hp] at h
    rw [put_sessions, Function.update_self]
    exact h

/-- Over a run no such error is raised, if the program raises none. -/
theorem neverRaises_exec {sched : List ι} (h : (w.sessions i).prog.NeverRaises P)
    (hexec : w.exec sched = some w') : (w'.sessions i).prog.NeverRaises P := by
  refine exec_induction (C := fun _ _ => True)
    (I := fun w => (w.sessions i).prog.NeverRaises P) (fun w j w' hw _ hs => ?_) h
    (always_true w sched) hexec
  by_cases hj : i = j
  · subst hj
    exact neverRaises_step hw hs
  · rwa [step_sessions_of_ne hs hj]

/-- A session that checks goes on so, or raises no error of the kind from here on. -/
theorem Checking.step (h : Checking P W (w.sessions i)) (hs : w.step i = some w') :
    ChecksFirst P W (w'.sessions i) := by
  obtain ⟨hpending, hprog⟩ := h
  have hended : ∀ wr ∈ ([] : List (Write σ κ)), ∃ l s, W l s wr :=
    fun _ hwr => absurd hwr List.not_mem_nil
  cases move_of_step hs with
  | closeRet | closeRaise =>
    rw [put_sessions, Function.update_self]
    exact .inl ⟨hended, hprog⟩
  | select hp =>
    rw [hp] at hprog
    rw [put_sessions, Function.update_self]
    exact .inl ⟨hpending, hprog _⟩
  | ok hp hf =>
    rw [hp] at hprog
    rw [put_sessions, Function.update_self]
    rcases hprog with ⟨hw, hok, -⟩ | hnever
    · refine .inl ⟨fun wr hwr => ?_, hok⟩
      rcases List.mem_append.mp hwr with hwr | hwr
      · exact hpending wr hwr
      · rw [List.mem_singleton.mp hwr]
        exact ⟨_, _, hw _ _ hf⟩
    · exact .inr hnever.1
  | error hp hf =>
    rw [hp] at hprog
    rw [put_sessions, Function.update_self]
    rcases hprog with ⟨-, -, herr⟩ | hnever
    · exact .inl ⟨hended, herr _⟩
    · exact .inr (hnever.2 _)
  | commit hp =>
    rw [hp] at hprog
    rw [publish_sessions, Function.update_self]
    exact .inl ⟨hended, hprog⟩
  | rollback hp =>
    rw [hp] at hprog
    rw [put_sessions, Function.update_self]
    exact .inl ⟨hended, hprog⟩
  | assign hp =>
    rw [hp] at hprog
    rw [put_sessions, Function.update_self]
    exact .inl ⟨hpending, hprog⟩

/-- Over a whole run. -/
theorem ChecksFirst.exec {sched : List ι} (h : ChecksFirst P W (w.sessions i))
    (hexec : w.exec sched = some w') : ChecksFirst P W (w'.sessions i) := by
  refine exec_induction (C := fun _ _ => True) (I := fun w => ChecksFirst P W (w.sessions i))
    (fun w j w' hw _ hs => ?_) h (always_true w sched) hexec
  by_cases hj : i = j
  · subst hj
    rcases hw with hchecking | hnever
    · exact hchecking.step hs
    · exact .inr (neverRaises_step hnever hs)
  · rwa [step_sessions_of_ne hs hj]

/-- Each step of a request that is refused in the end changes the committed data as the allowed
writes do. -/
theorem ChecksFirst.rel_of_raise {R : σ → σ → Prop} {w₁ w₂ : World ι σ κ ℓ τ ε α}
    {before after : List ι} {e : ε} (h : ChecksFirst P W (w.sessions i)) (hrefl : ∀ s, R s s)
    (htrans : ∀ {s t u}, R s t → R t u → R s u) (hW : ∀ l s wr, W l s wr → ∀ t, R t (wr.effect t))
    (hbefore : w.exec before = some w₁) (hs : w₁.step i = some w₂)
    (hafter : w₂.exec after = some w') (he : (w'.sessions i).prog = .raise e) (hP : P e) :
    R w₁.committed w₂.committed := by
  rcases h.exec hbefore with ⟨hpending, -⟩ | hnever
  · obtain ⟨-, -, -, -, hcommitted | ⟨-, -, hcommitted⟩⟩ := step_spec hs
    · rw [hcommitted]
      exact hrefl _
    · rw [hcommitted]
      refine Local.view_of_pending (J := R w₁.committed) (fun wr hwr t ht => ?_) (hrefl _)
      obtain ⟨l, s, hwr⟩ := hpending wr hwr
      exact htrans ht (hW l s wr hwr t)
  · have hend := neverRaises_exec (neverRaises_step hnever hs) hafter
    rw [he] at hend
    exact absurd hP hend

/-- The rest of the session commits all that it leaves uncommitted now, apart from writes that `V`
allows. -/
def Commits (P : ε → Prop) (V : ℓ → σ → Write σ κ → Prop) (S : Session σ κ ℓ τ ε α) : Prop :=
  ∃ clean, S.prog.Commits P V clean ∧ (clean = true → ∀ wr ∈ S.pending, ∃ l s, V l s wr)

variable {V : ℓ → σ → Write σ κ → Prop}

omit [DecidableEq ι] [Fintype ι] [DecidableEq κ] in
/-- A session starts with nothing uncommitted. -/
theorem commits_start {l : ℓ} {p : Prog σ κ ℓ τ ε α} (hp : p.Commits P V true) :
    Commits P V (Session.start l p) :=
  ⟨true, hp, fun _ _ h => absurd h List.not_mem_nil⟩

/-- A step of the session leaves what holds at its start. -/
theorem Commits.step (h : Commits P V (w.sessions i)) (hs : w.step i = some w') :
    Commits P V (w'.sessions i) := by
  obtain ⟨clean, hprog, hpending⟩ := h
  have hended : true = true → ∀ wr ∈ ([] : List (Write σ κ)), ∃ l s, V l s wr :=
    fun _ _ hwr => absurd hwr List.not_mem_nil
  cases move_of_step hs with
  | closeRet hp =>
    rw [put_sessions, Function.update_self]
    refine ⟨true, ?_, hended⟩
    simp only [Session.close, hp]
    rfl
  | closeRaise hp =>
    rw [put_sessions, Function.update_self]
    refine ⟨true, ?_, hended⟩
    simp only [Session.close, hp]
    exact fun _ => rfl
  | select hp =>
    rw [hp] at hprog
    rw [put_sessions, Function.update_self]
    exact ⟨clean, hprog _ _, hpending⟩
  | ok hp hf =>
    rw [hp] at hprog
    rw [put_sessions, Function.update_self]
    rcases hprog.1 with hok | ⟨hw, hok⟩
    · exact ⟨false, hok, fun h => absurd h Bool.false_ne_true⟩
    · refine ⟨clean, hok, fun hclean wr hwr => ?_⟩
      rcases List.mem_append.mp hwr with hwr | hwr
      · exact hpending hclean wr hwr
      · rw [List.mem_singleton.mp hwr]
        exact ⟨_, _, hw _ _ _ hf⟩
  | error hp hf =>
    rw [hp] at hprog
    rw [put_sessions, Function.update_self]
    exact ⟨true, hprog.2 _, hended⟩
  | commit hp =>
    rw [hp] at hprog
    rw [publish_sessions, Function.update_self]
    exact ⟨true, hprog, hended⟩
  | rollback hp =>
    rw [hp] at hprog
    rw [put_sessions, Function.update_self]
    exact ⟨true, hprog, hended⟩
  | assign hp =>
    rw [hp] at hprog
    rw [put_sessions, Function.update_self]
    exact ⟨clean, hprog, hpending⟩

/-- What a request that has returned leaves uncommitted is allowed to be so. -/
theorem Commits.pending_of_ret {sched : List ι} {a : α} (h : Commits P V (w.sessions i))
    (hexec : w.exec sched = some w') (hret : (w'.sessions i).prog = .ret a) :
    ∀ wr ∈ (w'.sessions i).pending, ∃ l s, V l s wr := by
  have hend : Commits P V (w'.sessions i) := by
    refine exec_induction (C := fun _ _ => True) (I := fun w => Commits P V (w.sessions i))
      (fun w j w' hw _ hs => ?_) h (always_true w sched) hexec
    by_cases hj : i = j
    · subst hj
      exact Commits.step hw hs
    · rwa [step_sessions_of_ne hs hj]
  obtain ⟨clean, hprog, hpending⟩ := hend
  rw [hret] at hprog
  exact hpending hprog

end World

/-! ## The statements of a table -/

namespace TableDef

variable {ρ π : Type} [DecidableEq π] {key : ρ → π} {T : TableDef σ κ ℓ τ key} {P : ε → Prop}

/-- A lookup raises nothing. -/
theorem neverRaises_get (k : π) : (T.get k : Prog σ κ ℓ τ ε (Option ρ)).NeverRaises P :=
  fun _ _ => trivial

variable [OfDbError ε] (hdb : ∀ e, ¬ P (OfDbError.ofDbError e))

include hdb

/-- An insert raises errors of the database only. -/
theorem neverRaises_insert (r : ρ) : (T.insert r : Prog σ κ ℓ τ ε Unit).NeverRaises P :=
  ⟨trivial, hdb⟩

/-- So does an update. -/
theorem neverRaises_update {k : π} {f : ρ → Option ρ}
    {hf : ∀ r r', f r = some r' → key r' = key r} :
    (T.update k f hf : Prog σ κ ℓ τ ε Unit).NeverRaises P := ⟨trivial, hdb⟩

/-- So does a deletion. -/
theorem neverRaises_delete (k : π) : (T.delete k : Prog σ κ ℓ τ ε Unit).NeverRaises P :=
  ⟨trivial, hdb⟩

/-- So does a deletion past the policies. -/
theorem neverRaises_definerDelete (st : τ) (p : σ → ρ → Bool) :
    (T.definerDelete st p : Prog σ κ ℓ τ ε Unit).NeverRaises P := ⟨trivial, hdb⟩

end TableDef

end Sql
