import Mathlib.Logic.Function.Basic
import OburBackend.Uuid

/-!
# The identity of a session on pooled connections (`app/core/database.py`)

A session takes a connection from the pool at the start of each transaction and gives it back at the
end. `SET LOCAL` writes the caller's id to a setting of the connection, which lasts until the end of
the transaction; what makes it last for the session is the `after_begin` listener, which writes it
again from `session.info` whenever a transaction begins. This works for every order in which
sessions take turns on the connections (`Pool.inv_exec`): a statement runs under the identity that
its own session has set last, and under none when it has set none.
-/

namespace OburBackend

/-- `current_setting('app.current_user_id', true)`, where `none` is `NULL`. -/
abbrev Setting := Option String

/-- `NULLIF(value, text)` -/
def nullif (value : Setting) (text : String) : Setting := value.filter fun t => decide (t ≠ text)

/-- `rls_current_user_id()`: `NULL` or an id. The outer `none` is the error of a cast to `uuid` from
a text that is no id. -/
def rlsCurrentUserId (setting : Setting) : Option (Option Uuid) :=
  match nullif setting "" with
  | none => some none
  | some text => (Uuid.parse text).map some

/-- What is left of a setting after its transaction, or after `SET LOCAL ... TO DEFAULT`. -/
inductive Leftover where
  | unset
  | emptyText
  deriving DecidableEq, Repr

def Leftover.setting : Leftover → Setting
  | .unset => none
  | .emptyText => some ""

/-- `_apply_rls_identity_on_new_transaction`: the setting of the connection whose transaction
begins, for what `session.info` holds. -/
def applyRlsIdentityOnNewTransaction (info : Option Uuid) (setting : Setting) : Setting :=
  match info with
  | none => setting
  | some userId => some userId.str

/-- A session: what `session.info` holds under the identity's key, the connection of its open
transaction, and whether an error has aborted that transaction. -/
structure DbSession (κ : Type) where
  info : Option Uuid
  connection : Option κ
  aborted : Bool

/-- A connection: its setting, and the session whose transaction is open on it. -/
structure Connection (ι : Type) where
  setting : Setting
  holder : Option ι

/-- The connections of the pool, and the sessions that take turns on them. -/
structure Pool (ι κ : Type) where
  connections : κ → Connection ι
  sessions : ι → DbSession κ

/-- What a session does. A transaction that begins on the way does so on the connection `c`. -/
inductive SessionAction (κ : Type) where
  /-- A statement that runs. -/
  | execute (c : κ)
  /-- A statement that raises, which aborts the transaction. -/
  | fail (c : κ)
  | commit (left : Leftover)
  | rollback (left : Leftover)
  | setCurrentUserIdentity (userId : Uuid) (c : κ)
  | clearCurrentUserIdentity (c : κ) (left : Leftover)

namespace Pool

variable {ι κ : Type} [DecidableEq ι] [DecidableEq κ]

/-- The pool before the first request: every session is new, and a connection is as it was when it
was opened, or as an earlier transaction has left it. -/
def start (left : κ → Leftover) : Pool ι κ where
  connections c := ⟨(left c).setting, none⟩
  sessions _ := ⟨none, none, false⟩

/-- The pool with the session `i` and the connection `c` replaced. -/
def put (w : Pool ι κ) (i : ι) (S : DbSession κ) (c : κ) (conn : Connection ι) : Pool ι κ where
  connections := Function.update w.connections c conn
  sessions := Function.update w.sessions i S

/-- Write to `session.info`. -/
def record (w : Pool ι κ) (i : ι) (info : Option Uuid) : Pool ι κ :=
  { w with sessions := Function.update w.sessions i { w.sessions i with info } }

/-- Begin a transaction on the connection `c`, unless one is open. A connection on which another
session has one open is not to be had. -/
def begin (w : Pool ι κ) (i : ι) (c : κ) : Option (Pool ι κ) :=
  let S := w.sessions i
  match S.connection with
  | some _ => some w
  | none =>
    if (w.connections c).holder.isSome then none
    else some (w.put i { S with connection := some c } c
      { setting := applyRlsIdentityOnNewTransaction S.info (w.connections c).setting
        holder := some i })

/-- `SET LOCAL` on the open transaction, which raises in an aborted one. -/
def setLocal (w : Pool ι κ) (i : ι) (setting : Setting) : Pool ι κ :=
  let S := w.sessions i
  match S.connection with
  | none => w
  | some c => if S.aborted then w else w.put i S c { w.connections c with setting }

/-- An error aborts the open transaction. -/
def abort (w : Pool ι κ) (i : ι) : Pool ι κ :=
  { w with sessions := Function.update w.sessions i { w.sessions i with aborted := true } }

/-- End the open transaction and give its connection back. -/
def finish (w : Pool ι κ) (i : ι) (left : Leftover) : Pool ι κ :=
  let S := w.sessions i
  match S.connection with
  | none => w
  | some c =>
    w.put i { S with connection := none, aborted := false } c ⟨left.setting, none⟩

/-- One action of session `i`, if it can happen: no statement runs in an aborted transaction. -/
def step (w : Pool ι κ) (i : ι) : SessionAction κ → Option (Pool ι κ)
  | .execute c => if (w.sessions i).aborted then none else w.begin i c
  | .fail c => (w.begin i c).map fun w => w.abort i
  | .commit left | .rollback left => some (w.finish i left)
  | .setCurrentUserIdentity userId c =>
    ((w.record i (some userId)).begin i c).map fun w => w.setLocal i (some userId.str)
  | .clearCurrentUserIdentity c left =>
    ((w.record i none).begin i c).map fun w => w.setLocal i left.setting

/-- A run: the sessions take turns in the order listed. -/
def exec (w : Pool ι κ) : List (ι × SessionAction κ) → Option (Pool ι κ)
  | [] => some w
  | (i, a) :: rest => (w.step i a).bind fun w' => w'.exec rest

/-- What `rls_current_user_id()` evaluates to in the open transaction of session `i`. -/
def currentUserId (w : Pool ι κ) (i : ι) : Option (Option Uuid) :=
  match (w.sessions i).connection with
  | none => none
  | some c => rlsCurrentUserId (w.connections c).setting

/-- The identity after an action, from the identity before it: what the two functions are meant to
do. -/
def identityAfter (identity : Option Uuid) : SessionAction κ → Option Uuid
  | .setCurrentUserIdentity userId _ => some userId
  | .clearCurrentUserIdentity .. => none
  | .execute _ | .fail _ | .commit _ | .rollback _ => identity

/-- The identity that session `i` has set last in a run and not cleared since. -/
def latest (i : ι) (run : List (ι × SessionAction κ)) : Option Uuid :=
  run.foldl (fun identity e => if e.1 = i then identityAfter identity e.2 else identity) none

/-! ## The invariant -/

/-- A setting under which a statement has the given identity. -/
def Carries : Option Uuid → Setting → Prop
  | none, setting => setting = none ∨ setting = some ""
  | some userId, setting => setting = some userId.str

/-- What a session leaves on its connection is no identity. -/
theorem carries_leftover (left : Leftover) : Carries none left.setting := by
  cases left with
  | unset => exact .inl rfl
  | emptyText => exact .inr rfl

/-- The listener turns the setting of an idle connection into one for the session's identity. -/
theorem carries_apply {info : Option Uuid} {setting : Setting} (h : Carries none setting) :
    Carries info (applyRlsIdentityOnNewTransaction info setting) := by
  cases info with
  | none => exact h
  | some userId => rfl

/-- `rls_current_user_id()` reads the identity back: the empty text reads as `NULL`, and an id as
the id that was printed. -/
theorem rlsCurrentUserId_of_carries {identity : Option Uuid} {setting : Setting}
    (h : Carries identity setting) : rlsCurrentUserId setting = some identity := by
  cases identity with
  | none =>
    rcases h with rfl | rfl
    · rfl
    · rfl
  | some userId =>
    obtain rfl : setting = some userId.str := h
    have hne : nullif (some userId.str) "" = some userId.str := by
      simp [nullif, Uuid.str_ne_empty]
    simp only [rlsCurrentUserId, hne, Uuid.parse_str, Option.map_some]

/-- The state of the pool when the sessions have the given identities. `dirty` is a session whose
identity has changed and whose open transaction does not know it yet. -/
structure Inv (w : Pool ι κ) (identity : ι → Option Uuid) (dirty : Option ι) : Prop where
  /-- `session.info` holds the identity. -/
  info : ∀ i, (w.sessions i).info = identity i
  /-- A session and its connection know of each other. -/
  holder : ∀ i c, (w.sessions i).connection = some c ↔ (w.connections c).holder = some i
  /-- A connection in the pool carries no identity. -/
  idle : ∀ c, (w.connections c).holder = none → Carries none (w.connections c).setting
  /-- A connection in use carries the identity of its session. -/
  inUse : ∀ i c, dirty ≠ some i → (w.sessions i).connection = some c →
    (w.sessions i).aborted = false → Carries (identity i) (w.connections c).setting

variable {w w' : Pool ι κ} {identity : ι → Option Uuid} {dirty : Option ι} {i : ι} {c : κ}

omit [DecidableEq ι] [DecidableEq κ] in
/-- At first no connection is checked out and no identity is set. -/
theorem inv_start (left : κ → Leftover) : (start left : Pool ι κ).Inv (fun _ => none) none where
  info _ := rfl
  holder _ _ := by simp [start]
  idle c _ := carries_leftover (left c)
  inUse _ _ _ h := by simp [start] at h

namespace Inv

omit [DecidableEq κ] in
/-- Writing to `session.info` changes the identity, and leaves the open transaction behind. -/
theorem record (h : w.Inv identity none) (info : Option Uuid) :
    (w.record i info).Inv (Function.update identity i info) (some i) where
  info j := by
    by_cases hj : j = i
    · subst hj
      simp [Pool.record]
    · simpa [Pool.record, Function.update_of_ne hj] using h.info j
  holder j c := by
    by_cases hj : j = i
    · subst hj
      simpa [Pool.record] using h.holder j c
    · simpa [Pool.record, Function.update_of_ne hj] using h.holder j c
  idle := h.idle
  inUse j c hdirty hconn halive := by
    have hj : j ≠ i := fun hj => hdirty (by rw [hj])
    simp only [Pool.record, Function.update_of_ne hj] at hconn halive ⊢
    exact h.inUse j c nofun hconn halive

/-- Replacing a session and the connection that it has, takes or gives back. -/
theorem put {dirty' : Option ι} {S : DbSession κ} {conn : Connection ι} (h : w.Inv identity dirty)
    (hinfo : S.info = identity i) (hconn : ∀ c', (w.sessions i).connection = some c' → c' = c)
    (hheld : ∀ j, (w.connections c).holder = some j → j = i)
    (hholder : S.connection = some c ∧ conn.holder = some i ∨
      S.connection = none ∧ conn.holder = none)
    (hidle : conn.holder = none → Carries none conn.setting)
    (hinUse : dirty' ≠ some i → conn.holder = some i → S.aborted = false →
      Carries (identity i) conn.setting)
    (hdirty : ∀ j, j ≠ i → dirty' ≠ some j → dirty ≠ some j) :
    (w.put i S c conn).Inv identity dirty' where
  info j := by
    by_cases hj : j = i
    · subst hj
      simpa [Pool.put] using hinfo
    · simpa [Pool.put, Function.update_of_ne hj] using h.info j
  holder j c' := by
    by_cases hj : j = i
    · subst hj
      by_cases hc : c' = c
      · subst hc
        rcases hholder with ⟨h1, h2⟩ | ⟨h1, h2⟩
        · simp [Pool.put, h1, h2]
        · simp [Pool.put, h1, h2]
      · have hnot : (w.connections c').holder ≠ some j :=
          fun hh => hc (hconn c' ((h.holder j c').mpr hh))
        rcases hholder with ⟨h1, h2⟩ | ⟨h1, h2⟩
        · simpa [Pool.put, Function.update_of_ne hc, h1, Ne.symm hc] using hnot
        · simpa [Pool.put, Function.update_of_ne hc, h1] using hnot
    · by_cases hc : c' = c
      · subst hc
        have hnot : (w.sessions j).connection ≠ some c' :=
          fun hh => hj (hheld j ((h.holder j c').mp hh))
        rcases hholder with ⟨h1, h2⟩ | ⟨h1, h2⟩
        · simpa [Pool.put, Function.update_of_ne hj, h2, Ne.symm hj] using hnot
        · simpa [Pool.put, Function.update_of_ne hj, h2] using hnot
      · simpa [Pool.put, Function.update_of_ne hj, Function.update_of_ne hc] using h.holder j c'
  idle c' := by
    by_cases hc : c' = c
    · subst hc
      simpa [Pool.put] using hidle
    · simpa [Pool.put, Function.update_of_ne hc] using h.idle c'
  inUse j c' hd hj' halive := by
    by_cases hj : j = i
    · subst hj
      simp only [Pool.put, Function.update_self] at hj' halive ⊢
      rcases hholder with ⟨h1, h2⟩ | ⟨h1, h2⟩
      · obtain rfl : c = c' := Option.some.inj (h1.symm.trans hj')
        rw [Function.update_self]
        exact hinUse hd h2 halive
      · rw [h1] at hj'
        cases hj'
    · simp only [Pool.put, Function.update_of_ne hj] at hj' halive ⊢
      have hc : c' ≠ c := fun hc => hj (hheld j ((h.holder j c).mp (hc ▸ hj')))
      rw [Function.update_of_ne hc]
      exact h.inUse j c' (hdirty j hj hd) hj' halive

/-- A transaction begins on an idle connection, and the listener makes it carry the identity. -/
theorem begin (h : w.Inv identity dirty) (hbegin : w.begin i c = some w') :
    w'.Inv identity dirty := by
  unfold Pool.begin at hbegin
  dsimp only at hbegin
  split at hbegin
  · cases hbegin
    exact h
  · next hnone =>
    split at hbegin
    · cases hbegin
    · next hfree =>
      have hfree : (w.connections c).holder = none := by simpa using hfree
      cases hbegin
      refine h.put (h.info i) ?_ ?_ (.inl ⟨rfl, rfl⟩) nofun ?_ fun j _ hd => hd
      · intro c' hc'
        rw [hnone] at hc'
        cases hc'
      · intro j hj
        rw [hfree] at hj
        cases hj
      · intro _ _ _
        dsimp only
        rw [h.info i]
        exact carries_apply (h.idle c hfree)

/-- `SET LOCAL` brings the open transaction up to date. -/
theorem setLocal (h : w.Inv identity (some i)) {setting : Setting}
    (hsetting : Carries (identity i) setting) : (w.setLocal i setting).Inv identity none := by
  have hclean : ∀ j, j ≠ i → (none : Option ι) ≠ some j → some i ≠ some j :=
    fun j hj _ hij => hj (Option.some.inj hij).symm
  unfold Pool.setLocal
  dsimp only
  split
  · next hnone =>
    refine ⟨h.info, h.holder, h.idle, fun j c _ hj halive => ?_⟩
    have hij : j ≠ i := by
      rintro rfl
      rw [hnone] at hj
      cases hj
    exact h.inUse j c (fun hd => hij (Option.some.inj hd).symm) hj halive
  · next c hc =>
    have hheld := (h.holder i c).mp hc
    split
    · next habort =>
      refine ⟨h.info, h.holder, h.idle, fun j c _ hj halive => ?_⟩
      have hij : j ≠ i := by
        rintro rfl
        rw [habort] at halive
        cases halive
      exact h.inUse j c (fun hd => hij (Option.some.inj hd).symm) hj halive
    · refine h.put (h.info i) ?_ ?_ (.inl ⟨hc, hheld⟩) ?_ (fun _ _ _ => hsetting) hclean
      · intro c' hc'
        exact Option.some.inj (hc'.symm.trans hc)
      · intro j hj
        exact Option.some.inj (hj.symm.trans hheld)
      · intro hfree
        exact absurd (hheld.symm.trans hfree) nofun

omit [DecidableEq κ] in
/-- An aborted transaction runs no more statements, so its setting does not matter. -/
theorem abort (h : w.Inv identity none) : (w.abort i).Inv identity none where
  info j := by
    by_cases hj : j = i
    · subst hj
      simpa [Pool.abort] using h.info j
    · simpa [Pool.abort, Function.update_of_ne hj] using h.info j
  holder j c := by
    by_cases hj : j = i
    · subst hj
      simpa [Pool.abort] using h.holder j c
    · simpa [Pool.abort, Function.update_of_ne hj] using h.holder j c
  idle := h.idle
  inUse j c hd hconn halive := by
    by_cases hj : j = i
    · subst hj
      simp [Pool.abort] at halive
    · simp only [Pool.abort, Function.update_of_ne hj] at hconn halive ⊢
      exact h.inUse j c hd hconn halive

/-- The end of a transaction gives back a connection that carries nothing. -/
theorem finish (h : w.Inv identity none) (left : Leftover) :
    (w.finish i left).Inv identity none := by
  unfold Pool.finish
  dsimp only
  split
  · exact h
  · next c hc =>
    have hheld := (h.holder i c).mp hc
    refine h.put (h.info i) ?_ ?_ (.inr ⟨rfl, rfl⟩) (fun _ => carries_leftover left) nofun
      fun _ _ _ => nofun
    · intro c' hc'
      exact Option.some.inj (hc'.symm.trans hc)
    · intro j hj
      exact Option.some.inj (hj.symm.trans hheld)

/-- One action. -/
theorem step {a : SessionAction κ} (h : w.Inv identity none) (hs : w.step i a = some w') :
    w'.Inv (Function.update identity i (identityAfter (identity i) a)) none := by
  have hsame : Function.update identity i (identity i) = identity :=
    Function.update_eq_self i identity
  cases a with
  | execute c =>
    simp only [Pool.step] at hs
    split at hs
    · cases hs
    · simpa only [identityAfter, hsame] using h.begin hs
  | fail c =>
    obtain ⟨w₁, hbegin, rfl⟩ := Option.map_eq_some_iff.mp hs
    simpa only [identityAfter, hsame] using (h.begin hbegin).abort
  | commit left | rollback left =>
    simp only [Pool.step, Option.some.injEq] at hs
    subst hs
    simpa only [identityAfter, hsame] using h.finish left
  | setCurrentUserIdentity userId c =>
    obtain ⟨w₁, hbegin, rfl⟩ := Option.map_eq_some_iff.mp hs
    refine ((h.record (some userId)).begin hbegin).setLocal ?_
    rw [Function.update_self]
    rfl
  | clearCurrentUserIdentity c left =>
    obtain ⟨w₁, hbegin, rfl⟩ := Option.map_eq_some_iff.mp hs
    refine ((h.record none).begin hbegin).setLocal ?_
    rw [Function.update_self]
    exact carries_leftover left

end Inv

/-- Every session's identity after a run that starts with the given identities. -/
def identities (identity : ι → Option Uuid) (run : List (ι × SessionAction κ)) (i : ι) :
    Option Uuid :=
  run.foldl (fun identity e => if e.1 = i then identityAfter identity e.2 else identity)
    (identity i)

omit [DecidableEq κ] in
/-- The identities of a run, action by action. -/
theorem identities_cons (identity : ι → Option Uuid) (i : ι) (a : SessionAction κ)
    (run : List (ι × SessionAction κ)) :
    identities identity ((i, a) :: run) =
      identities (Function.update identity i (identityAfter (identity i) a)) run := by
  funext j
  by_cases hj : j = i
  · subst hj
    simp [identities]
  · simp [identities, Function.update_of_ne hj, Ne.symm hj]

/-- A whole run. -/
theorem inv_exec {run : List (ι × SessionAction κ)} (h : w.Inv identity none)
    (hexec : w.exec run = some w') : w'.Inv (identities identity run) none := by
  induction run generalizing w identity with
  | nil =>
    cases hexec
    exact h
  | cons e run ih =>
    obtain ⟨i, a⟩ := e
    obtain ⟨w₁, hstep, hrest⟩ := Option.bind_eq_some_iff.mp hexec
    rw [identities_cons]
    exact ih (h.step hstep) hrest

/-- A statement that runs has an open transaction, and it is not aborted. -/
theorem connection_of_execute (hstep : w.step i (.execute c) = some w') :
    ∃ c', (w'.sessions i).connection = some c' ∧ (w'.sessions i).aborted = false := by
  simp only [Pool.step, Pool.begin] at hstep
  split at hstep
  · cases hstep
  · next halive =>
    rw [Bool.not_eq_true] at halive
    split at hstep
    · next c' hc' =>
      cases hstep
      exact ⟨c', hc', halive⟩
    · split at hstep
      · cases hstep
      · cases hstep
        exact ⟨c, by simp [Pool.put], by simpa [Pool.put] using halive⟩

/-- In every run, a statement that session `i` executes next evaluates `rls_current_user_id()` to
the identity that the session has set last, and to `NULL` when it has set none or cleared it. -/
theorem evaluates_latest (left : κ → Leftover) (run : List (ι × SessionAction κ)) (i : ι) (c : κ)
    (w w' : Pool ι κ) (hexec : (start left : Pool ι κ).exec run = some w)
    (hstep : w.step i (.execute c) = some w') : w'.currentUserId i = some (latest i run) := by
  have hw : w.Inv (identities (fun _ => none) run) none := inv_exec (inv_start left) hexec
  have hw' := hw.step hstep
  simp only [identityAfter, Function.update_eq_self] at hw'
  obtain ⟨c', hconn, halive⟩ := connection_of_execute hstep
  have hcarries := hw'.inUse i c' nofun hconn halive
  simp only [currentUserId, hconn]
  exact rlsCurrentUserId_of_carries hcarries

/-- A session sets its identity and works on after a commit, on the only connection. -/
def reusedRun : List (Bool × SessionAction Unit) :=
  [(true, .setCurrentUserIdentity 7 ()), (true, .commit .emptyText), (true, .execute ()),
    (true, .rollback .emptyText)]

/-- The next session on that connection does not inherit the identity. -/
theorem evaluates_latest_reusedRun :
    ∃ w w' : Pool Bool Unit, (start fun _ => .unset).exec reusedRun = some w ∧
      w.step false (.execute ()) = some w' ∧ w'.currentUserId false = some none :=
  ⟨_, _, rfl, rfl, evaluates_latest (fun _ => .unset) reusedRun false () _ _ rfl rfl⟩

end Pool

end OburBackend
