import Mathlib.Data.Int.Notation
import Mathlib.Data.Nat.Notation
import Mathlib.Logic.Function.Basic

/-!
# Counters that expire

A store maps keys to counters. A counter may have an expiry, a time in whole seconds, from which on
the store behaves as if the key was not there. The commands are those of Redis that a script may
call: `INCR`, `EXPIRE` and `TTL`. Each takes the store as it is at the time of the call, so a script
first drops what has expired (`Store.purge`).
-/

namespace Redis

/-- The value under a key, and the time it expires at, if it does. -/
structure Counter where
  value : ℕ
  expiresAt : Option ℕ
  deriving DecidableEq, Repr

/-- What the keys hold. -/
def Store (κ : Type) := κ → Option Counter

namespace Store

variable {κ : Type}

/-- The store without a key. -/
def empty : Store κ := fun _ => none

/-- The value under the key, which is 0 for `INCR` when there is none. -/
def value (s : Store κ) (k : κ) : ℕ := (s k).elim 0 Counter.value

/-- The keys that are alive at `now`. -/
def purge (now : ℕ) (s : Store κ) : Store κ :=
  fun k => (s k).filter fun c => c.expiresAt.all (now < ·)

/-- `TTL`: -2 without the key, -1 without an expiry. -/
def ttl (k : κ) (now : ℕ) (s : Store κ) : ℤ :=
  match s k with
  | none => -2
  | some ⟨_, none⟩ => -1
  | some ⟨_, some e⟩ => (e : ℤ) - now

@[simp] theorem empty_apply (k : κ) : (empty : Store κ) k = none := rfl

/-- A counter that is alive stays, as it is. -/
theorem purge_eq_some {s : Store κ} {k : κ} {c : Counter} {now : ℕ} :
    s.purge now k = some c ↔ s k = some c ∧ ∀ e, c.expiresAt = some e → now < e := by
  simp [purge, Option.filter_eq_some_iff, Option.all_eq_true]

/-- A counter that has not expired keeps its value. -/
theorem value_purge_of_alive {s : Store κ} {k : κ} {now : ℕ}
    (h : ∀ c e, s k = some c → c.expiresAt = some e → now < e) :
    (s.purge now).value k = s.value k := by
  cases hk : s k with
  | none => simp [value, purge, hk]
  | some c =>
    have hc : s.purge now k = some c := purge_eq_some.mpr ⟨hk, fun e he => h c e hk he⟩
    simp [value, hk, hc]

/-- The time to live is what is left until it expires. -/
theorem ttl_of_expiresAt {k : κ} {s : Store κ} {c : Counter} {e : ℕ} (h : s k = some c)
    (he : c.expiresAt = some e) (now : ℕ) : s.ttl k now = (e : ℤ) - now := by
  obtain ⟨v, _⟩ := c
  subst he
  simp [ttl, h]

variable [DecidableEq κ]

/-- `INCR`: a new key starts without an expiry, an old one keeps its own. -/
def incr (k : κ) (s : Store κ) : ℕ × Store κ :=
  (s.value k + 1,
    Function.update s k (some ⟨s.value k + 1, (s k).bind Counter.expiresAt⟩))

/-- `EXPIRE` -/
def expire (k : κ) (seconds now : ℕ) (s : Store κ) : Store κ :=
  match s k with
  | none => s
  | some c => Function.update s k (some { c with expiresAt := some (now + seconds) })

@[simp] theorem incr_fst (k : κ) (s : Store κ) : (s.incr k).1 = s.value k + 1 := rfl

@[simp] theorem incr_snd_self (k : κ) (s : Store κ) :
    (s.incr k).2 k = some ⟨s.value k + 1, (s k).bind Counter.expiresAt⟩ :=
  Function.update_self ..

/-- `INCR` leaves the other keys. -/
theorem incr_snd_of_ne {k k' : κ} (h : k' ≠ k) (s : Store κ) : (s.incr k).2 k' = s k' :=
  Function.update_of_ne h ..

/-- `EXPIRE` sets when the counter expires. -/
theorem expire_self {k : κ} {s : Store κ} {c : Counter} (h : s k = some c) (seconds now : ℕ) :
    s.expire k seconds now k = some { c with expiresAt := some (now + seconds) } := by
  simp only [expire, h]
  exact Function.update_self ..

/-- It leaves the other keys. -/
theorem expire_of_ne {k k' : κ} (h : k' ≠ k) (seconds now : ℕ) (s : Store κ) :
    s.expire k seconds now k' = s k' := by
  cases hk : s k with
  | none => simp only [expire, hk]
  | some c =>
    simp only [expire, hk]
    exact Function.update_of_ne h ..

end Store

end Redis
