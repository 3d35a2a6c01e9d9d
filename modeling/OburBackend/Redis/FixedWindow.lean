import Mathlib.Algebra.Group.Nat.Defs
import Mathlib.Data.List.Basic
import OburBackend.Redis.Store

/-!
# Fixed windows

A caller's hits are counted by window: the counter's key names the window, and the counter expires a
window's length after the first hit it counts. The window is aligned to the clock and the expiry is
not, so the expiry comes after the window's end (`Store.Tracks.live`). As long as the window lasts,
its counter is therefore alive and holds the number of hits (`Store.Tracks.counted`), and its time
to live is what is left until a window's length after the first hit (`Store.Dates`). The keys of
past windows may hold anything, as no later hit asks for them.
-/

namespace Redis

/-- A caller's hit, at a time in whole seconds. -/
structure Hit (α : Type) where
  time : ℕ
  caller : α

variable {α κ : Type} [DecidableEq α] [DecidableEq κ]

/-- Count a hit under `k`. The first hit of a counter sets its expiry. -/
def Store.hit (k : κ) (seconds now : ℕ) (s : Store κ) : (ℕ × ℤ) × Store κ :=
  let counted := (s.purge now).incr k
  let s' := if counted.1 = 1 then counted.2.expire k seconds now else counted.2
  ((counted.1, s'.ttl k now), s')

@[simp] theorem Store.hit_count (k : κ) (seconds now : ℕ) (s : Store κ) :
    (s.hit k seconds now).1.1 = (s.purge now).value k + 1 := rfl

/-- A hit on one key leaves the others, apart from what has expired. -/
theorem Store.hit_of_ne {k k' : κ} (h : k' ≠ k) (seconds now : ℕ) (s : Store κ) :
    (s.hit k seconds now).2 k' = s.purge now k' := by
  simp only [Store.hit]
  split
  · rw [expire_of_ne h, incr_snd_of_ne h]
  · exact incr_snd_of_ne h _

/-- The counter that a hit leaves behind expires, no earlier than `stop`, if it expires no earlier
than that when it is new and when it is old. -/
theorem Store.hit_self {k : κ} {seconds now stop : ℕ} {s : Store κ}
    (hold : ∀ c, s.purge now k = some c → ∃ e, c.expiresAt = some e ∧ stop ≤ e)
    (hnew : stop ≤ now + seconds) :
    ∃ e, (s.hit k seconds now).2 k = some ⟨(s.purge now).value k + 1, some e⟩ ∧
      (s.hit k seconds now).1.2 = (e : ℤ) - now ∧ stop ≤ e := by
  have hcounter : ∃ e, (s.hit k seconds now).2 k = some ⟨(s.purge now).value k + 1, some e⟩ ∧
      stop ≤ e := by
    simp only [Store.hit, incr_fst, Nat.add_eq_right]
    split
    · exact ⟨now + seconds, expire_self (incr_snd_self ..) .., hnew⟩
    · next hvalue =>
      -- the counter has counted before, so it was there and keeps its expiry
      obtain ⟨c, hc⟩ : ∃ c, s.purge now k = some c := by
        by_contra hnone
        simp only [← Option.ne_none_iff_exists', not_not] at hnone
        exact hvalue (by simp [value, hnone])
      obtain ⟨e, he, hstop⟩ := hold c hc
      exact ⟨e, by rw [incr_snd_self, hc, Option.bind_some, he], hstop⟩
  obtain ⟨e, he, hstop⟩ := hcounter
  exact ⟨e, he, ttl_of_expiresAt he rfl now, hstop⟩

variable (key : α → ℕ → κ) (W : ℕ)

/-- The hits of the caller in window `w`. -/
def hitsIn (hist : List (Hit α)) (a : α) (w : ℕ) : ℕ :=
  hist.countP fun h => h.caller = a ∧ h.time / W = w

/-- What the store knows at time `now` of the hits so far. -/
structure Store.Tracks (hist : List (Hit α)) (now : ℕ) (s : Store κ) : Prop where
  live : ∀ k c, s k = some c →
    ∃ a w e, k = key a w ∧ c.expiresAt = some e ∧ W * (w + 1) ≤ e
  counted : ∀ a w, now < W * (w + 1) → s.value (key a w) = hitsIn W hist a w

variable {key W}

/-- Hits add up. -/
theorem hitsIn_append (hist hist' : List (Hit α)) (a : α) (w : ℕ) :
    hitsIn W (hist ++ hist') a w = hitsIn W hist a w + hitsIn W hist' a w :=
  List.countP_append

@[simp] theorem hitsIn_singleton (h : Hit α) (a : α) (w : ℕ) :
    hitsIn W [h] a w = if h.caller = a ∧ h.time / W = w then 1 else 0 := by
  simp [hitsIn, List.countP_singleton]

omit [DecidableEq κ] in
/-- The empty store knows of no hits. -/
theorem Store.tracks_empty (now : ℕ) : (Store.empty : Store κ).Tracks key W [] now where
  live k c h := by simp at h
  counted a w _ := rfl

omit [DecidableEq κ] in
/-- Time passes, and what the store knows stays true. -/
theorem Store.Tracks.later {hist : List (Hit α)} {now now' : ℕ} {s : Store κ}
    (hs : s.Tracks key W hist now) (h : now ≤ now') : s.Tracks key W hist now' where
  live := hs.live
  counted a w hw := hs.counted a w (by omega)

section

variable (hkey : Function.Injective2 key) {hist : List (Hit α)} {now : ℕ} {s : Store κ}

include hkey in
omit [DecidableEq κ] in
/-- A counter outlives its window. -/
theorem Store.Tracks.expiresAt (hs : s.Tracks key W hist now) {a : α} {w : ℕ} {c : Counter}
    (hc : s (key a w) = some c) : ∃ e, c.expiresAt = some e ∧ W * (w + 1) ≤ e := by
  obtain ⟨a', w', e, hk, he, hstop⟩ := hs.live _ c hc
  obtain ⟨-, rfl⟩ := hkey hk
  exact ⟨e, he, hstop⟩

include hkey in
omit [DecidableEq κ] in
/-- The counters of the windows that last are alive. -/
theorem Store.Tracks.purge (hs : s.Tracks key W hist now) {t : ℕ} (ht : now ≤ t) :
    (s.purge t).Tracks key W hist t where
  live k c h := hs.live k c (purge_eq_some.mp h).1
  counted a w hw := by
    rw [← hs.counted a w (by omega)]
    refine value_purge_of_alive fun c e hc he => ?_
    obtain ⟨e', he', hstop⟩ := hs.expiresAt hkey hc
    rw [he] at he'
    obtain rfl := Option.some.inj he'
    omega

include hkey in
/-- One hit: the script answers with the number of the hits in the window so far, this one included,
and with a time to live that reaches beyond the window's end. -/
theorem Store.Tracks.hit (hW : 0 < W) (hs : s.Tracks key W hist now) {h : Hit α}
    (ht : now ≤ h.time) :
    ((s.hit (key h.caller (h.time / W)) W h.time).1.1 =
        hitsIn W hist h.caller (h.time / W) + 1) ∧
      ((W * (h.time / W + 1) : ℕ) : ℤ) ≤
        h.time + (s.hit (key h.caller (h.time / W)) W h.time).1.2 ∧
      (s.hit (key h.caller (h.time / W)) W h.time).2.Tracks key W (hist ++ [h]) h.time := by
  have hpurge := hs.purge hkey ht
  have hlow : W * (h.time / W) ≤ h.time := Nat.mul_div_le ..
  have hlast : h.time < W * (h.time / W + 1) := Nat.lt_mul_div_succ _ hW
  have hnow := hpurge.counted h.caller (h.time / W) hlast
  have hnew : W * (h.time / W + 1) ≤ h.time + W := by
    rw [Nat.mul_add]
    omega
  obtain ⟨e, hself, httl, hstop⟩ := hit_self (fun c hc => hpurge.expiresAt hkey hc) hnew
  refine ⟨by rw [hit_count, hnow], by rw [httl]; omega, fun k c hc => ?_, fun a w hw => ?_⟩
  · by_cases hk : k = key h.caller (h.time / W)
    · subst hk
      rw [hself, Option.some.injEq] at hc
      subst hc
      exact ⟨_, _, e, rfl, rfl, hstop⟩
    · rw [hit_of_ne hk] at hc
      exact hpurge.live k c hc
  · rw [hitsIn_append, hitsIn_singleton]
    by_cases hk : key a w = key h.caller (h.time / W)
    · obtain ⟨rfl, rfl⟩ := hkey hk
      simp [value, hself, ← hnow]
    · have hne : ¬ (h.caller = a ∧ h.time / W = w) := by
        rintro ⟨rfl, rfl⟩
        exact hk rfl
      rw [if_neg hne, Nat.add_zero, ← hpurge.counted a w hw]
      simp only [value, hit_of_ne hk]

end

/-! ## The first hit of a window -/

/-- The first of the hits of the caller in window `w`. -/
def firstIn (W : ℕ) (hist : List (Hit α)) (a : α) (w : ℕ) : Option (Hit α) :=
  hist.find? fun h => h.caller = a ∧ h.time / W = w

variable (key W) in
/-- The counters of the windows that last at `now`, to the letter: each counts the hits of its
window and expires a window's length after the first of them. -/
def Store.Dates (hist : List (Hit α)) (now : ℕ) (s : Store κ) : Prop :=
  ∀ a w, now < W * (w + 1) →
    s (key a w) = (firstIn W hist a w).map fun h => ⟨hitsIn W hist a w, some (h.time + W)⟩

/-- The first hit is a hit of the caller in the window. -/
theorem firstIn_eq_some {hist : List (Hit α)} {a : α} {w : ℕ} {h : Hit α}
    (hfirst : firstIn W hist a w = some h) : h ∈ hist ∧ h.caller = a ∧ h.time / W = w := by
  have hp := List.find?_some hfirst
  exact ⟨List.mem_of_find?_eq_some hfirst, by simpa using hp⟩

/-- Without a first hit there is none. -/
theorem hitsIn_of_firstIn_eq_none {hist : List (Hit α)} {a : α} {w : ℕ}
    (hnone : firstIn W hist a w = none) : hitsIn W hist a w = 0 := by
  rw [firstIn, List.find?_eq_none] at hnone
  exact List.countP_eq_zero.mpr hnone

/-- A later hit is the first one only if there was none. -/
theorem firstIn_append_singleton (hist : List (Hit α)) (h : Hit α) (a : α) (w : ℕ) :
    firstIn W (hist ++ [h]) a w =
      (firstIn W hist a w).or (if h.caller = a ∧ h.time / W = w then some h else none) := by
  simp [firstIn, List.find?_append, List.find?_singleton]

/-- On one clock, the first hit is the earliest. -/
theorem firstIn_time_le {hist : List (Hit α)} (hclock : hist.Pairwise (·.time ≤ ·.time)) {a : α}
    {w : ℕ} {h h' : Hit α} (hfirst : firstIn W hist a w = some h) (hmem : h' ∈ hist)
    (hcaller : h'.caller = a) (hwindow : h'.time / W = w) : h.time ≤ h'.time := by
  obtain ⟨-, before, after, rfl, hbefore⟩ := List.find?_eq_some_iff_append.mp hfirst
  rcases List.mem_append.mp hmem with hmem | hmem
  · exact absurd (hbefore h' hmem) (by simp [hcaller, hwindow])
  · rcases List.mem_cons.mp hmem with rfl | hmem
    · exact Nat.le_refl _
    · exact (List.pairwise_cons.mp (List.pairwise_append.mp hclock).2.1).1 h' hmem

omit [DecidableEq κ] in
/-- The empty store has no counters. -/
theorem Store.dates_empty (now : ℕ) : (Store.empty : Store κ).Dates key W [] now :=
  fun _ _ _ => rfl

omit [DecidableEq κ] in
/-- Counters may expire while time passes. -/
theorem Store.Dates.later {hist : List (Hit α)} {now now' : ℕ} {s : Store κ}
    (hs : s.Dates key W hist now) (h : now ≤ now') : s.Dates key W hist now' :=
  fun a w hw => hs a w (by omega)

section

variable {hist : List (Hit α)} {now : ℕ} {s : Store κ}

omit [DecidableEq κ] in
/-- No counter of a window that lasts expires before the window ends. -/
theorem Store.Dates.purge (hs : s.Dates key W hist now) {t : ℕ} (ht : now ≤ t) :
    (s.purge t).Dates key W hist t := by
  intro a w hw
  have hdates := hs a w (by omega)
  cases hfirst : firstIn W hist a w with
  | none =>
    rw [hfirst, Option.map_none] at hdates
    simp [Store.purge, hdates]
  | some h =>
    rw [hfirst, Option.map_some] at hdates
    refine Store.purge_eq_some.mpr ⟨hdates, fun e he => ?_⟩
    obtain rfl := Option.some.inj he
    have hwindow := (firstIn_eq_some hfirst).2.2
    have hlow : W * (h.time / W) ≤ h.time := Nat.mul_div_le ..
    rw [hwindow] at hlow
    rw [Nat.mul_add] at hw
    omega

/-- One hit: the script answers with the time that is left until a window's length after the first
hit of the window, which may be this one. -/
theorem Store.Dates.hit (hkey : Function.Injective2 key) (hW : 0 < W)
    (hs : s.Dates key W hist now) {h : Hit α} (ht : now ≤ h.time) :
    (∃ first, firstIn W (hist ++ [h]) h.caller (h.time / W) = some first ∧
      (s.hit (key h.caller (h.time / W)) W h.time).1.2 = ((first.time + W : ℕ) : ℤ) - h.time) ∧
      (s.hit (key h.caller (h.time / W)) W h.time).2.Dates key W (hist ++ [h]) h.time := by
  have hpurge := hs.purge ht
  have hlast : h.time < W * (h.time / W + 1) := Nat.lt_mul_div_succ _ hW
  have hold := hpurge h.caller (h.time / W) hlast
  -- the counter of the hit, when the window is new and when it is not
  have hself : ∃ first, firstIn W (hist ++ [h]) h.caller (h.time / W) = some first ∧
      (s.hit (key h.caller (h.time / W)) W h.time).2 (key h.caller (h.time / W)) =
        some ⟨hitsIn W (hist ++ [h]) h.caller (h.time / W), some (first.time + W)⟩ := by
    rw [firstIn_append_singleton, hitsIn_append, hitsIn_singleton]
    simp only [and_self, if_true]
    cases hfirst : firstIn W hist h.caller (h.time / W) with
    | none =>
      rw [hfirst, Option.map_none] at hold
      have hvalue : (s.purge h.time).value (key h.caller (h.time / W)) = 0 := by
        simp [Store.value, hold]
      refine ⟨h, rfl, ?_⟩
      rw [hitsIn_of_firstIn_eq_none hfirst]
      simp only [Store.hit, Store.incr_fst, hvalue, Nat.zero_add, if_true]
      rw [Store.expire_self (Store.incr_snd_self ..), hvalue]
    | some first =>
      rw [hfirst, Option.map_some] at hold
      have hvalue : (s.purge h.time).value (key h.caller (h.time / W)) =
          hitsIn W hist h.caller (h.time / W) := by
        simp [Store.value, hold]
      have hpos : hitsIn W hist h.caller (h.time / W) ≠ 0 := by
        obtain ⟨hmem, hp⟩ := firstIn_eq_some hfirst
        exact Nat.pos_iff_ne_zero.mp (List.countP_pos_iff.mpr ⟨first, hmem, by simpa using hp⟩)
      refine ⟨first, rfl, ?_⟩
      simp only [Store.hit, Store.incr_fst, hvalue, Nat.add_eq_right, hpos, if_false]
      rw [Store.incr_snd_self, hvalue, hold, Option.bind_some]
  obtain ⟨first, hfirst, hcounter⟩ := hself
  refine ⟨⟨first, hfirst, Store.ttl_of_expiresAt hcounter rfl h.time⟩, fun a w hw => ?_⟩
  by_cases hk : key a w = key h.caller (h.time / W)
  · obtain ⟨rfl, rfl⟩ := hkey hk
    rw [hcounter, hfirst, Option.map_some]
  · have hne : ¬ (h.caller = a ∧ h.time / W = w) := by
      rintro ⟨rfl, rfl⟩
      exact hk rfl
    rw [Store.hit_of_ne hk, hpurge a w hw, firstIn_append_singleton, if_neg hne, Option.or_none,
      hitsIn_append, hitsIn_singleton, if_neg hne, Nat.add_zero]

end

/-! ## Limits -/

section

variable (W) (limit : α → ℕ)

/-- The hits that are within the limit of their caller, when `seen` came before. -/
def within (seen : List (Hit α)) : List (Hit α) → List (Hit α)
  | [] => []
  | h :: hist =>
    if hitsIn W seen h.caller (h.time / W) < limit h.caller then
      h :: within (seen ++ [h]) hist
    else within (seen ++ [h]) hist

variable {limit}

/-- The hits of a window count up to the limit and no further. -/
theorem hitsIn_within (seen hist : List (Hit α)) (a : α) (w : ℕ) :
    hitsIn W (within W limit seen hist) a w + min (hitsIn W seen a w) (limit a) =
      min (hitsIn W (seen ++ hist) a w) (limit a) := by
  induction hist generalizing seen with
  | nil => simp [within, hitsIn]
  | cons h hist ih =>
    have hih := ih (seen ++ [h])
    rw [List.append_assoc, List.singleton_append] at hih
    rw [← hih, hitsIn_append seen, hitsIn_singleton]
    by_cases hself : h.caller = a ∧ h.time / W = w
    · obtain ⟨rfl, rfl⟩ := hself
      rw [within]
      split
      · rw [← List.singleton_append, hitsIn_append [h], hitsIn_singleton]
        simp only [and_self, if_true]
        omega
      · simp only [and_self, if_true]
        omega
    · rw [within]
      split
      · rw [← List.singleton_append, hitsIn_append [h], hitsIn_singleton, if_neg hself]
        omega
      · rw [Nat.add_zero]

/-- At most the limit in a window. -/
theorem hitsIn_within_le (hist : List (Hit α)) (a : α) (w : ℕ) :
    hitsIn W (within W limit [] hist) a w ≤ limit a := by
  have h : hitsIn W (within W limit [] hist) a w + _ = min _ (limit a) :=
    hitsIn_within W [] hist a w
  omega

/-- What is within the limit is part of the hits, in their order. -/
theorem within_sublist (seen hist : List (Hit α)) :
    (within W limit seen hist).Sublist hist := by
  induction hist generalizing seen with
  | nil => exact .slnil
  | cons h hist ih =>
    rw [within]
    split
    · exact (ih _).cons_cons h
    · exact (ih _).cons h

/-- The hits of one caller in one window are all within the limit if there is room for them all. -/
theorem within_eq_self_iff {seen hist : List (Hit α)} {a : α} {w : ℕ} (hne : hist ≠ [])
    (hall : ∀ h ∈ hist, h.caller = a ∧ h.time / W = w) :
    within W limit seen hist = hist ↔ hitsIn W seen a w + hist.length ≤ limit a := by
  have hcount : ∀ hits : List (Hit α), hits.Sublist hist → hitsIn W hits a w = hits.length :=
    fun hits hsub => List.countP_eq_length.mpr fun h hh => by simpa using hall h (hsub.subset hh)
  have hsub : (within W limit seen hist).Sublist hist := within_sublist W seen hist
  have hlength := List.length_pos_iff.mpr hne
  have hkept : hitsIn W (within W limit seen hist) a w + _ = min _ (limit a) :=
    hitsIn_within W seen hist a w
  rw [hitsIn_append, hcount _ hsub, hcount hist (List.Sublist.refl _)] at hkept
  constructor
  · intro heq
    rw [heq] at hkept
    omega
  · intro hroom
    exact hsub.eq_of_length_le (by omega)

/-- A span as long as a window meets two windows at most. -/
theorem countP_span_le (hW : 0 < W) (hist : List (Hit α)) (a : α) (start : ℕ) :
    hist.countP (fun h => h.caller = a ∧ start ≤ h.time ∧ h.time ≤ start + W) ≤
      hitsIn W hist a (start / W) + hitsIn W hist a (start / W + 1) := by
  induction hist with
  | nil => simp
  | cons h hist ih =>
    have hwindow : start ≤ h.time ∧ h.time ≤ start + W →
        h.time / W = start / W ∨ h.time / W = start / W + 1 := by
      rintro ⟨hlow, hhigh⟩
      have hge := Nat.div_le_div_right (c := W) hlow
      have hle := Nat.div_le_div_right (c := W) hhigh
      rw [Nat.add_div_right _ hW] at hle
      omega
    rw [← List.singleton_append, List.countP_append, hitsIn_append, hitsIn_append,
      hitsIn_singleton, hitsIn_singleton, List.countP_singleton]
    by_cases hcounts : h.caller = a ∧ start ≤ h.time ∧ h.time ≤ start + W
    · simp only [hcounts, and_self, decide_true, if_true, true_and]
      rcases hwindow hcounts.2 with heq | heq
      · rw [if_pos heq]
        omega
      · rw [if_pos heq]
        omega
    · simp only [hcounts, decide_false, Bool.false_eq_true, if_false]
      omega

end

end Redis
