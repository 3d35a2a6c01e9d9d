import Mathlib.Order.Bounds.Defs
import OburBackend.RateLimit.Window

/-!
# When to try again

A caller is admitted again when the next window starts: windows are aligned to the clock
(`available_iff_stop_le`). The delay a response advertises is the time to live of the counter, which
is counted from the first request of the window (`dates_storeAfter`). The two are the same for a
caller whose first request came as the window started, and for no other (`delays_iff_of_firstOf`).
-/

namespace OburBackend.RateLimit

open Redis

variable {env : Env}

/-! ## Bursts -/

/-- The caller of `a` has room for `n` requests, `d` seconds after `a` and with none of its own in
between: whatever others ask for, all of them are let through. -/
def Available (env : Env) (hist : List Arrival) (a : Arrival) (n d : ℕ) : Prop :=
  ∀ between burst : List Arrival,
    (a :: (between ++ burst)).Pairwise (·.time ≤ ·.time) →
    (∀ b ∈ between, b.caller env ≠ a.caller env) →
    (∀ b ∈ burst, b.caller env = a.caller env ∧ b.time = a.time + d) →
    burst.length = n →
    admitted env (storeAfter env (hist ++ a :: between)) burst = burst

/-- What is said of the time after `a`: a refusal names the least delay, of a second or more, that
gets the caller in, and an admission the least that gives it the full quota. -/
def Delays (env : Env) (hist : List Arrival) (a : Arrival) : Prop :=
  let handled := a.handle env (storeAfter env hist)
  let header := fun name => handled.response.headers.lookup name
  (handled.admitted = false →
    ∃ d : ℕ, header "Retry-After" = some (toString d) ∧
      header "RateLimit-Reset" = some (toString d) ∧
      IsLeast {d | 1 ≤ d ∧ Available env hist a 1 d} d) ∧
  (handled.admitted = true →
    ∃ d : ℕ, header "RateLimit-Reset" = some (toString d) ∧
      IsLeast {d | Available env hist a (tierFor a.request).limit d} d)

/-- The admitted requests are some of the requests, in their order. -/
theorem admitted_sublist (store : Store String) (hist : List Arrival) :
    (admitted env store hist).Sublist hist := by
  induction hist generalizing store with
  | nil => exact .slnil
  | cons a hist ih =>
    rw [admitted]
    split
    · exact (ih _).cons_cons a
    · exact (ih _).cons a

/-- All later requests are admitted when they are within the limits. -/
theorem Tracks.admitted_eq_self_iff {hist : List Arrival} {now : ℕ} {store : Store String}
    (hs : Tracks env hist now store) {later : List Arrival} (hlater : ∀ a ∈ later, now ≤ a.time)
    (hclock : later.Pairwise (·.time ≤ ·.time)) :
    admitted env store later = later ↔
      within windowSeconds (fun caller => caller.1.limit) (hist.map (Arrival.hit env))
        (later.map (Arrival.hit env)) = later.map (Arrival.hit env) := by
  rw [← hs.map_hit_admitted hlater hclock]
  refine ⟨fun h => by rw [h], fun h => ?_⟩
  have hlength := congrArg List.length h
  rw [List.length_map, List.length_map] at hlength
  exact (admitted_sublist store later).eq_of_length hlength

section

variable {hist : List Arrival} {a : Arrival}

/-- The requests of the caller of `a` so far, `a` included, in the window of the time `t`. -/
def spentIn (env : Env) (hist : List Arrival) (a : Arrival) (t : ℕ) : ℕ :=
  hitsIn windowSeconds ((hist ++ [a]).map (Arrival.hit env)) (a.caller env) (t / windowSeconds)

/-- There is room for a burst if the requests of its window leave room. -/
theorem available_iff (hclock : (hist ++ [a]).Pairwise (·.time ≤ ·.time)) {n d : ℕ} (hn : 0 < n) :
    Available env hist a n d ↔
      spentIn env hist a (a.time + d) + n ≤ (a.caller env).1.limit := by
  obtain ⟨hhist, -, hlast⟩ := List.pairwise_append.mp hclock
  have hbefore : ∀ b ∈ hist, b.time ≤ a.time := fun b hb => hlast b hb a List.mem_cons_self
  -- one burst
  have hburst : ∀ between burst : List Arrival,
      (a :: (between ++ burst)).Pairwise (·.time ≤ ·.time) →
      (∀ b ∈ between, b.caller env ≠ a.caller env) →
      (∀ b ∈ burst, b.caller env = a.caller env ∧ b.time = a.time + d) → burst.length = n →
      (admitted env (storeAfter env (hist ++ a :: between)) burst = burst ↔
        spentIn env hist a (a.time + d) + n ≤ (a.caller env).1.limit) := by
    intro between burst hnext hothers hcaller hlength
    rw [List.pairwise_cons, List.pairwise_append] at hnext
    obtain ⟨hafter, hbetween, hburst, hmeet⟩ := hnext
    have hle : ∀ b ∈ burst, ∀ c ∈ hist ++ a :: between, c.time ≤ b.time := by
      intro b hb c hc
      have hab : a.time ≤ b.time := hafter b (List.mem_append_right _ hb)
      rcases List.mem_append.mp hc with hc | hc
      · exact Nat.le_trans (hbefore c hc) hab
      · rcases List.mem_cons.mp hc with rfl | hc
        · exact hab
        · exact hmeet c hc b hb
    obtain ⟨b, hb⟩ := List.exists_mem_of_length_pos (hlength ▸ hn)
    have hseen : (hist ++ a :: between).Pairwise (·.time ≤ ·.time) := by
      rw [List.pairwise_append, List.pairwise_cons]
      refine ⟨hhist, ⟨fun c hc => hafter c (List.mem_append_left _ hc), hbetween⟩, ?_⟩
      intro c hc c' hc'
      rcases List.mem_cons.mp hc' with rfl | hc'
      · exact hbefore c hc
      · exact Nat.le_trans (hbefore c hc) (hafter c' (List.mem_append_left _ hc'))
    have htracks := tracks_storeAfter env hseen (hle b hb)
    have htime : ∀ c ∈ burst, b.time ≤ c.time := fun c hc =>
      Nat.le_of_eq ((hcaller b hb).2.trans (hcaller c hc).2.symm)
    have hall : ∀ h ∈ burst.map (Arrival.hit env),
        h.caller = a.caller env ∧ h.time / windowSeconds = (a.time + d) / windowSeconds := by
      intro h hh
      obtain ⟨c, hc, rfl⟩ := List.mem_map.mp hh
      exact ⟨(hcaller c hc).1, congrArg (· / windowSeconds) (hcaller c hc).2⟩
    have hne : burst.map (Arrival.hit env) ≠ [] := fun h =>
      List.ne_nil_of_mem hb (List.map_eq_nil_iff.mp h)
    have hquiet : hitsIn windowSeconds (between.map (Arrival.hit env)) (a.caller env)
        ((a.time + d) / windowSeconds) = 0 := by
      refine List.countP_eq_zero.mpr fun h hh => ?_
      obtain ⟨c, hc, rfl⟩ := List.mem_map.mp hh
      exact fun hp => hothers c hc (of_decide_eq_true hp).1
    rw [htracks.admitted_eq_self_iff htime hburst, within_eq_self_iff windowSeconds hne hall,
      List.length_map, hlength, List.append_cons, List.map_append, hitsIn_append, hquiet,
      Nat.add_zero]
    rfl
  constructor
  · intro havailable
    -- the same request, over and over
    have hsame : ∀ b ∈ List.replicate n { a with time := a.time + d },
        b.caller env = a.caller env ∧ b.time = a.time + d := by
      intro b hb
      obtain rfl := List.eq_of_mem_replicate hb
      exact ⟨rfl, rfl⟩
    have hnext : (a :: ([] ++ List.replicate n { a with time := a.time + d })).Pairwise
        (·.time ≤ ·.time) := by
      refine List.pairwise_cons.mpr ⟨fun b hb => ?_, List.pairwise_replicate.mpr (.inr ?_)⟩
      · rw [(hsame b hb).2]
        exact Nat.le_add_right ..
      · exact Nat.le_refl _
    have hothers : ∀ b ∈ ([] : List Arrival), b.caller env ≠ a.caller env :=
      List.forall_mem_nil _
    exact (hburst [] _ hnext hothers hsame List.length_replicate).mp
      (havailable [] _ hnext hothers hsame List.length_replicate)
  · intro hroom between burst hnext hothers hcaller hlength
    exact (hburst between burst hnext hothers hcaller hlength).mpr hroom

/-- When the window of `a` leaves no room, the next one is the first to do so. -/
theorem available_iff_stop_le (hclock : (hist ++ [a]).Pairwise (·.time ≤ ·.time)) {n : ℕ}
    (hn : 0 < n) (hlimit : n ≤ (a.caller env).1.limit)
    (hfull : (a.caller env).1.limit < spentIn env hist a a.time + n) (d : ℕ) :
    Available env hist a n d ↔ windowSeconds * (a.time / windowSeconds + 1) ≤ a.time + d := by
  have hbefore := (List.pairwise_append.mp hclock).2.2
  rw [available_iff hclock hn]
  have hge := Nat.div_le_div_right (c := windowSeconds) (Nat.le_add_right a.time d)
  rcases Nat.eq_or_lt_of_le hge with hsame | hlater
  · -- still in the window
    have hspent : spentIn env hist a (a.time + d) = spentIn env hist a a.time := by
      rw [spentIn, spentIn, hsame]
    rw [hspent]
    refine iff_of_false (by omega) ?_
    simp only [windowSeconds] at hsame ⊢
    omega
  · have hspent : spentIn env hist a (a.time + d) = 0 := by
      refine List.countP_eq_zero.mpr fun h hh => ?_
      obtain ⟨b, hb, rfl⟩ := List.mem_map.mp hh
      have htime : b.time ≤ a.time := by
        rcases List.mem_append.mp hb with hb | hb
        · exact hbefore b hb a List.mem_cons_self
        · exact Nat.le_of_eq (congrArg Arrival.time (List.mem_singleton.mp hb))
      have hwindow := Nat.div_le_div_right (c := windowSeconds) htime
      exact fun hp => absurd (of_decide_eq_true hp).2 (by simp only [Arrival.hit]; omega)
    rw [hspent]
    refine iff_of_true (by omega) ?_
    simp only [windowSeconds] at hlater ⊢
    omega

end

/-! ## The delay -/

/-- What the store knows at `now` of the requests so far, and of the first of each window. -/
abbrev Dates (env : Env) (hist : List Arrival) (now : ℕ) (store : Store String) : Prop :=
  store.Dates counterKey windowSeconds (hist.map (Arrival.hit env)) now

/-- The first request of the caller of `a` in the window of `a`, `a` included. -/
abbrev firstOf (env : Env) (hist : List Arrival) (a : Arrival) : Option (Hit (Tier × String)) :=
  firstIn windowSeconds ((hist ++ [a]).map (Arrival.hit env)) (a.caller env)
    (a.time / windowSeconds)

/-- One request. -/
theorem Dates.handle {hist : List Arrival} {now : ℕ} {store : Store String}
    (hs : Dates env hist now store) {a : Arrival} (ht : now ≤ a.time) :
    (∃ first, firstOf env hist a = some first ∧
      (a.hitOn env store).1.2 = ((first.time + windowSeconds : ℕ) : ℤ) - a.time) ∧
      Dates env (hist ++ [a]) a.time (a.handle env store).store := by
  have hit := hs.hit counterKey_injective (by decide) (h := a.hit env) ht
  rw [a.handle_store, Dates, firstOf, List.map_append]
  exact hit

/-- Every run. -/
theorem dates_storeAfter (env : Env) {hist : List Arrival}
    (hclock : hist.Pairwise (·.time ≤ ·.time)) {now : ℕ} (hnow : ∀ a ∈ hist, a.time ≤ now) :
    Dates env hist now (storeAfter env hist) := by
  induction hist using List.reverseRecOn generalizing now with
  | nil => exact Store.dates_empty now
  | append_singleton hist a ih =>
    obtain ⟨hhist, -, hlast⟩ := List.pairwise_append.mp hclock
    have hbefore : ∀ b ∈ hist, b.time ≤ a.time := fun b hb => hlast b hb a List.mem_cons_self
    rw [storeAfter_append_singleton]
    exact ((ih hhist hbefore).handle (Nat.le_refl _)).2.later (hnow a (by simp))

/-- A header that is set reads as it was set. -/
theorem Response.lookup_setHeader (name value : String) (r : Response) :
    (r.setHeader name value).headers.lookup name = some value := by
  have hnone : (r.headers.filter fun h => h.1.toLower ≠ name.toLower).lookup name = none := by
    refine List.lookup_eq_none_iff.mpr fun h hh => ?_
    have hne : h.1.toLower ≠ name.toLower := of_decide_eq_true (List.mem_filter.mp hh).2
    exact bne_iff_ne.mpr fun heq => hne (congrArg String.toLower heq.symm)
  rw [Response.setHeader, List.lookup_append, hnone, Option.none_or, List.lookup_cons_self]

/-- The one least number is the one that is shown. -/
theorem exists_toString_isLeast {S : Set ℕ} {shown least : ℕ} (hleast : IsLeast S least) :
    (∃ d : ℕ, some (toString shown) = some (toString d) ∧ IsLeast S d) ↔ shown = least := by
  constructor
  · rintro ⟨d, hshown, hd⟩
    rw [repr_injective (Option.some.inj hshown)]
    exact hd.unique hleast
  · rintro rfl
    exact ⟨shown, rfl, hleast⟩

/-- A request counts itself. -/
theorem spentIn_self (env : Env) (hist : List Arrival) (a : Arrival) :
    spentIn env hist a a.time = earlierInWindow env hist a (a.time / windowSeconds) + 1 := by
  rw [spentIn, List.map_append, hitsIn_append, hitsIn_map_hit, List.map_singleton,
    hitsIn_singleton, if_pos ⟨rfl, rfl⟩]
  rfl

section

variable {hist : List Arrival} {a : Arrival} {first : Hit (Tier × String)}

variable (env) in
/-- A request is admitted when the caller has not spent the window. -/
theorem handle_admitted_iff_spentIn (hclock : (hist ++ [a]).Pairwise (·.time ≤ ·.time)) :
    (a.handle env (storeAfter env hist)).admitted ↔
      spentIn env hist a a.time ≤ (tierFor a.request).limit := by
  obtain ⟨hhist, -, hlast⟩ := List.pairwise_append.mp hclock
  have htracks := tracks_storeAfter env hhist fun b hb => hlast b hb a List.mem_cons_self
  rw [htracks.handle_admitted_iff (Nat.le_refl _) (inWindow_iff.mpr rfl), spentIn_self]
  exact Nat.lt_iff_add_one_le

/-- What is shown as the delay is what is left until a window's length after the first request of
the window. -/
theorem exists_shown (hclock : (hist ++ [a]).Pairwise (·.time ≤ ·.time))
    (hfirst : firstOf env hist a = some first) :
    ∃ shown : ℕ, shown + a.time = first.time + windowSeconds ∧
      (a.handle env (storeAfter env hist)).response.headers.lookup "RateLimit-Reset" =
        some (toString shown) ∧
      ((a.handle env (storeAfter env hist)).admitted = false →
        (a.handle env (storeAfter env hist)).response.headers.lookup "Retry-After" =
          some (toString shown)) := by
  obtain ⟨hhist, -, hlast⟩ := List.pairwise_append.mp hclock
  have hdates := dates_storeAfter env hhist fun b hb => hlast b hb a List.mem_cons_self
  obtain ⟨⟨first', hfirst', httl⟩, -⟩ := hdates.handle (a := a) (Nat.le_refl _)
  obtain rfl : first = first' := Option.some.inj (hfirst.symm.trans hfirst')
  -- the counter is alive, as it outlives the window
  have hlow : windowSeconds * (first.time / windowSeconds) ≤ first.time := Nat.mul_div_le ..
  have hhigh := Nat.lt_mul_div_succ a.time (show 0 < windowSeconds by decide)
  rw [(firstIn_eq_some hfirst).2.2] at hlow
  rw [Nat.mul_add, Nat.mul_one] at hhigh
  obtain ⟨shown, hshown⟩ : ∃ shown, shown + a.time = first.time + windowSeconds :=
    ⟨first.time + windowSeconds - a.time, by omega⟩
  have hlive : (a.hitOn env (storeAfter env hist)).1.2 = shown := by omega
  refine ⟨shown, hshown, ?_⟩
  rcases a.handle_cases env (storeAfter env hist) with ⟨-, h⟩ | ⟨-, h⟩
  · rw [h]
    refine ⟨?_, fun hno => absurd hno (by simp [Handled.admitted])⟩
    rw [annotate, Response.lookup_setHeader, hlive, max_eq_left (Int.natCast_nonneg shown)]
    rfl
  · have hmax : max (a.hitOn env (storeAfter env hist)).1.2 1 = (shown : ℤ) := by omega
    rw [h, hmax]
    exact ⟨rfl, fun _ => rfl⟩

/-- A delay is right if the first request of the window came as the window started. -/
theorem delays_iff_of_firstOf (hclock : (hist ++ [a]).Pairwise (·.time ≤ ·.time))
    (hfirst : firstOf env hist a = some first) :
    Delays env hist a ↔ first.time = windowSeconds * (a.time / windowSeconds) := by
  obtain ⟨shown, hshown, hreset, hretry⟩ := exists_shown hclock hfirst
  -- what is left of the window
  have hhigh := Nat.lt_mul_div_succ a.time (show 0 < windowSeconds by decide)
  obtain ⟨left, hleft⟩ : ∃ left, left + a.time = windowSeconds * (a.time / windowSeconds + 1) :=
    ⟨windowSeconds * (a.time / windowSeconds + 1) - a.time, by omega⟩
  have hiff : shown = left ↔ first.time = windowSeconds * (a.time / windowSeconds) := by
    rw [Nat.mul_add] at hleft
    omega
  have hadmitted := handle_admitted_iff_spentIn env hclock
  rw [← hiff, Delays]
  cases hcase : (a.handle env (storeAfter env hist)).admitted with
  | true =>
    -- the window has spent one request at least, so the full quota waits for the next
    have hspent : 0 < spentIn env hist a a.time := by
      rw [spentIn_self]
      exact Nat.succ_pos _
    have hroom := available_iff_stop_le hclock (n := (tierFor a.request).limit)
      (by cases tierFor a.request <;> decide) (Nat.le_refl _) (Nat.lt_add_of_pos_left hspent)
    have hleast : IsLeast {d | Available env hist a (tierFor a.request).limit d} left :=
      ⟨(hroom left).mpr (by omega), fun d hd => by have := (hroom d).mp hd; omega⟩
    simp only [Bool.true_eq_false, false_implies, true_and, forall_const, hreset]
    exact exists_toString_isLeast hleast
  | false =>
    -- the window is spent, so one more request waits for the next
    have hspent : (tierFor a.request).limit < spentIn env hist a a.time := by
      rw [hcase] at hadmitted
      exact Nat.lt_of_not_le fun hle => absurd (hadmitted.mpr hle) Bool.false_ne_true
    have hroom := available_iff_stop_le hclock (n := 1) Nat.one_pos
      (by simp only [Arrival.caller]; cases tierFor a.request <;> decide)
      (Nat.lt_succ_of_lt hspent)
    have hleast : IsLeast {d | 1 ≤ d ∧ Available env hist a 1 d} left :=
      ⟨⟨by omega, (hroom left).mpr (by omega)⟩,
        fun d hd => by have := (hroom d).mp hd.2; omega⟩
    simp only [Bool.false_eq_true, false_implies, and_true, forall_const, hreset, hretry hcase]
    rw [← exists_toString_isLeast hleast]
    simp only [and_self_left]

end

/-- The delay that a response advertises is right in a window whose first request came in the very
second the window started, and in no other. -/
theorem delays_iff_request_at_start (env : Env) (hist : List Arrival) (a : Arrival)
    (hclock : (hist ++ [a]).Pairwise (·.time ≤ ·.time)) :
    Delays env hist a ↔ ∃ b ∈ hist ++ [a], b.caller env = a.caller env ∧
      b.time = windowSeconds * (a.time / windowSeconds) := by
  have hhits : ((hist ++ [a]).map (Arrival.hit env)).Pairwise (·.time ≤ ·.time) :=
    List.pairwise_map.mpr hclock
  obtain ⟨first, hfirst⟩ : ∃ first, firstOf env hist a = some first := by
    rw [firstOf, List.map_append, List.map_singleton, firstIn_append_singleton,
      if_pos ⟨rfl, rfl⟩]
    cases firstIn windowSeconds (hist.map (Arrival.hit env)) (a.caller env)
      (a.time / windowSeconds) with
    | none => exact ⟨_, rfl⟩
    | some first => exact ⟨first, rfl⟩
  obtain ⟨hmem, hcaller, hwindow⟩ := firstIn_eq_some hfirst
  rw [delays_iff_of_firstOf hclock hfirst]
  constructor
  · intro hstart
    obtain ⟨b, hb, rfl⟩ := List.mem_map.mp hmem
    exact ⟨b, hb, hcaller, hstart⟩
  · rintro ⟨b, hb, hsame, hstart⟩
    have hle := firstIn_time_le hhits hfirst (List.mem_map_of_mem hb) hsame
      (by simp only [Arrival.hit, hstart, windowSeconds]; omega)
    have hlow : windowSeconds * (first.time / windowSeconds) ≤ first.time := Nat.mul_div_le ..
    rw [hwindow] at hlow
    exact Nat.le_antisymm (hstart ▸ hle) hlow

/-- A post, `seconds` after the window number 1 starts. -/
def postAt (seconds : ℕ) : Arrival :=
  plainArrival (3600 + seconds) "POST" "/api/v1/checkins" "203.0.113.7"

/-- A post in the last second of a window whose first request came as it started. -/
theorem delays_iff_request_at_start_lastSecond : Delays bareEnv [postAt 0] (postAt 3599) :=
  (delays_iff_request_at_start bareEnv [postAt 0] (postAt 3599)
    (by simp [postAt, plainArrival])).mpr ⟨postAt 0, by simp, rfl, by decide⟩

/-- Thirty posts in the second after the window starts, and one more: it is refused, and told to
wait a second too long. -/
theorem refused_in_second_one :
    ((postAt 1).handle bareEnv (storeAfter bareEnv (List.replicate 30 (postAt 1)))).admitted =
        false ∧
      ¬ Delays bareEnv (List.replicate 30 (postAt 1)) (postAt 1) := by
  have hclock : (List.replicate 30 (postAt 1) ++ [postAt 1]).Pairwise (·.time ≤ ·.time) := by
    rw [← List.replicate_succ']
    exact List.pairwise_replicate.mpr (.inr (Nat.le_refl _))
  have hfirst : firstOf bareEnv (List.replicate 30 (postAt 1)) (postAt 1) =
      some ((postAt 1).hit bareEnv) :=
    List.find?_cons_of_pos (by simp [Arrival.hit])
  refine ⟨?_, ?_⟩
  · have hspent : earlierInWindow bareEnv (List.replicate 30 (postAt 1)) (postAt 1)
        ((postAt 1).time / windowSeconds) = 30 := by
      simp [earlierInWindow, inWindow_iff]
    have htier : (tierFor (postAt 1).request).limit = 30 := by decide
    have hadmitted := handle_admitted_iff_spentIn bareEnv hclock
    rw [spentIn_self, hspent, htier] at hadmitted
    exact Bool.eq_false_iff.mpr (mt hadmitted.mp (by decide))
  · rw [delays_iff_of_firstOf hclock hfirst]
    decide

end OburBackend.RateLimit
