import Mathlib.Algebra.Order.BigOperators.Group.List
import Mathlib.Algebra.Order.Monoid.Canonical.Basic
import Mathlib.Algebra.Order.Group.Nat
import Mathlib.Data.List.Induction
import OburBackend.RateLimit.Middleware
import OburBackend.Redis.FixedWindow

/-!
# The window law of the rate limiter

A counter's key names the tier, the scope and the window of the request it counts, and no two of
them share a key (`counterKey_injective`). The script of the middleware is the hit of a fixed window
(`incrementAndExpire_eq_hit`), so the store tracks the requests so far (`tracks_storeAfter`), and
`dispatch` decides by their number in the window of the request (`Arrival.handle_admitted`).
-/

namespace OburBackend.RateLimit

open Redis

/-! ## Keys -/

/-- The last occurrence of a separator splits a list in one way. -/
theorem append_cons_inj_right {α : Type} {sep : α} {xs ys as bs : List α} (has : sep ∉ as)
    (hbs : sep ∉ bs) (h : xs ++ sep :: as = ys ++ sep :: bs) : xs = ys ∧ as = bs := by
  rcases List.append_eq_append_iff.mp h with ⟨zs, hys, heq⟩ | ⟨zs, hxs, heq⟩
  · cases zs with
    | nil => simp_all
    | cons z zs =>
      rw [List.cons_append, List.cons.injEq] at heq
      exact absurd (heq.2 ▸ List.mem_append_right zs List.mem_cons_self) has
  · cases zs with
    | nil => simp_all
    | cons z zs =>
      rw [List.cons_append, List.cons.injEq] at heq
      exact absurd (heq.2 ▸ List.mem_append_right zs List.mem_cons_self) hbs

/-- Different numbers are written differently. -/
theorem repr_injective : Function.Injective Nat.repr := by
  intro m n h
  have hdigits := congrArg (fun text => Nat.ofDigitChars 10 text.toList 0) h
  simpa only [Nat.toList_repr, Nat.ofDigitChars_ten_toDigits] using hdigits

/-- A number has no colon in it. -/
theorem colon_notMem_repr (n : ℕ) : ':' ∉ n.repr.toList := by
  intro h
  rw [Nat.toList_repr] at h
  have hdigit := Nat.isDigit_of_mem_toDigits (by omega) (by omega) h
  exact absurd hdigit (by decide)

/-- Different tiers, scopes or windows have different counters. -/
theorem counterKey_injective : Function.Injective2 counterKey := by
  rintro ⟨tier, scope⟩ ⟨tier', scope'⟩ w w' h
  have hlist := congrArg String.toList h
  simp only [counterKey, keyNamespace, String.toList_append, Nat.toString_eq_repr,
    List.append_assoc] at hlist
  cases tier <;> cases tier' <;>
    simp only [Tier.name, List.append_cancel_left_eq] at hlist
  case baseline.strict | strict.baseline => exact absurd hlist (by simp)
  all_goals
    obtain ⟨hscope, hwindow⟩ := append_cons_inj_right (colon_notMem_repr w) (colon_notMem_repr w')
      (by simpa using hlist)
    exact ⟨by rw [String.toList_inj.mp hscope], repr_injective (String.toList_inj.mp hwindow)⟩

/-! ## Arrivals -/

/-- A request that reaches the middleware, and the route behind it. -/
structure Arrival where
  time : ℕ
  request : Request
  callNext : Request → Request × Response

namespace Arrival

/-- The tier and the scope the request is counted under. -/
def caller (env : Env) (a : Arrival) : Tier × String := (tierFor a.request, scope env a.request)

/-- What the middleware does with the request while the store is reachable. -/
def handle (env : Env) (store : Store String) (a : Arrival) : Handled :=
  dispatch env true a.time a.request a.callNext store

/-- The request as a hit of its caller. -/
def hit (env : Env) (a : Arrival) : Hit (Tier × String) := ⟨a.time, a.caller env⟩

end Arrival

/-- The store after the requests, one after the other. -/
def storeAfter (env : Env) (hist : List Arrival) : Store String :=
  hist.foldl (fun store a => (a.handle env store).store) Store.empty

/-- The requests that are let through, when the first of them meets `store`. -/
def admitted (env : Env) : Store String → List Arrival → List Arrival
  | _, [] => []
  | store, a :: hist =>
    let handled := a.handle env store
    if handled.admitted then a :: admitted env handled.store hist
    else admitted env handled.store hist

/-- The time lies in the aligned window number `k`. -/
def InWindow (k t : ℕ) : Prop :=
  windowSeconds * k ≤ t ∧ t < windowSeconds * k + windowSeconds

instance (k t : ℕ) : Decidable (InWindow k t) := by unfold InWindow; infer_instance

/-- A time is in the window of its number. -/
theorem inWindow_iff {k t : ℕ} : InWindow k t ↔ t / windowSeconds = k := by
  simp only [InWindow, windowSeconds]
  omega

variable {env : Env}

@[simp] theorem storeAfter_append_singleton (hist : List Arrival) (a : Arrival) :
    storeAfter env (hist ++ [a]) = (a.handle env (storeAfter env hist)).store := by
  simp [storeAfter]

/-- The script is the hit of a fixed window. -/
theorem incrementAndExpire_eq_hit (key : String) (seconds now : ℕ) (store : Store String) :
    incrementAndExpire key seconds now store = store.hit key seconds now := rfl

namespace Arrival

/-- The hit that the middleware makes for the request. -/
abbrev hitOn (env : Env) (store : Store String) (a : Arrival) : (ℕ × ℤ) × Store String :=
  store.hit (counterKey (a.caller env) (a.time / windowSeconds)) windowSeconds a.time

variable (env) in
/-- The two ways out of `dispatch` while the store is reachable. -/
theorem handle_cases (store : Store String) (a : Arrival) :
    ((a.hitOn env store).1.1 ≤ (tierFor a.request).limit ∧
      a.handle env store =
        { store := (a.hitOn env store).2
          routed := some (a.callNext a.request).1
          response := annotate (tierFor a.request) (a.hitOn env store).1.1 (a.hitOn env store).1.2
            (a.callNext a.request).2 }) ∨
    ((tierFor a.request).limit < (a.hitOn env store).1.1 ∧
      a.handle env store =
        { store := (a.hitOn env store).2
          routed := none
          response := refuse (tierFor a.request) (max (a.hitOn env store).1.2 1)
            a.request.requestId }) := by
  simp only [handle, dispatch, incrementAndExpire_eq_hit, if_true, gt_iff_lt]
  by_cases hcount : (tierFor a.request).limit < (a.hitOn env store).1.1
  · exact .inr ⟨hcount, if_pos hcount⟩
  · exact .inl ⟨Nat.le_of_not_lt hcount, if_neg hcount⟩

/-- The limiter changes the store by its hit. -/
theorem handle_store (store : Store String) (a : Arrival) :
    (a.handle env store).store = (a.hitOn env store).2 := by
  rcases a.handle_cases env store with ⟨-, h⟩ | ⟨-, h⟩ <;> rw [h]

/-- A request is admitted when its hit is within the limit. -/
theorem handle_admitted_iff (store : Store String) (a : Arrival) :
    (a.handle env store).admitted ↔ (a.hitOn env store).1.1 ≤ (tierFor a.request).limit := by
  rcases a.handle_cases env store with ⟨hcount, h⟩ | ⟨hcount, h⟩
  · rw [h]
    exact iff_of_true rfl hcount
  · rw [h]
    exact iff_of_false Bool.false_ne_true (Nat.not_le_of_lt hcount)

end Arrival

/-! ## The store tracks the requests -/

/-- What the store knows at `now` of the requests so far. -/
abbrev Tracks (env : Env) (hist : List Arrival) (now : ℕ) (store : Store String) : Prop :=
  store.Tracks counterKey windowSeconds (hist.map (Arrival.hit env)) now

/-- The earlier requests of the same tier and scope in the window. -/
def earlierInWindow (env : Env) (earlier : List Arrival) (a : Arrival) (k : ℕ) : ℕ :=
  earlier.countP fun b => b.caller env = a.caller env ∧ InWindow k b.time

/-- The hits of a caller are their requests in the window. -/
theorem hitsIn_map_hit (hist : List Arrival) (caller : Tier × String) (k : ℕ) :
    hitsIn windowSeconds (hist.map (Arrival.hit env)) caller k =
      hist.countP fun b => b.caller env = caller ∧ InWindow k b.time := by
  simp only [hitsIn, List.countP_map, inWindow_iff]
  rfl

section

variable {hist : List Arrival} {now : ℕ} {store : Store String}

/-- One request. -/
theorem Tracks.handle (hs : Tracks env hist now store) {a : Arrival} (ht : now ≤ a.time) :
    Tracks env (hist ++ [a]) a.time (a.handle env store).store := by
  have hit := hs.hit counterKey_injective (by decide) (h := a.hit env) ht
  rw [a.handle_store, Tracks, List.map_append]
  exact hit.2.2

/-- A request is admitted if fewer than the limit came before it in its window. -/
theorem Tracks.handle_admitted_iff (hs : Tracks env hist now store) {a : Arrival}
    (ht : now ≤ a.time) {k : ℕ} (hk : InWindow k a.time) :
    (a.handle env store).admitted ↔ earlierInWindow env hist a k < (tierFor a.request).limit := by
  have hit := hs.hit counterKey_injective (by decide) (h := a.hit env) ht
  obtain rfl := inWindow_iff.mp hk
  rw [a.handle_admitted_iff, earlierInWindow, ← hitsIn_map_hit]
  have hcount : (a.hitOn env store).1.1 = _ := hit.1
  rw [hcount]
  exact Nat.lt_iff_add_one_le.symm

/-- Whoever waits for as long as a refusal says comes in a later window. -/
theorem Tracks.retryAfter (hs : Tracks env hist now store) {a : Arrival} (ht : now ≤ a.time)
    (hrefused : (a.handle env store).admitted = false) {k : ℕ} (hk : InWindow k a.time) :
    ∃ retryAfter : ℕ,
      (a.handle env store).response.headers.lookup "Retry-After" = some (toString retryAfter) ∧
      ∀ k' t, a.time + retryAfter ≤ t → InWindow k' t → k < k' := by
  have hit := hs.hit counterKey_injective (by decide) (h := a.hit env) ht
  have httl : ((windowSeconds * (a.time / windowSeconds + 1) : ℕ) : ℤ) ≤
      a.time + (a.hitOn env store).1.2 := hit.2.1
  rcases a.handle_cases env store with ⟨-, h⟩ | ⟨-, h⟩
  · rw [h] at hrefused
    exact absurd hrefused (by simp [Handled.admitted])
  · obtain ⟨n, hn⟩ := Int.eq_ofNat_of_zero_le (a := max (a.hitOn env store).1.2 1) (by omega)
    refine ⟨n, by rw [h, hn]; rfl, fun k' t hle hk' => ?_⟩
    have hwait : (a.hitOn env store).1.2 ≤ n := by omega
    simp only [inWindow_iff, windowSeconds] at hk hk' httl
    omega

/-- The requests that are let through are the hits within the limits. -/
theorem Tracks.map_hit_admitted (hs : Tracks env hist now store) {later : List Arrival}
    (hlater : ∀ a ∈ later, now ≤ a.time) (hclock : later.Pairwise (·.time ≤ ·.time)) :
    (admitted env store later).map (Arrival.hit env) =
      within windowSeconds (fun caller => caller.1.limit) (hist.map (Arrival.hit env))
        (later.map (Arrival.hit env)) := by
  induction later generalizing hist now store with
  | nil => rfl
  | cons a later ih =>
    have ht : now ≤ a.time := hlater a List.mem_cons_self
    obtain ⟨hnext, hrest⟩ := List.pairwise_cons.mp hclock
    have hih := ih (hs.handle ht) hnext hrest
    rw [List.map_append] at hih
    have hlimit : (a.handle env store).admitted ↔
        hitsIn windowSeconds (hist.map (Arrival.hit env)) (a.hit env).caller
          ((a.hit env).time / windowSeconds) < (a.hit env).caller.1.limit := by
      rw [hs.handle_admitted_iff ht (inWindow_iff.mpr rfl), earlierInWindow, ← hitsIn_map_hit]
      rfl
    rw [List.map_cons, within, admitted]
    by_cases hadmitted : (a.handle env store).admitted
    · rw [if_pos hadmitted, if_pos (hlimit.mp hadmitted), List.map_cons, hih]
      rfl
    · rw [if_neg hadmitted, if_neg (mt hlimit.mpr hadmitted), hih]
      rfl

end

/-- Every run. -/
theorem tracks_storeAfter (env : Env) {hist : List Arrival}
    (hclock : hist.Pairwise (·.time ≤ ·.time)) {now : ℕ} (hnow : ∀ a ∈ hist, a.time ≤ now) :
    Tracks env hist now (storeAfter env hist) := by
  induction hist using List.reverseRecOn generalizing now with
  | nil => exact Store.tracks_empty now
  | append_singleton hist a ih =>
    obtain ⟨hhist, -, hlast⟩ := List.pairwise_append.mp hclock
    have hbefore : ∀ b ∈ hist, b.time ≤ a.time := fun b hb => hlast b hb a List.mem_cons_self
    rw [storeAfter_append_singleton]
    exact ((ih hhist hbefore).handle (Nat.le_refl _)).later (hnow a (by simp))

/-- The requests of a tier and a scope that are let through within one window. -/
theorem countP_admitted_le (env : Env) {hist : List Arrival}
    (hclock : hist.Pairwise (·.time ≤ ·.time)) (caller : Tier × String) (k : ℕ) :
    (admitted env Store.empty hist).countP
      (fun a => a.caller env = caller ∧ InWindow k a.time) ≤ caller.1.limit := by
  have hempty : Tracks env [] 0 Store.empty := Store.tracks_empty 0
  have hmap := hempty.map_hit_admitted (fun a _ => Nat.zero_le a.time) hclock
  rw [← hitsIn_map_hit, hmap]
  exact hitsIn_within_le windowSeconds (hist.map (Arrival.hit env)) caller k

/-! ## The law -/

/-- The window law. A request is admitted iff fewer than its tier's limit of the same scope and tier
came before it in its window. So every counter outlives its window, and holds the number of requests
as long as the window lasts; no more than the limit are let through in a window, and no more than
twice the limit in any span of a window's length; and whoever waits as long as a refusal says is
counted in a later window. -/
theorem rate_limit_window_law (env : Env) (hist : List Arrival)
    (hclock : hist.Pairwise (·.time ≤ ·.time)) :
    (∀ earlier a later k, hist = earlier ++ a :: later → InWindow k a.time →
      ((a.handle env (storeAfter env earlier)).admitted ↔
        earlierInWindow env earlier a k < (tierFor a.request).limit)) ∧
    (∀ key c, storeAfter env hist key = some c →
      ∃ caller k e, key = counterKey caller k ∧ c.expiresAt = some e ∧
        windowSeconds * k + windowSeconds ≤ e) ∧
    (∀ now, (∀ a ∈ hist, a.time ≤ now) → ∀ caller k, InWindow k now →
      ((storeAfter env hist).purge now).value (counterKey caller k) =
        hist.countP fun a => a.caller env = caller ∧ InWindow k a.time) ∧
    (∀ caller k, (admitted env Store.empty hist).countP
      (fun a => a.caller env = caller ∧ InWindow k a.time) ≤ caller.1.limit) ∧
    (∀ caller start, (admitted env Store.empty hist).countP
      (fun a => a.caller env = caller ∧ start ≤ a.time ∧ a.time ≤ start + windowSeconds) ≤
        2 * caller.1.limit) ∧
    (∀ earlier a later k, hist = earlier ++ a :: later → InWindow k a.time →
      (a.handle env (storeAfter env earlier)).admitted = false →
      ∃ retryAfter : ℕ,
        (a.handle env (storeAfter env earlier)).response.headers.lookup "Retry-After" =
          some (toString retryAfter) ∧
        ∀ k' t, a.time + retryAfter ≤ t → InWindow k' t → k < k') := by
  -- what the store has tracked when a request comes
  have htracks : ∀ earlier a later, hist = earlier ++ a :: later →
      Tracks env earlier a.time (storeAfter env earlier) := by
    intro earlier a later rfl
    obtain ⟨hearlier, -, hlast⟩ := List.pairwise_append.mp hclock
    exact tracks_storeAfter env hearlier fun b hb => hlast b hb a List.mem_cons_self
  refine ⟨?_, ?_, ?_, countP_admitted_le env hclock, ?_, ?_⟩
  · intro earlier a later k heq hk
    exact (htracks earlier a later heq).handle_admitted_iff (Nat.le_refl _) hk
  · intro key c hc
    have hall := tracks_storeAfter env hclock fun a ha =>
      List.le_sum_of_mem (List.mem_map_of_mem ha)
    obtain ⟨caller, k, e, hkey, he, hstop⟩ := hall.live key c hc
    exact ⟨caller, k, e, hkey, he, by rwa [Nat.mul_add, Nat.mul_one] at hstop⟩
  · intro now hnow caller k hk
    have htracks := tracks_storeAfter env hclock hnow
    have hall := htracks.purge counterKey_injective (Nat.le_refl _)
    rw [hall.counted caller k (by rw [Nat.mul_add]; exact hk.2), hitsIn_map_hit]
  · intro caller start
    have hspan := countP_span_le windowSeconds (by decide)
      ((admitted env Store.empty hist).map (Arrival.hit env)) caller start
    rw [hitsIn_map_hit, hitsIn_map_hit, List.countP_map] at hspan
    have hfirst := countP_admitted_le env hclock caller (start / windowSeconds)
    have hsecond := countP_admitted_le env hclock caller (start / windowSeconds + 1)
    refine Nat.le_trans hspan ?_
    omega
  · intro earlier a later k heq hk hrefused
    exact (htracks earlier a later heq).retryAfter (Nat.le_refl _) hrefused hk

/-! ### A run -/

/-- A deployment without proxies, with stand-ins for the HMAC and the parser of addresses. -/
def bareEnv : Env where
  rateLimitSecret := "secret"
  trustedProxyCount := 0
  hmacSha256 _ message := message
  ipAddress text := some text

/-- A request without a body to a route that answers with an empty page. -/
def plainArrival (time : ℕ) (method path client : String) : Arrival where
  time
  request :=
    { method, path, client := some client, forwardedFor := [], requestId := none, state := .fresh }
  callNext request := (request, { status := 200, problem := none, headers := [] })

/-- The second post of a window is let through, a second before the window ends. -/
theorem rate_limit_window_law_secondPost :
    ((plainArrival 7199 "POST" "/api/v1/checkins/" "203.0.113.7").handle bareEnv
      (storeAfter bareEnv [plainArrival 3600 "POST" "/api/v1/checkins" "203.0.113.7"])).admitted =
      true := by
  have hlaw := rate_limit_window_law bareEnv
    [plainArrival 3600 "POST" "/api/v1/checkins" "203.0.113.7",
      plainArrival 7199 "POST" "/api/v1/checkins/" "203.0.113.7"] (by simp [plainArrival])
  refine (hlaw.1 [_] _ [] 1 rfl (by decide)).mpr ?_
  exact Nat.lt_of_le_of_lt List.countP_le_length (by decide)

end OburBackend.RateLimit
