import OburBackend.RateLimit.Window

/-!
# Who is counted

The scope of a request is read from `request.state` before the route's dependencies run, and only
`get_current_user`, one of these dependencies, writes it there. As each request starts with an empty
state, no request is counted under a user's id (`Visit.value_byId`): a user's second request is
counted by its address, as the first was.
-/

namespace OburBackend.RateLimit

open Redis

/-- A request as it comes from the client, and what the application makes of it. -/
structure Visit where
  time : ℕ
  method : String
  path : String
  client : Option String
  forwardedFor : List String
  requestId : Option String
  /-- The user that `get_current_user` resolves the request to, if the route asks for one. -/
  user : Option Uuid
  /-- The route's response. -/
  response : Response
  deriving DecidableEq, Repr

namespace Visit

/-- The request as the middleware gets it. -/
def request (v : Visit) : Request :=
  { method := v.method, path := v.path, client := v.client, forwardedFor := v.forwardedFor
    requestId := v.requestId, state := .fresh }

/-- The route: `get_current_user` notes the user it has found in the request's state. -/
def callNext (v : Visit) (request : Request) : Request × Response :=
  ({ request with state := { userId := v.user.or request.state.userId } }, v.response)

/-- The visit as the middleware sees it. -/
def arrival (v : Visit) : Arrival := ⟨v.time, v.request, v.callNext⟩

/-- The tier of the visit's request. -/
abbrev tier (v : Visit) : Tier := tierFor v.request

end Visit

/-- The store after the visits. -/
abbrev storeAfterVisits (env : Env) (hist : List Visit) : Store String :=
  storeAfter env (hist.map Visit.arrival)

/-- The scope of a user. -/
def byId (user : Uuid) : String := "u:" ++ user.str

/-- The visit `w`, which comes after `hist`, is counted in a counter of the scope. -/
def CountedUnder (env : Env) (hist : List Visit) (w : Visit) (scope : String) : Prop :=
  ∃ window, (w.arrival.handle env (storeAfterVisits env hist)).store.value
      (counterKey (w.tier, scope) window) =
    ((storeAfterVisits env hist).purge w.time).value (counterKey (w.tier, scope) window) + 1

/-- The visit `w` leaves the counters of the scope as they are. -/
def Spares (env : Env) (hist : List Visit) (w : Visit) (scope : String) : Prop :=
  ∀ tier window, (w.arrival.handle env (storeAfterVisits env hist)).store.value
      (counterKey (tier, scope) window) =
    ((storeAfterVisits env hist).purge w.time).value (counterKey (tier, scope) window)

/-- From the second request on a user is limited by the id: `v` is the first visit of the user and
`w` a later one. -/
structure LimitedById (env : Env) (hist : List Visit) (user : Uuid) : Prop where
  counted : ∀ earlier v between w later, hist = earlier ++ v :: (between ++ w :: later) →
    v.user = some user → w.user = some user →
    CountedUnder env (earlier ++ v :: between) w (byId user)
  limited : ∀ earlier v between w later k, hist = earlier ++ v :: (between ++ w :: later) →
    (∀ b ∈ earlier, b.user ≠ some user) → v.user = some user → w.user = some user →
    InWindow k w.time →
    (w.arrival.handle env (storeAfterVisits env (earlier ++ v :: between))).admitted →
    (between.countP fun b => b.user = some user ∧ b.tier = w.tier ∧ InWindow k b.time) <
      w.tier.limit
  spares : ∀ earlier v between w later, hist = earlier ++ v :: (between ++ w :: later) →
    v.user = some user → w.user = some user →
    ∀ scope, scope ≠ byId user → Spares env (earlier ++ v :: between) w scope

variable {env : Env}

/-- An anonymous key is no key of a user. -/
theorem byId_ne_anonymous (user : Uuid) (key : String) : "a:" ++ key ≠ byId user := by
  intro h
  have hlist := congrArg String.toList h
  simp [byId] at hlist

/-- No visit touches a counter of a user's id. -/
theorem Visit.value_byId (v : Visit) (store : Store String) (tier : Tier) (user : Uuid)
    (window : ℕ) :
    (v.arrival.handle env store).store.value (counterKey (tier, byId user) window) =
      (store.purge v.time).value (counterKey (tier, byId user) window) := by
  have hne : counterKey (tier, byId user) window ≠
      counterKey (v.arrival.caller env) (v.arrival.time / windowSeconds) := by
    intro h
    obtain ⟨hcaller, -⟩ := counterKey_injective h
    exact byId_ne_anonymous user _ (congrArg Prod.snd hcaller).symm
  rw [Arrival.handle_store, Store.value, Store.hit_of_ne hne]
  rfl

/-- Nobody is counted under the id of a user. -/
theorem not_countedUnder_byId (hist : List Visit) (w : Visit) (user : Uuid) :
    ¬ CountedUnder env hist w (byId user) := by
  rintro ⟨window, h⟩
  rw [Visit.value_byId] at h
  omega

/-- A user is limited by the id just when there is no second request to limit. -/
theorem limitedById_iff (env : Env) (hist : List Visit) (user : Uuid) :
    LimitedById env hist user ↔ (hist.countP fun v => v.user = some user) ≤ 1 := by
  constructor
  · intro h
    by_contra htwo
    rw [List.countP_eq_length_filter, Nat.not_le] at htwo
    obtain ⟨v, visits, hfilter⟩ := List.exists_cons_of_length_pos (Nat.lt_trans Nat.one_pos htwo)
    rw [hfilter, List.length_cons] at htwo
    obtain ⟨w, rest, rfl⟩ := List.exists_cons_of_length_pos (Nat.lt_of_succ_lt_succ htwo)
    obtain ⟨earlier, tail, rfl, -, hv, htail⟩ := List.filter_eq_cons_iff.mp hfilter
    obtain ⟨between, later, rfl, -, hw, -⟩ := List.filter_eq_cons_iff.mp htail
    exact not_countedUnder_byId _ w user
      (h.counted earlier v between w later rfl (by simpa using hv) (by simpa using hw))
  · intro hone
    -- a visit and a later one would be two
    have hnone : ∀ earlier v between w later, hist = earlier ++ v :: (between ++ w :: later) →
        v.user = some user → w.user ≠ some user := by
      rintro earlier v between w later rfl hv hw
      simp [List.countP_append, hv, hw] at hone
      omega
    constructor
    · intro earlier v between w later heq hv hw
      exact absurd hw (hnone earlier v between w later heq hv)
    · intro earlier v between w later k heq _ hv hw
      exact absurd hw (hnone earlier v between w later heq hv)
    · intro earlier v between w later heq hv hw
      exact absurd hw (hnone earlier v between w later heq hv)

/-- A get of the feed by user 7. -/
def plainVisit (time : ℕ) (client : String) : Visit where
  time
  method := "GET"
  path := "/api/v1/venues"
  client := some client
  forwardedFor := []
  requestId := none
  user := some 7
  response := { status := 200, problem := none, headers := [] }

/-- A user who comes from home and then from a café is counted by two addresses. -/
theorem limitedById_can_fail :
    ¬ LimitedById bareEnv [plainVisit 0 "203.0.113.7", plainVisit 60 "198.51.100.4"] 7 := by
  intro h
  exact not_countedUnder_byId _ _ _
    (h.counted [] (plainVisit 0 "203.0.113.7") [] (plainVisit 60 "198.51.100.4") [] rfl rfl rfl)

end OburBackend.RateLimit
