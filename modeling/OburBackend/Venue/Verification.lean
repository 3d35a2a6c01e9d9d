import Mathlib.Data.Finset.Card
import Mathlib.Data.Finset.Dedup
import Mathlib.Data.Fintype.Basic
import OburBackend.Service.Checkin

/-!
# Check-ins that should verify their venue

`create_checkin` commits its check-in, evaluates the verification of the venue in the transaction
after that, and returns; closing the session rolls that transaction back. However many requests run
and however they interleave, the venues stay as they were, so a venue ends up verified only when it
was verified to begin with.

The requests are run under a protocol in which everybody only adds the check-in of a request. The
key of a check-in that is waiting for its commit stays free, since the session holds the lock on it.
-/

namespace OburBackend

open Sql

/-- The users with a public check-in at the venue that is not deleted. -/
def publicCheckinUsers (db : Db) (venueId : Uuid) : Finset Uuid :=
  ((db.checkins.select fun c => decide (c.venueId = venueId) &&
    (decide (c.visibility = Visibility.pub) && c.deletedAt.isNone)).map Checkin.userId).toFinset

/-- Their number is the one that the function counts. -/
theorem card_publicCheckinUsers (db : Db) (venueId : Uuid) :
    (publicCheckinUsers db venueId).card = countDistinctPublicCheckinUsers db venueId :=
  List.card_toFinset _

/-- They are the users with a public check-in at the venue that is not deleted. -/
theorem mem_publicCheckinUsers {db : Db} {venueId u : Uuid} :
    u ∈ publicCheckinUsers db venueId ↔ ∃ c ∈ db.checkins,
      c.venueId = venueId ∧ c.visibility = Visibility.pub ∧ c.deletedAt = none ∧ c.userId = u := by
  simp only [publicCheckinUsers, List.mem_toFinset, List.mem_map, Table.mem_select,
    Bool.and_eq_true, decide_eq_true_eq, Option.isNone_iff_eq_none]
  constructor
  · rintro ⟨c, ⟨hc, hvenue, hpub, hdel⟩, huser⟩
    exact ⟨c, hc, hvenue, hpub, hdel, huser⟩
  · rintro ⟨c, hc, hvenue, hpub, hdel, huser⟩
    exact ⟨c, ⟨hc, hvenue, hpub, hdel⟩, huser⟩

/-- What the verification promises: a venue that Google knows, with public check-ins of three users,
is verified. -/
def VenueVerified (db : Db) (venueId : Uuid) : Prop :=
  ∀ v ∈ db.venues, v.id = venueId → v.googlePlacesId ≠ none →
    minCheckinsForAutoVerification ≤ countDistinctPublicCheckinUsers db venueId →
      v.isVerified = true

section Requests

variable {ι : Type} [Fintype ι] [DecidableEq ι] (c : ι → Ctx) (args : ι → CheckinCreate)

/-- The requests before their first statements, each on a session of its user. -/
def checkinWorld (db : Db) : World ι Db Lock Identity Stmt PyError Checkin :=
  World.start db fun i => Session.start (some (args i).userId) (createCheckin (c i) (args i))

/-- The users of the requests whose check-in is public. -/
def publicRequesters : Finset Uuid :=
  (Finset.univ.filter fun i => (args i).visibility = Visibility.pub).image fun i => (args i).userId

/-- When the promise is kept: the venue is verified already, Google does not know it, or the public
check-ins, those of the requests among them, come from too few users. -/
def VerifiedWhen (db : Db) (venueId : Uuid) : Prop :=
  ∀ v ∈ db.venues, v.id = venueId → v.isVerified = true ∨ v.googlePlacesId = none ∨
    (publicCheckinUsers db venueId ∪ publicRequesters args).card < minCheckinsForAutoVerification

/-- The check-ins of requests, with ids that satisfy `P`, are added, and nothing else happens to
check-ins and venues. -/
structure Grows (P : Uuid → Prop) (s s' : Db) : Prop where
  venues : s'.venues = s.venues
  kept : ∀ x ∈ s.checkins, x ∈ s'.checkins
  new : ∀ x ∈ s'.checkins, x ∈ s.checkins ∨ (∃ i, x = (args i).row (c i)) ∧ P x.id

variable {c args}

omit [Fintype ι] [DecidableEq ι] in
/-- Nothing has been added at first. -/
theorem Grows.refl {P : Uuid → Prop} (s : Db) : Grows c args P s s :=
  ⟨rfl, fun _ hx => hx, fun _ hx => .inl hx⟩

omit [Fintype ι] [DecidableEq ι] in
/-- Two additions one after the other are one. -/
theorem Grows.trans {P : Uuid → Prop} {s s' s'' : Db} (h : Grows c args P s s')
    (h' : Grows c args P s' s'') : Grows c args P s s'' where
  venues := h'.venues.trans h.venues
  kept x hx := h'.kept x (h.kept x hx)
  new x hx := by
    rcases h'.new x hx with hx | hx
    · exact h.new x hx
    · exact .inr hx

omit [Fintype ι] [DecidableEq ι] in
/-- The ids may be from a larger set. -/
theorem Grows.mono {P Q : Uuid → Prop} {s s' : Db} (hPQ : ∀ id, P id → Q id)
    (h : Grows c args P s s') : Grows c args Q s s' where
  venues := h.venues
  kept := h.kept
  new x hx := (h.new x hx).imp_right fun ⟨hi, hp⟩ => ⟨hi, hPQ _ hp⟩

variable (c args)

/-- The protocol of request `i`: nobody adds a check-in whose row they have not locked, and a
request that returns has its own check-in committed. -/
def checkinProtocol (i : ι) : Protocol Db Lock Identity Stmt PyError Checkin where
  rely L := Grows c args fun id => rowLock .checkins id ∉ L.locks
  guar L := Grows c args fun id => rowLock .checkins id ∈ L.locks
  post r _ s := ∀ checkin, r = .ok checkin → (args i).row (c i) ∈ s.checkins
  rely_refl _ s := Grows.refl s
  rely_trans h h' := h.trans h'
  rely_ended h := h.mono fun _ _ => by simp [Local.locks]

variable {c args}

omit [Fintype ι] [DecidableEq ι] in
/-- The transaction after the commit changes nothing of what the request claims. -/
theorem wp_afterCommit {i : ι} {L : Local Db Lock Identity Stmt} {s : Db}
    (hrow : (args i).row (c i) ∈ s.checkins) :
    Wp (checkinProtocol c args i).rely (checkinProtocol c args i).guar
      (fun r L s => ∀ s', (checkinProtocol c args i).rely L.ended s s' →
        (checkinProtocol c args i).post r L.log s')
      ((refresh checkins ((args i).row (c i)).id).bind fun checkin =>
        if (args i).visibility = Visibility.pub then
          (evaluateVenueVerification (args i).venueId).bind fun _ => .ret checkin
        else .ret checkin) L s := by
  rw [wp_bind]
  refine Prog.ReadOnly.wp (I := fun _ s => (args i).row (c i) ∈ s.checkins)
    (fun _ _ _ h hr => hr.kept _ h) (fun _ _ _ h => h) ?_ (readOnly_refresh _ _) hrow
  intro r L s hrow
  cases r with
  | error e =>
    intro s' _ checkin hok
    cases hok
  | ok checkin =>
    dsimp only
    split
    · intro s₁ h₁
      refine ⟨fun wr _ s₂ h₂ s₃ h₃ _ _ => ?_, fun e _ s' _ checkin hok => by cases hok⟩
      exact h₃.kept _ (h₂.kept _ (h₁.kept _ hrow))
    · intro s₁ h₁ _ _
      exact h₁.kept _ hrow

omit [Fintype ι] [DecidableEq ι] in
/-- Each request keeps its protocol. -/
theorem holds_createCheckin (i : ι) (db : Db) :
    (checkinProtocol c args i).Holds (createCheckin (c i) (args i))
      (Local.start (some (args i).userId)) db := by
  unfold Protocol.Holds createCheckin
  simp only [Prog.bind_eq, wp_get_bind]
  intro s₁ _
  split
  · intro s' _ checkin hok
    cases hok
  · rw [wp_bind]
    refine Prog.ReadOnly.wp (I := fun L _ => L.pending = []) (fun _ _ _ h _ => h)
      (fun _ _ _ h => h) ?_ (readOnly_ensureVisitedAtNotFuture _ _ _) rfl
    intro r L s hpending
    cases r with
    | error e =>
      intro s' _ checkin hok
      cases hok
    | ok _ =>
      simp only [wp_insert_bind, wp_commit_bind]
      intro s₂ _
      refine ⟨fun wr hw => ?_, fun e _ s' _ checkin hok => by cases hok⟩
      rw [Local.view_eq_self hpending] at hw
      obtain ⟨-, -, hfree, -, rfl⟩ := checkins.insertWrite_eq_ok.mp hw
      intro s₃ h₃
      rw [Local.view_wrote, Local.view_saw, Local.view_eq_self hpending]
      -- the key was free when it was locked, and the lock has kept it free
      have hfree₃ : s₃.checkins.get ((args i).row (c i)).id = none := by
        refine Table.get_eq_none.mpr fun x hx hid => ?_
        rcases h₃.new x hx with hx | ⟨-, hlock⟩
        · exact Table.get_eq_none.mp hfree x hx hid
        · apply hlock
          rw [hid]
          simp [Local.locks, hpending, checkins]
      constructor
      · refine ⟨rfl, fun x hx => Table.mem_insert_of_mem hx, fun x hx => ?_⟩
        rcases Table.mem_or_eq_of_mem_insert hx with hx | rfl
        · exact .inl hx
        · refine .inr ⟨⟨i, rfl⟩, ?_⟩
          simp [Local.locks, hpending, checkins]
      · exact wp_afterCommit ((Table.mem_insert hfree₃).mpr (.inr rfl))

/-! ## Every run -/

/-- What holds of every world that a run of the requests reaches. -/
structure CheckinRun (c : ι → Ctx) (args : ι → CheckinCreate) (db : Db)
    (w : World ι Db Lock Identity Stmt PyError Checkin) : Prop where
  holds : w.Holds (checkinProtocol c args)
  exclusive : w.Exclusive
  grows : Grows c args (fun _ => True) db w.committed

omit [Fintype ι] [DecidableEq ι] in
/-- At first nothing has been committed. -/
theorem checkinRun_start (db : Db) : CheckinRun c args db (checkinWorld c args db) where
  holds i := holds_createCheckin i db
  exclusive := World.exclusive_start fun _ => rfl
  grows := Grows.refl db

/-- A step of a request keeps the run's invariant. -/
theorem CheckinRun.step {db : Db} {w w' : World ι Db Lock Identity Stmt PyError Checkin} {i : ι}
    (h : CheckinRun c args db w) (hs : w.step i = some w') : CheckinRun c args db w' where
  holds := by
    refine h.holds.step hs fun hguar j hj => ?_
    exact hguar.mono fun id hheld => h.exclusive i j hj.symm _ hheld
  exclusive := h.exclusive.step hs
  grows := by
    rcases h.holds.guar_of_step hs with hsame | hguar
    · rw [hsame]
      exact h.grows
    · exact h.grows.trans (hguar.mono fun _ _ => trivial)

omit [DecidableEq ι] in
/-- The requests that have all returned have added the users of their public check-ins. -/
theorem CheckinRun.publicCheckinUsers_eq {db : Db} {venueId : Uuid}
    {w : World ι Db Lock Identity Stmt PyError Checkin} (h : CheckinRun c args db w)
    (hvenue : ∀ i, (args i).venueId = venueId)
    (hreturned : ∀ i, ∃ checkin, (w.sessions i).prog = .ret checkin) :
    publicCheckinUsers w.committed venueId =
      publicCheckinUsers db venueId ∪ publicRequesters args := by
  ext u
  simp only [Finset.mem_union, mem_publicCheckinUsers, publicRequesters, Finset.mem_image,
    Finset.mem_filter, Finset.mem_univ, true_and]
  constructor
  · rintro ⟨x, hx, hx1, hx2, hx3, rfl⟩
    rcases h.grows.new x hx with hx | ⟨⟨i, rfl⟩, -⟩
    · exact .inl ⟨x, hx, hx1, hx2, hx3, rfl⟩
    · exact .inr ⟨i, hx2, rfl⟩
  · rintro (⟨x, hx, hx1, hx2, hx3, rfl⟩ | ⟨i, hpub, rfl⟩)
    · exact ⟨x, h.grows.kept x hx, hx1, hx2, hx3, rfl⟩
    · obtain ⟨checkin, hret⟩ := hreturned i
      have hpost := h.holds i
      rw [hret] at hpost
      have hrow := hpost.post_ok checkin rfl
      exact ⟨_, hrow, hvenue i, hpub, rfl, rfl⟩

/-- Requests to create check-ins at one venue, interleaved in any order: once all have returned,
with their sessions closed or still open, the promise of the verification is kept exactly when
`VerifiedWhen` held before the first of them. -/
theorem venueVerified_iff_verifiedWhen (c : ι → Ctx) (args : ι → CheckinCreate) (db : Db)
    (venueId : Uuid) (sched : List ι) (w : World ι Db Lock Identity Stmt PyError Checkin)
    (hvenue : ∀ i, (args i).venueId = venueId)
    (hexec : (checkinWorld c args db).exec sched = some w)
    (hreturned : ∀ i, ∃ checkin, (w.sessions i).prog = .ret checkin) :
    VenueVerified w.committed venueId ↔ VerifiedWhen args db venueId := by
  have hrun : CheckinRun c args db w :=
    World.exec_induction (fun _ _ _ h _ hs => h.step hs) (checkinRun_start db)
      (World.always_true _ _) hexec
  unfold VenueVerified VerifiedWhen
  rw [hrun.grows.venues, ← card_publicCheckinUsers, hrun.publicCheckinUsers_eq hvenue hreturned]
  refine forall₃_congr fun v hv hid => ?_
  rw [← not_le]
  tauto

end Requests

/-! ## Three visitors of one venue -/

/-- The visitors of the venue. -/
def visitor : Fin 3 → User
  | 0 => User.create 1 "clerk" "sub_1" "ada" "Ada" 0
  | 1 => User.create 2 "clerk" "sub_2" "bob" "Bob" 0
  | 2 => User.create 3 "clerk" "sub_3" "cal" "Cal" 0

/-- A venue that Google knows and nobody has verified. -/
def corner : Venue where
  id := 7
  name := "Corner"
  lat := 41
  lng := 29
  addressNote := none
  googlePlacesId := some "place"
  addedBy := none
  categoryId := 5
  city := none
  countryCode := none
  timezone := none
  district := none
  isVerified := false
  isActive := true
  isSuspended := false
  createdAt := 0

def visitCtx (i : Fin 3) : Ctx :=
  { Ctx.fixed 1 (10 + i.val) with localToday := fun _ => some ⟨2026, 7, 2⟩ }

def visitArgs (i : Fin 3) : CheckinCreate where
  userId := (visitor i).id
  venueId := corner.id
  visitedAt := ⟨2026, 7, 1⟩
  visitedTz := "Europe/Istanbul"
  ratingTaste := 3
  ratingService := 3
  ratingAmbiance := 3
  ratingValue := 3

def visitDb : Db :=
  { Db.empty with
    users := Table.empty.insert (visitor 0) |>.insert (visitor 1) |>.insert (visitor 2)
    venues := Table.empty.insert corner }

/-- One visitor after the other, from the first statement to the closing of the session. -/
def visits : List (Fin 3) := List.replicate 7 0 ++ (List.replicate 7 1 ++ List.replicate 7 2)

/-- The world after the visits. -/
def visited : World (Fin 3) Db Lock Identity Stmt PyError Checkin :=
  ((checkinWorld visitCtx visitArgs visitDb).exec visits).get (by decide)

/-- The three visits run to their end. -/
theorem exec_visits : (checkinWorld visitCtx visitArgs visitDb).exec visits = some visited :=
  (Option.some_get _).symm

/-- All three sessions are closed then. -/
theorem visited_closed : visited.Closed := by
  show ∀ i, (visited.sessions i).closed = true
  decide

/-- Each has returned a check-in. -/
theorem visited_returned (i : Fin 3) : ∃ checkin, (visited.sessions i).prog = .ret checkin := by
  refine ⟨(visitArgs i).row (visitCtx i), ?_⟩
  match i with
  | 0 | 1 | 2 => rfl

/-- What the three visits leave of the venue. -/
theorem venueVerified_iff_verifiedWhen_visits :
    VenueVerified visited.committed corner.id ↔ VerifiedWhen visitArgs visitDb corner.id :=
  venueVerified_iff_verifiedWhen visitCtx visitArgs visitDb corner.id visits visited
    (by decide) exec_visits visited_returned

/-- So three different visitors are not always enough. -/
theorem three_visits_can_leave_unverified :
    ¬ ∀ (n : ℕ) (c : Fin n → Ctx) (args : Fin n → CheckinCreate) (db : Db) (venueId : Uuid)
      (sched : List (Fin n)) (w : World (Fin n) Db Lock Identity Stmt PyError Checkin),
      (∀ i, (args i).venueId = venueId) → Function.Injective (fun i => (args i).userId) →
      (checkinWorld c args db).exec sched = some w → w.Closed →
      (∀ i, ∃ checkin, (w.sessions i).prog = .ret checkin) → VenueVerified w.committed venueId := by
  intro h
  have hverified := h 3 visitCtx visitArgs visitDb corner.id visits visited (by decide) (by decide)
    exec_visits visited_closed visited_returned
  have hcorner : corner.isVerified = true :=
    hverified corner (by decide) rfl (by decide) (by decide)
  exact absurd hcorner (by decide)

end OburBackend
