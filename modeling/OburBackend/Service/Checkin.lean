import OburBackend.Core.Authz

/-!
# Check-ins (`app/services/checkin.py`) and the verification of venues

`create_checkin` commits the check-in before it evaluates the verification of the venue, so the
verification's `UPDATE` belongs to the transaction after it.
-/

namespace OburBackend

open Sql

/-- `_MIN_CHECKINS_FOR_AUTO_VERIFICATION` -/
def minCheckinsForAutoVerification : ℕ := 3

/-- `COUNT(DISTINCT user_id)` over the public check-ins of a venue that are not deleted. -/
def countDistinctPublicCheckinUsers (db : Db) (venueId : Uuid) : ℕ :=
  ((db.checkins.select fun c => decide (c.venueId = venueId) &&
    (decide (c.visibility = Visibility.pub) && c.deletedAt.isNone)).map Checkin.userId).dedup.length

/-- The `WHERE` clause of `rls_verify_venue_if_eligible`. -/
def eligible (db : Db) (targetVenueId : Uuid) (minCheckins : ℕ) (v : Venue) : Bool :=
  decide (v.id = targetVenueId) && (!v.isVerified && (v.googlePlacesId.isSome &&
    decide (minCheckins ≤ countDistinctPublicCheckinUsers db targetVenueId)))

/-- `SET is_verified = true` on the venues with the given ids. -/
def setVerified (ids : List Uuid) (db : Db) : Db :=
  { db with
    venues := db.venues.modify (fun v => decide (v.id ∈ ids))
      (fun v => { v with isVerified := true }) fun _ => rfl }

/-- Verifying no venue changes nothing. -/
theorem setVerified_nil (db : Db) : setVerified [] db = db := by
  simp [setVerified, Table.modify]

/-- The venue that is asked for is the only one that can be eligible. -/
theorem ids_eligible (db : Db) (venueId : Uuid) (minCheckins : ℕ) :
    (db.venues.select (eligible db venueId minCheckins)).map Venue.id = [] ∨
      (db.venues.select (eligible db venueId minCheckins)).map Venue.id = [venueId] := by
  have hid : ∀ v, eligible db venueId minCheckins v = true → v.id = venueId := by
    intro v hv
    rw [eligible, Bool.and_eq_true, decide_eq_true_eq] at hv
    exact hv.1
  rw [Table.select_of_key hid]
  cases hfound : (db.venues.get venueId).filter (eligible db venueId minCheckins) with
  | none => exact .inl rfl
  | some v => exact .inr (congrArg (fun id => [id]) (hid v (Option.filter_eq_some_iff.mp hfound).2))

/-- The data after the verification of a venue has been evaluated. -/
def evaluated (venueId : Uuid) (db : Db) : Db :=
  setVerified ((db.venues.select
    (eligible db venueId minCheckinsForAutoVerification)).map Venue.id) db

/-- `rls_verify_venue_if_eligible(target_venue_id, min_checkins)` -/
def rlsVerifyVenueIfEligible (targetVenueId : Uuid) (minCheckins : ℕ) : Service Unit :=
  .execute ⟨.update, .venues, [targetVenueId]⟩
    (fun _ db =>
      let ids := (db.venues.select (eligible db targetVenueId minCheckins)).map Venue.id
      .ok { effect := setVerified ids, locks := ids.map (rowLock .venues) })
    (.ret ()) fun e => .raise (.database e)

/-- `evaluate_venue_verification` -/
def evaluateVenueVerification (venueId : Uuid) : Service Unit := do
  rlsVerifyVenueIfEligible venueId minCheckinsForAutoVerification
  let _ ← select venues .venues [venueId] fun v => decide (v.id = venueId)
  return ()

/-- The evaluation keeps what verifying the eligible venues keeps. -/
theorem keeps_evaluateVenueVerification {Inv : Db → Prop} {me : Identity} {venueId : Uuid}
    (h : ∀ s, Inv s → Inv (evaluated venueId s)) :
    (evaluateVenueVerification venueId).Keeps Inv me := by
  refine Prog.Keeps.bind ⟨?_, trivial, fun _ => trivial⟩ fun _ =>
    (Prog.readOnly_query _ _).keeps.bind fun _ => trivial
  intro s wr hs hw
  cases hw
  exact h s hs

/-- `_ensure_visited_at_not_future` -/
def ensureVisitedAtNotFuture (c : Ctx) (visitedAt : Option Date) (visitedTz : String) :
    Service Unit :=
  match c.localToday visitedTz with
  | none => .raise (.zoneInfoNotFound visitedTz)
  | some localToday =>
    match visitedAt with
    | none => .raise .typeError
    | some d =>
      if d.after localToday then
        raiseDomain .futureVisitDate ("visited_at (" ++ d.str ++ ") is after today in " ++
          visitedTz ++ " (" ++ localToday.str ++ ")")
      else
        return ()

/-- The check of the date writes nothing. -/
theorem readOnly_ensureVisitedAtNotFuture (c : Ctx) (visitedAt : Option Date) (visitedTz : String) :
    (ensureVisitedAtNotFuture c visitedAt visitedTz).ReadOnly := by
  unfold ensureVisitedAtNotFuture
  cases c.localToday visitedTz with
  | none => trivial
  | some localToday =>
    cases visitedAt with
    | none => trivial
    | some d =>
      dsimp only
      split <;> trivial

/-- The arguments of `create_checkin`. -/
structure CheckinCreate where
  userId : Uuid
  venueId : Uuid
  visitedAt : Date
  visitedTz : String
  ratingTaste : ℤ
  ratingService : ℤ
  ratingAmbiance : ℤ
  ratingValue : ℤ
  note : Option String := none
  photoUrl : Option String := none
  visibility : String := Visibility.pub

/-- The row that `create_checkin` adds. -/
def CheckinCreate.row (args : CheckinCreate) (c : Ctx) : Checkin where
  id := c.uuid4 0
  userId := args.userId
  venueId := args.venueId
  ratingTaste := args.ratingTaste
  ratingService := args.ratingService
  ratingAmbiance := args.ratingAmbiance
  ratingValue := args.ratingValue
  note := args.note
  photoUrl := args.photoUrl
  visibility := args.visibility
  visitedAt := args.visitedAt
  visitedTz := args.visitedTz
  deletedAt := none
  createdAt := c.now

/-- `create_checkin` -/
def createCheckin (c : Ctx) (args : CheckinCreate) : Service Checkin := do
  if (← venues.get args.venueId).isNone then
    raiseDomain .venueNotFound ("venue not found: " ++ args.venueId.str)
  else
    ensureVisitedAtNotFuture c (some args.visitedAt) args.visitedTz
    checkins.insert (args.row c)
    commit
    let checkin ← refresh checkins (args.row c).id
    if args.visibility = Visibility.pub then
      evaluateVenueVerification args.venueId
    return checkin

/-- `create_checkin` adds its check-in and may verify the venue. -/
theorem keeps_createCheckin {Inv : Db → Prop} {me : Identity} {c : Ctx} {args : CheckinCreate}
    (hinsert : ∀ s, Inv s → Inv { s with checkins := s.checkins.insert (args.row c) })
    (hverify : ∀ s, Inv s → Inv (evaluated args.venueId s)) :
    (createCheckin c args).Keeps Inv me := by
  refine (readOnly_get _).keeps.bind fun venue => ?_
  dsimp only
  split
  · trivial
  · refine (readOnly_ensureVisitedAtNotFuture _ _ _).keeps.bind fun _ => ?_
    refine (keeps_insert fun s hs _ _ _ => hinsert s hs).bind fun _ => Prog.keeps_commit.bind
      fun _ => (readOnly_refresh _ _).keeps.bind fun _ => ?_
    split
    · exact (keeps_evaluateVenueVerification hverify).bind fun _ => trivial
    · trivial

def checkinNotFound {α : Type} (checkinId : Uuid) : Service α :=
  raiseDomain .checkinNotFound ("checkin not found: " ++ checkinId.str)

/-- `get_checkin` -/
def getCheckin (checkinId : Uuid) (viewer : Option User) : Service Checkin := do
  match ← checkins.get checkinId with
  | none => checkinNotFound checkinId
  | some checkin =>
    if checkin.deletedAt.isSome then
      checkinNotFound checkinId
    else
      let allowed ← canView checkin.userId checkin.visibility viewer
      if allowed then
        return checkin
      else
        checkinNotFound checkinId

/-- Nor does looking up a check-in. -/
theorem readOnly_getCheckin (checkinId : Uuid) (viewer : Option User) :
    (getCheckin checkinId viewer).ReadOnly := by
  refine (readOnly_get checkinId).bind fun found => ?_
  cases found with
  | none => trivial
  | some checkin =>
    dsimp only
    split
    · trivial
    · refine (readOnly_canView _ _ _).bind fun allowed => ?_
      cases allowed <;> trivial

/-- What `get_checkin` does alone: whoever may see the check-in gets it, unless it is deleted. The
visibility that `can_view` checks is the one by which the row was found. -/
theorem run_getCheckin {checkinId : Uuid} {viewer : Option User} {conn : Conn Db Identity}
    (hme : conn.vars = viewer.map User.id) (hstored : ∀ v ∈ viewer, conn.working.Stored v) :
    (getCheckin checkinId viewer).run conn =
      (Prog.orRaise (.domain .checkinNotFound ("checkin not found: " ++ checkinId.str))
        ((checkins.lookup conn.vars conn.working checkinId).filter (·.deletedAt.isNone)),
        conn) := by
  simp only [getCheckin, Prog.bind_eq, run_get_bind]
  cases hlookup : checkins.lookup conn.vars conn.working checkinId with
  | none => rfl
  | some checkin =>
    obtain ⟨-, -, hsee⟩ := checkins.lookup_eq_some.mp hlookup
    rw [checkins_policy, holds_checkinsPolicy_select] at hsee
    cases hdel : checkin.deletedAt with
    | some t =>
      simp only [hdel, Option.isSome_some, if_true, Option.filter, Option.isNone_some]
      rfl
    | none =>
      simp only [hdel, Option.isSome_none, Bool.false_eq_true, if_false, Option.filter,
        Option.isNone_none, if_true]
      rw [Prog.run_bind, run_canView hme hstored]
      simp only [hsee, decide_true, if_true]
      rfl

/-- The visibility conditions of a listing for `viewer`: an administrator sees everything, and so
does somebody who lists their own rows (`own`). -/
def listable (me : Identity) (db : Db) (viewer : Option User) (own : User → Bool) (ownerId : Uuid)
    (visibility : String) : Bool :=
  match viewer with
  | none => decide (visibility = Visibility.pub)
  | some v =>
    own v || (decide (visibility = Visibility.pub) ||
      decide (visibility = Visibility.closeFriends) && closeFriendOfOwnerExists me db ownerId v.id)

/-- The conditions of a listing let through whatever the policies let through. -/
theorem listable_of_canSee {me : Identity} {db : Db} {viewer : Option User} {own : User → Bool}
    {ownerId : Uuid} {visibility : String} (hme : me = viewer.map User.id)
    (hstored : ∀ v ∈ viewer, db.Stored v)
    (hown : ∀ v ∈ viewer, isOwnerOrAdmin ownerId v = true → own v = true)
    (hsee : db.CanSee me ownerId visibility) :
    listable me db viewer own ownerId visibility = true := by
  cases viewer with
  | none =>
    have hme : me = none := hme
    rcases hsee with hsee | ⟨-, hpub | ⟨-, v, hv, -⟩⟩
    · simp [hme] at hsee
    · simp [listable, hpub]
    · simp [hme] at hv
  | some v =>
    have hme : me = some v.id := hme
    simp only [listable, Bool.or_eq_true, Bool.and_eq_true, decide_eq_true_eq,
      closeFriendOfOwnerExists_iff hme]
    rcases hsee with hsee | ⟨-, hpub | ⟨hcf, w, hw, hclose⟩⟩
    · rw [hme, ← (hstored v rfl).isOwnerOrAdmin_iff] at hsee
      exact .inl (hown v rfl hsee)
    · exact .inr (.inl hpub)
    · rw [hme] at hw
      exact .inr (.inr ⟨hcf, Option.some.inj hw ▸ hclose⟩)

/-- `list_checkins_for_venue` -/
def listCheckinsForVenue (plan : Plan Checkin) (venueId : Uuid) (viewer : Option User)
    (limit offset : ℕ) : Service (List Checkin) :=
  query ⟨.select, .checkins, [venueId]⟩ fun me db =>
    page limit offset <| orderByDesc Checkin.createdAt plan <| checkins.rows me db fun c =>
      decide (c.venueId = venueId) && (c.deletedAt.isNone && (accountIsVisible me db c.userId &&
        listable me db viewer (isOwnerOrAdmin c.userId) c.userId c.visibility))

/-- `list_checkins_for_user` -/
def listCheckinsForUser (plan : Plan Checkin) (targetUserId : Uuid) (viewer : Option User)
    (limit offset : ℕ) : Service (List Checkin) :=
  query ⟨.select, .checkins, [targetUserId]⟩ fun me db =>
    page limit offset <| orderByDesc Checkin.createdAt plan <| checkins.rows me db fun c =>
      decide (c.userId = targetUserId) && (c.deletedAt.isNone && (accountIsVisible me db c.userId &&
        listable me db viewer (isOwnerOrAdmin targetUserId) c.userId c.visibility))

/-- The editable fields of a check-in that a request gives. -/
structure CheckinUpdates where
  ratingTaste : Field ℤ := none
  ratingService : Field ℤ := none
  ratingAmbiance : Field ℤ := none
  ratingValue : Field ℤ := none
  note : Field String := none
  photoUrl : Field String := none
  visibility : Field String := none
  visitedAt : Field Date := none
  deriving DecidableEq

namespace CheckinUpdates

/-- The fields that differ from the loaded row: the columns of the `UPDATE`. -/
def changed (u : CheckinUpdates) (checkin : Checkin) : CheckinUpdates where
  ratingTaste := u.ratingTaste.changed (some checkin.ratingTaste)
  ratingService := u.ratingService.changed (some checkin.ratingService)
  ratingAmbiance := u.ratingAmbiance.changed (some checkin.ratingAmbiance)
  ratingValue := u.ratingValue.changed (some checkin.ratingValue)
  note := u.note.changed checkin.note
  photoUrl := u.photoUrl.changed checkin.photoUrl
  visibility := u.visibility.changed (some checkin.visibility)
  visitedAt := u.visitedAt.changed (some checkin.visitedAt)

/-- The row with the fields set, if no `NOT NULL` column becomes `NULL`. -/
def set (u : CheckinUpdates) (checkin : Checkin) : Option Checkin := do
  let ratingTaste ← u.ratingTaste.notNull checkin.ratingTaste
  let ratingService ← u.ratingService.notNull checkin.ratingService
  let ratingAmbiance ← u.ratingAmbiance.notNull checkin.ratingAmbiance
  let ratingValue ← u.ratingValue.notNull checkin.ratingValue
  let visibility ← u.visibility.notNull checkin.visibility
  let visitedAt ← u.visitedAt.notNull checkin.visitedAt
  return { checkin with
    ratingTaste, ratingService, ratingAmbiance, ratingValue, visibility, visitedAt
    note := u.note.nullable checkin.note
    photoUrl := u.photoUrl.nullable checkin.photoUrl }

/-- Setting the editable fields leaves the rest of the row alone. -/
theorem set_eq_some {u : CheckinUpdates} {checkin checkin' : Checkin}
    (h : u.set checkin = some checkin') :
    checkin'.id = checkin.id ∧ checkin'.userId = checkin.userId ∧
      checkin'.venueId = checkin.venueId ∧ checkin'.deletedAt = checkin.deletedAt := by
  simp only [set, Option.bind_eq_bind, Option.bind_eq_some_iff, Option.pure_def,
    Option.some.injEq] at h
  obtain ⟨_, _, _, _, _, _, _, _, _, _, _, _, rfl⟩ := h
  exact ⟨rfl, rfl, rfl, rfl⟩

/-- An edit of a check-in keeps its id. -/
theorem set_id (u : CheckinUpdates) : ∀ r r', u.set r = some r' → r'.id = r.id :=
  fun _ _ h => (set_eq_some h).1

/-- The data with the fields of a check-in set. -/
def setIn (u : CheckinUpdates) (checkinId : Uuid) : Db → Db := checkins.set checkinId u.set u.set_id

end CheckinUpdates

/-- `update_checkin` -/
def updateCheckin (c : Ctx) (checkinId : Uuid) (currentUser : User) (updates : CheckinUpdates) :
    Service Checkin := do
  match ← checkins.get checkinId with
  | none => checkinNotFound checkinId
  | some checkin =>
    if checkin.deletedAt.isSome then
      checkinNotFound checkinId
    else
      ensureVisibleAndOwned checkin.userId checkin.visibility currentUser
        .checkinNotFound ("checkin not found: " ++ checkinId.str)
        .notCheckinOwner
        ("user " ++ currentUser.id.str ++ " may not modify checkin " ++ checkinId.str)
      match updates.visitedAt with
      | none => pure ()
      | some visitedAt => ensureVisitedAtNotFuture c visitedAt checkin.visitedTz
      let changed := updates.changed checkin
      if changed ≠ {} then
        checkins.update checkinId changed.set fun _ _ h => (CheckinUpdates.set_eq_some h).1
      commit
      refresh checkins checkinId

/-- `update_checkin` sets the fields of its check-in. -/
theorem keeps_updateCheckin {Inv : Db → Prop} {me : Identity} {c : Ctx} {checkinId : Uuid}
    {u : User} {updates : CheckinUpdates}
    (h : ∀ s x, Inv s → Inv ((updates.changed x).setIn checkinId s)) :
    (updateCheckin c checkinId u updates).Keeps Inv me := by
  refine (readOnly_get _).keeps.bind fun found => ?_
  cases found with
  | none => trivial
  | some checkin =>
    dsimp only
    split
    · trivial
    · refine (readOnly_ensureVisibleAndOwned _ _ _ _ _ _ _).keeps.bind fun _ => ?_
      have hedit : (checkins.update checkinId (updates.changed checkin).set
          (updates.changed checkin).set_id : Service Unit).Keeps Inv me :=
        keeps_update fun s hs => h s checkin hs
      cases updates.visitedAt with
      | none =>
        dsimp only
        split
        · exact hedit.bind fun _ => keeps_commit_refresh
        · exact keeps_commit_refresh
      | some visitedAt =>
        refine (readOnly_ensureVisitedAtNotFuture _ _ _).keeps.bind fun _ => ?_
        split
        · exact hedit.bind fun _ => keeps_commit_refresh
        · exact keeps_commit_refresh

/-- `soft_delete_checkin` -/
def softDeleteCheckin (c : Ctx) (checkinId : Uuid) (currentUser : User) : Service Unit := do
  match ← checkins.get checkinId with
  | none => checkinNotFound checkinId
  | some checkin =>
    if checkin.deletedAt.isSome then
      checkinNotFound checkinId
    else
      ensureVisibleAndOwned checkin.userId checkin.visibility currentUser
        .checkinNotFound ("checkin not found: " ++ checkinId.str)
        .notCheckinOwner
        ("user " ++ currentUser.id.str ++ " may not delete checkin " ++ checkinId.str)
      checkins.update checkinId (fun r => some { r with deletedAt := some c.now }) (by
        rintro r _ ⟨⟩
        rfl)
      commit

/-- `soft_delete_checkin` sets the time of the deletion. -/
theorem keeps_softDeleteCheckin {Inv : Db → Prop} {me : Identity} {c : Ctx} {checkinId : Uuid}
    {u : User}
    (h : ∀ s f hf, (∀ r r', f r = some r' → r' = { r with deletedAt := some c.now }) →
      Inv s → Inv (checkins.set checkinId f hf s)) :
    (softDeleteCheckin c checkinId u).Keeps Inv me := by
  refine (readOnly_get _).keeps.bind fun found => ?_
  cases found with
  | none => trivial
  | some checkin =>
    dsimp only
    split
    · trivial
    · refine (readOnly_ensureVisibleAndOwned _ _ _ _ _ _ _).keeps.bind fun _ => ?_
      refine (keeps_update fun s hs => h s _ _ ?_ hs).bind fun _ => Prog.keeps_commit
      rintro r _ ⟨⟩
      rfl

/-- `hard_delete_checkin` -/
def hardDeleteCheckin (checkinId : Uuid) : Service Unit := do
  match ← checkins.get checkinId with
  | none => checkinNotFound checkinId
  | some _ =>
    checkins.delete checkinId
    commit

/-- `hard_delete_checkin` takes check-ins, with what rests on them. -/
theorem keeps_hardDeleteCheckin {Inv : Db → Prop} {me : Identity} {checkinId : Uuid}
    (h : ∀ s p, Inv s → Inv (eraseCheckins p s)) : (hardDeleteCheckin checkinId).Keeps Inv me := by
  refine (readOnly_get _).keeps.bind fun found => ?_
  cases found with
  | none => trivial
  | some checkin => exact (keeps_delete h).bind fun _ => Prog.keeps_commit

end OburBackend
