import OburBackend.Service.Checkin

/-!
# Venues (`app/services/venue.py`)

`evaluate_venue_verification`, the other function of that file that writes, stands with the
check-ins that call it.
-/

namespace OburBackend

open Sql

/-- `_DUPLICATE_RADIUS_METERS` -/
def duplicateRadiusMeters : ℕ := 50

/-- `_MIN_CHECKINS_FOR_ADMIN_VERIFICATION` -/
def minCheckinsForAdminVerification : ℕ := 5

/-- What the search for a nearby venue takes from the database's geography: `ST_DWithin` between a
stored location and a point, in metres, and the order in which the rows are met. -/
structure Geography where
  dWithin : ℚ × ℚ → ℚ × ℚ → ℕ → Bool
  plan : Plan Venue

/-- `find_nearby_venue` -/
def findNearbyVenue (geo : Geography) (lat lng : ℚ) : Service (Option Venue) :=
  query ⟨.select, .venues, []⟩ fun me db =>
    (geo.plan.arrange (venues.rows me db fun v =>
      geo.dWithin (v.lat, v.lng) (lat, lng) duplicateRadiusMeters)).head?

/-- `find_venue_by_google_places_id` -/
def findVenueByGooglePlacesId (googlePlacesId : String) : Service (Option Venue) := do
  let rows ← select venues .venues [] fun v => decide (v.googlePlacesId = some googlePlacesId)
  return rows.head?

/-- `get_venue` -/
def getVenue (venueId : Uuid) : Service Venue := do
  match ← venues.get venueId with
  | none => raiseDomain .venueNotFound ("venue not found: " ++ venueId.str)
  | some venue => return venue

/-- Looking for a place id writes nothing. -/
theorem readOnly_findVenueByGooglePlacesId (googlePlacesId : String) :
    (findVenueByGooglePlacesId googlePlacesId).ReadOnly :=
  (Prog.readOnly_query _ _).bind fun _ => trivial

/-- Nor does looking up a venue. -/
theorem readOnly_getVenue (venueId : Uuid) : (getVenue venueId).ReadOnly := by
  refine (readOnly_get _).bind fun found => ?_
  cases found <;> trivial

/-- The arguments of `create_venue`. -/
structure VenueCreate where
  name : String
  lat : ℚ
  lng : ℚ
  categoryId : Uuid
  addedBy : Uuid
  district : String
  addressNote : Option String := none
  googlePlacesId : Option String := none
  city : Option String := none
  countryCode : Option String := none
  timezone : Option String := none
  confirmDuplicate : Bool := false

/-- The row that `create_venue` adds, with the defaults of the server. -/
def VenueCreate.row (args : VenueCreate) (c : Ctx) : Venue where
  id := c.uuid4 0
  name := args.name
  lat := args.lat
  lng := args.lng
  addressNote := args.addressNote
  googlePlacesId := args.googlePlacesId
  addedBy := some args.addedBy
  categoryId := args.categoryId
  city := args.city
  countryCode := args.countryCode
  timezone := args.timezone
  district := some args.district
  isVerified := false
  isActive := true
  isSuspended := false
  createdAt := c.now

/-- `create_venue` -/
def createVenue (c : Ctx) (geo : Geography) (args : VenueCreate) : Service Venue := do
  if (← venueCategories.get args.categoryId).isNone then
    raiseDomain .venueCategoryNotFound ("category not found: " ++ args.categoryId.str)
  else
    match ← (match args.googlePlacesId with
      | some googlePlacesId => findVenueByGooglePlacesId googlePlacesId
      | none => pure none) with
    | some existing => return existing
    | none =>
      match ← (if args.confirmDuplicate then pure none
        else findNearbyVenue geo args.lat args.lng) with
      | some nearby =>
        raiseDomain .duplicateVenueNearby
          ("a venue already exists near this location: " ++ nearby.id.str)
      | none =>
        venues.insert (args.row c)
        commit
        refresh venues (args.row c).id

/-- `create_venue` adds its venue, which nobody has verified. -/
theorem keeps_createVenue {Inv : Db → Prop} {me : Identity} {c : Ctx} {geo : Geography}
    {args : VenueCreate}
    (h : ∀ s, Inv s → Inv { s with venues := s.venues.insert (args.row c) }) :
    (createVenue c geo args).Keeps Inv me := by
  refine (readOnly_get _).keeps.bind fun category => ?_
  split
  · trivial
  · refine Prog.Keeps.bind ?_ fun existing => ?_
    · cases args.googlePlacesId with
      | none => trivial
      | some googlePlacesId => exact (readOnly_findVenueByGooglePlacesId _).keeps
    · cases existing with
      | some existing => trivial
      | none =>
        refine Prog.Keeps.bind ?_ fun nearby => ?_
        · split
          · trivial
          · exact (Prog.readOnly_query _ _).keeps
        · cases nearby with
          | some nearby => trivial
          | none => exact (keeps_insert fun s hs _ _ _ => h s hs).bind fun _ => keeps_commit_refresh

/-- `COUNT(DISTINCT user_id)` over the public check-ins of a venue that the caller may see. -/
def countVisiblePublicCheckinUsers (me : Identity) (db : Db) (venueId : Uuid) : ℕ :=
  ((checkins.rows me db fun c => decide (c.venueId = venueId) &&
    (decide (c.visibility = Visibility.pub) && c.deletedAt.isNone)).map Checkin.userId).dedup.length

/-- `_count_distinct_public_checkin_users` -/
def countDistinctCheckinUsers (venueId : Uuid) : Service ℕ :=
  query ⟨.select, .checkins, [venueId]⟩ fun me db => countVisiblePublicCheckinUsers me db venueId

/-- An `UPDATE` of columns of a venue, then the row as it is after the commit. -/
def saveVenue (venueId : Uuid) (f : Venue → Venue) (hf : ∀ v, (f v).id = v.id) : Service Venue := do
  venues.update venueId (fun v => some (f v)) (by
    rintro v _ ⟨⟩
    exact hf v)
  commit
  refresh venues venueId

/-- The data with columns of a venue set. -/
def setVenue (venueId : Uuid) (f : Venue → Venue) (hf : ∀ v, (f v).id = v.id) (db : Db) : Db :=
  { db with venues := db.venues.modify (fun v => decide (v.id = venueId)) f hf }

/-- Saving a venue keeps what setting it keeps. -/
theorem keeps_saveVenue {Inv : Db → Prop} {me : Identity} {venueId : Uuid} {f : Venue → Venue}
    {hf : ∀ v, (f v).id = v.id} (h : ∀ s, Inv s → Inv (setVenue venueId f hf s)) :
    (saveVenue venueId f hf).Keeps Inv me := by
  refine Prog.Keeps.bind (keeps_update fun s hs => ?_) fun _ => keeps_commit_refresh
  exact h s hs

/-- `venue.is_verified = True` -/
def verified (v : Venue) : Venue := { v with isVerified := true }

/-- A verified venue keeps its id. -/
theorem verified_id (v : Venue) : (verified v).id = v.id := rfl

/-- `verify_venue_by_admin` -/
def verifyVenueByAdmin (venueId : Uuid) : Service Venue := do
  let venue ← getVenue venueId
  if venue.isVerified then
    return venue
  else
    let count ← countDistinctCheckinUsers venueId
    if count < minCheckinsForAdminVerification then
      raiseDomain .venueNotEligibleForVerification
        ("venue " ++ venueId.str ++ " has " ++ toString count ++ " independent check-ins, needs " ++
          toString minCheckinsForAdminVerification)
    else
      saveVenue venueId verified verified_id

/-- `close_venue` -/
def closeVenue (venueId : Uuid) : Service Venue := do
  let venue ← getVenue venueId
  if venue.isActive then
    saveVenue venueId (fun v => { v with isActive := false }) fun _ => rfl
  else
    return venue

/-- `suspend_venue` -/
def suspendVenue (venueId : Uuid) : Service Venue := do
  let venue ← getVenue venueId
  if venue.isSuspended then
    return venue
  else
    saveVenue venueId (fun v => { v with isSuspended := true }) fun _ => rfl

/-- `list_venues` -/
def listVenues (plan : Plan Venue) (limit offset : ℕ) : Service (List Venue) :=
  query ⟨.select, .venues, []⟩ fun me db =>
    page limit offset <| orderByDesc Venue.createdAt plan <| venues.rows me db fun _ => true

/-- `MIN_NAME_SIMILARITY` -/
def minNameSimilarity : ℚ := 3 / 10

/-- What the search for a name takes from the database's extensions: `immutable_unaccent`, the
operator `<%` at a threshold and `word_similarity`; and the order in which the rows are met. -/
structure NameSearch where
  immutableUnaccent : String → String
  wordSimilar : ℚ → String → String → Bool
  wordSimilarity : String → String → ℚ
  plan : Plan Venue

/-- `search_venues`, whose `SET LOCAL` sets the threshold of its query. -/
def searchVenues (search : NameSearch) (text : String) (limit offset : ℕ) : Service (List Venue) :=
  query ⟨.select, .venues, []⟩ fun me db =>
    let unaccentedQuery := search.immutableUnaccent text
    let similarity (v : Venue) :=
      search.wordSimilarity unaccentedQuery (search.immutableUnaccent v.name)
    page limit offset <|
      orderBy (fun a b => decide (similarity b ≤ similarity a)) search.plan <|
        venues.rows me db fun v =>
          search.wordSimilar minNameSimilarity unaccentedQuery (search.immutableUnaccent v.name)

/-! ## Reports (`app/services/venue_report.py`) -/

/-- `create_venue_report` -/
def createVenueReport (c : Ctx) (reporterId venueId : Uuid) (reason : VenueReportReason)
    (details : Option String) : Service VenueReport := do
  let found ← scalarOneOrNone (← select venueReports .venueReports [reporterId, venueId] fun r =>
    decide (r.reporterId = some reporterId) && decide (r.venueId = venueId))
  match found with
  | some report => return report
  | none =>
    let _ ← getVenue venueId
    let report : VenueReport :=
      { id := c.uuid4 0, reporterId := some reporterId, venueId, reason, details
        status := .pending, resolvedBy := none, resolvedAt := none, createdAt := c.now }
    venueReports.insert report
    commit
    refresh venueReports report.id

/-- `list_venue_reports` -/
def listVenueReports (plan : Plan VenueReport) (status : Option ReportStatus)
    (limit offset : ℕ) : Service (List VenueReport) :=
  query ⟨.select, .venueReports, []⟩ fun me db =>
    page limit offset <| orderByDesc VenueReport.createdAt plan <| venueReports.rows me db fun r =>
      status.all fun s => decide (r.status = s)

/-! ## Closing and suspending keep what setting a column keeps -/

/-- Closing a venue keeps what clearing `is_active` keeps. -/
theorem keeps_closeVenue {Inv : Db → Prop} {me : Identity} {venueId : Uuid}
    (h : ∀ s, Inv s → Inv (setVenue venueId (fun v => { v with isActive := false })
      (fun _ => rfl) s)) : (closeVenue venueId).Keeps Inv me := by
  refine (readOnly_getVenue _).keeps.bind fun venue => ?_
  split
  · exact keeps_saveVenue h
  · trivial

/-- Suspending one keeps what setting `is_suspended` keeps. -/
theorem keeps_suspendVenue {Inv : Db → Prop} {me : Identity} {venueId : Uuid}
    (h : ∀ s, Inv s → Inv (setVenue venueId (fun v => { v with isSuspended := true })
      (fun _ => rfl) s)) : (suspendVenue venueId).Keeps Inv me := by
  refine (readOnly_getVenue _).keeps.bind fun venue => ?_
  split
  · trivial
  · exact keeps_saveVenue h

end OburBackend
