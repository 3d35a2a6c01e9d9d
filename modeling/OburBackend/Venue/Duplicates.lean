import OburBackend.Model.Consistent
import OburBackend.Core.Authz
import OburBackend.Service.Venue

/-!
# Creating a venue that is there already

`create_venue` looks for a venue with the given `google_places_id` before it adds one. The lookup
runs under the row policy, which hides suspended venues from everybody but administrators; the
unique index sees them all. A venue that is hidden is therefore not found, and the insertion of its
duplicate ends in a violated constraint, unless something else keeps the request from it.
-/

namespace OburBackend

open Sql

namespace VenueCreate

/-- The venue carries the `google_places_id` that the request gives. -/
def Names (args : VenueCreate) (v : Venue) : Prop :=
  ∃ googlePlacesId, args.googlePlacesId = some googlePlacesId ∧
    v.googlePlacesId = some googlePlacesId

/-- One of the two exceptions that `create_venue` is meant to raise. -/
inductive Declined : Except PyError Venue → Prop where
  | category (message : String) : Declined (.error (.domain .venueCategoryNotFound message))
  | nearby (message : String) : Declined (.error (.domain .duplicateVenueNearby message))

/-- What a request of `u` should end with: a venue that is there already is returned and nothing is
added, a new one is added, and either may be declined. -/
structure EndsWell (args : VenueCreate) (c : Ctx) (geo : Geography) (db : Db) (u : User) :
    Prop where
  duplicate : (∃ v ∈ db.venues, args.Names v) →
    (createVenue c geo args).after (some u.id) db = db ∧
      ((∃ v ∈ db.venues, args.Names v ∧
          (createVenue c geo args).outcome (some u.id) db = .ok v) ∨
        Declined ((createVenue c geo args).outcome (some u.id) db))
  new : (¬ ∃ v ∈ db.venues, args.Names v) →
    ((createVenue c geo args).outcome (some u.id) db = .ok (args.row c) ∧
        (createVenue c geo args).after (some u.id) db =
          { db with venues := db.venues.insert (args.row c) }) ∨
      (Declined ((createVenue c geo args).outcome (some u.id) db) ∧
        (createVenue c geo args).after (some u.id) db = db)

/-- The venue that the first layer of the duplicate detection finds. -/
def found (args : VenueCreate) (me : Identity) (db : Db) : Option Venue :=
  args.googlePlacesId.bind fun googlePlacesId =>
    (venues.rows me db fun v => decide (v.googlePlacesId = some googlePlacesId)).head?

/-- The venue that the second layer finds. -/
def nearby (args : VenueCreate) (geo : Geography) (me : Identity) (db : Db) : Option Venue :=
  if args.confirmDuplicate then none
  else (geo.plan.arrange (venues.rows me db fun v =>
    geo.dWithin (v.lat, v.lng) (args.lat, args.lng) duplicateRadiusMeters)).head?

variable {args : VenueCreate} {c : Ctx} {geo : Geography} {me : Identity} {db : Db} {u : User}

/-! ## What the request sees -/

end VenueCreate

end OburBackend
