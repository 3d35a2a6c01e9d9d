import OburBackend.ListOrder.Requests
import OburBackend.Service.TwoRuns
import OburBackend.Service.Venue
import OburBackend.Model.Consistent

/-!
# A suspended venue and a venue that does not exist

A suspended venue is meant to read as nonexistent to anyone but an administrator. Every operation
that reads the venue itself keeps that: the row policy hides the row, and the caller is told what
they are told of an id that was never used. The listing of a venue's check-ins does not read the
venue. It returns the check-ins of a suspended venue as it does those of any other.
-/

namespace OburBackend

open Sql

/-- The data without the venue and everything that refers to it. -/
def Db.withoutVenue (venueId : Uuid) (db : Db) : Db :=
  let db := eraseCheckins (fun c => decide (c.venueId = venueId)) db
  { db with
    venues := db.venues.erase fun v => decide (v.id = venueId)
    listItems := db.listItems.erase fun r => decide (r.venueId = venueId)
    venueSaves := db.venueSaves.erase fun r => decide (r.venueId = venueId)
    venueReports := db.venueReports.erase fun r => decide (r.venueId = venueId) }

/-- An operation that a caller, signed in or anonymous, can direct at venues. -/
inductive VenueRequest : Option User → Type where
  | getVenue {caller : Option User} (venueId : Uuid) : VenueRequest caller
  | listCheckinsForVenue {caller : Option User} (plan : Plan Checkin) (venueId : Uuid)
    (limit offset : ℕ) : VenueRequest caller
  | createCheckin {u : User} (args : CheckinCreate) : VenueRequest (some u)
  | saveVenue {u : User} (venueId : Uuid) (type : VenueSaveType) (visibility : String) :
    VenueRequest (some u)
  | addListItem {u : User} (listId venueId : Uuid) (afterItemId : Option Uuid) :
    VenueRequest (some u)
  | createVenueReport {u : User} (venueId : Uuid) (reason : VenueReportReason)
    (details : Option String) : VenueRequest (some u)
  | listVenues {caller : Option User} (plan : Plan Venue) (limit offset : ℕ) : VenueRequest caller
  | searchVenues {caller : Option User} (search : NameSearch) (text : String)
    (limit offset : ℕ) : VenueRequest caller

namespace VenueRequest

variable {caller : Option User}

/-- The venue about which the operation may add a row. -/
def addsTo : VenueRequest caller → Option Uuid
  | .createCheckin args => some args.venueId
  | .saveVenue venueId _ _ | .addListItem _ venueId _ | .createVenueReport venueId _ _ =>
    some venueId
  | .getVenue _ | .listCheckinsForVenue .. | .listVenues .. | .searchVenues .. => none

/-- What the operation returns. -/
def Result : VenueRequest caller → Type
  | .getVenue _ => Venue
  | .listCheckinsForVenue .. => List Checkin
  | .createCheckin _ => Checkin
  | .saveVenue .. => VenueSave
  | .addListItem .. => ListItem
  | .createVenueReport .. => VenueReport
  | .listVenues .. | .searchVenues .. => List Venue

/-- The operation as a program. -/
def program (c : Ctx) : (op : VenueRequest caller) → Service op.Result
  | .getVenue venueId => OburBackend.getVenue venueId
  | .listCheckinsForVenue plan venueId limit offset =>
    OburBackend.listCheckinsForVenue plan venueId caller limit offset
  | .createCheckin (u := u) args =>
    OburBackend.createCheckin c { args with userId := u.id }
  | .saveVenue (u := u) venueId type visibility =>
    VenueSave.saveVenue c u.id venueId type visibility
  | .addListItem (u := u) listId venueId afterItemId =>
    OburBackend.addListItem c listId u venueId afterItemId
  | .createVenueReport (u := u) venueId reason details =>
    OburBackend.createVenueReport c u.id venueId reason details
  | .listVenues plan limit offset => OburBackend.listVenues plan limit offset
  | .searchVenues search text limit offset => OburBackend.searchVenues search text limit offset

end VenueRequest

/-- The caller has neither reported nor saved the venue, and it is on no list of theirs. -/
structure Db.Untouched (db : Db) (caller : Option User) (venueId : Uuid) : Prop where
  reported : ∀ r ∈ db.venueReports, r.venueId = venueId → ∀ u ∈ caller, r.reporterId ≠ some u.id
  saved : ∀ r ∈ db.venueSaves, r.venueId = venueId → ∀ u ∈ caller, r.userId ≠ u.id
  listed : ∀ r ∈ db.listItems, r.venueId = venueId → ∀ l ∈ db.lists, l.id = r.listId →
    ∀ u ∈ caller, l.userId ≠ u.id

/-- No row that refers to the venue has the id. -/
structure Db.Spares (db : Db) (venueId id : Uuid) : Prop where
  checkin : ∀ r ∈ db.checkins, r.venueId = venueId → r.id ≠ id
  listItem : ∀ r ∈ db.listItems, r.venueId = venueId → r.id ≠ id
  venueSave : ∀ r ∈ db.venueSaves, r.venueId = venueId → r.id ≠ id
  venueReport : ∀ r ∈ db.venueReports, r.venueId = venueId → r.id ≠ id

/-- The check-ins of a venue that a viewer can list: those that are not deleted, of accounts that
the viewer sees to be active, and visible to the viewer themselves. -/
def Db.listedAt (db : Db) (viewer : Option User) (venueId : Uuid) : List Checkin :=
  let me := viewer.map User.id
  db.checkins.select fun c => decide (c.venueId = venueId) && (c.deletedAt.isNone &&
    (accountIsVisible me db c.userId && decide (db.CanSee me c.userId c.visibility)))

/-- The operation lists the check-ins of the venue, and there is one on the page that it asks
for. -/
def VenueRequest.Reveals (db : Db) (venueId : Uuid) {caller : Option User} :
    VenueRequest caller → Prop
  | .listCheckinsForVenue _ venueId' limit offset =>
    venueId' = venueId ∧ 0 < limit ∧ offset < (db.listedAt caller venueId).length
  | _ => False

/-! ## What the operations read on both sides -/

/-- Data in which the venue is suspended, and that data without it, while a request runs that may
add a row about the venue `target`, with the id `newId`. The caller is no administrator and has
nothing to do with the venue; the lists are `table`. -/
structure Conceals (table : Table VenueList.id) (caller : Option User) (venueId newId : Uuid)
    (target : Option Uuid) (s s' : Db) : Prop where
  eq : s' = s.withoutVenue venueId
  lists_eq : s.lists = table
  notAdmin : ¬ s.IsAdmin (caller.map User.id)
  suspended : ∀ v ∈ s.venues, v.id = venueId → v.isSuspended = true
  untouched : s.Untouched caller venueId
  spares : ∀ k, target = some k → k ≠ venueId → s.Spares venueId newId

namespace Conceals

variable {table : Table VenueList.id} {caller : Option User} {venueId newId : Uuid}
  {target : Option Uuid} {s s' : Db}

/-- The caller does not see the venue. -/
theorem not_visible (h : Conceals table caller venueId newId target s s') {v : Venue}
    (hv : v ∈ s.venues) (hsee : venues.visible (caller.map User.id) s v = true) :
    decide (v.id = venueId) = false := by
  rw [venues.visible_eq_true, venues_policy, venuesPolicy, Truth.holds_or, holds_rlsIsAdmin,
    Truth.holds_not_ofBool] at hsee
  rw [decide_eq_false_iff_not]
  intro hid
  rcases hsee with hadmin | hshown
  · exact h.notAdmin hadmin
  · rw [h.suspended v hv hid] at hshown
    cases hshown

/-- A query of the venues finds the same ones. -/
theorem venue_rows (h : Conceals table caller venueId newId target s s') (q : Venue → Bool) :
    venues.rows (caller.map User.id) s' q = venues.rows (caller.map User.id) s q := by
  have hhidden := fun v hv => @h.not_visible _ _ _ _ _ _ _ v hv
  obtain rfl := h.eq
  exact rows_of_erase rfl (fun _ _ _ => rfl) fun v hv _ hsee => hhidden v hv hsee

/-- So does a lookup by primary key. -/
theorem venue_lookup (h : Conceals table caller venueId newId target s s') (k : Uuid) :
    venues.lookup (caller.map User.id) s' k = venues.lookup (caller.map User.id) s k := by
  have hhidden := fun v hv => @h.not_visible _ _ _ _ _ _ _ v hv
  obtain rfl := h.eq
  exact lookup_of_erase rfl (fun _ _ _ => rfl) fun v hv _ hsee => hhidden v hv hsee

/-- A venue that the caller finds is another one, so its rows do not go with the suspended one. -/
theorem ne_of_lookup (h : Conceals table caller venueId newId target s s') {k : Uuid} {v : Venue}
    (hv : venues.lookup (caller.map User.id) s k = some v) : k ≠ venueId := by
  obtain ⟨hmem, rfl, hsee⟩ := venues.lookup_eq_some.mp hv
  exact of_decide_eq_false (h.not_visible hmem (venues.visible_eq_true.mpr hsee))

/-- Users, blocks and close friends are the same. -/
theorem samePeople (h : Conceals table caller venueId newId target s s') : s.SamePeople s' := by
  obtain rfl := h.eq
  exact ⟨rfl, rfl, rfl⟩

/-- Another venue may be referred to in both or in neither. -/
theorem hasVenue (h : Conceals table caller venueId newId target s s') {k : Uuid}
    (hk : k ≠ venueId) : s'.hasVenue k = s.hasVenue k := by
  obtain rfl := h.eq
  have hget : (s.venues.erase fun v => decide (v.id = venueId)).get k = s.venues.get k :=
    Table.get_erase_of_not fun v _ hid => decide_eq_false fun hv => hk (hid.symm.trans hv)
  show ((s.venues.erase fun v => decide (v.id = venueId)).get k).isSome = (s.venues.get k).isSome
  rw [hget]

end Conceals

/-- A table whose rows refer to a venue and go with it. The policies do not depend on these rows. -/
structure RefersToVenue {ρ : Type} {key : ρ → Uuid} (T : DbTable key) (venueOf : ρ → Uuid) :
    Prop where
  read : ∀ s v, T.read (Db.withoutVenue v s) = (T.read s).erase fun r => decide (venueOf r = v)
  policy : ∀ me s v, T.policy me (Db.withoutVenue v s) = T.policy me s
  spares : ∀ s v id, Db.Spares s v id → ∀ r ∈ T.read s, venueOf r = v → key r ≠ id

/-- Check-ins refer to a venue. -/
theorem refersToVenue_checkins : RefersToVenue checkins Checkin.venueId :=
  ⟨fun _ _ => rfl, fun _ _ _ => rfl, fun _ _ _ h => h.checkin⟩

/-- List items do. -/
theorem refersToVenue_listItems : RefersToVenue listItems ListItem.venueId :=
  ⟨fun _ _ => rfl, fun _ _ _ => rfl, fun _ _ _ h => h.listItem⟩

/-- Saves do. -/
theorem refersToVenue_venueSaves : RefersToVenue venueSaves VenueSave.venueId :=
  ⟨fun _ _ => rfl, fun _ _ _ => rfl, fun _ _ _ h => h.venueSave⟩

/-- Reports on venues do. -/
theorem refersToVenue_venueReports : RefersToVenue venueReports VenueReport.venueId :=
  ⟨fun _ _ => rfl, fun _ _ _ => rfl, fun _ _ _ h => h.venueReport⟩

namespace Conceals

variable {table : Table VenueList.id} {caller : Option User} {venueId newId : Uuid}
  {target : Option Uuid} {s s' : Db}

section Rows

variable {ρ : Type} {key : ρ → Uuid} {T : DbTable key} {venueOf : ρ → Uuid}
  (h : Conceals table caller venueId newId target s s') (hT : RefersToVenue T venueOf)

include h hT

/-- The rows about other venues are all there. -/
theorem rows_eq {q : ρ → Bool} (hq : ∀ r ∈ T.read s, q r = true → venueOf r ≠ venueId)
    (me : Identity) : T.rows me s' q = T.rows me s q := by
  have hread : T.read s' = (T.read s).erase fun r => decide (venueOf r = venueId) := by
    rw [h.eq, hT.read]
  have hvisible : ∀ r, T.visible me s' r = T.visible me s r := by
    intro r
    rw [TableDef.visible, TableDef.visible, h.eq, hT.policy]
  exact rows_of_erase hread (fun r _ _ => hvisible r) fun r hr hqr _ =>
    decide_eq_false (hq r hr hqr)

/-- The id of the new row is free on both sides or on neither. -/
theorem get_newId {k : Uuid} (ht : target = some k) (hk : k ≠ venueId) :
    (T.read s').get newId = (T.read s).get newId := by
  have hspares := hT.spares s venueId newId (h.spares k ht hk)
  obtain rfl := h.eq
  rw [hT.read]
  exact Table.get_erase_of_not fun r hr hid => decide_eq_false fun hv => hspares r hr hv hid

/-- A new row for another venue is seen in both or in neither. -/
theorem lookup_newId {k : Uuid} (ht : target = some k) (hk : k ≠ venueId) (me : Identity) :
    T.lookup me s' newId = T.lookup me s newId := by
  have hget := h.get_newId hT ht hk
  have hvisible : T.visible me s' = T.visible me s := by
    funext r
    rw [TableDef.visible, TableDef.visible, h.eq, hT.policy]
  rw [TableDef.lookup, TableDef.lookup, hget, hvisible]

end Rows

/-- What holds of the rows about the venue holds of them still when a row about another is added. -/
theorem forall_insert {ρ π : Type} {key : ρ → π} [DecidableEq π] {t : Table key}
    {venueOf : ρ → Uuid} {P : ρ → Prop} {x : ρ} (h : ∀ r ∈ t, venueOf r = venueId → P r)
    (hx : venueOf x ≠ venueId) : ∀ r ∈ t.insert x, venueOf r = venueId → P r := by
  intro r hr hv
  rcases Table.mem_or_eq_of_mem_insert hr with hr | rfl
  · exact h r hr hv
  · exact absurd hv hx

/-- Adding a row about another venue. -/
theorem alike_insertRow {ρ : Type} {key : ρ → Uuid} {T : DbTable key} {venueOf : ρ → Uuid}
    (hT : RefersToVenue T venueOf) {x : ρ} {me : Identity} {k : Uuid} (hx : key x = newId)
    (ht : target = some k) (hk : k ≠ venueId)
    (hcons : ∀ s s', Conceals table caller venueId newId target s s' →
      T.constraints s' x = T.constraints s x)
    (hinsert : ∀ s s', Conceals table caller venueId newId target s s' →
      (T.read s).get (key x) = none →
        Conceals table caller venueId newId target (T.write (·.insert x) s)
          (T.write (·.insert x) s')) :
    (T.insert x : Service Unit).Alike (Conceals table caller venueId newId target) me := by
  refine alike_insert ?_ ?_ ?_ hcons fun s s' h hfree _ => hinsert s s' h hfree
  · intro s s' h
    rw [h.eq, hT.policy]
  · intro s s' h
    rw [h.eq, hT.policy]
  · intro s s' h
    rw [hx, h.get_newId hT ht hk]

/-- Adding a row about another venue, committing it and reading it back. -/
theorem alike_store {ρ : Type} {key : ρ → Uuid} {T : DbTable key} {venueOf : ρ → Uuid}
    (hT : RefersToVenue T venueOf) {x : ρ} {me : Identity} {k : Uuid} (hx : key x = newId)
    (ht : target = some k) (hk : k ≠ venueId)
    (hcons : ∀ s s', Conceals table caller venueId newId target s s' →
      T.constraints s' x = T.constraints s x)
    (hinsert : ∀ s s', Conceals table caller venueId newId target s s' →
      (T.read s).get (key x) = none →
        Conceals table caller venueId newId target (T.write (·.insert x) s)
          (T.write (·.insert x) s')) :
    ((T.insert x).bind fun _ => commit.bind fun _ => refresh T (key x) : Service ρ).Alike
      (Conceals table caller venueId newId target) me := by
  refine (alike_insertRow hT hx ht hk hcons hinsert).bind fun _ => alike_commit_refresh ?_
  intro s s' h
  rw [hx]
  exact h.lookup_newId hT ht hk me

/-- Looking a venue up, which is another one if it is found. -/
theorem alike_getVenue_bind {α : Type} {k : Uuid} {K : Option Venue → Service α}
    (hnone : (K none).Alike (Conceals table caller venueId newId target) (caller.map User.id))
    (hsome : ∀ v, k ≠ venueId →
      (K (some v)).Alike (Conceals table caller venueId newId target) (caller.map User.id)) :
    ((venues.get k).bind K).Alike (Conceals table caller venueId newId target)
      (caller.map User.id) := by
  refine alike_get_bind.mpr fun s s' h => ?_
  rw [h.venue_lookup]
  refine ⟨rfl, ?_⟩
  cases hv : venues.lookup (caller.map User.id) s k with
  | none => exact hnone
  | some v => exact hsome v (h.ne_of_lookup hv)

/-- Users may be referred to in both or in neither. -/
theorem hasUser (h : Conceals table caller venueId newId target s s') (k : Uuid) :
    s'.hasUser k = s.hasUser k := by
  rw [Db.hasUser, Db.hasUser, h.samePeople.users]

/-! ## Check-ins -/

/-- A check-in elsewhere meets the same constraints. -/
theorem checkinsConstraints_eq (h : Conceals table caller venueId newId target s s') {x : Checkin}
    (hx : x.venueId ≠ venueId) : checkinsConstraints s' x = checkinsConstraints s x := by
  rw [checkinsConstraints, checkinsConstraints, h.hasVenue hx, h.hasUser]

/-- Adding a check-in of another venue. -/
theorem insert_checkin (h : Conceals table caller venueId newId target s s') {x : Checkin}
    (hfree : s.checkins.get x.id = none) (hx : x.venueId ≠ venueId) :
    Conceals table caller venueId newId target (checkins.write (·.insert x) s)
      (checkins.write (·.insert x) s') := by
  obtain ⟨rfl, hlists, hadmin, hsuspended, huntouched, hspares⟩ := h
  refine ⟨?_, hlists, hadmin, hsuspended, ⟨huntouched.1, huntouched.2, huntouched.3⟩, ?_⟩
  · have hother : decide (x.venueId = venueId) = false := decide_eq_false hx
    have hany : ∀ k, ((s.checkins.insert x).get k).any (fun c => decide (c.venueId = venueId)) =
        (s.checkins.get k).any fun c => decide (c.venueId = venueId) :=
      fun k => Table.any_get_insert k hfree hother
    simp only [Db.withoutVenue, eraseCheckins, checkins, hany]
    rw [Table.erase_insert hfree hother]
  · intro k ht hk
    exact { hspares k ht hk with checkin := forall_insert (hspares k ht hk).checkin hx }

/-- Verifying another venue. -/
theorem evaluated (h : Conceals table caller venueId newId target s s') (ids : List Uuid) :
    Conceals table caller venueId newId target (setVerified ids s) (setVerified ids s') := by
  obtain ⟨rfl, hlists, hadmin, hsuspended, huntouched, hspares⟩ := h
  refine ⟨?_, hlists, hadmin, ?_, ⟨huntouched.1, huntouched.2, huntouched.3⟩, fun k ht hk =>
    have h := hspares k ht hk
    ⟨h.1, h.2, h.3, h.4⟩⟩
  · simp only [setVerified, Db.withoutVenue, eraseCheckins]
    rw [Table.erase_modify (f := fun v : Venue => { v with isVerified := true }) fun _ => rfl]
  · intro v hv hid
    rw [setVerified, Table.mem_modify] at hv
    obtain ⟨v', hv', rfl⟩ := hv
    split
    · next hin =>
      rw [if_pos hin] at hid
      exact hsuspended v' hv' hid
    · next hin =>
      rw [if_neg hin] at hid
      exact hsuspended v' hv' hid

/-- The other venues are eligible for verification as before. -/
theorem eligible_rows (h : Conceals table caller venueId newId target s s') {k : Uuid}
    (hk : k ≠ venueId) (n : ℕ) :
    s'.venues.select (eligible s' k n) = s.venues.select (eligible s k n) := by
  obtain rfl := h.eq
  have hcount : countDistinctPublicCheckinUsers (s.withoutVenue venueId) k =
      countDistinctPublicCheckinUsers s k := by
    have hrows := @Table.select_erase _ _ _ s.checkins (fun c => decide (c.venueId = venueId))
      (fun c => decide (c.venueId = k) &&
        (decide (c.visibility = Visibility.pub) && c.deletedAt.isNone)) ?_
    · exact congrArg (fun rows => (rows.map Checkin.userId).dedup.length) hrows
    · intro c _ hc
      rw [Bool.and_eq_true, decide_eq_true_eq] at hc
      exact decide_eq_false fun hv => hk (hc.1.symm.trans hv)
  have heligible : eligible (s.withoutVenue venueId) k n = eligible s k n := by
    funext v
    rw [eligible, eligible, hcount]
  rw [heligible]
  refine Table.select_erase fun v _ hv => ?_
  rw [eligible, Bool.and_eq_true, decide_eq_true_eq] at hv
  exact decide_eq_false fun hid => hk (hv.1.symm.trans hid)

/-- Another venue is verified in both or in neither. -/
theorem alike_evaluateVenueVerification {k : Uuid} (hk : k ≠ venueId) :
    (evaluateVenueVerification k).Alike (Conceals table caller venueId newId target)
      (caller.map User.id) := by
  refine Prog.Alike.bind ⟨?_, trivial, fun _ => trivial⟩ fun _ =>
    (alike_query fun s s' h => h.venue_rows _).bind fun _ => trivial
  intro s s' h
  dsimp only
  rw [h.eligible_rows hk]
  exact h.evaluated _

/-- A check-in elsewhere is added in both, and one at the venue in neither. -/
theorem alike_createCheckin {c : Ctx} (args : CheckinCreate) :
    (createCheckin c args).Alike (Conceals table caller venueId (c.uuid4 0) (some args.venueId))
      (caller.map User.id) := by
  refine alike_getVenue_bind trivial fun v hne => ?_
  refine (alike_ensureVisitedAtNotFuture _ _ _).bind fun _ => ?_
  refine (alike_insertRow refersToVenue_checkins rfl rfl hne
    (fun s s' h => h.checkinsConstraints_eq hne)
    fun s s' h hfree => h.insert_checkin (x := args.row c) hfree hne).bind fun _ =>
      alike_commit.bind fun _ => Prog.Alike.bind ?_ fun _ => ?_
  · exact alike_refresh fun s s' h => h.lookup_newId refersToVenue_checkins rfl hne _
  dsimp only
  split
  · exact (alike_evaluateVenueVerification hne).bind fun _ => trivial
  · trivial

/-! ## Saves -/

/-- A save of another venue meets the same constraints. -/
theorem venueSavesConstraints_eq (h : Conceals table caller venueId newId target s s')
    {x : VenueSave} (hx : x.venueId ≠ venueId) :
    venueSavesConstraints s' x = venueSavesConstraints s x := by
  have hunique : uniqueIn s'.venueSaves (fun r => some (r.userId, r.venueId, r.type)) x =
      uniqueIn s.venueSaves (fun r => some (r.userId, r.venueId, r.type)) x := by
    obtain rfl := h.eq
    refine uniqueIn_erase fun r _ b hb hb' => decide_eq_false fun hv => hx ?_
    have hpair := Option.some.inj (hb.trans hb'.symm)
    rw [(Prod.mk.inj (Prod.mk.inj hpair).2).1, hv]
  rw [venueSavesConstraints, venueSavesConstraints, hunique, h.hasVenue hx, h.hasUser]

/-- Adding one keeps the venue concealed. -/
theorem insert_venueSave (h : Conceals table caller venueId newId target s s') {x : VenueSave}
    (hfree : s.venueSaves.get x.id = none) (hx : x.venueId ≠ venueId) :
    Conceals table caller venueId newId target (venueSaves.write (·.insert x) s)
      (venueSaves.write (·.insert x) s') := by
  obtain ⟨rfl, hlists, hadmin, hsuspended, huntouched, hspares⟩ := h
  refine ⟨?_, hlists, hadmin, hsuspended,
    { huntouched with saved := forall_insert huntouched.saved hx },
    fun k ht hk =>
      { hspares k ht hk with venueSave := forall_insert (hspares k ht hk).venueSave hx }⟩
  simp only [Db.withoutVenue, eraseCheckins, venueSaves]
  rw [Table.erase_insert hfree (decide_eq_false hx)]

/-- Another venue is saved in both, and this one in neither. -/
theorem alike_saveVenue {c : Ctx} {userId k : Uuid} {type : VenueSaveType} {visibility : String} :
    (VenueSave.saveVenue c userId k type visibility).Alike
      (Conceals table caller venueId (c.uuid4 0) (some k)) (caller.map User.id) := by
  refine alike_getVenue_bind trivial fun v hne => ?_
  refine Prog.Alike.bind (alike_query fun s s' h => ?_) fun rows =>
    (alike_scalarOneOrNone rows).bind fun found => ?_
  · refine h.rows_eq refersToVenue_venueSaves (fun r _ hr => ?_) _
    rw [Bool.and_eq_true, Bool.and_eq_true, decide_eq_true_eq, decide_eq_true_eq] at hr
    rw [hr.2.1]
    exact hne
  · cases found with
    | some save => trivial
    | none =>
      exact alike_store refersToVenue_venueSaves rfl rfl hne
        (fun s s' h => h.venueSavesConstraints_eq hne)
        fun s s' h hfree => h.insert_venueSave hfree hne

/-! ## Reports -/

/-- A report on another venue meets the same constraints. -/
theorem venueReportsConstraints_eq (h : Conceals table caller venueId newId target s s')
    {x : VenueReport} (hx : x.venueId ≠ venueId) :
    venueReportsConstraints s' x = venueReportsConstraints s x := by
  have huser? : ∀ reference, s'.hasUser? reference = s.hasUser? reference := by
    intro reference
    cases reference with
    | none => rfl
    | some id => exact h.hasUser id
  have hunique : uniqueIn s'.venueReports VenueReport.target x =
      uniqueIn s.venueReports VenueReport.target x := by
    obtain rfl := h.eq
    refine uniqueIn_erase fun r _ b hb hb' => decide_eq_false fun hv => hx ?_
    obtain ⟨_, -, rfl⟩ := Option.map_eq_some_iff.mp hb
    obtain ⟨_, -, hpair⟩ := Option.map_eq_some_iff.mp hb'
    rw [← (Prod.mk.inj hpair).2, hv]
  rw [venueReportsConstraints, venueReportsConstraints, hunique, h.hasVenue hx, huser?, huser?]

/-- Adding one keeps the venue concealed. -/
theorem insert_venueReport (h : Conceals table caller venueId newId target s s') {x : VenueReport}
    (hfree : s.venueReports.get x.id = none) (hx : x.venueId ≠ venueId) :
    Conceals table caller venueId newId target (venueReports.write (·.insert x) s)
      (venueReports.write (·.insert x) s') := by
  obtain ⟨rfl, hlists, hadmin, hsuspended, huntouched, hspares⟩ := h
  refine ⟨?_, hlists, hadmin, hsuspended,
    { huntouched with reported := forall_insert huntouched.reported hx },
    fun k ht hk =>
      { hspares k ht hk with venueReport := forall_insert (hspares k ht hk).venueReport hx }⟩
  simp only [Db.withoutVenue, eraseCheckins, venueReports]
  rw [Table.erase_insert hfree (decide_eq_false hx)]

/-- Another venue is reported in both, and this one in neither. -/
theorem alike_createVenueReport {c : Ctx} {u : User} {k : Uuid} {reason : VenueReportReason}
    {details : Option String} :
    (createVenueReport c u.id k reason details).Alike
      (Conceals table (some u) venueId (c.uuid4 0) (some k)) (some u.id) := by
  refine Prog.Alike.bind (alike_query fun s s' h => ?_) fun rows =>
    (alike_scalarOneOrNone rows).bind fun found => ?_
  · -- the caller has not reported the venue
    refine h.rows_eq refersToVenue_venueReports (fun r hr hq hv => ?_) _
    rw [Bool.and_eq_true, decide_eq_true_eq] at hq
    exact h.untouched.reported r hr hv u rfl hq.1
  · cases found with
    | some report => trivial
    | none =>
      simp only [getVenue, Prog.bind_eq, Prog.bind_assoc]
      refine alike_getVenue_bind trivial fun v hne => ?_
      exact alike_store refersToVenue_venueReports rfl rfl hne
        (fun s s' h => h.venueReportsConstraints_eq hne)
        fun s s' h hfree => h.insert_venueReport hfree hne

/-! ## List items -/

/-- An item with another venue meets the same constraints. -/
theorem listItemsConstraints_eq (h : Conceals table caller venueId newId target s s')
    {x : ListItem} (hx : x.venueId ≠ venueId) :
    listItemsConstraints s' x = listItemsConstraints s x := by
  have hunique : uniqueIn s'.listItems (fun r => some (r.listId, r.venueId)) x =
      uniqueIn s.listItems (fun r => some (r.listId, r.venueId)) x := by
    obtain rfl := h.eq
    refine uniqueIn_erase fun r _ b hb hb' => decide_eq_false fun hv => hx ?_
    have hpair := Option.some.inj (hb.trans hb'.symm)
    rw [(Prod.mk.inj hpair).2, hv]
  have hlist : s'.hasList x.listId = s.hasList x.listId := by
    obtain rfl := h.eq
    rfl
  rw [listItemsConstraints, listItemsConstraints, hunique, h.hasVenue hx, hlist]

/-- Adding one keeps the venue concealed. -/
theorem insert_listItem (h : Conceals table caller venueId newId target s s') {x : ListItem}
    (hfree : s.listItems.get x.id = none) (hx : x.venueId ≠ venueId) :
    Conceals table caller venueId newId target (listItems.write (·.insert x) s)
      (listItems.write (·.insert x) s') := by
  obtain ⟨rfl, hlists, hadmin, hsuspended, huntouched, hspares⟩ := h
  refine ⟨?_, hlists, hadmin, hsuspended,
    { huntouched with listed := forall_insert huntouched.listed hx },
    fun k ht hk => { hspares k ht hk with listItem := forall_insert (hspares k ht hk).listItem hx }⟩
  simp only [Db.withoutVenue, eraseCheckins, listItems]
  rw [Table.erase_insert hfree (decide_eq_false hx)]

/-- The venue is on no list that the caller owns, so the items of such a list are all there. -/
theorem alike_orderedItems {c : Ctx} {u : User} {l : VenueList} (hl : l ∈ table)
    (hown : l.userId = u.id) (loaded : Option ListItem) :
    (orderedItems c l.id loaded).Alike (Conceals table (some u) venueId newId target)
      (some u.id) := by
  refine alike_query fun s s' h => ?_
  have hitems : listItems.rows (some u.id) s' (fun r => decide (r.listId = l.id)) =
      listItems.rows (some u.id) s fun r => decide (r.listId = l.id) := by
    refine h.rows_eq refersToVenue_listItems (fun r hr hq hv => ?_) _
    have hstored : l ∈ s.lists := h.lists_eq ▸ hl
    exact h.untouched.listed r hr hv l hstored (of_decide_eq_true hq).symm u rfl hown
  rw [hitems]

/-- The position on a list of the caller's is computed from the same items. -/
theorem alike_placePosition {c : Ctx} {u : User} {l : VenueList} (hl : l ∈ table)
    (hown : l.userId = u.id) (place : Place) :
    (placePosition c l.id none place).Alike (Conceals table (some u) venueId newId target)
      (some u.id) := by
  refine (alike_orderedItems hl hown none).bind fun items => ?_
  cases place.cut items with
  | error itemId => trivial
  | ok cut =>
    unfold gapPosition generateKeyBetween
    dsimp only
    cases c.generateKeyBetween _ _ <;> trivial

/-- Another venue is put on a list in both, and this one in neither. -/
theorem alike_addListItem {c : Ctx} {u : User} (hrole : u.role ≠ UserRole.admin)
    {listId k : Uuid} {afterItemId : Option Uuid} :
    (addListItem c listId u k afterItemId).Alike
      (Conceals table (some u) venueId (c.uuid4 0) (some k)) (some u.id) := by
  simp only [addListItem_eq, addChecks, Prog.bind_eq, Prog.bind_assoc]
  refine alike_get_bind.mpr fun s s' h => ?_
  have hsame : lists.lookup (some u.id) s' listId = lists.lookup (some u.id) s listId := by
    obtain rfl := h.eq
    rfl
  rw [hsame]
  refine ⟨rfl, ?_⟩
  cases hl : lists.lookup (some u.id) s listId with
  | none => trivial
  | some l =>
    obtain ⟨hmem, rfl, -⟩ := lists.lookup_eq_some.mp hl
    have hl : l ∈ table := h.lists_eq ▸ hmem
    simp only [ensureListOwned, ensureVisibleAndOwned, Prog.bind_assoc, Prog.bind_eq]
    cases howner : isOwnerOrAdmin l.userId u with
    | false =>
      -- the guard raises, so nothing follows
      simp only [Bool.false_eq_true, if_false, Prog.bind_assoc]
      refine (alike_canView (fun s s' h => h.samePeople) _ _ _).bind fun visible => ?_
      cases visible <;> trivial
    | true =>
      have hown : l.userId = u.id := by
        rcases (Bool.or_eq_true_iff.mp howner) with hid | hadmin
        · exact (of_decide_eq_true hid).symm
        · exact absurd (of_decide_eq_true hadmin) hrole
      simp only [if_true, Prog.pure_eq, Prog.ret_bind]
      refine alike_getVenue_bind trivial fun v hne => ?_
      simp only [Option.isNone_some, Bool.false_eq_true, if_false, Prog.bind_assoc]
      refine Prog.Alike.bind (alike_query fun s s' h => ?_) fun rows =>
        (alike_scalarOneOrNone rows).bind fun existing => ?_
      · refine h.rows_eq refersToVenue_listItems (fun r _ hq => ?_) _
        rw [Bool.and_eq_true, decide_eq_true_eq, decide_eq_true_eq] at hq
        rw [hq.2]
        exact hne
      · cases existing with
        | some item => trivial
        | none =>
          refine (alike_placePosition hl hown _).bind fun position => ?_
          exact alike_store refersToVenue_listItems rfl rfl hne
            (fun s s' h => h.listItemsConstraints_eq hne)
            fun s s' h hfree => h.insert_listItem hfree hne

/-! ## Reading venues and their check-ins -/

/-- The venue is not found in either, and others are found alike. -/
theorem alike_getVenue {k : Uuid} :
    (getVenue k).Alike (Conceals table caller venueId newId target) (caller.map User.id) := by
  refine (alike_get fun s s' h => h.venue_lookup k).bind fun found => ?_
  cases found <;> trivial

/-- A page of the venues is the same in both. -/
theorem alike_listVenues {plan : Plan Venue} {limit offset : ℕ} :
    (listVenues plan limit offset).Alike (Conceals table caller venueId newId target)
      (caller.map User.id) :=
  alike_query fun s s' h => by rw [h.venue_rows]

/-- So is a page of a search. -/
theorem alike_searchVenues {search : NameSearch} {text : String} {limit offset : ℕ} :
    (searchVenues search text limit offset).Alike (Conceals table caller venueId newId target)
      (caller.map User.id) :=
  alike_query fun s s' h => by simp only [h.venue_rows]

/-- So is a page of another venue's check-ins. -/
theorem alike_listCheckinsForVenue {plan : Plan Checkin} {k : Uuid} (hk : k ≠ venueId)
    {limit offset : ℕ} :
    (listCheckinsForVenue plan k caller limit offset).Alike
      (Conceals table caller venueId newId target) (caller.map User.id) := by
  refine alike_query fun s s' h => ?_
  have hrows := h.rows_eq refersToVenue_checkins (q := fun x => decide (x.venueId = k) &&
    (x.deletedAt.isNone && (accountIsVisible (caller.map User.id) s x.userId &&
      listable (caller.map User.id) s caller (isOwnerOrAdmin x.userId) x.userId x.visibility)))
    (fun r _ hq hv => ?_) (caller.map User.id)
  · obtain rfl := h.eq
    exact congrArg (fun rows => page limit offset (orderByDesc Checkin.createdAt plan rows)) hrows
  · rw [Bool.and_eq_true, decide_eq_true_eq] at hq
    exact hk (hq.1.symm.trans hv)

end Conceals

/-! ## The listing of the check-ins of the venue itself -/

section Listing

variable {db : Db} {caller : Option User} {venueId : Uuid}

/-- The query of the listing finds the check-ins that the caller can list. -/
theorem rows_listCheckins (hstored : ∀ u ∈ caller, db.Stored u) :
    (checkins.rows (caller.map User.id) db fun c => decide (c.venueId = venueId) &&
      (c.deletedAt.isNone && (accountIsVisible (caller.map User.id) db c.userId &&
        listable (caller.map User.id) db caller (isOwnerOrAdmin c.userId) c.userId
          c.visibility))) = db.listedAt caller venueId := by
  refine List.filter_congr fun c _ => ?_
  have hvisible : checkins.visible (caller.map User.id) db c =
      decide (db.CanSee (caller.map User.id) c.userId c.visibility) := by
    rw [TableDef.visible, checkins_policy]
    exact decide_eq_decide.mpr holds_checkinsPolicy_select
  rw [hvisible]
  dsimp only
  by_cases hsee : db.CanSee (caller.map User.id) c.userId c.visibility
  · rw [listable_of_canSee rfl hstored (fun _ _ h => h) hsee, decide_eq_true hsee, Bool.and_true]
  · rw [decide_eq_false hsee, Bool.and_false, Bool.and_false, Bool.and_false, Bool.and_false]

/-- A page is empty when nothing is asked for, or the listing ends before it. -/
theorem page_eq_nil_iff {α : Type} {limit offset : ℕ} {l : List α} :
    page limit offset l = [] ↔ ¬ (0 < limit ∧ offset < l.length) := by
  rw [page, List.take_eq_nil_iff, List.drop_eq_nil_iff]
  omega

/-- Without the venue there is nothing to list. With it, the listing is the page that it asks
for. -/
theorem outcome_listCheckins (hstored : ∀ u ∈ caller, db.Stored u) (plan : Plan Checkin)
    (limit offset : ℕ) :
    (listCheckinsForVenue plan venueId caller limit offset).outcome (caller.map User.id) db =
        (listCheckinsForVenue plan venueId caller limit offset).outcome (caller.map User.id)
          (db.withoutVenue venueId) ↔
      ¬ (0 < limit ∧ offset < (db.listedAt caller venueId).length) := by
  have hwith : (listCheckinsForVenue plan venueId caller limit offset).outcome
      (caller.map User.id) db =
        .ok (page limit offset
          (orderByDesc Checkin.createdAt plan (db.listedAt caller venueId))) := by
    rw [← rows_listCheckins hstored]
    rfl
  have hnone : (db.withoutVenue venueId).listedAt caller venueId = [] := by
    refine Table.select_eq_nil fun x hx => ?_
    have hgone : decide (x.venueId = venueId) = false := (Table.mem_erase.mp hx).2
    rw [hgone, Bool.false_and]
  have hwithout : (listCheckinsForVenue plan venueId caller limit offset).outcome
      (caller.map User.id) (db.withoutVenue venueId) = .ok [] := by
    have hstored' : ∀ u ∈ caller, (db.withoutVenue venueId).Stored u := hstored
    have hrows := @rows_listCheckins (db.withoutVenue venueId) caller venueId hstored'
    rw [hnone] at hrows
    have hpage : (listCheckinsForVenue plan venueId caller limit offset).outcome
        (caller.map User.id) (db.withoutVenue venueId) =
          .ok (page limit offset (orderByDesc Checkin.createdAt plan [])) := by
      rw [← hrows]
      rfl
    have hempty : orderByDesc Checkin.createdAt plan [] = [] :=
      List.Perm.eq_nil (orderBy_perm _ _ _)
    rw [hpage, hempty, page, List.drop_nil, List.take_nil]
  have hlength : (orderByDesc Checkin.createdAt plan (db.listedAt caller venueId)).length =
      (db.listedAt caller venueId).length := (orderBy_perm _ _ _).length_eq
  rw [hwith, hwithout, Except.ok.injEq, page_eq_nil_iff, hlength]

end Listing

/-- For every caller, anonymous or signed in, who is no administrator, every suspended venue that
they have not reported, saved or listed, and every operation: the outcome is the one on the data
without the venue and what refers to it if and only if the operation does not list the check-ins of
the venue with one of them on its page. -/
theorem outcome_suspended_iff (c : Ctx) (db : Db) (caller : Option User) (v : Venue)
    (op : VenueRequest caller) (hv : v ∈ db.venues) (hsuspended : v.isSuspended = true)
    (hcaller : ∀ u ∈ caller, db.Stored u ∧ u.role ≠ UserRole.admin)
    (huntouched : db.Untouched caller v.id)
    (hfresh : ∀ k, op.addsTo = some k → k ≠ v.id → db.Spares v.id (c.uuid4 0)) :
    (op.program c).outcome (caller.map User.id) db =
        (op.program c).outcome (caller.map User.id) (db.withoutVenue v.id) ↔
      ¬ op.Reveals db v.id := by
  have hadmin : ¬ db.IsAdmin (caller.map User.id) := by
    cases caller with
    | none => exact not_isAdmin_none
    | some u =>
      obtain ⟨hstored, hrole⟩ := hcaller u rfl
      exact fun h => hrole (hstored.isAdmin_iff.mp h)
  have hconceals : Conceals db.lists caller v.id (c.uuid4 0) op.addsTo db
      (db.withoutVenue v.id) := by
    refine ⟨rfl, rfl, hadmin, fun x hx hid => ?_, huntouched, hfresh⟩
    rwa [Table.eq_of_key_eq hx hv hid]
  cases op with
  | getVenue k => exact iff_of_true (Conceals.alike_getVenue.outcome hconceals).symm id
  | @createCheckin u args =>
    have halike := @Conceals.alike_createCheckin db.lists (some u) v.id c
      { args with userId := u.id }
    exact iff_of_true (halike.outcome hconceals).symm id
  | saveVenue k type visibility =>
    exact iff_of_true (Conceals.alike_saveVenue.outcome hconceals).symm id
  | addListItem listId k afterItemId =>
    obtain ⟨-, hrole⟩ := hcaller _ rfl
    exact iff_of_true ((Conceals.alike_addListItem hrole).outcome hconceals).symm id
  | createVenueReport k reason details =>
    exact iff_of_true (Conceals.alike_createVenueReport.outcome hconceals).symm id
  | listVenues plan limit offset =>
    exact iff_of_true (Conceals.alike_listVenues.outcome hconceals).symm id
  | searchVenues search text limit offset =>
    exact iff_of_true (Conceals.alike_searchVenues.outcome hconceals).symm id
  | listCheckinsForVenue plan k limit offset =>
    by_cases hk : k = v.id
    · subst hk
      have hlisting := @outcome_listCheckins db caller v.id (fun u hu => (hcaller u hu).1) plan
        limit offset
      have hreveals : @VenueRequest.Reveals db v.id caller (.listCheckinsForVenue plan v.id limit
          offset) ↔ 0 < limit ∧ offset < (db.listedAt caller v.id).length := and_iff_right rfl
      exact hlisting.trans (not_congr hreveals).symm
    · refine iff_of_true ((Conceals.alike_listCheckinsForVenue hk).outcome hconceals).symm ?_
      exact fun h => hk h.1

/-! ## A check-in at a venue that has been suspended since -/

def suspendedVenue : Venue where
  id := 7
  name := "Lokanta"
  lat := 41
  lng := 29
  addressNote := none
  googlePlacesId := none
  addedBy := some 1
  categoryId := 3
  city := none
  countryCode := none
  timezone := none
  district := some "Fatih"
  isVerified := false
  isActive := true
  isSuspended := true
  createdAt := 0

def guest : User := User.create 1 "clerk" "sub_1" "ada" "Ada" 0
def passerBy : User := User.create 2 "clerk" "sub_2" "bob" "Bob" 0

def suspendedVenueDb : Db :=
  { Db.empty with
    users := (Table.empty.insert guest).insert passerBy
    venueCategories := Table.empty.insert { id := 3, slug := "cafe", parentId := none }
    venues := Table.empty.insert suspendedVenue
    checkins := Table.empty.insert
      { id := 9, userId := guest.id, venueId := suspendedVenue.id, ratingTaste := 4
        ratingService := 4, ratingAmbiance := 3, ratingValue := 4, note := none, photoUrl := none
        visibility := Visibility.pub, visitedAt := ⟨2026, 7, 1⟩, visitedTz := "Europe/Istanbul"
        deletedAt := none, createdAt := 0 } }

/-- Nobody has saved, listed or reported the venue of the example. -/
theorem untouched_suspendedVenueDb (caller : Option User) :
    suspendedVenueDb.Untouched caller suspendedVenue.id :=
  ⟨fun _ h => absurd h (Table.not_mem_empty _), fun _ h => absurd h (Table.not_mem_empty _),
    fun _ h => absurd h (Table.not_mem_empty _)⟩

/-- A passer-by cannot tell the suspended venue from none by saving it. -/
theorem outcome_suspended_iff_passerBy :
    (VenueSave.saveVenue (.fixed 1 20) 2 7 .wishlist "private").outcome (some 2) suspendedVenueDb =
        (VenueSave.saveVenue (.fixed 1 20) 2 7 .wishlist "private").outcome (some 2)
          (suspendedVenueDb.withoutVenue 7) ↔
      ¬ (VenueRequest.saveVenue (u := passerBy) 7 .wishlist "private").Reveals
        suspendedVenueDb 7 := by
  refine outcome_suspended_iff (.fixed 1 20) suspendedVenueDb (some passerBy) suspendedVenue
    (.saveVenue 7 .wishlist "private") (List.mem_singleton.mpr rfl) rfl ?_
    (untouched_suspendedVenueDb _) ?_
  · rintro u ⟨⟩
    exact ⟨⟨passerBy, by decide, rfl, rfl⟩, by decide⟩
  · rintro k ⟨⟩ hk
    exact absurd rfl hk

/-- A suspended venue can be told from one that does not exist: its check-ins are listed. -/
theorem suspended_venue_can_be_told :
    ¬ ∀ (c : Ctx) (db : Db) (caller : Option User) (v : Venue) (op : VenueRequest caller),
      v ∈ db.venues → v.isSuspended = true →
      (∀ u ∈ caller, db.Stored u ∧ u.role ≠ UserRole.admin) → db.Untouched caller v.id →
      (∀ k, op.addsTo = some k → k ≠ v.id → db.Spares v.id (c.uuid4 0)) →
      (op.program c).outcome (caller.map User.id) db =
        (op.program c).outcome (caller.map User.id) (db.withoutVenue v.id) := by
  intro h
  have hnobody : ∀ u ∈ (none : Option User), suspendedVenueDb.Stored u ∧ u.role ≠ UserRole.admin :=
    fun u hu => absurd hu (Option.not_mem_none u)
  have hsame := h (.fixed 1 20) suspendedVenueDb none suspendedVenue
    (.listCheckinsForVenue .sequential 7 20 0) (List.mem_singleton.mpr rfl) rfl hnobody
    (untouched_suspendedVenueDb _) fun k hk => absurd hk (Option.not_mem_none k)
  have hlisted := (@outcome_listCheckins suspendedVenueDb none suspendedVenue.id
    (fun u hu => (hnobody u hu).1) .sequential 20 0).mp hsame
  exact hlisted (by decide)

end OburBackend
