import OburBackend.Model.Consistent
import OburBackend.Payload.Schemas
import OburBackend.Service.CheckinRuns

/-!
# What a check-in payload ends with

The request schema, the service and the table each check a part of what a check-in may be. What the
schema lets through and the service does not check ends in an error that nothing handles: a time
zone that is not known, an explicit `null` for a column that may not be `NULL`, an explicit `null`
for the date, a text that the database cannot hold.
-/

namespace OburBackend

open Sql

/-- What the model asks of a stored check-in, beyond its foreign keys. -/
structure Checkin.Sound (c : Ctx) (x : Checkin) : Prop where
  ratings : ∀ rating ∈ [x.ratingTaste, x.ratingService, x.ratingAmbiance, x.ratingValue],
    minRating ≤ rating ∧ rating ≤ maxRating
  visibility : x.visibility ∈ Visibility.allowed
  visitedAt : ∃ today, c.localToday x.visitedTz = some today ∧ x.visitedAt.after today = false

/-- The user sees the venue. -/
def Db.SeesVenue (db : Db) (u : User) (venueId : Uuid) : Prop :=
  ∃ v ∈ db.venues, v.id = venueId ∧ (u.role = UserRole.admin ∨ v.isSuspended = false)

namespace CheckinUpdates

/-- What the payload does not give is as it was. -/
structure KeepsRest (updates : CheckinUpdates) (x x' : Checkin) : Prop where
  ratingTaste : updates.ratingTaste = none → x'.ratingTaste = x.ratingTaste
  ratingService : updates.ratingService = none → x'.ratingService = x.ratingService
  ratingAmbiance : updates.ratingAmbiance = none → x'.ratingAmbiance = x.ratingAmbiance
  ratingValue : updates.ratingValue = none → x'.ratingValue = x.ratingValue
  note : updates.note = none → x'.note = x.note
  photoUrl : updates.photoUrl = none → x'.photoUrl = x.photoUrl
  visibility : updates.visibility = none → x'.visibility = x.visibility
  visitedAt : updates.visitedAt = none → x'.visitedAt = x.visitedAt
  others : x' = { x with
    ratingTaste := x'.ratingTaste
    ratingService := x'.ratingService
    ratingAmbiance := x'.ratingAmbiance
    ratingValue := x'.ratingValue
    note := x'.note
    photoUrl := x'.photoUrl
    visibility := x'.visibility
    visitedAt := x'.visitedAt }

/-- No field with a `NOT NULL` column is given as an explicit `null`. -/
structure KeepsRequired (updates : CheckinUpdates) : Prop where
  ratingTaste : updates.ratingTaste ≠ some none
  ratingService : updates.ratingService ≠ some none
  ratingAmbiance : updates.ratingAmbiance ≠ some none
  ratingValue : updates.ratingValue ≠ some none
  visibility : updates.visibility ≠ some none
  visitedAt : updates.visitedAt ≠ some none

/-- The database can hold the texts that the payload gives. -/
structure TextsStorable (updates : CheckinUpdates) : Prop where
  note : updates.note.Within Storable
  photoUrl : updates.photoUrl.Within Storable

/-- The payload gives a date that is still to come. -/
def GivesFutureDate (updates : CheckinUpdates) (c : Ctx) (x : Checkin) : Prop :=
  ∃ visitedAt today, updates.visitedAt = some (some visitedAt) ∧
    c.localToday x.visitedTz = some today ∧ visitedAt.after today = true

/-- The zone of the check-in is known, and the date that the row is to have, the given one or the
stored one, has come. -/
def HasPastDate (updates : CheckinUpdates) (c : Ctx) (x : Checkin) : Prop :=
  ∃ today, c.localToday x.visitedTz = some today ∧
    (updates.visitedAt.join.getD x.visitedAt).after today = false

variable {updates : CheckinUpdates} {c : Ctx} {db : Db} {u : User} {x x' : Checkin}

/-- Leaving out the fields that are as they were changes nothing. -/
theorem changed_set : (updates.changed x).set x = updates.set x := by
  simp only [set, changed, Field.notNull_changed, Field.nullable_changed]

/-- Each column of the row that the fields leave. -/
theorem columns_of_set (h : updates.set x = some x') :
    updates.ratingTaste.notNull x.ratingTaste = some x'.ratingTaste ∧
      updates.ratingService.notNull x.ratingService = some x'.ratingService ∧
      updates.ratingAmbiance.notNull x.ratingAmbiance = some x'.ratingAmbiance ∧
      updates.ratingValue.notNull x.ratingValue = some x'.ratingValue ∧
      updates.visibility.notNull x.visibility = some x'.visibility ∧
      updates.visitedAt.notNull x.visitedAt = some x'.visitedAt ∧
      x' = { x with
        ratingTaste := x'.ratingTaste
        ratingService := x'.ratingService
        ratingAmbiance := x'.ratingAmbiance
        ratingValue := x'.ratingValue
        visibility := x'.visibility
        visitedAt := x'.visitedAt
        note := updates.note.nullable x.note
        photoUrl := updates.photoUrl.nullable x.photoUrl } := by
  simp only [set, Option.bind_eq_bind, Option.bind_eq_some_iff, Option.pure_def,
    Option.some.injEq] at h
  obtain ⟨_, htaste, _, hservice, _, hambiance, _, hvalue, _, hvisibility, _, hdate, rfl⟩ := h
  exact ⟨htaste, hservice, hambiance, hvalue, hvisibility, hdate, rfl⟩

/-- There is such a row unless the payload gives a `null` where none may be. -/
theorem set_eq_none : updates.set x = none ↔ ¬ updates.KeepsRequired := by
  have hrequired : updates.KeepsRequired ↔
      updates.ratingTaste.notNull x.ratingTaste ≠ none ∧
        updates.ratingService.notNull x.ratingService ≠ none ∧
        updates.ratingAmbiance.notNull x.ratingAmbiance ≠ none ∧
        updates.ratingValue.notNull x.ratingValue ≠ none ∧
        updates.visibility.notNull x.visibility ≠ none ∧
        updates.visitedAt.notNull x.visitedAt ≠ none := by
    simp only [ne_eq, Field.notNull_eq_none]
    exact ⟨fun ⟨h1, h2, h3, h4, h5, h6⟩ => ⟨h1, h2, h3, h4, h5, h6⟩,
      fun ⟨h1, h2, h3, h4, h5, h6⟩ => ⟨h1, h2, h3, h4, h5, h6⟩⟩
  rw [hrequired, ← not_iff_not, not_not, ← ne_eq, Option.ne_none_iff_exists']
  constructor
  · rintro ⟨x', hset⟩
    obtain ⟨h1, h2, h3, h4, h5, h6, -⟩ := columns_of_set hset
    simp only [h1, h2, h3, h4, h5, h6, ne_eq, reduceCtorEq, not_false_eq_true, and_self]
  · intro h
    simp only [Option.ne_none_iff_exists'] at h
    obtain ⟨⟨_, h1⟩, ⟨_, h2⟩, ⟨_, h3⟩, ⟨_, h4⟩, ⟨_, h5⟩, _, h6⟩ := h
    simp only [set, h1, h2, h3, h4, h5, h6]
    exact ⟨_, rfl⟩

/-- An edit keeps the fields that the payload leaves out. -/
theorem keepsRest_of_set (h : updates.set x = some x') : updates.KeepsRest x x' := by
  obtain ⟨htaste, hservice, hambiance, hvalue, hvisibility, hdate, hrow⟩ := columns_of_set h
  refine ⟨Field.notNull_of_none htaste, Field.notNull_of_none hservice,
    Field.notNull_of_none hambiance, Field.notNull_of_none hvalue, fun hnone => ?_,
    fun hnone => ?_, Field.notNull_of_none hvisibility, Field.notNull_of_none hdate, ?_⟩
  · rw [hrow, hnone]
    rfl
  · rw [hrow, hnone]
    rfl
  · rw [hrow]

/-- The date of that row. -/
theorem visitedAt_of_set (h : updates.set x = some x') :
    x'.visitedTz = x.visitedTz ∧ x'.visitedAt = updates.visitedAt.join.getD x.visitedAt := by
  obtain ⟨-, -, -, -, -, hdate, hrow⟩ := columns_of_set h
  refine ⟨by rw [hrow], ?_⟩
  rcases Field.notNull_eq_some.mp hdate with ⟨hnone, hold⟩ | hsome
  · rw [hnone, ← hold]
    rfl
  · rw [hsome]
    rfl

/-! ## The check of the date -/

/-- The check refuses a date that is still to come. It raises something else on a zone that is not
known and on a `null`, and then the row would have no date that has come. -/
theorem check_cases (updates : CheckinUpdates) (c : Ctx) (x : Checkin) :
    (updates.GivesFutureDate c x ∧
        ∃ message, updates.check c x = raiseDomain .futureVisitDate message) ∨
      (¬ updates.GivesFutureDate c x ∧ ¬ (updates.KeepsRequired ∧ updates.HasPastDate c x) ∧
        ((∃ key, updates.check c x = .raise (.zoneInfoNotFound key)) ∨
          updates.check c x = .raise .typeError)) ∨
      (¬ updates.GivesFutureDate c x ∧ updates.check c x = pure ()) := by
  unfold check
  rcases hgiven : updates.visitedAt with - | visitedAt
  · -- no date is given
    refine .inr (.inr ⟨?_, rfl⟩)
    rintro ⟨_, _, hsome, -⟩
    rw [hgiven] at hsome
    cases hsome
  dsimp only [ensureVisitedAtNotFuture]
  rcases hzone : c.localToday x.visitedTz with - | today
  · refine .inr (.inl ⟨?_, ?_, .inl ⟨_, rfl⟩⟩)
    · rintro ⟨_, today, -, htoday, -⟩
      exact absurd (hzone.symm.trans htoday) nofun
    · rintro ⟨-, today, htoday, -⟩
      exact absurd (hzone.symm.trans htoday) nofun
  rcases visitedAt with - | visitedAt
  · refine .inr (.inl ⟨?_, fun h => h.1.visitedAt hgiven, .inr rfl⟩)
    rintro ⟨_, _, hsome, -⟩
    exact absurd (hgiven.symm.trans hsome) nofun
  dsimp only
  split
  · next hafter => exact .inl ⟨⟨visitedAt, today, hgiven, hzone, hafter⟩, _, rfl⟩
  · next hafter =>
    refine .inr (.inr ⟨?_, rfl⟩)
    rintro ⟨visitedAt', today', hsome, htoday, hfuture⟩
    obtain rfl := Option.some.inj (Option.some.inj (hgiven.symm.trans hsome))
    obtain rfl := Option.some.inj (hzone.symm.trans htoday)
    exact hafter hfuture

/-! ## The update alone -/

/-- Once the check of the date has passed, the database decides. -/
theorem run_saveCheckin (hdb : Consistent db) (hstorable : db.storable = true) (hu : db.Stored u)
    (hx : x ∈ db.checkins) (howner : isOwnerOrAdmin x.userId u = true) :
    let save := (updates.save x).within Db.storable
    (∃ x', updates.set x = some x' ∧ db.Takes x' ∧ save.run (Conn.start (some u.id) db) =
        (.ok x', Conn.start (some u.id) ((updates.changed x).setIn x.id db))) ∨
      ((∀ x', updates.set x = some x' → ¬ db.Takes x') ∧ ∃ e,
        save.run (Conn.start (some u.id) db) =
          (.error (.database e), Conn.start (some u.id) db)) := by
  dsimp only
  rw [← changed_set]
  by_cases hchanged : updates.changed x ≠ {}
  · rcases @run_save (Conn.start (some u.id) db) u updates x hu rfl hx howner hstorable
      hchanged with ⟨x', hset, htakes, hrun⟩ | ⟨hnot, e, hrun⟩
    · exact .inl ⟨x', hset, htakes, hrun⟩
    · exact .inr ⟨fun x' hset htakes => hnot ⟨x', hset, htakes⟩, e, hrun⟩
  · have hempty : updates.changed x = {} := not_not.mp hchanged
    have hset : ∀ y, ({} : CheckinUpdates).set y = some y := fun _ => rfl
    have hsame : (updates.changed x).setIn x.id db = db := by
      have hcheckins : ((updates.changed x).setIn x.id db).checkins = db.checkins := by
        rw [setIn, set_checkins]
        refine Table.modify_eq_self fun y => ?_
        rw [hempty, hset, Option.getD_some]
      show { db with checkins := ((updates.changed x).setIn x.id db).checkins } = db
      rw [hcheckins]
    have htakes : db.Takes x := ⟨hdb.checkins x hx, (Db.storable_iff.mp hstorable).2.1 x hx⟩
    refine .inl ⟨x, by rw [hempty, hset], htakes, ?_⟩
    rw [hsame, save, if_neg hchanged, Prog.within_bind, Prog.within_commit, run_commit_bind,
      (readOnly_refresh _ _).within]
    exact run_refresh (lookup_checkins_of_owner hu hx howner)

end CheckinUpdates

namespace CheckinUpdateRequest

variable {request : CheckinUpdateRequest} {c : Ctx} {db : Db} {u : User} {x x' : Checkin}

/-- What `update_checkin` should end with, given the fields that the payload gives. -/
def EndsWell (request : CheckinUpdateRequest) (c : Ctx) (db : Db) (u : User) (x : Checkin) : Prop :=
  Settles ((updateCheckin c x.id u request.toCheckinUpdates).within Db.storable) (some u.id) db
    fun x' db' => x' ∈ db'.checkins ∧ x'.Sound c ∧ request.KeepsRest x x'

/-- The ratings and the tier that the schema accepts pass the constraints. -/
theorem checks_of_set (hcons : checkinsConstraints db x = true)
    (h : request.toCheckinUpdates.set x = some x') :
    (∀ rating ∈ [x'.ratingTaste, x'.ratingService, x'.ratingAmbiance, x'.ratingValue],
        minRating ≤ rating ∧ rating ≤ maxRating) ∧ x'.visibility ∈ Visibility.allowed := by
  obtain ⟨htaste, hservice, hambiance, hvalue, hvisibility, -, -⟩ :=
    CheckinUpdates.columns_of_set h
  simp only [checkinsConstraints, Bool.and_eq_true, List.all_eq_true, ratingInRange,
    visibilityAllowed, decide_eq_true_eq] at hcons
  obtain ⟨hratings, hallowed, -⟩ := hcons
  simp only [List.forall_mem_cons, List.not_mem_nil, false_imp_iff, implies_true,
    and_true] at hratings ⊢
  have haccepted := request.ratings_accepted
  simp only [List.forall_mem_cons, List.not_mem_nil, false_imp_iff, implies_true,
    and_true] at haccepted
  refine ⟨⟨?_, ?_, ?_, ?_⟩, request.visibility_accepted.notNull hallowed hvisibility⟩
  · exact haccepted.1.notNull hratings.1 htaste
  · exact haccepted.2.1.notNull hratings.2.1 hservice
  · exact haccepted.2.2.1.notNull hratings.2.2.1 hambiance
  · exact haccepted.2.2.2.notNull hratings.2.2.2 hvalue

/-- It meets the constraints that the check-in has met. -/
theorem constraints_of_set (hcons : checkinsConstraints db x = true)
    (h : request.toCheckinUpdates.set x = some x') : checkinsConstraints db x' = true := by
  obtain ⟨hratings, hvisibility⟩ := checks_of_set hcons h
  obtain ⟨-, huser, hvenue, -⟩ := CheckinUpdates.set_eq_some h
  simp only [checkinsConstraints, Bool.and_eq_true, List.all_eq_true, ratingInRange,
    visibilityAllowed, decide_eq_true_eq] at hcons ⊢
  rw [huser, hvenue]
  exact ⟨hratings, hvisibility, hcons.2.2⟩

/-- The database takes the row if it can hold the texts that the payload gives. -/
theorem takes_iff (hcons : checkinsConstraints db x = true) (htexts : AllStorable x.texts)
    (h : request.toCheckinUpdates.set x = some x') : db.Takes x' ↔ request.TextsStorable := by
  obtain ⟨-, -, -, -, -, -, hrow⟩ := CheckinUpdates.columns_of_set h
  have hvisibility := storable_of_allowed (checks_of_set hcons h).2
  obtain ⟨hnote, hphoto, -, htz⟩ := Checkin.allStorable_iff.mp htexts
  have hnote' := @Field.within_iff_nullable _ request.note _ _ hnote
  have hphoto' := @Field.within_iff_nullable _ request.photoUrl _ _ hphoto
  have hcolumns : x'.note = request.note.nullable x.note ∧
      x'.photoUrl = request.photoUrl.nullable x.photoUrl ∧ x'.visitedTz = x.visitedTz := by
    rw [hrow]
    exact ⟨rfl, rfl, rfl⟩
  rw [Db.Takes, and_iff_right (constraints_of_set hcons h), Checkin.allStorable_iff, hcolumns.1,
    hcolumns.2.1, hcolumns.2.2]
  constructor
  · rintro ⟨hn, hp, -, -⟩
    exact ⟨hnote'.mpr hn, hphoto'.mpr hp⟩
  · rintro ⟨hn, hp⟩
    exact ⟨hnote'.mp hn, hphoto'.mp hp, hvisibility, htz⟩

/-- An update ends well when the given date is still to come, or no required field is `null`, the
database can hold the texts and the date of the row has come in a zone that is known. -/
theorem payload_endsWell_iff (hdb : Consistent db) (hstorable : db.storable = true)
    (hu : db.Stored u) (hx : x ∈ db.checkins) (hlive : x.deletedAt = none)
    (howner : isOwnerOrAdmin x.userId u = true) :
    request.EndsWell c db u x ↔ request.GivesFutureDate c x ∨
      (request.KeepsRequired ∧ request.TextsStorable ∧ request.HasPastDate c x) := by
  have hrun := @CheckinUpdates.run_updateCheckin Db.storable (Conn.start (some u.id) db) c u
    request.toCheckinUpdates x hu rfl hx hlive howner
  have htakes : ∀ x', request.toCheckinUpdates.set x = some x' → _ := fun x' hset =>
    takes_iff (hdb.checkins x hx) ((Db.storable_iff.mp hstorable).2.1 x hx) hset
  rcases request.check_cases c x with ⟨hfuture, message, hcheck⟩ | ⟨hfuture, hnot, hcheck⟩ |
    ⟨hfuture, hcheck⟩
  · rw [hcheck] at hrun
    exact iff_of_true (settles_of_domain hrun) (.inl hfuture)
  · refine iff_of_false ?_ fun h => ?_
    · rcases hcheck with ⟨key, hcheck⟩ | hcheck
      · rw [hcheck] at hrun
        exact not_settles_of_error (by simp) (Prog.alone_of_run hrun).1
      · rw [hcheck] at hrun
        exact not_settles_of_error (by simp) (Prog.alone_of_run hrun).1
    · obtain ⟨hkeeps, -, hpast⟩ := h.resolve_left hfuture
      exact hnot ⟨hkeeps, hpast⟩
  · rw [hcheck, Prog.pure_eq, Prog.ret_bind] at hrun
    rw [or_iff_right hfuture]
    rcases CheckinUpdates.run_saveCheckin hdb hstorable hu hx howner with
      ⟨x', hset, hstored, hsave⟩ | ⟨hnot, e, hsave⟩
    · -- the row is stored
      obtain ⟨hout, hafter⟩ := Prog.alone_of_run (hrun.trans hsave)
      have hkeeps : request.KeepsRequired := by
        by_contra hnull
        exact absurd (hset.symm.trans (CheckinUpdates.set_eq_none.mpr hnull)) nofun
      obtain ⟨htz, hdate⟩ := CheckinUpdates.visitedAt_of_set hset
      obtain ⟨hratings, hvisibility⟩ := checks_of_set (hdb.checkins x hx) hset
      rw [and_iff_right hkeeps, and_iff_right ((htakes x' hset).mp hstored), EndsWell,
        settles_iff_of_ok hout hafter]
      constructor
      · rintro ⟨-, hsound, -⟩
        obtain ⟨today, htoday, hpast⟩ := hsound.visitedAt
        exact ⟨today, htz ▸ htoday, hdate ▸ hpast⟩
      · rintro ⟨today, htoday, hpast⟩
        refine ⟨?_, ⟨hratings, hvisibility, today, ?_, ?_⟩, CheckinUpdates.keepsRest_of_set hset⟩
        · exact (mem_set_checkins (request.changed x).set_id hx
            (CheckinUpdates.changed_set.trans hset)).mpr (.inl rfl)
        · rw [htz, htoday]
        · rw [hdate, hpast]
    · -- the database does not take the row
      refine iff_of_false ?_ fun ⟨hkeeps, htexts, _⟩ => ?_
      · exact not_settles_of_error (by simp) (Prog.alone_of_run (hrun.trans hsave)).1
      · have hsome : request.toCheckinUpdates.set x ≠ none := fun hnone =>
          CheckinUpdates.set_eq_none.mp hnone hkeeps
        obtain ⟨x', hset⟩ := Option.ne_none_iff_exists'.mp hsome
        exact hnot x' hset ((htakes x' hset).mpr htexts)

end CheckinUpdateRequest

/-! ## The creation alone -/

namespace CheckinCreateRequest

variable {request : CheckinCreateRequest} {c : Ctx} {db : Db} {u : User}

/-- What `create_checkin` should end with, given the fields of the payload. -/
def EndsWell (request : CheckinCreateRequest) (c : Ctx) (db : Db) (u : User) : Prop :=
  Settles ((createCheckin c (request.args u.id)).within Db.storable) (some u.id) db fun x db' =>
    x ∈ db'.checkins ∧ x.Sound c

/-- The database can hold the texts of the payload. -/
structure TextsStorable (request : CheckinCreateRequest) : Prop where
  note : ∀ text ∈ request.note, Storable text
  photoUrl : ∀ text ∈ request.photoUrl, Storable text
  visitedTz : Storable request.visitedTz

/-- The database takes the row if it can hold the texts. -/
theorem takes_iff (hu : u ∈ db.users) (hvenue : db.SeesVenue u request.venueId) :
    db.Takes ((request.args u.id).row c) ↔ request.TextsStorable := by
  obtain ⟨v, hv, hid, -⟩ := hvenue
  have hcons : checkinsConstraints db ((request.args u.id).row c) = true := by
    simp only [checkinsConstraints, Bool.and_eq_true, List.all_eq_true, ratingInRange,
      visibilityAllowed, decide_eq_true_eq]
    exact ⟨request.ratings_accepted, request.visibility_accepted, hasUser_iff.mpr ⟨u, hu, rfl⟩,
      isSome_get.mpr ⟨v, hv, hid⟩⟩
  rw [Db.Takes, and_iff_right hcons, Checkin.allStorable_iff]
  constructor
  · rintro ⟨hnote, hphoto, -, htz⟩
    exact ⟨hnote, hphoto, htz⟩
  · rintro ⟨hnote, hphoto, htz⟩
    exact ⟨hnote, hphoto, storable_of_allowed request.visibility_accepted, htz⟩

/-- A creation ends well when the caller does not see the venue, or the zone is known, and the date
is still to come there or the database can hold the texts. -/
theorem payload_endsWell_iff (hstorable : db.storable = true) (hu : u ∈ db.users)
    (hnew : ∀ x ∈ db.checkins, x.id ≠ c.uuid4 0) :
    request.EndsWell c db u ↔ ¬ db.SeesVenue u request.venueId ∨
      ∃ today, c.localToday request.visitedTz = some today ∧
        (request.visitedAt.after today = true ∨ request.TextsStorable) := by
  have hstored : db.Stored u := ⟨u, hu, rfl, rfl⟩
  have hsees : db.SeesVenue u request.venueId ↔
      ∃ v, venues.lookup (some u.id) db request.venueId = some v := by
    simp only [Db.SeesVenue, venues.lookup_eq_some, venues_read, venues_policy,
      holds_venuesPolicy_select, hstored.isAdmin_iff]
  rcases hlookup : venues.lookup (some u.id) db request.venueId with - | v
  · have hhidden : ¬ db.SeesVenue u request.venueId := by
      rw [hsees, hlookup]
      simp
    have hrun := @run_createCheckin_of_hidden Db.storable (Conn.start (some u.id) db) c
      (request.args u.id) hlookup
    exact iff_of_true (settles_of_domain hrun) (.inl hhidden)
  have hseen : db.SeesVenue u request.venueId := hsees.mpr ⟨v, hlookup⟩
  have hrun : ((createCheckin c (request.args u.id)).within Db.storable).run
      (Conn.start (some u.id) db) =
        ((ensureVisitedAtNotFuture c (some request.visitedAt) request.visitedTz).bind fun _ =>
          (insertCheckin c (request.args u.id)).within Db.storable).run
            (Conn.start (some u.id) db) :=
    run_createCheckin_of_seen hlookup
  rw [or_iff_right (not_not.mpr hseen)]
  rcases hzone : c.localToday request.visitedTz with - | today
  · refine iff_of_false ?_ (by simp)
    rw [ensureVisitedAtNotFuture, hzone] at hrun
    exact not_settles_of_error (by simp) (Prog.alone_of_run hrun).1
  simp only [ensureVisitedAtNotFuture, hzone] at hrun
  by_cases hafter : request.visitedAt.after today = true
  · rw [if_pos hafter] at hrun
    exact iff_of_true (settles_of_domain hrun) ⟨today, rfl, .inl hafter⟩
  rw [if_neg hafter, Prog.pure_eq, Prog.ret_bind] at hrun
  have hfree : db.checkins.get ((request.args u.id).row c).id = none :=
    Table.get_eq_none.mpr hnew
  have htexts := @takes_iff request c db u hu hseen
  by_cases hwrites : ∃ wr, fitting Db.storable (checkins.insertWrite (some u.id) db
      ((request.args u.id).row c)) db = .ok wr
  · -- the check-in is stored
    obtain ⟨-, htakes⟩ := (insertWrite_checkins_iff hstorable).mp hwrites
    refine iff_of_true ?_ ⟨today, rfl, .inr (htexts.mp htakes)⟩
    obtain ⟨wr, hw⟩ := hwrites
    obtain ⟨hins, hfits⟩ := fitting_eq_ok.mp hw
    rw [@run_insertCheckin Db.storable (Conn.start (some u.id) db) c _ wr hw hfits] at hrun
    have hout := congrArg Prod.fst hrun
    have hafter' := congrArg (fun r => r.2.committed) hrun
    refine (settles_iff_of_ok hout hafter').mpr ⟨?_, ?_⟩
    · obtain ⟨-, -, -, -, rfl⟩ := checkins.insertWrite_eq_ok.mp hins
      exact (Table.mem_insert hfree).mpr (.inr rfl)
    · exact ⟨request.ratings_accepted, request.visibility_accepted, today, hzone,
        Bool.eq_false_iff.mpr hafter⟩
  · -- the database does not take it
    have htakes : ¬ db.Takes ((request.args u.id).row c) := fun htakes =>
      hwrites ((insertWrite_checkins_iff hstorable).mpr ⟨hfree, htakes⟩)
    refine iff_of_false ?_ ?_
    · rcases hw : fitting Db.storable (checkins.insertWrite (some u.id) db
          ((request.args u.id).row c)) db with e | wr
      · rw [insertCheckin, Prog.bind_eq, Prog.within_bind, run_within_insert_bind] at hrun
        simp only [Conn.start_vars, Conn.start_working, hw] at hrun
        exact not_settles_of_error (by simp [OfDbError.ofDbError]) (congrArg Prod.fst hrun)
      · exact absurd ⟨wr, hw⟩ hwrites
    · rintro ⟨today', htoday, hfuture | hstore⟩
      · obtain rfl := Option.some.inj htoday
        exact hafter hfuture
      · exact htakes (htexts.mpr hstore)

end CheckinCreateRequest

/-- A creation ends well, with a sound row or refused, if and only if the caller does not see the
venue, or the zone is known and the date is still to come there or the database can hold the texts;
an update does if and only if the given date is still to come, or no required field is `null`, the
database can hold the texts and the date of the row has come in a zone that is known. -/
theorem checkin_payloads_end_well_iff (c : Ctx) (db : Db) (u : User) (create : CheckinCreateRequest)
    (update : CheckinUpdateRequest) (x : Checkin) (hdb : Consistent db)
    (hstorable : db.storable = true) (hu : u ∈ db.users)
    (hnew : ∀ y ∈ db.checkins, y.id ≠ c.uuid4 0) (hx : x ∈ db.checkins)
    (hlive : x.deletedAt = none) (howner : isOwnerOrAdmin x.userId u = true) :
    (create.EndsWell c db u ↔ ¬ db.SeesVenue u create.venueId ∨
        ∃ today, c.localToday create.visitedTz = some today ∧
          (create.visitedAt.after today = true ∨ create.TextsStorable)) ∧
      (update.EndsWell c db u x ↔ update.GivesFutureDate c x ∨
        (update.KeepsRequired ∧ update.TextsStorable ∧ update.HasPastDate c x)) :=
  ⟨CheckinCreateRequest.payload_endsWell_iff hstorable hu hnew,
    CheckinUpdateRequest.payload_endsWell_iff hdb hstorable ⟨u, hu, rfl, rfl⟩ hx hlive howner⟩

/-- Somebody who has been to a place, the place and the check-in, and a clock that knows one
zone. -/
def diner : User := User.create 1 "clerk" "sub_1" "ada" "Ada" 0

def visitedPlace : Venue where
  id := 7
  name := "Kahve"
  lat := 41
  lng := 29
  addressNote := none
  googlePlacesId := none
  addedBy := none
  categoryId := 8
  city := none
  countryCode := none
  timezone := none
  district := none
  isVerified := false
  isActive := true
  isSuspended := false
  createdAt := 0

def firstVisit : CheckinCreateRequest where
  venueId := 7
  ratingTaste := 4
  ratingService := 3
  ratingAmbiance := 3
  ratingValue := 2
  visitedAt := ⟨2026, 5, 1⟩
  visitedTz := "Europe/Istanbul"

def istanbulCtx : Ctx :=
  { Ctx.fixed 1 9 with
    localToday := fun tz => if tz = "Europe/Istanbul" then some ⟨2026, 5, 2⟩ else none }

def dinerDb : Db :=
  { Db.empty with
    users := Table.empty.insert diner
    venueCategories := Table.empty.insert { id := 8, slug := "cafe", parentId := none }
    venues := Table.empty.insert visitedPlace
    checkins := Table.empty.insert ((firstVisit.args 1).row (.fixed 0 5)) }

/-- A first visit, and a new rating of it. -/
theorem checkin_payloads_end_well_iff_diner :
    let update : CheckinUpdateRequest := { ratingTaste := some (some 1) }
    let x := (firstVisit.args 1).row (.fixed 0 5)
    (firstVisit.EndsWell istanbulCtx dinerDb diner ↔ ¬ dinerDb.SeesVenue diner 7 ∨
        ∃ today, istanbulCtx.localToday "Europe/Istanbul" = some today ∧
          (firstVisit.visitedAt.after today = true ∨ firstVisit.TextsStorable)) ∧
      (update.EndsWell istanbulCtx dinerDb diner x ↔ update.GivesFutureDate istanbulCtx x ∨
        (update.KeepsRequired ∧ update.TextsStorable ∧ update.HasPastDate istanbulCtx x)) :=
  checkin_payloads_end_well_iff istanbulCtx dinerDb diner firstVisit _ _ (by decide) (by decide)
    (by decide) (by decide) (by decide) rfl rfl

/-- A zone that is not known, and a rating that is `null`, end in errors that nothing handles. -/
theorem checkin_payloads_can_end_badly :
    (¬ ∀ (c : Ctx) (db : Db) (u : User) (create : CheckinCreateRequest), Consistent db →
      db.storable = true → u ∈ db.users → (∀ y ∈ db.checkins, y.id ≠ c.uuid4 0) →
        create.EndsWell c db u) ∧
    ¬ ∀ (c : Ctx) (db : Db) (u : User) (update : CheckinUpdateRequest) (x : Checkin),
      Consistent db → db.storable = true → u ∈ db.users → x ∈ db.checkins → x.deletedAt = none →
        isOwnerOrAdmin x.userId u = true → update.EndsWell c db u x := by
  constructor
  · intro h
    have hout : ((createCheckin istanbulCtx
        (({ firstVisit with visitedTz := "Mars/Olympus" } : CheckinCreateRequest).args 1)).within
          Db.storable).outcome (some 1) dinerDb = .error (.zoneInfoNotFound "Mars/Olympus") := rfl
    exact not_settles_of_error (by simp) hout
      (h istanbulCtx dinerDb diner { firstVisit with visitedTz := "Mars/Olympus" } (by decide)
        (by decide) (by decide) (by decide))
  · intro h
    have hout : ((updateCheckin istanbulCtx 5 diner { ratingTaste := some none }).within
        Db.storable).outcome (some 1) dinerDb = .error (.database .integrity) := rfl
    exact not_settles_of_error (by simp) hout
      (h istanbulCtx dinerDb diner { ratingTaste := some none }
        ((firstVisit.args 1).row (.fixed 0 5)) (by decide) (by decide) (by decide) (by decide) rfl
        rfl)

end OburBackend
