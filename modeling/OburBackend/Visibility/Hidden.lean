import OburBackend.Service.Reaction

/-!
# What cannot be seen cannot be told from what does not exist

A caller who may not see a check-in, a list or a venue save gets the same answer from every
operation on it as if it had been deleted, with everything that goes with it. Each operation
resolves its target under the row policies before it looks at anything else; a content report looks
for an earlier report of the same caller first, and those do not go with their target.
-/

namespace OburBackend

open Sql

/-- A stored row with an owner and a visibility. -/
inductive Resource where
  | checkin (r : Checkin)
  | list (r : VenueList)
  | venueSave (r : VenueSave)

namespace Resource

def Stored (db : Db) : Resource → Prop
  | .checkin r => r ∈ db.checkins
  | .list r => r ∈ db.lists
  | .venueSave r => r ∈ db.venueSaves

def ownerId : Resource → Uuid
  | .checkin r => r.userId
  | .list r => r.userId
  | .venueSave r => r.userId

def visibility : Resource → String
  | .checkin r => r.visibility
  | .list r => r.visibility
  | .venueSave r => r.visibility

/-- The data without the row and what cascades from it. -/
def erase (db : Db) : Resource → Db
  | .checkin r => checkins.erase (fun x => decide (x.id = r.id)) db
  | .list r => lists.erase (fun x => decide (x.id = r.id)) db
  | .venueSave r => venueSaves.erase (fun x => decide (x.id = r.id)) db

end Resource

/-- An operation on a resource: who calls it, and its other arguments. -/
inductive ResourceOp : Resource → Type where
  | getCheckin {r : Checkin} (viewer : Option User) : ResourceOp (.checkin r)
  | updateCheckin {r : Checkin} (currentUser : User) (updates : CheckinUpdates) :
    ResourceOp (.checkin r)
  | softDeleteCheckin {r : Checkin} (currentUser : User) : ResourceOp (.checkin r)
  | likeCheckin {r : Checkin} (currentUser : User) : ResourceOp (.checkin r)
  | bookmarkCheckin {r : Checkin} (currentUser : User) : ResourceOp (.checkin r)
  | createContentReport {r : Checkin} (reporter : User) (targetType : ContentReportTargetType)
    (reason : ContentReportReason) (details : Option String) : ResourceOp (.checkin r)
  | getList {r : VenueList} (viewer : Option User) : ResourceOp (.list r)
  | updateList {r : VenueList} (currentUser : User) (updates : ListUpdates) : ResourceOp (.list r)
  | deleteList {r : VenueList} (currentUser : User) : ResourceOp (.list r)
  | likeList {r : VenueList} (currentUser : User) : ResourceOp (.list r)
  | bookmarkList {r : VenueList} (currentUser : User) : ResourceOp (.list r)
  | addListItem {r : VenueList} (currentUser : User) (venueId : Uuid) (afterItemId : Option Uuid) :
    ResourceOp (.list r)
  | moveListItem {r : VenueList} (itemId : Uuid) (currentUser : User) (afterItemId : Option Uuid) :
    ResourceOp (.list r)
  | removeListItem {r : VenueList} (itemId : Uuid) (currentUser : User) : ResourceOp (.list r)
  | getVenueSave {r : VenueSave} (viewer : Option User) : ResourceOp (.venueSave r)
  | updateVenueSave {r : VenueSave} (currentUser : User) (visibility : Field String) :
    ResourceOp (.venueSave r)
  | deleteVenueSave {r : VenueSave} (currentUser : User) : ResourceOp (.venueSave r)

namespace ResourceOp

variable {res : Resource}

/-- The signed-in user who calls the operation, if any. -/
def caller : ResourceOp res → Option User
  | .getCheckin viewer | .getList viewer | .getVenueSave viewer => viewer
  | .updateCheckin currentUser _ | .softDeleteCheckin currentUser | .likeCheckin currentUser
  | .bookmarkCheckin currentUser | .createContentReport currentUser _ _ _
  | .updateList currentUser _ | .deleteList currentUser | .likeList currentUser
  | .bookmarkList currentUser | .addListItem currentUser _ _ | .moveListItem _ currentUser _
  | .removeListItem _ currentUser | .updateVenueSave currentUser _
  | .deleteVenueSave currentUser => some currentUser

/-- What the operation returns. -/
def Result : ResourceOp res → Type
  | .getCheckin _ | .updateCheckin .. => Checkin
  | .getList _ | .updateList .. => VenueList
  | .getVenueSave _ | .updateVenueSave .. => VenueSave
  | .likeCheckin _ | .bookmarkCheckin _ | .likeList _ | .bookmarkList _ => Mark
  | .createContentReport .. => ContentReport
  | .addListItem .. | .moveListItem .. => ListItem
  | .softDeleteCheckin _ | .deleteList _ | .removeListItem .. | .deleteVenueSave _ => Unit

/-- The operation as a program. -/
def program (c : Ctx) : (op : ResourceOp res) → Service op.Result
  | .getCheckin (r := r) viewer => OburBackend.getCheckin r.id viewer
  | .updateCheckin (r := r) currentUser updates =>
    OburBackend.updateCheckin c r.id currentUser updates
  | .softDeleteCheckin (r := r) currentUser => OburBackend.softDeleteCheckin c r.id currentUser
  | .likeCheckin (r := r) currentUser => OburBackend.likeCheckin c r.id currentUser
  | .bookmarkCheckin (r := r) currentUser => OburBackend.bookmarkCheckin c r.id currentUser
  | .createContentReport (r := r) reporter targetType reason details =>
    OburBackend.createContentReport c reporter targetType r.id reason details
  | .getList (r := r) viewer => OburBackend.getList r.id viewer
  | .updateList (r := r) currentUser updates => OburBackend.updateList r.id currentUser updates
  | .deleteList (r := r) currentUser => OburBackend.deleteList r.id currentUser
  | .likeList (r := r) currentUser => OburBackend.likeList c r.id currentUser
  | .bookmarkList (r := r) currentUser => OburBackend.bookmarkList c r.id currentUser
  | .addListItem (r := r) currentUser venueId afterItemId =>
    OburBackend.addListItem c r.id currentUser venueId afterItemId
  | .moveListItem (r := r) itemId currentUser afterItemId =>
    OburBackend.moveListItem c r.id itemId currentUser afterItemId
  | .removeListItem (r := r) itemId currentUser =>
    OburBackend.removeListItem r.id itemId currentUser
  | .getVenueSave (r := r) viewer => OburBackend.getVenueSave r.id viewer
  | .updateVenueSave (r := r) currentUser visibility =>
    OburBackend.updateVenueSave r.id currentUser visibility
  | .deleteVenueSave (r := r) currentUser => OburBackend.deleteVenueSave r.id currentUser

end ResourceOp

variable {db : Db} {me : Identity}

/-- What happens on data in which `session.get` finds nothing. -/
theorem outcome_get_none {ρ π α : Type} [DecidableEq π] {key : ρ → π} {T : DbTable key} {k : π}
    {f : Option ρ → Service α} {e : PyError} (h : T.lookup me db k = none)
    (hf : f none = .raise e) :
    ((T.get k).bind f).outcome me db = .error e := by
  rw [Prog.outcome, run_get_bind, Conn.start_vars, Conn.start_working, h, hf]
  rfl

/-- An error skips what follows. -/
theorem outcome_bind_error {α β : Type} {p : Service α} {e : PyError}
    (h : p.outcome me db = .error e) (f : α → Service β) :
    (p.bind f).outcome me db = .error e := by
  rw [Prog.outcome] at h ⊢
  rw [Prog.run_bind]
  generalize p.run (Conn.start me db) = x at h
  obtain ⟨r, c⟩ := x
  cases h
  rfl

/-- A check-in that is not seen is reported as not found. -/
theorem outcome_getCheckin {checkinId : Uuid} (viewer : Option User)
    (h : checkins.lookup me db checkinId = none) :
    (getCheckin checkinId viewer).outcome me db =
      .error (.domain .checkinNotFound ("checkin not found: " ++ checkinId.str)) :=
  outcome_get_none h rfl

/-- Filing a report reads and writes nothing that goes with a check-in. -/
theorem outcome_insert_contentReport (report : ContentReport) (p : Checkin → Bool) :
    ((contentReports.insert report).bind fun _ => commit.bind fun _ =>
        refresh contentReports report.id : Service ContentReport).outcome me (eraseCheckins p db) =
      ((contentReports.insert report).bind fun _ => commit.bind fun _ =>
        refresh contentReports report.id : Service ContentReport).outcome me db := by
  have hwrite : contentReports.insertWrite me (eraseCheckins p db) report =
      contentReports.insertWrite me db report := rfl
  simp only [Prog.outcome, run_insert_bind, Conn.start_vars, Conn.start_working, hwrite]
  cases hw : contentReports.insertWrite me db report with
  | error e => rfl
  | ok wr =>
    obtain ⟨-, -, -, -, rfl⟩ := contentReports.insertWrite_eq_ok.mp hw
    simp only [run_commit_bind, refresh, Prog.bind_eq, run_get_bind, Conn.publish_vars,
      Conn.publish_working]
    have hlookup : ∀ k, contentReports.lookup me
        (contentReports.write (·.insert report) (eraseCheckins p db)) k =
          contentReports.lookup me (contentReports.write (·.insert report) db) k := fun _ => rfl
    simp only [Conn.start, hlookup]
    cases contentReports.lookup me (contentReports.write (·.insert report) db) report.id <;> rfl

/-- A content report tells nothing of a check-in that the reporter cannot find. -/
theorem outcome_createContentReport (c : Ctx) (reporter : User)
    (targetType : ContentReportTargetType) (targetId : Uuid) (reason : ContentReportReason)
    (details : Option String) (p : Checkin → Bool)
    (h : checkins.lookup me db targetId = none)
    (h' : checkins.lookup me (eraseCheckins p db) targetId = none) :
    (createContentReport c reporter targetType targetId reason details).outcome me
        (eraseCheckins p db) =
      (createContentReport c reporter targetType targetId reason details).outcome me db := by
  simp only [createContentReport, Prog.bind_eq, select, Prog.outcome, run_query_bind,
    Conn.start_vars, Conn.start_working]
  -- the reports, and the policies that show them, are the same on both sides
  have hrows : ∀ q, contentReports.rows me (eraseCheckins p db) q = contentReports.rows me db q :=
    fun _ => rfl
  rw [hrows]
  generalize contentReports.rows me db _ = rows
  rcases rows with _ | ⟨r, _ | ⟨r', rows⟩⟩
  · cases targetType with
    | checkin =>
      exact (outcome_bind_error (outcome_getCheckin (some reporter) h') _).trans
        (outcome_bind_error (outcome_getCheckin (some reporter) h) _).symm
    | user =>
      simp only [scalarOneOrNone, Prog.pure_eq, Prog.ret_bind, reduceCtorEq, if_false]
      exact outcome_insert_contentReport _ p
  · rfl
  · rfl

section Denied

variable {c : Ctx} {viewer : Option User}

/-- What `can_view` denies, the row policies hide. -/
theorem not_canSee_of_denied {ownerId : Uuid} {visibility : String}
    (hstored : ∀ v ∈ viewer, db.Stored v)
    (hdenied : (canView ownerId visibility viewer).outcome (viewer.map User.id) db = .ok false) :
    ¬ db.CanSee (viewer.map User.id) ownerId visibility := by
  have hrun : (canView ownerId visibility viewer).run (Conn.start (viewer.map User.id) db) = _ :=
    run_canView rfl hstored
  rw [Prog.outcome, hrun] at hdenied
  exact of_decide_eq_false (Except.ok.inj hdenied)

/-- A row that the caller may not see is not found, with the row and without it. -/
theorem lookup_denied_checkin {r : Checkin} (hr : r ∈ db.checkins)
    (hsee : ¬ db.CanSee me r.userId r.visibility) :
    checkins.lookup me db r.id = none ∧
      checkins.lookup me ((Resource.checkin r).erase db) r.id = none := by
  constructor
  · refine checkins.lookup_eq_none.mpr fun x hx hid hpolicy => hsee ?_
    rw [Table.eq_of_key_eq hx hr hid] at hpolicy
    exact holds_checkinsPolicy_select.mp hpolicy
  · refine checkins.lookup_eq_none.mpr fun x hx hid _ => ?_
    have hgone := (Table.mem_erase.mp hx).2
    exact of_decide_eq_false hgone hid

/-- A list that is not visible is not seen, and not either when it is erased. -/
theorem lookup_denied_list {r : VenueList} (hr : r ∈ db.lists)
    (hsee : ¬ db.CanSee me r.userId r.visibility) :
    lists.lookup me db r.id = none ∧ lists.lookup me ((Resource.list r).erase db) r.id = none := by
  constructor
  · refine lists.lookup_eq_none.mpr fun x hx hid hpolicy => hsee ?_
    rw [Table.eq_of_key_eq hx hr hid] at hpolicy
    exact holds_listsPolicy_select.mp hpolicy
  · refine lists.lookup_eq_none.mpr fun x hx hid _ => ?_
    have hgone := (Table.mem_erase.mp hx).2
    exact of_decide_eq_false hgone hid

/-- So it is with a save. -/
theorem lookup_denied_venueSave {r : VenueSave} (hr : r ∈ db.venueSaves)
    (hsee : ¬ db.CanSee me r.userId r.visibility) :
    venueSaves.lookup me db r.id = none ∧
      venueSaves.lookup me ((Resource.venueSave r).erase db) r.id = none := by
  constructor
  · refine venueSaves.lookup_eq_none.mpr fun x hx hid hpolicy => hsee ?_
    rw [Table.eq_of_key_eq hx hr hid] at hpolicy
    exact holds_venueSavesPolicy_select.mp hpolicy
  · refine venueSaves.lookup_eq_none.mpr fun x hx hid _ => ?_
    have hgone := (Table.mem_erase.mp hx).2
    exact of_decide_eq_false hgone hid

end Denied

/-- For every operation on a check-in, a list or a venue save that `can_view` denies to the caller:
the outcome, its result or its error with the message, is the one on the data from which the row has
been deleted, with everything that cascades from it. -/
theorem outcome_denied_eq_erased (c : Ctx) (db : Db) (res : Resource) (op : ResourceOp res)
    (hres : res.Stored db) (hcaller : ∀ v ∈ op.caller, db.Stored v)
    (hdenied : (canView res.ownerId res.visibility op.caller).outcome (op.caller.map User.id) db =
      .ok false) :
    (op.program c).outcome (op.caller.map User.id) db =
      (op.program c).outcome (op.caller.map User.id) (res.erase db) := by
  have hsee := not_canSee_of_denied hcaller hdenied
  cases res with
  | checkin r =>
    obtain ⟨h, h'⟩ := lookup_denied_checkin hres hsee
    cases op with
    | getCheckin viewer => exact (outcome_get_none h rfl).trans (outcome_get_none h' rfl).symm
    | updateCheckin currentUser updates =>
      exact (outcome_get_none h rfl).trans (outcome_get_none h' rfl).symm
    | softDeleteCheckin currentUser =>
      exact (outcome_get_none h rfl).trans (outcome_get_none h' rfl).symm
    | likeCheckin currentUser | bookmarkCheckin currentUser =>
      exact (outcome_bind_error (outcome_get_none h rfl) _).trans
        (outcome_bind_error (outcome_get_none h' rfl) _).symm
    | createContentReport reporter targetType reason details =>
      exact (outcome_createContentReport c reporter targetType r.id reason details _ h h').symm
  | list r =>
    obtain ⟨h, h'⟩ := lookup_denied_list hres hsee
    cases op with
    | getList viewer => exact (outcome_get_none h rfl).trans (outcome_get_none h' rfl).symm
    | updateList currentUser updates =>
      exact (outcome_get_none h rfl).trans (outcome_get_none h' rfl).symm
    | deleteList currentUser => exact (outcome_get_none h rfl).trans (outcome_get_none h' rfl).symm
    | likeList currentUser | bookmarkList currentUser =>
      exact (outcome_bind_error (outcome_get_none h rfl) _).trans
        (outcome_bind_error (outcome_get_none h' rfl) _).symm
    | addListItem currentUser venueId afterItemId =>
      exact (outcome_get_none h rfl).trans (outcome_get_none h' rfl).symm
    | moveListItem itemId currentUser afterItemId =>
      exact (outcome_get_none h rfl).trans (outcome_get_none h' rfl).symm
    | removeListItem itemId currentUser =>
      exact (outcome_get_none h rfl).trans (outcome_get_none h' rfl).symm
  | venueSave r =>
    obtain ⟨h, h'⟩ := lookup_denied_venueSave hres hsee
    cases op with
    | getVenueSave viewer => exact (outcome_get_none h rfl).trans (outcome_get_none h' rfl).symm
    | updateVenueSave currentUser visibility =>
      exact (outcome_get_none h rfl).trans (outcome_get_none h' rfl).symm
    | deleteVenueSave currentUser =>
      exact (outcome_get_none h rfl).trans (outcome_get_none h' rfl).symm

/-! ## A stranger likes a private check-in -/

def owner : User := User.create 1 "clerk" "sub_1" "ada" "Ada" 0
def stranger : User := User.create 2 "clerk" "sub_2" "bob" "Bob" 0

def privateCheckin : Checkin where
  id := 5
  userId := owner.id
  venueId := 7
  ratingTaste := 4
  ratingService := 3
  ratingAmbiance := 3
  ratingValue := 2
  note := none
  photoUrl := none
  visibility := Visibility.priv
  visitedAt := ⟨2026, 7, 1⟩
  visitedTz := "Europe/Istanbul"
  deletedAt := none
  createdAt := 0

def privateCheckinDb : Db :=
  { Db.empty with
    users := (Table.empty.insert owner).insert stranger
    checkins := Table.empty.insert privateCheckin }

/-- A stranger likes a private check-in. -/
theorem outcome_denied_eq_erased_privateCheckin :
    (likeCheckin (.fixed 1 9) 5 stranger).outcome (some 2) privateCheckinDb =
      (likeCheckin (.fixed 1 9) 5 stranger).outcome (some 2)
        ((Resource.checkin privateCheckin).erase privateCheckinDb) := by
  refine outcome_denied_eq_erased (.fixed 1 9) privateCheckinDb (.checkin privateCheckin)
    (.likeCheckin stranger) (show privateCheckin ∈ privateCheckinDb.checkins by decide) ?_
    (by decide)
  rintro v ⟨⟩
  exact ⟨stranger, by decide, rfl, rfl⟩

end OburBackend
