import OburBackend.Service.Reaction

/-!
# Taking back a like or a bookmark

The four operations look the row up by its key and delete it. They look alike and are not under one
policy: a bookmark is seen by its owner, a like by whoever sees what is liked. Somebody who has
liked what they no longer see is told that they have not liked it, and the like stays.
-/

namespace OburBackend

open Sql

/-- The operations, each with the id of its target. -/
inductive UnmarkOp where
  | unlikeCheckin (checkinId : Uuid)
  | unlikeList (listId : Uuid)
  | unbookmarkCheckin (checkinId : Uuid)
  | unbookmarkList (listId : Uuid)

namespace UnmarkOp

def table : UnmarkOp → DbTable Mark.key
  | .unlikeCheckin _ => checkinLikes
  | .unlikeList _ => listLikes
  | .unbookmarkCheckin _ => checkinBookmarks
  | .unbookmarkList _ => listBookmarks

def target : UnmarkOp → Uuid
  | .unlikeCheckin id | .unlikeList id | .unbookmarkCheckin id | .unbookmarkList id => id

/-- The operation as a program, for the user that has sent the request. -/
def program (u : User) : UnmarkOp → Service Unit
  | .unlikeCheckin checkinId => OburBackend.unlikeCheckin checkinId u
  | .unlikeList listId => OburBackend.unlikeList listId u
  | .unbookmarkCheckin checkinId => OburBackend.unbookmarkCheckin checkinId u
  | .unbookmarkList listId => OburBackend.unbookmarkList listId u

/-- The exception of the operation. -/
def notFound : UnmarkOp → ErrorClass
  | .unlikeCheckin _ | .unlikeList _ => .likeNotFound
  | .unbookmarkCheckin _ | .unbookmarkList _ => .bookmarkNotFound

/-- The like or bookmark of the user on the target, if it is stored. -/
def mark (db : Db) (u : User) (op : UnmarkOp) : Option Mark :=
  (op.table.read db).get (u.id, op.target)

/-- The operation raises when there is nothing to take back, and takes back what there is: that row
goes, and nothing else changes. -/
def TakesBack (db : Db) (u : User) (op : UnmarkOp) : Prop :=
  match op.mark db u with
  | none =>
    (∃ message, (op.program u).outcome (some u.id) db = .error (.domain op.notFound message)) ∧
      (op.program u).after (some u.id) db = db
  | some _ =>
    (op.program u).outcome (some u.id) db = .ok () ∧
      (op.program u).after (some u.id) db =
        op.table.erase (fun m => decide (m.key = (u.id, op.target))) db

/-- The user sees what the row is about, as far as it is up to that whether they see the row. -/
def SeesTarget (db : Db) (u : User) : UnmarkOp → Prop
  | .unlikeCheckin checkinId =>
    ∃ c ∈ db.checkins, c.id = checkinId ∧ db.CanSee (some u.id) c.userId c.visibility
  | .unlikeList listId =>
    ∃ l ∈ db.lists, l.id = listId ∧ db.CanSee (some u.id) l.userId l.visibility
  | .unbookmarkCheckin _ | .unbookmarkList _ => True

variable {db : Db} {u : User} {op : UnmarkOp}

/-- What the four operations do alone, with the policies of their tables. -/
theorem run_removeMark {T : DbTable Mark.key} {targetId : Uuid} {error : ErrorClass}
    {message : String}
    (hdelete : ∀ m : Mark, m.userId = u.id → ((T.policy (some u.id) db).delete m).Holds)
    (href : ∀ m, T.referenced db m = false) :
    (removeMark T u.id targetId error message).run (Conn.start (some u.id) db) =
      match T.lookup (some u.id) db (u.id, targetId) with
      | none => (.error (.domain error message), Conn.start (some u.id) db)
      | some _ =>
        (.ok (), Conn.start (some u.id)
          (T.erase (fun m => decide (m.key = (u.id, targetId))) db)) := by
  simp only [removeMark, Prog.bind_eq, run_get_bind, Conn.start_vars, Conn.start_working]
  cases hfound : T.lookup (some u.id) db (u.id, targetId) with
  | none => rfl
  | some m =>
    have hkey : m.key = (u.id, targetId) := (T.lookup_eq_some.mp hfound).2.1
    dsimp only
    rw [run_delete_bind_of_pass hfound (hdelete m (congrArg Prod.fst hkey)) (href m)]
    rfl

/-- Each operation is `removeMark`, and its user may delete their own rows. -/
theorem run_program (op : UnmarkOp) : ∃ message,
    (op.program u).run (Conn.start (some u.id) db) =
      match op.table.lookup (some u.id) db (u.id, op.target) with
      | none => (.error (.domain op.notFound message), Conn.start (some u.id) db)
      | some _ =>
        (.ok (), Conn.start (some u.id)
          (op.table.erase (fun m => decide (m.key = (u.id, op.target))) db)) := by
  have hown : ∀ m : Mark, m.userId = u.id →
      (rlsIsOwnerOrAdmin (some u.id) db (some m.userId)).Holds := by
    intro m hm
    rw [hm]
    exact holds_rlsIsOwnerOrAdmin.mpr (.inl rfl)
  cases op with
  | unlikeCheckin | unlikeList | unbookmarkCheckin | unbookmarkList =>
    exact ⟨_, run_removeMark hown fun _ => rfl⟩

/-- Whether the user sees a row of their own. -/
theorem holds_select_iff {m : Mark} (hm : m.key = (u.id, op.target)) :
    ((op.table.policy (some u.id) db).select m).Holds ↔ op.SeesTarget db u := by
  obtain ⟨huser, htarget⟩ := Prod.mk.inj hm
  cases op with
  | unlikeCheckin checkinId =>
    show (rlsCanViewCheckin (some u.id) db m.targetId).Holds ↔ _
    rw [htarget]
    exact holds_rlsCanViewCheckin
  | unlikeList listId =>
    show (rlsCanViewList (some u.id) db m.targetId).Holds ↔ _
    rw [htarget]
    exact holds_rlsCanViewList
  | unbookmarkCheckin | unbookmarkList =>
    show (rlsIsOwnerOrAdmin (some u.id) db (some m.userId)).Holds ↔ True
    rw [huser, iff_true]
    exact holds_rlsIsOwnerOrAdmin.mpr (.inl rfl)

/-- The lookup finds the row when the user sees what it is about, and otherwise nothing. -/
theorem lookup_eq_mark (h : op.SeesTarget db u) :
    op.table.lookup (some u.id) db (u.id, op.target) = op.mark db u :=
  op.table.lookup_eq_get fun _ _ hkey => (holds_select_iff hkey).mpr h

/-- A mark on a target that is not seen is not seen. -/
theorem lookup_eq_none_of_not_sees (h : ¬ op.SeesTarget db u) :
    op.table.lookup (some u.id) db (u.id, op.target) = none :=
  op.table.lookup_eq_none.mpr fun _ _ hkey hsee => h ((holds_select_iff hkey).mp hsee)

end UnmarkOp

/-- An operation takes back what there is to take back if and only if there is nothing, or its user
still sees the target; to a bookmark it does not matter. -/
theorem takesBack_iff (db : Db) (u : User) (op : UnmarkOp) :
    op.TakesBack db u ↔ (op.mark db u = none ∨ op.SeesTarget db u) := by
  obtain ⟨message, hrun⟩ := @UnmarkOp.run_program db u op
  rw [UnmarkOp.TakesBack, Prog.outcome, Prog.after, hrun]
  by_cases hsees : op.SeesTarget db u
  · rw [UnmarkOp.lookup_eq_mark hsees]
    cases op.mark db u with
    | none => exact ⟨fun _ => .inl rfl, fun _ => ⟨⟨message, rfl⟩, rfl⟩⟩
    | some m => exact ⟨fun _ => .inr hsees, fun _ => ⟨rfl, rfl⟩⟩
  · rw [UnmarkOp.lookup_eq_none_of_not_sees hsees]
    cases op.mark db u with
    | none => exact ⟨fun _ => .inl rfl, fun _ => ⟨⟨message, rfl⟩, rfl⟩⟩
    | some m =>
      refine ⟨fun h => (by cases h.1), fun h => ?_⟩
      rcases h with hnone | hsee
      · cases hnone
      · exact absurd hsee hsees

/-- The author of a check-in, and somebody who likes it. -/
def reviewer : User := User.create 1 "clerk" "sub_1" "ada" "Ada" 0
def fan : User := User.create 2 "clerk" "sub_2" "bob" "Bob" 0

/-- The database that holds the two and a public check-in. -/
def reviewDb : Db :=
  { Db.empty with
    users := (Table.empty.insert reviewer).insert fan
    venueCategories := Table.empty.insert { id := 8, slug := "cafe", parentId := none }
    venues := Table.empty.insert
      { id := 7, name := "Kahve", lat := 0, lng := 0, addressNote := none, googlePlacesId := none
        addedBy := none, categoryId := 8, city := none, countryCode := none, timezone := none
        district := none, isVerified := false, isActive := true, isSuspended := false
        createdAt := 0 }
    checkins := Table.empty.insert
      { id := 5, userId := 1, venueId := 7, ratingTaste := 4, ratingService := 4
        ratingAmbiance := 3, ratingValue := 4, note := none, photoUrl := none
        visibility := Visibility.pub, visitedAt := ⟨2026, 7, 1⟩, visitedTz := "Europe/Istanbul"
        deletedAt := none, createdAt := 0 } }

/-- The data after one has liked the check-in and the other has made it private. -/
def hiddenReviewDb : Db :=
  let updates : CheckinUpdates := { visibility := some (some Visibility.priv) }
  (updateCheckin (.fixed 2 10) 5 reviewer updates).after (some 1)
    ((likeCheckin (.fixed 1 9) 5 fan).after (some 2) reviewDb)

/-- A like of what has become private since cannot be taken back. -/
theorem unlike_can_miss_like :
    ¬ ∀ (db : Db) (u : User) (op : UnmarkOp), op.TakesBack db u := by
  intro h
  have htakes := h hiddenReviewDb fan (.unlikeCheckin 5)
  have hstored : (UnmarkOp.unlikeCheckin 5).mark hiddenReviewDb fan = some ⟨2, 5, 1⟩ := rfl
  rw [UnmarkOp.TakesBack, hstored] at htakes
  have hout : ∃ e, ((UnmarkOp.unlikeCheckin 5).program fan).outcome (some fan.id) hiddenReviewDb =
      .error e := ⟨_, rfl⟩
  obtain ⟨e, hout⟩ := hout
  rw [hout] at htakes
  cases htakes.1

end OburBackend
