import OburBackend.Visibility.SoftDelete

/-!
# Soft deletion simulates hard deletion

Whatever is done one call at a time, from data with a soft-deleted check-in or from the data that
`hard_delete_checkin` would have left: every call ends in the same way, and the two states go on
differing by that check-in, its likes and its bookmarks alone.
-/

namespace OburBackend

open Sql

/-- The operations on check-ins, and those that count, hide or delete them. -/
inductive LifecycleOp where
  | getCheckin (checkinId : Uuid) (viewer : Option User)
  | updateCheckin (checkinId : Uuid) (currentUser : User) (updates : CheckinUpdates)
  | softDeleteCheckin (checkinId : Uuid) (currentUser : User)
  | likeCheckin (checkinId : Uuid) (currentUser : User)
  | bookmarkCheckin (checkinId : Uuid) (currentUser : User)
  | createContentReport (reporter : User) (targetType : ContentReportTargetType) (targetId : Uuid)
    (reason : ContentReportReason) (details : Option String)
  | listCheckinsForVenue (plan : Plan Checkin) (venueId : Uuid) (viewer : Option User)
    (limit offset : ℕ)
  | listCheckinsForUser (plan : Plan Checkin) (targetUserId : Uuid) (viewer : Option User)
    (limit offset : ℕ)
  | listBookmarkedCheckins (plan : Plan (Checkin × CheckinBookmark)) (userId : Uuid)
    (limit offset : ℕ)
  | createCheckin (args : CheckinCreate)
  | verifyVenueByAdmin (venueId : Uuid)
  | createBlock (blockerId blockedId : Uuid)
  | deleteAccount (userId : Uuid)

namespace LifecycleOp

/-- What the operation returns. -/
def Result : LifecycleOp → Type
  | .getCheckin .. | .updateCheckin .. | .createCheckin _ => Checkin
  | .likeCheckin .. | .bookmarkCheckin .. => Mark
  | .createContentReport .. => ContentReport
  | .listCheckinsForVenue .. | .listCheckinsForUser .. | .listBookmarkedCheckins .. => List Checkin
  | .verifyVenueByAdmin _ => Venue
  | .createBlock .. => Block
  | .softDeleteCheckin .. | .deleteAccount _ => Unit

/-- The operation as a program. -/
def program (c : Ctx) : (op : LifecycleOp) → Service op.Result
  | .getCheckin checkinId viewer => OburBackend.getCheckin checkinId viewer
  | .updateCheckin checkinId currentUser updates =>
    OburBackend.updateCheckin c checkinId currentUser updates
  | .softDeleteCheckin checkinId currentUser =>
    OburBackend.softDeleteCheckin c checkinId currentUser
  | .likeCheckin checkinId currentUser => OburBackend.likeCheckin c checkinId currentUser
  | .bookmarkCheckin checkinId currentUser => OburBackend.bookmarkCheckin c checkinId currentUser
  | .createContentReport reporter targetType targetId reason details =>
    OburBackend.createContentReport c reporter targetType targetId reason details
  | .listCheckinsForVenue plan venueId viewer limit offset =>
    OburBackend.listCheckinsForVenue plan venueId viewer limit offset
  | .listCheckinsForUser plan targetUserId viewer limit offset =>
    OburBackend.listCheckinsForUser plan targetUserId viewer limit offset
  | .listBookmarkedCheckins plan userId limit offset =>
    OburBackend.listBookmarkedCheckins plan userId limit offset
  | .createCheckin args => OburBackend.createCheckin c args
  | .verifyVenueByAdmin venueId => OburBackend.verifyVenueByAdmin venueId
  | .createBlock blockerId blockedId => OburBackend.createBlock c blockerId blockedId
  | .deleteAccount userId => OburBackend.deleteAccount userId

end LifecycleOp

/-- An operation under the identity of its session, which is a new one or that of the call
before. -/
structure LifecycleCall where
  me : Identity
  c : Ctx
  op : LifecycleOp
  newSession : Bool

/-- How a call ends. -/
abbrev LifecycleOutcome := (op : LifecycleOp) × Except PyError op.Result

namespace LifecycleCall

/-- The connection on which the call runs: a new session starts from what is committed. -/
def connect (call : LifecycleCall) (conn : Conn Db Identity) : Conn Db Identity :=
  if call.newSession then Conn.start call.me conn.committed else { conn with vars := call.me }

/-- The call alone. -/
def run (call : LifecycleCall) (conn : Conn Db Identity) :
    Except PyError call.op.Result × Conn Db Identity :=
  (call.op.program call.c).run (call.connect conn)

/-- The calls one after the other: how each ends, and the connection that the last one leaves. -/
def runAll : List LifecycleCall → Conn Db Identity → List LifecycleOutcome × Conn Db Identity
  | [], conn => ([], conn)
  | call :: calls, conn =>
    let (outcome, conn) := call.run conn
    let (outcomes, conn) := runAll calls conn
    (⟨call.op, outcome⟩ :: outcomes, conn)

/-- A new check-in does not get the id. -/
def Spares (call : LifecycleCall) (id : Uuid) : Prop :=
  ∀ args, call.op = .createCheckin args → call.c.uuid4 0 ≠ id

variable {r : Checkin}

/-- No operation tells whether the deleted check-in is there. -/
theorem alike (hdel : r.deletedAt.isSome = true) {call : LifecycleCall}
    (hspares : call.Spares r.id) :
    (call.op.program call.c).Alike (Buried r) call.me := by
  obtain ⟨me, c, op, newSession⟩ := call
  cases op with
  | getCheckin checkinId viewer =>
    have h : ((getCheckin checkinId viewer).bind .ret).Alike (Buried r) me :=
      alike_getCheckin_bind hdel viewer fun _ _ => trivial
    rwa [Prog.bind_ret] at h
  | updateCheckin => exact alike_updateCheckin hdel _ _ _
  | softDeleteCheckin => exact alike_softDeleteCheckin hdel _ _
  | likeCheckin => exact alike_likeCheckin hdel _ _
  | bookmarkCheckin => exact alike_bookmarkCheckin hdel _ _
  | createContentReport => exact alike_createContentReport hdel _ _ _ _ _
  | listCheckinsForVenue => exact alike_listCheckinsForVenue hdel _ _ _ _ _
  | listCheckinsForUser => exact alike_listCheckinsForUser hdel _ _ _ _ _
  | listBookmarkedCheckins => exact alike_listBookmarkedCheckins hdel _ _ _ _
  | createCheckin args => exact alike_createCheckin hdel args (hspares args rfl)
  | verifyVenueByAdmin => exact alike_verifyVenueByAdmin hdel _
  | createBlock => exact alike_createBlock _ _
  | deleteAccount => exact alike_deleteAccount _

/-- One call on related connections ends in the same way and leaves them related. -/
theorem run_related (hdel : r.deletedAt.isSome = true) {call : LifecycleCall}
    (hspares : call.Spares r.id) {conn conn' : Conn Db Identity}
    (h : conn.Related (Buried r) conn') :
    (call.run conn').1 = (call.run conn).1 ∧
      (call.run conn).2.Related (Buried r) (call.run conn').2 := by
  have hvars : (call.connect conn).vars = call.me := by
    unfold connect
    split <;> rfl
  have hrelated : (call.connect conn).Related (Buried r) (call.connect conn') := by
    unfold connect
    split
    · exact Conn.related_start h.committed
    · exact ⟨rfl, h.committed, h.working⟩
  exact (alike hdel hspares).run hvars hrelated

/-- So does a sequence of calls. -/
theorem runAll_related (hdel : r.deletedAt.isSome = true) {calls : List LifecycleCall}
    (hspares : ∀ call ∈ calls, call.Spares r.id) {conn conn' : Conn Db Identity}
    (h : conn.Related (Buried r) conn') :
    (runAll calls conn').1 = (runAll calls conn).1 ∧
      (runAll calls conn).2.Related (Buried r) (runAll calls conn').2 := by
  induction calls generalizing conn conn' with
  | nil => exact ⟨rfl, h⟩
  | cons call calls ih =>
    obtain ⟨hfirst, hconn⟩ := run_related hdel (hspares call List.mem_cons_self) h
    obtain ⟨hrest, hlast⟩ := ih (fun call' hc => hspares call' (List.mem_cons_of_mem _ hc)) hconn
    have houtcome : (⟨call.op, (call.run conn').1⟩ : LifecycleOutcome) =
        ⟨call.op, (call.run conn).1⟩ := congrArg (Sigma.mk call.op) hfirst
    exact ⟨congrArg₂ List.cons houtcome hrest, hlast⟩

end LifecycleCall

/-! ## The two deletions -/

section Deletions

variable {r : Checkin} {s : Db}

/-- A stored check-in is buried in its data. -/
theorem buried_of_mem (hr : r ∈ s.checkins) : Buried r s (s.withoutCheckin r.id) :=
  ⟨rfl, fun _ hc hid => Table.eq_of_key_eq hc hr hid, fun _ => hr⟩

/-- Deleting the row takes its likes and its bookmarks along. -/
theorem eraseCheckins_self (hr : r ∈ s.checkins) :
    eraseCheckins (fun c => decide (c.id = r.id)) s = s.withoutCheckin r.id := by
  have hmarks : ∀ t : Table Mark.key,
      (t.erase fun m => (s.checkins.get m.targetId).any fun c => decide (c.id = r.id)) =
        t.erase fun m => decide (m.targetId = r.id) := by
    intro t
    refine Table.erase_congr fun m _ => ?_
    by_cases hm : m.targetId = r.id
    · rw [hm, Table.get_eq_some.mpr ⟨hr, rfl⟩, Option.any_some]
    · rw [decide_eq_false hm, Option.any_eq_false]
      intro c hc
      rw [(Table.get_eq_some.mp hc).2]
      exact decide_eq_false hm
  rw [eraseCheckins, hmarks, hmarks]
  rfl

/-- Its owner or an administrator removes it with all that rests on it. -/
theorem run_hardDeleteCheckin (hr : r ∈ s.checkins) {me : Identity}
    (hme : me = some r.userId ∨ s.IsAdmin me) :
    (hardDeleteCheckin r.id).run (Conn.start me s) =
      (.ok (), Conn.start me (s.withoutCheckin r.id)) := by
  have hlookup : checkins.lookup me s r.id = some r :=
    checkins.lookup_eq_some.mpr ⟨hr, rfl, holds_checkinsPolicy_select.mpr (.inl hme)⟩
  have hdelete : ((checkins.policy me s).delete r).Holds := holds_rlsIsOwnerOrAdmin.mpr hme
  simp only [hardDeleteCheckin, Prog.bind_eq, run_get_bind, Conn.start_vars, Conn.start_working,
    hlookup]
  rw [run_delete_bind_of_pass hlookup hdelete rfl]
  exact congrArg (fun db => (Except.ok (), Conn.start me db)) (eraseCheckins_self hr)

end Deletions

/-- Soft deletion simulates hard deletion: calls on data with a soft-deleted check-in end as they do
without it, the states they reach differ by that check-in, its likes and its bookmarks, and it stays
as it is as long as its owner's account does. `hard_delete_checkin` takes one state to the other. -/
theorem softDelete_simulates_hardDelete (s : Db) (r : Checkin) (hr : r ∈ s.checkins)
    (hdel : r.deletedAt.isSome = true) :
    (∀ (me : Identity) (calls : List LifecycleCall), (∀ call ∈ calls, call.Spares r.id) →
      let run := LifecycleCall.runAll calls (Conn.start me s)
      let run' := LifecycleCall.runAll calls (Conn.start me (s.withoutCheckin r.id))
      run'.1 = run.1 ∧
        run'.2.committed = run.2.committed.withoutCheckin r.id ∧
        run'.2.working = run.2.working.withoutCheckin r.id ∧
        ∀ db ∈ [run.2.committed, run.2.working],
          (∀ c ∈ db.checkins, c.id = r.id → c = r) ∧
            (db.hasUser r.userId = true → r ∈ db.checkins)) ∧
    ∀ me : Identity, me = some r.userId ∨ s.IsAdmin me →
      (hardDeleteCheckin r.id).outcome me s = Except.ok () ∧
        (hardDeleteCheckin r.id).after me s = s.withoutCheckin r.id := by
  refine ⟨fun me calls hspares => ?_, fun me hme => ?_⟩
  · obtain ⟨hout, hlast⟩ := LifecycleCall.runAll_related hdel hspares
      (Conn.related_start (buried_of_mem hr) : (Conn.start me s).Related (Buried r) _)
    refine ⟨hout, hlast.committed.eq, hlast.working.eq, fun db hdb => ?_⟩
    rcases List.mem_pair.mp hdb with rfl | rfl
    · exact ⟨hlast.committed.row, hlast.committed.kept⟩
    · exact ⟨hlast.working.row, hlast.working.kept⟩
  · rw [Prog.outcome, Prog.after, run_hardDeleteCheckin hr hme]
    exact ⟨rfl, rfl⟩

/-- A check-in that its owner has deleted. -/
def buriedCheckin : Checkin where
  id := 5
  userId := 1
  venueId := 7
  ratingTaste := 4
  ratingService := 4
  ratingAmbiance := 3
  ratingValue := 4
  note := none
  photoUrl := none
  visibility := Visibility.pub
  visitedAt := ⟨2026, 7, 1⟩
  visitedTz := "Europe/Istanbul"
  deletedAt := some 3
  createdAt := 0

/-- The database that holds this check-in and a bookmark of it. -/
def buriedDb : Db :=
  { Db.empty with
    users := (Table.empty.insert (User.create 1 "clerk" "sub_1" "ada" "Ada" 0)).insert
      (User.create 2 "clerk" "sub_2" "bob" "Bob" 0)
    venueCategories := Table.empty.insert { id := 8, slug := "cafe", parentId := none }
    venues := Table.empty.insert
      { id := 7, name := "Kahve", lat := 0, lng := 0, addressNote := none, googlePlacesId := none
        addedBy := none, categoryId := 8, city := none, countryCode := none, timezone := none
        district := none, isVerified := false, isActive := true, isSuspended := false
        createdAt := 0 }
    checkins := Table.empty.insert buriedCheckin
    checkinBookmarks := Table.empty.insert { userId := 2, targetId := 5, createdAt := 1 } }

/-- Its owner deletes it once more, and somebody checks in at the same venue. -/
def buriedCalls : List LifecycleCall :=
  [⟨some 1, .fixed 4 9, .softDeleteCheckin 5 (User.create 1 "clerk" "sub_1" "ada" "Ada" 0), true⟩,
    ⟨some 2, .fixed 5 9, .createCheckin
      { userId := 2, venueId := 7, visitedAt := ⟨2026, 7, 2⟩, visitedTz := "Europe/Istanbul"
        ratingTaste := 3, ratingService := 4, ratingAmbiance := 3, ratingValue := 2 }, true⟩]

/-- A run over a buried check-in. -/
theorem softDelete_simulates_hardDelete_buried :
    (LifecycleCall.runAll buriedCalls (Conn.start none (buriedDb.withoutCheckin 5))).1 =
        (LifecycleCall.runAll buriedCalls (Conn.start none buriedDb)).1 ∧
      (hardDeleteCheckin 5).after (some 1) buriedDb = buriedDb.withoutCheckin 5 := by
  have hstored : buriedCheckin ∈ buriedDb.checkins := List.mem_singleton.mpr rfl
  have hspares : ∀ call ∈ buriedCalls, call.Spares buriedCheckin.id := by
    intro call hcall args hop
    rcases List.mem_pair.mp hcall with rfl | rfl
    · cases hop
    · exact (by decide : (9 : Uuid) ≠ 5)
  obtain ⟨hruns, hdeletes⟩ := softDelete_simulates_hardDelete buriedDb buriedCheckin hstored rfl
  exact ⟨(hruns none buriedCalls hspares).1, (hdeletes (some 1) (.inl rfl)).2⟩

end OburBackend
