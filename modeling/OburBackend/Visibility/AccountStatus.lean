import OburBackend.Service.Reaction

/-!
# Frozen and suspended accounts on the read paths

The content of an account that is not active should disappear from what other people read. Neither
`can_view` nor a row policy looks at the status: each read path has to ask for it. The listings of
check-ins and of followers do; the lookups by id, the listings of lists and venue saves and the
listings of bookmarks do not.
-/

namespace OburBackend

open Sql

/-- The order in which the database meets the rows of each listing. -/
structure ReadPlans where
  checkins : Plan Checkin
  lists : Plan VenueList
  venueSaves : Plan VenueSave
  checkinBookmarks : Plan (Checkin × CheckinBookmark)
  listBookmarks : Plan (VenueList × ListBookmark)
  follows : Plan (User × Follow)

/-- A read path, with the arguments that select what is read. -/
inductive ReadPath where
  | checkin (checkinId : Uuid)
  | list (listId : Uuid)
  | venueSave (venueSaveId : Uuid)
  | checkinsForVenue (venueId : Uuid)
  | checkinsForUser (targetUserId : Uuid)
  | listsForUser (targetUserId : Uuid)
  | venueSavesForUser (targetUserId : Uuid) (type : Option VenueSaveType)
  | bookmarkedCheckins
  | bookmarkedLists
  | followers (userId : Uuid)
  | following (userId : Uuid)

/-- The owners of what the read path returns to the viewer. Only a signed-in viewer has
bookmarks. -/
def ReadPath.owners (plans : ReadPlans) (viewer : Option User) (limit offset : ℕ) :
    ReadPath → Service (List Uuid)
  | .checkin checkinId => do
    let checkin ← getCheckin checkinId viewer
    return [checkin.userId]
  | .list listId => do
    let venueList ← getList listId viewer
    return [venueList.userId]
  | .venueSave venueSaveId => do
    let save ← getVenueSave venueSaveId viewer
    return [save.userId]
  | .checkinsForVenue venueId => do
    let rows ← listCheckinsForVenue plans.checkins venueId viewer limit offset
    return rows.map Checkin.userId
  | .checkinsForUser targetUserId => do
    let rows ← listCheckinsForUser plans.checkins targetUserId viewer limit offset
    return rows.map Checkin.userId
  | .listsForUser targetUserId => do
    let rows ← listListsForUser plans.lists targetUserId viewer limit offset
    return rows.map VenueList.userId
  | .venueSavesForUser targetUserId type => do
    let rows ← listVenueSavesForUser plans.venueSaves targetUserId type viewer limit offset
    return rows.map VenueSave.userId
  | .bookmarkedCheckins =>
    match viewer with
    | none => return []
    | some v => do
      let rows ← listBookmarkedCheckins plans.checkinBookmarks v.id limit offset
      return rows.map Checkin.userId
  | .bookmarkedLists =>
    match viewer with
    | none => return []
    | some v => do
      let rows ← listBookmarkedLists plans.listBookmarks v.id limit offset
      return rows.map VenueList.userId
  | .followers userId => do
    let rows ← listFollowers plans.follows userId limit offset
    return rows.map User.id
  | .following userId => do
    let rows ← listFollowing plans.follows userId limit offset
    return rows.map User.id

/-- The read path returns something of the account to the viewer, on some page. -/
def ReadPath.Returns (path : ReadPath) (plans : ReadPlans) (db : Db) (viewer : Option User)
    (account : Uuid) : Prop :=
  ∃ limit offset owners,
    (path.owners plans viewer limit offset).outcome (viewer.map User.id) db = .ok owners ∧
      account ∈ owners

/-- The account has something in the range of the read path that `can_view` shows the viewer, on a
path that does not ask for the status of the account. -/
def ReadPath.Exposes (path : ReadPath) (db : Db) (viewer : Option User) (account : Uuid) : Prop :=
  let me := viewer.map User.id
  match path with
  | .checkin checkinId =>
    ∃ c ∈ db.checkins, c.userId = account ∧ c.id = checkinId ∧ c.deletedAt = none ∧
      db.CanSee me account c.visibility
  | .list listId =>
    ∃ l ∈ db.lists, l.userId = account ∧ l.id = listId ∧ db.CanSee me account l.visibility
  | .venueSave venueSaveId =>
    ∃ r ∈ db.venueSaves, r.userId = account ∧ r.id = venueSaveId ∧
      db.CanSee me account r.visibility
  | .listsForUser targetUserId =>
    ∃ l ∈ db.lists, l.userId = account ∧ targetUserId = account ∧
      db.CanSee me account l.visibility
  | .venueSavesForUser targetUserId type =>
    ∃ r ∈ db.venueSaves, r.userId = account ∧ targetUserId = account ∧ (∀ t ∈ type, r.type = t) ∧
      db.CanSee me account r.visibility
  | .bookmarkedCheckins =>
    ∃ c ∈ db.checkins, c.userId = account ∧ c.deletedAt = none ∧
      (∃ b ∈ db.checkinBookmarks, me = some b.userId ∧ b.targetId = c.id) ∧
      db.CanSee me account c.visibility
  | .bookmarkedLists =>
    ∃ l ∈ db.lists, l.userId = account ∧
      (∃ b ∈ db.listBookmarks, me = some b.userId ∧ b.targetId = l.id) ∧
      db.CanSee me account l.visibility
  | .checkinsForVenue _ | .checkinsForUser _ | .followers _ | .following _ => False

variable {db : Db} {viewer : Option User} {account : User} {plans : ReadPlans}

/-- A listing that asks for the status of the account finds an account that is not active
invisible. -/
theorem not_accountIsVisible {me : Identity} (haccount : account ∈ db.users)
    (hstatus : account.status ≠ .active) : ¬ accountIsVisible me db account.id = true := by
  rw [accountIsVisible_iff]
  rintro ⟨u, hu, hid, hactive, -⟩
  rw [Table.eq_of_key_eq hu haccount hid] at hactive
  exact hstatus hactive

/-- The owners that a path returns from one ordered query. -/
theorem returns_query_iff {α : Type} {path : ReadPath} {rows : Identity → Db → List α}
    (owner : α → Uuid) {f : α → ℕ} {plan : Plan α} {a : Uuid} {st : Stmt}
    (hpath : ∀ limit offset, path.owners plans viewer limit offset =
      query st fun me db => (page limit offset (orderByDesc f plan (rows me db))).map owner) :
    path.Returns plans db viewer a ↔ ∃ x ∈ rows (viewer.map User.id) db, owner x = a := by
  rw [← exists_mem_page_map (f := f)]
  constructor
  · rintro ⟨limit, offset, owners, hout, hmem⟩
    rw [hpath] at hout
    cases hout
    exact ⟨limit, offset, hmem⟩
  · rintro ⟨limit, offset, hmem⟩
    exact ⟨limit, offset, _, by rw [hpath]; rfl, hmem⟩

/-- The owner that a lookup by id returns. -/
theorem returns_get_iff {α : Type} {path : ReadPath} {get : Service α} {row : Option α}
    {e : PyError}
    {owner : α → Uuid} {a : Uuid}
    (hpath : ∀ limit offset, path.owners plans viewer limit offset =
      get.bind fun x => .ret [owner x])
    (hget : get.run (Conn.start (viewer.map User.id) db) =
      (Prog.orRaise e row, Conn.start (viewer.map User.id) db)) :
    path.Returns plans db viewer a ↔ ∃ x, row = some x ∧ owner x = a := by
  simp only [ReadPath.Returns, hpath, Prog.outcome, Prog.run_bind, hget]
  cases row with
  | none => simp
  | some x => simp [eq_comm]

/-- The conditions of a bookmark listing let through whatever the policies let through, for a viewer
who is no administrator. -/
theorem bookmarkListable_of_canSee {v : User} {ownerId : Uuid} {visibility : String}
    (hadmin : ¬ db.IsAdmin (some v.id)) (hsee : db.CanSee (some v.id) ownerId visibility) :
    bookmarkListable (some v.id) db v.id ownerId visibility = true := by
  simp only [bookmarkListable, Bool.or_eq_true, Bool.and_eq_true, decide_eq_true_eq,
    closeFriendOfOwnerExists_iff rfl]
  rcases hsee with (hown | hadm) | ⟨-, hpub | ⟨hcf, w, hw, hclose⟩⟩
  · exact .inr (.inl (Option.some.inj hown).symm)
  · exact absurd hadm hadmin
  · exact .inl hpub
  · exact .inr (.inr ⟨hcf, Option.some.inj hw ▸ hclose⟩)

/-- Only their owner sees a bookmark, an administrator apart. -/
theorem holds_bookmarksPolicy_select {canView : Uuid → Truth} {v : Uuid} {r : Mark}
    (hr : r.userId = v) : ((bookmarksPolicy (some v) db canView).select r).Holds := by
  simp [bookmarksPolicy, hr]

section Paths

variable {a : Uuid} (haccount : account ∈ db.users) (hstatus : account.status ≠ .active)
  (hstored : ∀ v ∈ viewer, db.Stored v) (hrole : ∀ v ∈ viewer, v.role ≠ UserRole.admin)

include hstored in
/-- A check-in is returned whatever its owner's status is. -/
theorem returns_checkin_iff {checkinId : Uuid} :
    (ReadPath.checkin checkinId).Returns plans db viewer a ↔
      (ReadPath.checkin checkinId).Exposes db viewer a := by
  have hget : (getCheckin checkinId viewer).run (Conn.start (viewer.map User.id) db) = _ :=
    run_getCheckin rfl hstored
  rw [returns_get_iff (fun _ _ => rfl) hget]
  simp only [Option.filter_eq_some_iff, Conn.start_vars, Conn.start_working,
    checkins.lookup_eq_some, checkins_read, checkins_policy, holds_checkinsPolicy_select,
    Option.isNone_iff_eq_none]
  constructor
  · rintro ⟨c, ⟨⟨hc, hid, hsee⟩, hdel⟩, rfl⟩
    exact ⟨c, hc, rfl, hid, hdel, hsee⟩
  · rintro ⟨c, hc, howner, hid, hdel, hsee⟩
    exact ⟨c, ⟨⟨hc, hid, by rw [howner]; exact hsee⟩, hdel⟩, howner⟩

include hstored in
/-- So is a list. -/
theorem returns_list_iff {listId : Uuid} :
    (ReadPath.list listId).Returns plans db viewer a ↔
      (ReadPath.list listId).Exposes db viewer a := by
  have hget : (getList listId viewer).run (Conn.start (viewer.map User.id) db) = _ :=
    run_getList rfl hstored
  rw [returns_get_iff (fun _ _ => rfl) hget]
  simp only [Conn.start_vars, Conn.start_working, lists.lookup_eq_some, lists_read, lists_policy,
    holds_listsPolicy_select]
  constructor
  · rintro ⟨l, ⟨hl, hid, hsee⟩, rfl⟩
    exact ⟨l, hl, rfl, hid, hsee⟩
  · rintro ⟨l, hl, howner, hid, hsee⟩
    exact ⟨l, ⟨hl, hid, by rw [howner]; exact hsee⟩, howner⟩

include hstored in
/-- So is a save. -/
theorem returns_venueSave_iff {venueSaveId : Uuid} :
    (ReadPath.venueSave venueSaveId).Returns plans db viewer a ↔
      (ReadPath.venueSave venueSaveId).Exposes db viewer a := by
  have hget : (getVenueSave venueSaveId viewer).run (Conn.start (viewer.map User.id) db) = _ :=
    run_getVenueSave rfl hstored
  rw [returns_get_iff (fun _ _ => rfl) hget]
  simp only [Conn.start_vars, Conn.start_working, venueSaves.lookup_eq_some, venueSaves_read,
    venueSaves_policy, holds_venueSavesPolicy_select]
  constructor
  · rintro ⟨r, ⟨hr, hid, hsee⟩, rfl⟩
    exact ⟨r, hr, rfl, hid, hsee⟩
  · rintro ⟨r, hr, howner, hid, hsee⟩
    exact ⟨r, ⟨hr, hid, by rw [howner]; exact hsee⟩, howner⟩

include hstored in
/-- So are a user's lists. -/
theorem returns_listsForUser_iff {targetUserId : Uuid} :
    (ReadPath.listsForUser targetUserId).Returns plans db viewer a ↔
      (ReadPath.listsForUser targetUserId).Exposes db viewer a := by
  rw [returns_query_iff VenueList.userId fun _ _ => rfl]
  simp only [lists.mem_rows, lists_read, lists_policy, holds_listsPolicy_select, Bool.and_eq_true,
    decide_eq_true_eq]
  constructor
  · rintro ⟨l, ⟨hl, ⟨htarget, -⟩, hsee⟩, howner⟩
    exact ⟨l, hl, howner, htarget.symm.trans howner, by rw [← howner]; exact hsee⟩
  · rintro ⟨l, hl, howner, htarget, hsee⟩
    rw [← howner] at hsee htarget
    exact ⟨l, ⟨hl, ⟨htarget.symm, listable_of_canSee rfl hstored
      (fun v _ h => htarget ▸ h) hsee⟩, hsee⟩, howner⟩

include hstored in
/-- So are a user's saves. -/
theorem returns_venueSavesForUser_iff {targetUserId : Uuid} {type : Option VenueSaveType} :
    (ReadPath.venueSavesForUser targetUserId type).Returns plans db viewer a ↔
      (ReadPath.venueSavesForUser targetUserId type).Exposes db viewer a := by
  rw [returns_query_iff VenueSave.userId fun _ _ => rfl]
  simp only [venueSaves.mem_rows, venueSaves_read, venueSaves_policy,
    holds_venueSavesPolicy_select, Bool.and_eq_true, decide_eq_true_eq, Option.all_eq_true]
  constructor
  · rintro ⟨r, ⟨hr, ⟨htarget, htype, -⟩, hsee⟩, howner⟩
    exact ⟨r, hr, howner, htarget.symm.trans howner, htype, by rw [← howner]; exact hsee⟩
  · rintro ⟨r, hr, howner, htarget, htype, hsee⟩
    rw [← howner] at hsee htarget
    exact ⟨r, ⟨hr, ⟨htarget.symm, htype, listable_of_canSee rfl hstored
      (fun v _ h => htarget ▸ h) hsee⟩, hsee⟩, howner⟩

include hstored hrole in
/-- So is a bookmarked check-in. -/
theorem returns_bookmarkedCheckins_iff :
    ReadPath.bookmarkedCheckins.Returns plans db viewer a ↔
      ReadPath.bookmarkedCheckins.Exposes db viewer a := by
  cases viewer with
  | none =>
    refine iff_of_false ?_ ?_
    · rintro ⟨limit, offset, owners, hout, hmem⟩
      cases hout
      cases hmem
    · rintro ⟨c, -, -, -, ⟨b, -, hme, -⟩, -⟩
      cases hme
  | some v =>
    have hadmin : ¬ db.IsAdmin (some v.id) := by
      rw [(hstored v rfl).isAdmin_iff]
      exact hrole v rfl
    rw [returns_query_iff (fun p : Checkin × CheckinBookmark => p.1.userId) fun _ _ => by
      simp only [ReadPath.owners, listBookmarkedCheckins, query, Prog.bind_eq, Prog.bind,
        Prog.pure_eq, List.map_map]
      rfl]
    simp only [mem_join, checkins.mem_rows, checkinBookmarks.mem_rows, checkins_read,
      checkinBookmarks_read, checkins_policy, checkinBookmarks_policy,
      holds_checkinsPolicy_select, Bool.and_eq_true, decide_eq_true_eq,
      Option.isNone_iff_eq_none, Option.map_some]
    constructor
    · rintro ⟨⟨c, b⟩, ⟨⟨hc, ⟨hdel, -⟩, hsee⟩, ⟨hb, huser, -⟩, htarget⟩, rfl⟩
      exact ⟨c, hc, rfl, hdel, ⟨b, hb, by rw [huser]; rfl, htarget⟩, hsee⟩
    · rintro ⟨c, hc, rfl, hdel, ⟨b, hb, huser, htarget⟩, hsee⟩
      have huser : b.userId = v.id := (Option.some.inj huser).symm
      exact ⟨(c, b), ⟨⟨hc, ⟨hdel, bookmarkListable_of_canSee hadmin hsee⟩, hsee⟩,
        ⟨hb, huser, holds_bookmarksPolicy_select huser⟩, htarget⟩, rfl⟩

include hstored hrole in
/-- So is a bookmarked list. -/
theorem returns_bookmarkedLists_iff :
    ReadPath.bookmarkedLists.Returns plans db viewer a ↔
      ReadPath.bookmarkedLists.Exposes db viewer a := by
  cases viewer with
  | none =>
    refine iff_of_false ?_ ?_
    · rintro ⟨limit, offset, owners, hout, hmem⟩
      cases hout
      cases hmem
    · rintro ⟨l, -, -, ⟨b, -, hme, -⟩, -⟩
      cases hme
  | some v =>
    have hadmin : ¬ db.IsAdmin (some v.id) := by
      rw [(hstored v rfl).isAdmin_iff]
      exact hrole v rfl
    rw [returns_query_iff (fun p : VenueList × ListBookmark => p.1.userId) fun _ _ => by
      simp only [ReadPath.owners, listBookmarkedLists, query, Prog.bind_eq, Prog.bind, Prog.pure_eq,
        List.map_map]
      rfl]
    simp only [mem_join, lists.mem_rows, listBookmarks.mem_rows, lists_read, listBookmarks_read,
      lists_policy, listBookmarks_policy, holds_listsPolicy_select, decide_eq_true_eq,
      Option.map_some]
    constructor
    · rintro ⟨⟨l, b⟩, ⟨⟨hl, -, hsee⟩, ⟨hb, huser, -⟩, htarget⟩, rfl⟩
      exact ⟨l, hl, rfl, ⟨b, hb, by rw [huser]; rfl, htarget⟩, hsee⟩
    · rintro ⟨l, hl, rfl, ⟨b, hb, huser, htarget⟩, hsee⟩
      have huser : b.userId = v.id := (Option.some.inj huser).symm
      exact ⟨(l, b), ⟨⟨hl, bookmarkListable_of_canSee hadmin hsee, hsee⟩,
        ⟨hb, huser, holds_bookmarksPolicy_select huser⟩, htarget⟩, rfl⟩

include haccount hstatus in
/-- A venue's listing shows no check-in of an account that is not active. -/
theorem not_returns_checkinsForVenue {venueId : Uuid} :
    ¬ (ReadPath.checkinsForVenue venueId).Returns plans db viewer account.id := by
  rw [returns_query_iff Checkin.userId fun _ _ => rfl]
  rintro ⟨c, hc, howner⟩
  obtain ⟨-, hcond, -⟩ := checkins.mem_rows.mp hc
  simp only [Bool.and_eq_true, howner] at hcond
  exact not_accountIsVisible haccount hstatus hcond.2.2.1

include haccount hstatus in
/-- Nor does the listing of such a user's check-ins. -/
theorem not_returns_checkinsForUser {targetUserId : Uuid} :
    ¬ (ReadPath.checkinsForUser targetUserId).Returns plans db viewer account.id := by
  rw [returns_query_iff Checkin.userId fun _ _ => rfl]
  rintro ⟨c, hc, howner⟩
  obtain ⟨-, hcond, -⟩ := checkins.mem_rows.mp hc
  simp only [Bool.and_eq_true, howner] at hcond
  exact not_accountIsVisible haccount hstatus hcond.2.2.1

include haccount hstatus in
/-- Nor do followers and followed users show such an account. -/
theorem not_returns_follows {path : ReadPath} {user end' : Follow → Uuid} {userId : Uuid}
    (hpath : ∀ limit offset, path.owners plans viewer limit offset =
      (listFollows user end' plans.follows userId limit offset).bind fun rows =>
        .ret (rows.map User.id)) :
    ¬ path.Returns plans db viewer account.id := by
  rw [returns_query_iff (fun p : User × Follow => p.1.id) fun limit offset => by
    simp only [hpath, listFollows, query, Prog.bind, List.map_map]
    rfl]
  rintro ⟨⟨u, r⟩, hp, hid⟩
  obtain ⟨-, hr, hon⟩ := mem_join.mp hp
  obtain ⟨-, hcond, -⟩ := follows.mem_rows.mp hr
  simp only [Bool.and_eq_true, decide_eq_true_eq] at hcond hon hid
  rw [hon, hid] at hcond
  exact not_accountIsVisible haccount hstatus hcond.2

end Paths

/-- For an account that is frozen or suspended, and a viewer who is neither the account nor an
administrator: no page of a read path shows anything of the account exactly when the read path asks
for the status, or the account has nothing in its range that `can_view` shows the viewer. -/
theorem hides_inactive_iff_not_exposes (path : ReadPath) (db : Db) (viewer : Option User)
    (account : User) (haccount : account ∈ db.users) (hstatus : account.status ≠ .active)
    (hviewer : ∀ v ∈ viewer, db.Stored v ∧ v.role ≠ UserRole.admin ∧ v.id ≠ account.id) :
    (∀ plans, ¬ path.Returns plans db viewer account.id) ↔
      ¬ path.Exposes db viewer account.id := by
  have hstored : ∀ v ∈ viewer, db.Stored v := fun v hv => (hviewer v hv).1
  have hrole : ∀ v ∈ viewer, v.role ≠ UserRole.admin := fun v hv => (hviewer v hv).2.1
  have hplans : Nonempty ReadPlans :=
    ⟨⟨.sequential, .sequential, .sequential, .sequential, .sequential, .sequential⟩⟩
  have hiff : ∀ plans, path.Returns plans db viewer account.id ↔
      path.Exposes db viewer account.id := by
    intro plans
    cases path with
    | checkin checkinId => exact returns_checkin_iff hstored
    | list listId => exact returns_list_iff hstored
    | venueSave venueSaveId => exact returns_venueSave_iff hstored
    | listsForUser targetUserId => exact returns_listsForUser_iff hstored
    | venueSavesForUser targetUserId type => exact returns_venueSavesForUser_iff hstored
    | bookmarkedCheckins => exact returns_bookmarkedCheckins_iff hstored hrole
    | bookmarkedLists => exact returns_bookmarkedLists_iff hstored hrole
    | checkinsForVenue venueId =>
      exact iff_of_false (not_returns_checkinsForVenue haccount hstatus) id
    | checkinsForUser targetUserId =>
      exact iff_of_false (not_returns_checkinsForUser haccount hstatus) id
    | followers userId =>
      exact iff_of_false (not_returns_follows haccount hstatus fun _ _ => rfl) id
    | following userId =>
      exact iff_of_false (not_returns_follows haccount hstatus fun _ _ => rfl) id
  simp only [hiff, forall_const]

/-! ## A public list of a suspended account -/

/-- An account that an administrator has suspended. -/
def suspendedUser : User :=
  { User.create 1 "clerk" "sub_1" "ada" "Ada" 0 with status := .suspended }

/-- The database that holds this account and a public list of it. -/
def suspendedDb : Db :=
  { Db.empty with
    users := Table.empty.insert suspendedUser
    lists := Table.empty.insert ⟨5, suspendedUser.id, "Coffee", none, Visibility.pub, 0⟩ }

/-- The suspended user of the example is stored. -/
theorem suspendedUser_mem : suspendedUser ∈ suspendedDb.users := List.mem_singleton.mpr rfl

/-- The public list of a suspended user, for somebody who is not signed in. -/
theorem hides_inactive_iff_not_exposes_suspendedUser :
    (∀ plans, ¬ (ReadPath.list 5).Returns plans suspendedDb none suspendedUser.id) ↔
      ¬ (ReadPath.list 5).Exposes suspendedDb none suspendedUser.id :=
  hides_inactive_iff_not_exposes (.list 5) suspendedDb none suspendedUser suspendedUser_mem
    (by decide) fun v hv => absurd hv (Option.not_mem_none v)

/-- Anybody who asks for this list gets it. -/
theorem read_path_can_show_inactive :
    ¬ ∀ (path : ReadPath) (plans : ReadPlans) (db : Db) (viewer : Option User) (account : User),
      account ∈ db.users → account.status ≠ .active →
      (∀ v ∈ viewer, db.Stored v ∧ v.role ≠ UserRole.admin ∧ v.id ≠ account.id) →
      ¬ path.Returns plans db viewer account.id := by
  intro h
  refine h (.list 5) ⟨.sequential, .sequential, .sequential, .sequential, .sequential, .sequential⟩
    suspendedDb none suspendedUser suspendedUser_mem (by decide)
    (fun v hv => absurd hv (Option.not_mem_none v)) ?_
  exact ⟨20, 0, [suspendedUser.id], by decide, List.mem_singleton.mpr rfl⟩

end OburBackend
