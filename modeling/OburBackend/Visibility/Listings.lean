import OburBackend.Visibility.AccountStatus

/-!
# Listings agree with `can_view`

A listing cannot call `can_view` for each row. It repeats the rule as conditions of its query, none
of which mentions blocks, and the row policies apply on top. The two come to the same: for an owner
whose account is active, the listings of check-ins, lists and venue saves return what `can_view`
shows the viewer and nothing else.

The listings of bookmarks repeat the rule without its exception for administrators. They lose the
bookmarks that an administrator has made on what only an administrator may see.
-/

namespace OburBackend

open Sql

/-- `can_view` answers `True`. -/
def Db.Shows (db : Db) (viewer : Option User) (ownerId : Uuid) (visibility : String) : Prop :=
  (canView ownerId visibility viewer).outcome (viewer.map User.id) db = .ok true

/-- The account is active. -/
def Db.Active (db : Db) (id : Uuid) : Prop := ∃ u ∈ db.users, u.id = id ∧ u.status = .active

/-- What the listing returns are the pages of one result that has no row twice, and of the rows in
`scope` this result has exactly those with the property `P`. -/
def Lists {α : Type} (listing : ℕ → ℕ → Service (List α)) (me : Identity) (db : Db)
    (scope P : α → Prop) : Prop :=
  ∃ rows : List α, rows.Nodup ∧
    (∀ limit offset, (listing limit offset).outcome me db = .ok (page limit offset rows)) ∧
    ∀ r, scope r → (r ∈ rows ↔ P r)

variable {db : Db} {viewer : Option User}

/-- What a listing returns is determined: it returns the rows with `Q` when `Q` is what it returns
the rows with. -/
theorem Lists.iff {α : Type} {listing : ℕ → ℕ → Service (List α)} {me : Identity}
    {scope P Q : α → Prop} (hP : Lists listing me db scope P) :
    Lists listing me db scope Q ↔ ∀ r, scope r → (P r ↔ Q r) := by
  obtain ⟨rows, hnodup, hpages, hmem⟩ := hP
  constructor
  · rintro ⟨rows', -, hpages', hmem'⟩ r hr
    have hrows : rows = rows' := by
      let limit := max rows.length rows'.length
      have h := (hpages limit 0).symm.trans (hpages' limit 0)
      rwa [page_of_length_le (le_max_left _ _), page_of_length_le (le_max_right _ _),
        Except.ok.injEq] at h
    rw [← hmem r hr, ← hmem' r hr, hrows]
  · intro hPQ
    exact ⟨rows, hnodup, hpages, fun r hr => (hmem r hr).trans (hPQ r hr)⟩

/-- `can_view` and the row policies agree on what a stored viewer sees. -/
theorem shows_iff_canSee (hstored : ∀ v ∈ viewer, db.Stored v) {o : Uuid} {visibility : String} :
    db.Shows viewer o visibility ↔ db.CanSee (viewer.map User.id) o visibility := by
  rw [Db.Shows, Prog.outcome, run_canView rfl hstored, Except.ok.injEq, decide_eq_true_eq]
  rfl

/-- A listing that is one ordered query. -/
theorem lists_orderByDesc {α : Type} {listing : ℕ → ℕ → Service (List α)} {me : Identity}
    {scope P : α → Prop} {st : Stmt} {f : α → ℕ} {plan : Plan α} {rows : Identity → Db → List α}
    (hlisting : ∀ limit offset, listing limit offset =
      query st fun me db => page limit offset (orderByDesc f plan (rows me db)))
    (hnodup : (rows me db).Nodup) (hrows : ∀ r, scope r → (r ∈ rows me db ↔ P r)) :
    Lists listing me db scope P := by
  refine ⟨orderByDesc f plan (rows me db), ?_, ?_, ?_⟩
  · exact (orderBy_perm _ _ _).nodup_iff.mpr hnodup
  · intro limit offset
    rw [hlisting]
    rfl
  · intro r hr
    rw [mem_orderByDesc]
    exact hrows r hr

/-! ## Check-ins, lists and venue saves -/

/-- An active account is visible to whoever can see something of it. -/
theorem accountIsVisible_of_canSee {me : Identity} {o : Uuid} {visibility : String}
    (hself : ∀ r ∈ db.blocks, r.blockerId ≠ r.blockedId) (hactive : db.Active o)
    (hsee : db.CanSee me o visibility) : accountIsVisible me db o = true := by
  obtain ⟨u, hu, rfl, hstatus⟩ := hactive
  rw [accountIsVisible_iff]
  refine ⟨u, hu, rfl, hstatus, holds_usersPolicy_select.mpr ?_⟩
  rcases hsee with (hown | hadmin) | ⟨hblocked, -⟩
  · right
    rintro v hv ⟨r, hr, hpair⟩
    obtain rfl : u.id = v := Option.some.inj (hown.symm.trans hv)
    have hsame : r.blockerId = r.blockedId := by
      rcases hpair with ⟨h, h'⟩ | ⟨h, h'⟩ <;> rw [h, h']
    exact hself r hr hsame
  · exact .inl hadmin
  · exact .inr hblocked

/-- For every viewer, signed in or not: of the rows that match the filter of a listing and whose
owner is active, the listing returns exactly those that `can_view` shows the viewer. -/
theorem listings_return_shown (db : Db) (viewer : Option User)
    (hstored : ∀ v ∈ viewer, db.Stored v) (hself : ∀ r ∈ db.blocks, r.blockerId ≠ r.blockedId) :
    (∀ plan venueId, Lists (listCheckinsForVenue plan venueId viewer) (viewer.map User.id) db
      (fun c => db.Active c.userId) fun c => c ∈ db.checkins ∧ c.venueId = venueId ∧
        c.deletedAt = none ∧ db.Shows viewer c.userId c.visibility) ∧
    (∀ plan targetUserId,
      Lists (listCheckinsForUser plan targetUserId viewer) (viewer.map User.id) db
        (fun c => db.Active c.userId) fun c => c ∈ db.checkins ∧ c.userId = targetUserId ∧
          c.deletedAt = none ∧ db.Shows viewer c.userId c.visibility) ∧
    (∀ plan targetUserId, Lists (listListsForUser plan targetUserId viewer) (viewer.map User.id) db
      (fun l => db.Active l.userId) fun l => l ∈ db.lists ∧ l.userId = targetUserId ∧
        db.Shows viewer l.userId l.visibility) ∧
    ∀ plan targetUserId type,
      Lists (listVenueSavesForUser plan targetUserId type viewer) (viewer.map User.id) db
        (fun r => db.Active r.userId) fun r => r ∈ db.venueSaves ∧ r.userId = targetUserId ∧
          (∀ t ∈ type, r.type = t) ∧ db.Shows viewer r.userId r.visibility := by
  simp only [shows_iff_canSee hstored]
  refine ⟨?_, ?_, ?_, ?_⟩
  · intro plan venueId
    refine lists_orderByDesc (fun _ _ => rfl) checkins.rows_nodup fun c hactive => ?_
    simp only [checkins.mem_rows, checkins_read, checkins_policy, holds_checkinsPolicy_select,
      Bool.and_eq_true, decide_eq_true_eq, Option.isNone_iff_eq_none]
    constructor
    · rintro ⟨hc, ⟨hvenue, hdel, -⟩, hsee⟩
      exact ⟨hc, hvenue, hdel, hsee⟩
    · rintro ⟨hc, hvenue, hdel, hsee⟩
      exact ⟨hc, ⟨hvenue, hdel, accountIsVisible_of_canSee hself hactive hsee,
        listable_of_canSee rfl hstored (fun _ _ h => h) hsee⟩, hsee⟩
  · intro plan targetUserId
    refine lists_orderByDesc (fun _ _ => rfl) checkins.rows_nodup fun c hactive => ?_
    simp only [checkins.mem_rows, checkins_read, checkins_policy, holds_checkinsPolicy_select,
      Bool.and_eq_true, decide_eq_true_eq, Option.isNone_iff_eq_none]
    constructor
    · rintro ⟨hc, ⟨huser, hdel, -⟩, hsee⟩
      exact ⟨hc, huser, hdel, hsee⟩
    · rintro ⟨hc, rfl, hdel, hsee⟩
      exact ⟨hc, ⟨rfl, hdel, accountIsVisible_of_canSee hself hactive hsee,
        listable_of_canSee rfl hstored (fun _ _ h => h) hsee⟩, hsee⟩
  · intro plan targetUserId
    refine lists_orderByDesc (fun _ _ => rfl) lists.rows_nodup fun l _ => ?_
    simp only [lists.mem_rows, lists_read, lists_policy, holds_listsPolicy_select,
      Bool.and_eq_true, decide_eq_true_eq]
    constructor
    · rintro ⟨hl, ⟨huser, -⟩, hsee⟩
      exact ⟨hl, huser, hsee⟩
    · rintro ⟨hl, rfl, hsee⟩
      exact ⟨hl, ⟨rfl, listable_of_canSee rfl hstored (fun _ _ h => h) hsee⟩, hsee⟩
  · intro plan targetUserId type
    refine lists_orderByDesc (fun _ _ => rfl) venueSaves.rows_nodup fun r _ => ?_
    simp only [venueSaves.mem_rows, venueSaves_read, venueSaves_policy,
      holds_venueSavesPolicy_select, Bool.and_eq_true, decide_eq_true_eq, Option.all_eq_true]
    constructor
    · rintro ⟨hr, ⟨huser, htype, -⟩, hsee⟩
      exact ⟨hr, huser, htype, hsee⟩
    · rintro ⟨hr, rfl, htype, hsee⟩
      exact ⟨hr, ⟨rfl, htype, listable_of_canSee rfl hstored (fun _ _ h => h) hsee⟩, hsee⟩

/-- A close friend lists the check-ins of a user. -/
def closeFriendsDb : Db :=
  { Db.empty with
    users := Table.empty.insert (User.create 1 "clerk" "sub_1" "ada" "Ada" 0) |>.insert
      (User.create 2 "clerk" "sub_2" "bob" "Bob" 0)
    follows := Table.empty.insert ⟨2, 1, 0⟩
    closeFriends := Table.empty.insert ⟨1, 2, 0⟩
    lists := Table.empty.insert ⟨5, 1, "Coffee", none, Visibility.closeFriends, 0⟩ }

/-- A close friend's page of a user's lists. -/
theorem listings_return_shown_closeFriend :
    Lists (listListsForUser .sequential 1 (some (User.create 2 "clerk" "sub_2" "bob" "Bob" 0)))
      (some 2) closeFriendsDb (fun l => closeFriendsDb.Active l.userId) fun l =>
        l ∈ closeFriendsDb.lists ∧ l.userId = 1 ∧
          closeFriendsDb.Shows (some (User.create 2 "clerk" "sub_2" "bob" "Bob" 0)) l.userId
            l.visibility := by
  have hstored : ∀ v ∈ some (User.create 2 "clerk" "sub_2" "bob" "Bob" 0),
      closeFriendsDb.Stored v := by
    rintro v ⟨⟩
    exact ⟨_, by decide, rfl, rfl⟩
  have hself : ∀ r ∈ closeFriendsDb.blocks, r.blockerId ≠ r.blockedId := by
    intro r hr
    exact absurd hr (Table.not_mem_empty r)
  exact (listings_return_shown closeFriendsDb _ hstored hself).2.2.1 .sequential 1

/-! ## Bookmarks -/

/-- The user has a bookmark on the target. -/
def Bookmarked (t : Table Mark.key) (userId targetId : Uuid) : Prop :=
  ∃ b ∈ t, b.userId = userId ∧ b.targetId = targetId

/-- The user sees the resource without being an administrator, blocks left aside: it is public,
their own, or shared with close friends, of whom they are one. -/
def Db.Reaches (db : Db) (userId ownerId : Uuid) (visibility : String) : Prop :=
  visibility = Visibility.pub ∨ ownerId = userId ∨
    visibility = Visibility.closeFriends ∧ db.IsCloseFriend ownerId userId

/-- The condition of the bookmark listings is `Reaches`. -/
theorem bookmarkListable_iff {userId o : Uuid} {visibility : String} :
    bookmarkListable (some userId) db userId o visibility = true ↔
      db.Reaches userId o visibility := by
  simp only [bookmarkListable, Db.Reaches, Bool.or_eq_true, Bool.and_eq_true, decide_eq_true_eq,
    closeFriendOfOwnerExists_iff rfl]

/-- A listing of bookmarks: one query that joins the targets with the bookmarks of the user. -/
theorem lists_bookmarks {α : Type} {listing : ℕ → ℕ → Service (List α)} {me : Identity}
    {P : α → Prop} {st : Stmt} {plan : Plan (α × Mark)} {targets : Identity → Db → List α}
    {marks : Identity → Db → List Mark} {id : α → Uuid} {userId : Uuid}
    (hlisting : ∀ limit offset, listing limit offset = query st fun me db =>
      (page limit offset (orderByDesc (fun p => p.2.createdAt) plan
        (join (targets me db) (marks me db) fun x b => decide (b.targetId = id x)))).map Prod.fst)
    (htargets : (targets me db).Nodup) (hmarks : (marks me db).Nodup)
    (huser : ∀ b ∈ marks me db, b.userId = userId)
    (hkey : ∀ b ∈ marks me db, ∀ b' ∈ marks me db, b.key = b'.key → b = b')
    (hrows : ∀ x, P x ↔ x ∈ targets me db ∧ ∃ b ∈ marks me db, b.targetId = id x) :
    Lists listing me db (fun _ => True) P := by
  refine ⟨(orderByDesc (fun p => p.2.createdAt) plan
    (join (targets me db) (marks me db) fun x b => decide (b.targetId = id x))).map Prod.fst,
    ?_, ?_, ?_⟩
  · refine ((orderBy_perm _ _ _).map Prod.fst).nodup_iff.mpr (nodup_join_map_fst htargets hmarks ?_)
    -- the target and the user of a bookmark are its key
    intro x _ b hb b' hb' hon hon'
    have htarget : b.targetId = b'.targetId :=
      (of_decide_eq_true hon).trans (of_decide_eq_true hon').symm
    exact hkey b hb b' hb' (Prod.ext ((huser b hb).trans (huser b' hb').symm) htarget)
  · intro limit offset
    rw [hlisting, ← map_page]
    rfl
  · intro x _
    rw [hrows]
    simp only [List.mem_map, mem_orderByDesc, Prod.exists, mem_join, decide_eq_true_eq]
    constructor
    · rintro ⟨x', b, ⟨hx, hb, htarget⟩, rfl⟩
      exact ⟨hx, b, hb, htarget⟩
    · rintro ⟨hx, b, hb, htarget⟩
      exact ⟨x, b, ⟨hx, hb, htarget⟩, rfl⟩

/-- Among their own bookmarks a user sees each. -/
theorem mem_bookmark_rows {T : DbTable Mark.key} {t : Table Mark.key}
    {canView : Uuid → Truth} {userId : Uuid} (hread : T.read db = t)
    (hpolicy : T.policy (some userId) db = bookmarksPolicy (some userId) db canView) {b : Mark} :
    (b ∈ T.rows (some userId) db fun b => decide (b.userId = userId)) ↔
      b ∈ t ∧ b.userId = userId := by
  simp only [T.mem_rows, hread, hpolicy, decide_eq_true_eq]
  constructor
  · rintro ⟨hb, huser, -⟩
    exact ⟨hb, huser⟩
  · rintro ⟨hb, huser⟩
    exact ⟨hb, huser, holds_bookmarksPolicy_select huser⟩

/-- The bookmark listing of check-ins lists what the user sees and reaches. -/
theorem lists_bookmarkedCheckins (plan : Plan (Checkin × CheckinBookmark)) (userId : Uuid) :
    Lists (listBookmarkedCheckins plan userId) (some userId) db (fun _ => True) fun c =>
      (c ∈ db.checkins ∧ Bookmarked db.checkinBookmarks userId c.id ∧ c.deletedAt = none ∧
        db.CanSee (some userId) c.userId c.visibility) ∧
      db.Reaches userId c.userId c.visibility := by
  have hmarks : ∀ b, (b ∈ checkinBookmarks.rows (some userId) db fun b =>
      decide (b.userId = userId)) ↔ b ∈ db.checkinBookmarks ∧ b.userId = userId :=
    fun b => mem_bookmark_rows rfl rfl
  refine lists_bookmarks (fun _ _ => rfl) checkins.rows_nodup checkinBookmarks.rows_nodup
    (fun b hb => ((hmarks b).mp hb).2)
    (fun b hb b' hb' h => Table.eq_of_key_eq ((hmarks b).mp hb).1 ((hmarks b').mp hb').1 h) ?_
  intro c
  simp only [checkins.mem_rows, checkins_read, checkins_policy, holds_checkinsPolicy_select,
    Bool.and_eq_true, Option.isNone_iff_eq_none, bookmarkListable_iff, hmarks, Bookmarked]
  constructor
  · rintro ⟨⟨hc, ⟨b, hb, huser, htarget⟩, hdel, hsee⟩, hreach⟩
    exact ⟨⟨hc, ⟨hdel, hreach⟩, hsee⟩, b, ⟨hb, huser⟩, htarget⟩
  · rintro ⟨⟨hc, ⟨hdel, hreach⟩, hsee⟩, b, ⟨hb, huser⟩, htarget⟩
    exact ⟨⟨hc, ⟨b, hb, huser, htarget⟩, hdel, hsee⟩, hreach⟩

/-- So does the bookmark listing of lists. -/
theorem lists_bookmarkedLists (plan : Plan (VenueList × ListBookmark)) (userId : Uuid) :
    Lists (listBookmarkedLists plan userId) (some userId) db (fun _ => True) fun l =>
      (l ∈ db.lists ∧ Bookmarked db.listBookmarks userId l.id ∧
        db.CanSee (some userId) l.userId l.visibility) ∧
      db.Reaches userId l.userId l.visibility := by
  have hmarks : ∀ b, (b ∈ listBookmarks.rows (some userId) db fun b =>
      decide (b.userId = userId)) ↔ b ∈ db.listBookmarks ∧ b.userId = userId :=
    fun b => mem_bookmark_rows rfl rfl
  refine lists_bookmarks (fun _ _ => rfl) lists.rows_nodup listBookmarks.rows_nodup
    (fun b hb => ((hmarks b).mp hb).2)
    (fun b hb b' hb' h => Table.eq_of_key_eq ((hmarks b).mp hb).1 ((hmarks b').mp hb').1 h) ?_
  intro l
  simp only [lists.mem_rows, lists_read, lists_policy, holds_listsPolicy_select,
    bookmarkListable_iff, hmarks, Bookmarked]
  constructor
  · rintro ⟨⟨hl, ⟨b, hb, huser, htarget⟩, hsee⟩, hreach⟩
    exact ⟨⟨hl, hreach, hsee⟩, b, ⟨hb, huser⟩, htarget⟩
  · rintro ⟨⟨hl, hreach, hsee⟩, b, ⟨hb, huser⟩, htarget⟩
    exact ⟨⟨hl, ⟨b, hb, huser, htarget⟩, hsee⟩, hreach⟩

/-- What a user sees without being an administrator they reach; an administrator sees
everything. -/
theorem forall_canSee_iff_reaches {α : Type} (owner : α → Uuid) (visibility : α → String)
    (P : α → Prop) {user : User} (hstored : db.Stored user) :
    (∀ x, P x ∧ db.CanSee (some user.id) (owner x) (visibility x) →
        db.Reaches user.id (owner x) (visibility x)) ↔
      (user.role = UserRole.admin → ∀ x, P x → db.Reaches user.id (owner x) (visibility x)) := by
  rw [← hstored.isAdmin_iff]
  constructor
  · intro h hadmin x hx
    exact h x ⟨hx, .inl (.inr hadmin)⟩
  · rintro h x ⟨hx, hsee⟩
    by_cases hadmin : db.IsAdmin (some user.id)
    · exact h hadmin x hx
    · exact bookmarkListable_iff.mp (bookmarkListable_of_canSee hadmin hsee)

/-- For every user, administrators included: the listing of their bookmarked check-ins, and that of
their bookmarked lists, returns exactly the bookmarked targets that `can_view` shows them if and
only if they are no administrator or would see each of those targets without being one. -/
theorem bookmark_listings_iff (db : Db) (user : User) (hstored : db.Stored user) :
    ((∀ plan, Lists (listBookmarkedCheckins plan user.id) (some user.id) db (fun _ => True)
        fun c => c ∈ db.checkins ∧ Bookmarked db.checkinBookmarks user.id c.id ∧
          c.deletedAt = none ∧ db.Shows (some user) c.userId c.visibility) ↔
      (user.role = UserRole.admin → ∀ c ∈ db.checkins,
        Bookmarked db.checkinBookmarks user.id c.id → c.deletedAt = none →
          db.Reaches user.id c.userId c.visibility)) ∧
    ((∀ plan, Lists (listBookmarkedLists plan user.id) (some user.id) db (fun _ => True)
        fun l => l ∈ db.lists ∧ Bookmarked db.listBookmarks user.id l.id ∧
          db.Shows (some user) l.userId l.visibility) ↔
      (user.role = UserRole.admin → ∀ l ∈ db.lists,
        Bookmarked db.listBookmarks user.id l.id →
          db.Reaches user.id l.userId l.visibility)) := by
  have hshows : ∀ o visibility,
      db.Shows (some user) o visibility ↔ db.CanSee (some user.id) o visibility := by
    intro o visibility
    refine shows_iff_canSee fun v hv => ?_
    rwa [← Option.some.inj hv]
  simp only [hshows, (lists_bookmarkedCheckins _ _).iff, (lists_bookmarkedLists _ _).iff,
    and_iff_left_iff_imp, forall_const]
  constructor
  · have h := forall_canSee_iff_reaches Checkin.userId Checkin.visibility
      (fun c => c ∈ db.checkins ∧ Bookmarked db.checkinBookmarks user.id c.id ∧
        c.deletedAt = none) hstored
    simpa only [and_assoc, and_imp] using h
  · have h := forall_canSee_iff_reaches VenueList.userId VenueList.visibility
      (fun l => l ∈ db.lists ∧ Bookmarked db.listBookmarks user.id l.id) hstored
    simpa only [and_assoc, and_imp] using h

/-! ## The bookmark of an administrator -/

/-- An administrator, who has bookmarked a private check-in and a private list of somebody else. -/
def curator : User :=
  { User.create 2 "clerk" "sub_2" "root" "Root" 0 with role := UserRole.admin }

def secretCheckin : Checkin where
  id := 9
  userId := 1
  venueId := 7
  ratingTaste := 3
  ratingService := 3
  ratingAmbiance := 3
  ratingValue := 3
  note := none
  photoUrl := none
  visibility := Visibility.priv
  visitedAt := ⟨2026, 7, 1⟩
  visitedTz := "Europe/Istanbul"
  deletedAt := none
  createdAt := 0

def curatedDb : Db :=
  { Db.empty with
    users := Table.empty.insert (User.create 1 "clerk" "sub_1" "ada" "Ada" 0) |>.insert curator
    checkins := Table.empty.insert secretCheckin
    lists := Table.empty.insert ⟨8, 1, "Doktor", none, Visibility.priv, 0⟩
    checkinBookmarks := Table.empty.insert ⟨curator.id, secretCheckin.id, 0⟩
    listBookmarks := Table.empty.insert ⟨curator.id, 8, 0⟩ }

/-- The curator of the example is stored. -/
theorem stored_curator : curatedDb.Stored curator := ⟨curator, by decide, rfl, rfl⟩

/-- An administrator with a bookmarked private check-in and list. -/
theorem bookmark_listings_iff_curator :
    ((∀ plan, Lists (listBookmarkedCheckins plan curator.id) (some curator.id) curatedDb
        (fun _ => True) fun c => c ∈ curatedDb.checkins ∧
          Bookmarked curatedDb.checkinBookmarks curator.id c.id ∧ c.deletedAt = none ∧
          curatedDb.Shows (some curator) c.userId c.visibility) ↔
      (curator.role = UserRole.admin → ∀ c ∈ curatedDb.checkins,
        Bookmarked curatedDb.checkinBookmarks curator.id c.id → c.deletedAt = none →
          curatedDb.Reaches curator.id c.userId c.visibility)) ∧
    ((∀ plan, Lists (listBookmarkedLists plan curator.id) (some curator.id) curatedDb
        (fun _ => True) fun l => l ∈ curatedDb.lists ∧
          Bookmarked curatedDb.listBookmarks curator.id l.id ∧
          curatedDb.Shows (some curator) l.userId l.visibility) ↔
      (curator.role = UserRole.admin → ∀ l ∈ curatedDb.lists,
        Bookmarked curatedDb.listBookmarks curator.id l.id →
          curatedDb.Reaches curator.id l.userId l.visibility)) :=
  bookmark_listings_iff curatedDb curator stored_curator

/-- So a bookmark listing may omit what `can_view` shows. -/
theorem bookmark_listings_can_omit :
    ¬ ∀ (db : Db) (user : User), db.Stored user →
      (∀ plan, Lists (listBookmarkedCheckins plan user.id) (some user.id) db (fun _ => True)
        fun c => c ∈ db.checkins ∧ Bookmarked db.checkinBookmarks user.id c.id ∧
          c.deletedAt = none ∧ db.Shows (some user) c.userId c.visibility) ∧
      ∀ plan, Lists (listBookmarkedLists plan user.id) (some user.id) db (fun _ => True)
        fun l => l ∈ db.lists ∧ Bookmarked db.listBookmarks user.id l.id ∧
          db.Shows (some user) l.userId l.visibility := by
  intro h
  have hlisted := (h curatedDb curator stored_curator).1 .sequential
  have hshown : curatedDb.Shows (some curator) secretCheckin.userId secretCheckin.visibility := rfl
  obtain ⟨-, hreach⟩ := ((lists_bookmarkedCheckins _ _).iff.mp hlisted secretCheckin trivial).mpr
    ⟨by decide, ⟨_, List.mem_singleton.mpr rfl, rfl, rfl⟩, rfl, hshown⟩
  rcases hreach with hpub | hown | ⟨hclose, -⟩
  · exact absurd hpub (by decide)
  · exact absurd hown (by decide)
  · exact absurd hclose (by decide)

end OburBackend
