import OburBackend.Model.Consistent
import OburBackend.Service.Account

/-!
# The deletion of an account

`delete_account` is one `DELETE`; what it takes along is declared on the foreign keys. `Purged` says
what is left of each table: the rows that are not the user's, have no part in a relationship with
the user and are not attached to the user's content, and the venues and reports without their
reference to the user.
-/

namespace OburBackend

open Sql

/-! ## What is left -/

/-- A nullable reference, set to `NULL` if it is to the user. -/
def withoutUser (u : Uuid) (reference : Option Uuid) : Option Uuid :=
  reference.filter fun id => decide (id ≠ u)

/-- The venue without its attribution to the user. -/
def Venue.without (u : Uuid) (v : Venue) : Venue := { v with addedBy := withoutUser u v.addedBy }

/-- The report without its references to the user. -/
def ContentReport.without (u : Uuid) (r : ContentReport) : ContentReport :=
  { r with
    reporterId := withoutUser u r.reporterId
    resolvedBy := withoutUser u r.resolvedBy }

def VenueReport.without (u : Uuid) (r : VenueReport) : VenueReport :=
  { r with
    reporterId := withoutUser u r.reporterId
    resolvedBy := withoutUser u r.resolvedBy }

/-- A check-in, or a list, of the user has this id. -/
def Db.OwnsCheckin (db : Db) (u id : Uuid) : Prop := ∃ c ∈ db.checkins, c.id = id ∧ c.userId = u
def Db.OwnsList (db : Db) (u id : Uuid) : Prop := ∃ l ∈ db.lists, l.id = id ∧ l.userId = u

/-- `db'` is `db` without the user `u` and everything personal to them, and otherwise the same. -/
structure Purged (u : Uuid) (db db' : Db) : Prop where
  users : ∀ r, r ∈ db'.users ↔ r ∈ db.users ∧ r.id ≠ u
  follows : ∀ r, r ∈ db'.follows ↔ r ∈ db.follows ∧ r.followerId ≠ u ∧ r.followingId ≠ u
  closeFriends : ∀ r, r ∈ db'.closeFriends ↔ r ∈ db.closeFriends ∧ r.userId ≠ u ∧ r.friendId ≠ u
  blocks : ∀ r, r ∈ db'.blocks ↔ r ∈ db.blocks ∧ r.blockerId ≠ u ∧ r.blockedId ≠ u
  mutes : ∀ r, r ∈ db'.mutes ↔ r ∈ db.mutes ∧ r.userId ≠ u ∧ r.mutedId ≠ u
  venueCategories : db'.venueCategories = db.venueCategories
  venues : ∀ r, r ∈ db'.venues ↔ ∃ v ∈ db.venues, v.without u = r
  checkins : ∀ r, r ∈ db'.checkins ↔ r ∈ db.checkins ∧ r.userId ≠ u
  lists : ∀ r, r ∈ db'.lists ↔ r ∈ db.lists ∧ r.userId ≠ u
  listItems : ∀ r, r ∈ db'.listItems ↔ r ∈ db.listItems ∧ ¬ db.OwnsList u r.listId
  venueSaves : ∀ r, r ∈ db'.venueSaves ↔ r ∈ db.venueSaves ∧ r.userId ≠ u
  checkinLikes : ∀ r, r ∈ db'.checkinLikes ↔
    r ∈ db.checkinLikes ∧ r.userId ≠ u ∧ ¬ db.OwnsCheckin u r.targetId
  listLikes : ∀ r, r ∈ db'.listLikes ↔
    r ∈ db.listLikes ∧ r.userId ≠ u ∧ ¬ db.OwnsList u r.targetId
  checkinBookmarks : ∀ r, r ∈ db'.checkinBookmarks ↔
    r ∈ db.checkinBookmarks ∧ r.userId ≠ u ∧ ¬ db.OwnsCheckin u r.targetId
  listBookmarks : ∀ r, r ∈ db'.listBookmarks ↔
    r ∈ db.listBookmarks ∧ r.userId ≠ u ∧ ¬ db.OwnsList u r.targetId
  notifications : ∀ r, r ∈ db'.notifications ↔
    r ∈ db.notifications ∧ r.userId ≠ u ∧ r.actorId ≠ some u
  contentReports : ∀ r, r ∈ db'.contentReports ↔ ∃ x ∈ db.contentReports, x.without u = r
  venueReports : ∀ r, r ∈ db'.venueReports ↔ ∃ x ∈ db.venueReports, x.without u = r

/-- A foreign key of some table refers to the user `u`. -/
def Db.RefersTo (db : Db) (u : Uuid) : Prop :=
  (∃ r ∈ db.follows, r.followerId = u ∨ r.followingId = u) ∨
    (∃ r ∈ db.closeFriends, r.userId = u ∨ r.friendId = u) ∨
    (∃ r ∈ db.blocks, r.blockerId = u ∨ r.blockedId = u) ∨
    (∃ r ∈ db.mutes, r.userId = u ∨ r.mutedId = u) ∨
    (∃ r ∈ db.venues, r.addedBy = some u) ∨
    (∃ r ∈ db.checkins, r.userId = u) ∨
    (∃ r ∈ db.lists, r.userId = u) ∨
    (∃ r ∈ db.venueSaves, r.userId = u) ∨
    (∃ r ∈ db.checkinLikes, r.userId = u) ∨
    (∃ r ∈ db.listLikes, r.userId = u) ∨
    (∃ r ∈ db.checkinBookmarks, r.userId = u) ∨
    (∃ r ∈ db.listBookmarks, r.userId = u) ∨
    (∃ r ∈ db.notifications, r.userId = u ∨ r.actorId = some u) ∨
    (∃ r ∈ db.contentReports, r.reporterId = some u ∨ r.resolvedBy = some u) ∨
    ∃ r ∈ db.venueReports, r.reporterId = some u ∨ r.resolvedBy = some u

section Purged

variable {u : Uuid} {db db' : Db}

/-- Nothing refers to the deleted account. -/
theorem withoutUser_ne {reference : Option Uuid} : withoutUser u reference ≠ some u := by
  intro h
  have hne := (Option.filter_eq_some_iff.mp h).2
  simp at hne

/-- A reference is as it was, or cleared. -/
theorem withoutUser_eq {reference : Option Uuid} :
    withoutUser u reference = reference ∨ withoutUser u reference = none := by
  cases reference with
  | none => exact .inr rfl
  | some id =>
    by_cases hid : id = u
    · exact .inr (by simp [withoutUser, hid])
    · exact .inl (by simp [withoutUser, hid])

/-- A report keeps its value under the unique constraint, or has none any more. -/
theorem ContentReport.target_without (r : ContentReport) :
    (r.without u).target = r.target ∨ (r.without u).target = none := by
  unfold ContentReport.target
  show (withoutUser u r.reporterId).map _ = _ ∨ (withoutUser u r.reporterId).map _ = _
  rcases @withoutUser_eq u r.reporterId with h | h
  · exact .inl (by rw [h]; rfl)
  · exact .inr (by rw [h]; rfl)

/-- So does a report on a venue. -/
theorem VenueReport.target_without (r : VenueReport) :
    (r.without u).target = r.target ∨ (r.without u).target = none := by
  unfold VenueReport.target
  show (withoutUser u r.reporterId).map _ = _ ∨ (withoutUser u r.reporterId).map _ = _
  rcases @withoutUser_eq u r.reporterId with h | h
  · exact .inl (by rw [h]; rfl)
  · exact .inr (by rw [h]; rfl)

/-- Nothing refers to the user any more. -/
theorem Purged.not_refersTo (h : Purged u db db') : ¬ db'.RefersTo u := by
  rintro (⟨r, hr, hu⟩ | ⟨r, hr, hu⟩ | ⟨r, hr, hu⟩ | ⟨r, hr, hu⟩ | ⟨r, hr, hu⟩ | ⟨r, hr, hu⟩ |
    ⟨r, hr, hu⟩ | ⟨r, hr, hu⟩ | ⟨r, hr, hu⟩ | ⟨r, hr, hu⟩ | ⟨r, hr, hu⟩ | ⟨r, hr, hu⟩ |
    ⟨r, hr, hu⟩ | ⟨r, hr, hu⟩ | ⟨r, hr, hu⟩)
  · obtain ⟨-, h1, h2⟩ := (h.follows r).mp hr
    exact hu.elim h1 h2
  · obtain ⟨-, h1, h2⟩ := (h.closeFriends r).mp hr
    exact hu.elim h1 h2
  · obtain ⟨-, h1, h2⟩ := (h.blocks r).mp hr
    exact hu.elim h1 h2
  · obtain ⟨-, h1, h2⟩ := (h.mutes r).mp hr
    exact hu.elim h1 h2
  · obtain ⟨v, -, rfl⟩ := (h.venues r).mp hr
    exact withoutUser_ne hu
  · exact ((h.checkins r).mp hr).2 hu
  · exact ((h.lists r).mp hr).2 hu
  · exact ((h.venueSaves r).mp hr).2 hu
  · exact ((h.checkinLikes r).mp hr).2.1 hu
  · exact ((h.listLikes r).mp hr).2.1 hu
  · exact ((h.checkinBookmarks r).mp hr).2.1 hu
  · exact ((h.listBookmarks r).mp hr).2.1 hu
  · obtain ⟨-, h1, h2⟩ := (h.notifications r).mp hr
    exact hu.elim h1 h2
  · obtain ⟨x, -, rfl⟩ := (h.contentReports r).mp hr
    exact hu.elim withoutUser_ne withoutUser_ne
  · obtain ⟨x, -, rfl⟩ := (h.venueReports r).mp hr
    exact hu.elim withoutUser_ne withoutUser_ne

/-! ### The constraints hold of what is left -/

/-- The other accounts may still be referred to. -/
theorem Purged.hasUser (h : Purged u db db') {id : Uuid} (hid : db.hasUser id = true)
    (hne : id ≠ u) : db'.hasUser id = true := by
  obtain ⟨r, hr, rfl⟩ := hasUser_iff.mp hid
  exact hasUser_iff.mpr ⟨r, (h.users r).mpr ⟨hr, hne⟩, rfl⟩

/-- So may what a reference names that has not been cleared. -/
theorem Purged.hasUser_withoutUser (h : Purged u db db') {reference : Option Uuid}
    (hid : db.hasUser? reference = true) : db'.hasUser? (withoutUser u reference) = true := by
  refine hasUser?_iff.mpr fun id hwithout => ?_
  obtain ⟨href, hne⟩ := Option.filter_eq_some_iff.mp hwithout
  exact h.hasUser (hasUser?_iff.mp hid id href) (of_decide_eq_true hne)

/-- So may the venues. -/
theorem Purged.hasVenue (h : Purged u db db') {id : Uuid} (hid : db.hasVenue id = true) :
    db'.hasVenue id = true := by
  obtain ⟨v, hv, rfl⟩ := hasVenue_iff.mp hid
  exact hasVenue_iff.mpr ⟨v.without u, (h.venues _).mpr ⟨v, hv, rfl⟩, rfl⟩

/-- So may the check-ins of others. -/
theorem Purged.hasCheckin (h : Purged u db db') {id : Uuid} (hid : db.hasCheckin id = true)
    (hne : ¬ db.OwnsCheckin u id) : db'.hasCheckin id = true := by
  obtain ⟨c, hc, rfl⟩ := hasCheckin_iff.mp hid
  have hown : c.userId ≠ u := fun hown => hne ⟨c, hc, rfl, hown⟩
  exact hasCheckin_iff.mpr ⟨c, (h.checkins c).mpr ⟨hc, hown⟩, rfl⟩

/-- So may the lists of others. -/
theorem Purged.hasList (h : Purged u db db') {id : Uuid} (hid : db.hasList id = true)
    (hne : ¬ db.OwnsList u id) : db'.hasList id = true := by
  obtain ⟨l, hl, rfl⟩ := hasList_iff.mp hid
  have hown : l.userId ≠ u := fun hown => hne ⟨l, hl, rfl, hown⟩
  exact hasList_iff.mpr ⟨l, (h.lists l).mpr ⟨hl, hown⟩, rfl⟩

/-- So may the follows between others. -/
theorem Purged.hasFollow (h : Purged u db db') {a b : Uuid}
    (hid : (db.follows.get (a, b)).isSome = true) (ha : a ≠ u) (hb : b ≠ u) :
    (db'.follows.get (a, b)).isSome = true := by
  obtain ⟨f, hf, hkey⟩ := isSome_get.mp hid
  obtain ⟨rfl, rfl⟩ := Prod.mk.inj hkey
  exact isSome_get.mpr ⟨f, (h.follows f).mpr ⟨hf, ha, hb⟩, rfl⟩

/-- A mark that stays has its user and its target. -/
theorem Purged.checkinMark (h : Purged u db db') {m : Mark}
    (hold : checkinMarksConstraints db m = true)
    (hkept : m.userId ≠ u ∧ ¬ db.OwnsCheckin u m.targetId) :
    checkinMarksConstraints db' m = true := by
  rw [checkinMarksConstraints, Bool.and_eq_true] at hold ⊢
  exact ⟨h.hasUser hold.1 hkept.1, h.hasCheckin hold.2 hkept.2⟩

/-- A mark of others on a list of others still meets its constraints. -/
theorem Purged.listMark (h : Purged u db db') {m : Mark}
    (hold : listMarksConstraints db m = true)
    (hkept : m.userId ≠ u ∧ ¬ db.OwnsList u m.targetId) :
    listMarksConstraints db' m = true := by
  rw [listMarksConstraints, Bool.and_eq_true] at hold ⊢
  exact ⟨h.hasUser hold.1 hkept.1, h.hasList hold.2 hkept.2⟩

/-- No foreign key dangles, and no other constraint is broken. -/
theorem Purged.consistent (h : Purged u db db') (hdb : Consistent db) : Consistent db' where
  users r hr := by
    have hold : usersConstraints db r = true := hdb.users r ((h.users r).mp hr).1
    show usersConstraints db' _ = true
    have hsub : ∀ x ∈ db'.users, x ∈ db.users := fun x hx => ((h.users x).mp hx).1
    simp only [usersConstraints, Bool.and_eq_true] at hold ⊢
    exact ⟨uniqueIn_of_subset hold.1 hsub, uniqueIn_of_subset hold.2.1 hsub,
      uniqueIn_of_subset hold.2.2 hsub⟩
  follows r hr := by
    obtain ⟨hr, h1, h2⟩ := (h.follows r).mp hr
    have hold : followsConstraints db r = true := hdb.follows r hr
    show followsConstraints db' _ = true
    simp only [followsConstraints, Bool.and_eq_true] at hold ⊢
    exact ⟨hold.1, h.hasUser hold.2.1 h1, h.hasUser hold.2.2 h2⟩
  closeFriends r hr := by
    obtain ⟨hr, h1, h2⟩ := (h.closeFriends r).mp hr
    exact h.hasFollow (hdb.closeFriends r hr) h2 h1
  blocks r hr := by
    obtain ⟨hr, h1, h2⟩ := (h.blocks r).mp hr
    have hold : blocksConstraints db r = true := hdb.blocks r hr
    show blocksConstraints db' _ = true
    simp only [blocksConstraints, Bool.and_eq_true] at hold ⊢
    exact ⟨hold.1, h.hasUser hold.2.1 h1, h.hasUser hold.2.2 h2⟩
  mutes r hr := by
    obtain ⟨hr, h1, h2⟩ := (h.mutes r).mp hr
    have hold : mutesConstraints db r = true := hdb.mutes r hr
    show mutesConstraints db' _ = true
    simp only [mutesConstraints, Bool.and_eq_true] at hold ⊢
    exact ⟨hold.1, h.hasUser hold.2.1 h1, h.hasUser hold.2.2 h2⟩
  venueCategories r hr := by
    have hr : r ∈ db.venueCategories := h.venueCategories ▸ hr
    have hold : venueCategoriesConstraints db r = true := hdb.venueCategories r hr
    have hcategory : db'.hasCategory = db.hasCategory :=
      funext fun id => by rw [Db.hasCategory, Db.hasCategory, h.venueCategories]
    show venueCategoriesConstraints db' r = true
    rw [venueCategoriesConstraints, h.venueCategories, hcategory]
    exact hold
  venues r hr := by
    obtain ⟨v, hv, rfl⟩ := (h.venues r).mp hr
    have hold : venuesConstraints db v = true := hdb.venues v hv
    show venuesConstraints db' _ = true
    simp only [venuesConstraints, Bool.and_eq_true] at hold ⊢
    refine ⟨h.hasUser_withoutUser hold.1, ?_, uniqueIn_of_forall hold.2.2 rfl (.inl rfl) ?_⟩
    · rw [Db.hasCategory, h.venueCategories]
      exact hold.2.1
    · intro x hx
      obtain ⟨y, hy, rfl⟩ := (h.venues x).mp hx
      exact ⟨y, hy, rfl, .inl rfl⟩
  checkins r hr := by
    obtain ⟨hr, h1⟩ := (h.checkins r).mp hr
    have hold : checkinsConstraints db r = true := hdb.checkins r hr
    show checkinsConstraints db' _ = true
    simp only [checkinsConstraints, Bool.and_eq_true] at hold ⊢
    exact ⟨hold.1, hold.2.1, h.hasUser hold.2.2.1 h1, h.hasVenue hold.2.2.2⟩
  lists r hr := by
    obtain ⟨hr, h1⟩ := (h.lists r).mp hr
    have hold : listsConstraints db r = true := hdb.lists r hr
    show listsConstraints db' _ = true
    simp only [listsConstraints, Bool.and_eq_true] at hold ⊢
    exact ⟨hold.1, h.hasUser hold.2 h1⟩
  listItems r hr := by
    obtain ⟨hr, h1⟩ := (h.listItems r).mp hr
    have hold : listItemsConstraints db r = true := hdb.listItems r hr
    show listItemsConstraints db' _ = true
    simp only [listItemsConstraints, Bool.and_eq_true] at hold ⊢
    exact ⟨uniqueIn_of_subset hold.1 fun x hx => ((h.listItems x).mp hx).1,
      h.hasList hold.2.1 h1, h.hasVenue hold.2.2⟩
  venueSaves r hr := by
    obtain ⟨hr, h1⟩ := (h.venueSaves r).mp hr
    have hold : venueSavesConstraints db r = true := hdb.venueSaves r hr
    show venueSavesConstraints db' _ = true
    simp only [venueSavesConstraints, Bool.and_eq_true] at hold ⊢
    exact ⟨uniqueIn_of_subset hold.1 fun x hx => ((h.venueSaves x).mp hx).1, hold.2.1,
      h.hasUser hold.2.2.1 h1, h.hasVenue hold.2.2.2⟩
  checkinLikes r hr := by
    obtain ⟨hr, hkept⟩ := (h.checkinLikes r).mp hr
    exact h.checkinMark (hdb.checkinLikes r hr) hkept
  listLikes r hr := by
    obtain ⟨hr, hkept⟩ := (h.listLikes r).mp hr
    exact h.listMark (hdb.listLikes r hr) hkept
  checkinBookmarks r hr := by
    obtain ⟨hr, hkept⟩ := (h.checkinBookmarks r).mp hr
    exact h.checkinMark (hdb.checkinBookmarks r hr) hkept
  listBookmarks r hr := by
    obtain ⟨hr, hkept⟩ := (h.listBookmarks r).mp hr
    exact h.listMark (hdb.listBookmarks r hr) hkept
  notifications r hr := by
    obtain ⟨hr, h1, h2⟩ := (h.notifications r).mp hr
    have hold : notificationsConstraints db r = true := hdb.notifications r hr
    show notificationsConstraints db' _ = true
    simp only [notificationsConstraints, Bool.and_eq_true] at hold ⊢
    refine ⟨h.hasUser hold.1 h1, ?_⟩
    cases hactor : r.actorId with
    | none => rfl
    | some actor =>
      rw [hactor] at hold h2
      exact h.hasUser hold.2 fun hne => h2 (congrArg some hne)
  contentReports r hr := by
    obtain ⟨x, hx, rfl⟩ := (h.contentReports r).mp hr
    have hold : contentReportsConstraints db x = true := hdb.contentReports x hx
    show contentReportsConstraints db' _ = true
    simp only [contentReportsConstraints, Bool.and_eq_true] at hold ⊢
    refine ⟨uniqueIn_of_forall hold.1 rfl x.target_without ?_, hold.2.1,
      h.hasUser_withoutUser hold.2.2.1, h.hasUser_withoutUser hold.2.2.2⟩
    intro y hy
    obtain ⟨z, hz, rfl⟩ := (h.contentReports y).mp hy
    exact ⟨z, hz, rfl, z.target_without⟩
  venueReports r hr := by
    obtain ⟨x, hx, rfl⟩ := (h.venueReports r).mp hr
    have hold : venueReportsConstraints db x = true := hdb.venueReports x hx
    show venueReportsConstraints db' _ = true
    simp only [venueReportsConstraints, Bool.and_eq_true] at hold ⊢
    refine ⟨uniqueIn_of_forall hold.1 rfl x.target_without ?_, hold.2.1,
      h.hasUser_withoutUser hold.2.2.1, h.hasUser_withoutUser hold.2.2.2.1,
      h.hasVenue hold.2.2.2.2⟩
    intro y hy
    obtain ⟨z, hz, rfl⟩ := (h.venueReports y).mp hy
    exact ⟨z, hz, rfl, z.target_without⟩

end Purged

/-! ## The cascades -/

section Erase

variable {u : User} {db : Db}

/-- No row with this key goes. -/
theorem any_get_eq_false {ρ π : Type} [DecidableEq π] {key : ρ → π} {t : Table key} {k : π}
    {q : ρ → Bool} : (t.get k).any q = false ↔ ¬ ∃ r ∈ t, key r = k ∧ q r = true := by
  cases hget : t.get k with
  | none =>
    have hnone := Table.get_eq_none.mp hget
    simp only [Option.any_none, true_iff, not_exists, not_and]
    exact fun r hr hk => absurd hk (hnone r hr)
  | some r =>
    obtain ⟨hr, rfl⟩ := Table.get_eq_some.mp hget
    simp only [Option.any_some, Bool.eq_false_iff, ne_eq]
    constructor
    · rintro hq ⟨x, hx, hk, hqx⟩
      rw [Table.eq_of_key_eq hx hr hk] at hqx
      exact hq hqx
    · exact fun h hq => h ⟨r, hr, rfl, hq⟩

/-- The user is the only one who goes. -/
theorem goes_eq (hu : u ∈ db.users) :
    db.goes (fun r => decide (r.id = u.id)) = fun id => decide (id = u.id) := by
  funext id
  by_cases hid : id = u.id
  · subst hid
    rw [Db.goes, Table.get_eq_some.mpr ⟨hu, rfl⟩]
    simp
  · rw [decide_eq_false hid, Db.goes, any_get_eq_false]
    rintro ⟨r, -, hr, hru⟩
    exact hid (hr.symm.trans (of_decide_eq_true hru))

/-- A close friend rests on a follow between the same two users. -/
theorem any_get_follow (hdb : Consistent db) {r : CloseFriend} (hr : r ∈ db.closeFriends) :
    (db.follows.get (r.friendId, r.userId)).any (fun f =>
      decide (f.followerId = u.id) || decide (f.followingId = u.id)) = false ↔
      r.userId ≠ u.id ∧ r.friendId ≠ u.id := by
  obtain ⟨f, hf⟩ := Option.isSome_iff_exists.mp (hdb.closeFriends r hr)
  obtain ⟨hfriend, huser⟩ := Prod.mk.inj (Table.get_eq_some.mp hf).2
  rw [hf, ← hfriend, ← huser]
  simp [and_comm]

/-- A check-in goes with the account when it is the account's. -/
theorem any_get_checkin {id : Uuid} :
    (db.checkins.get id).any (fun c => decide (c.userId = u.id)) = false ↔
      ¬ db.OwnsCheckin u.id id := by
  rw [any_get_eq_false]
  simp [Db.OwnsCheckin]

/-- So does a list. -/
theorem any_get_list {id : Uuid} :
    (db.lists.get id).any (fun l => decide (l.userId = u.id)) = false ↔ ¬ db.OwnsList u.id id := by
  rw [any_get_eq_false]
  simp [Db.OwnsList]

/-- The rows of a table in which every row is changed. -/
theorem mem_modify_all {ρ π : Type} {key : ρ → π} {t : Table key} {f : ρ → ρ}
    {hf : ∀ r, key (f r) = key r} {x : ρ} :
    x ∈ t.modify (fun _ => true) f hf ↔ ∃ r ∈ t, f r = x := by
  simp [Table.mem_modify]

/-- Deleting the row purges the account: the foreign keys do the rest. -/
theorem purged_eraseUsers (hdb : Consistent db) (hu : u ∈ db.users) :
    Purged u.id db (eraseUsers (fun r => decide (r.id = u.id)) db) := by
  have hgone := goes_eq hu
  constructor
  all_goals try intro r
  all_goals simp only [eraseUsers, eraseFollows, eraseCheckins, eraseLists, hgone, Table.mem_erase,
    mem_modify_all, Bool.or_eq_false_iff, decide_eq_false_iff_not]
  case closeFriends => exact and_congr_right fun hr => any_get_follow hdb hr
  case venues => simp [Venue.without, withoutUser]
  case contentReports => simp [ContentReport.without, withoutUser]
  case venueReports => simp [VenueReport.without, withoutUser]
  case notifications =>
    cases r.actorId with
    | none => simp
    | some actor => simp
  all_goals simp only [any_get_checkin, any_get_list]
  all_goals tauto

end Erase

/-! ## The request -/

section Request

variable {u : User} {db : Db}

/-- What `delete_account` does alone. -/
theorem run_deleteAccount (hdb : Consistent db) (hu : u ∈ db.users) :
    (deleteAccount u.id).run (Conn.start (some u.id) db) =
      (.ok (), Conn.start (some u.id) (eraseUsers (fun r => decide (r.id = u.id)) db)) := by
  have hlookup := lookup_self hdb hu
  have hdelete : ((users.policy (some u.id) db).delete u).Holds :=
    holds_rlsIsOwnerOrAdmin.mpr (.inl rfl)
  rw [deleteAccount, Prog.bind_eq, run_delete_bind_of_pass hlookup hdelete rfl]
  rfl

end Request

/-- The deletion of an account by its owner succeeds. Every constraint still holds afterwards, no
foreign key refers to the user, and what is left is the data without the user and everything
personal to them: venues and reports stay, without their reference to the user, and every other row
that is not the user's, no relationship with the user and not attached to the user's content stays
as it is. -/
theorem deleteAccount_purges (db : Db) (u : User) (hdb : Consistent db) (hu : u ∈ db.users) :
    (deleteAccount u.id).outcome (some u.id) db = .ok () ∧
      Consistent ((deleteAccount u.id).after (some u.id) db) ∧
      ¬ ((deleteAccount u.id).after (some u.id) db).RefersTo u.id ∧
      Purged u.id db ((deleteAccount u.id).after (some u.id) db) := by
  have hrun := run_deleteAccount hdb hu
  have hafter : (deleteAccount u.id).after (some u.id) db =
      eraseUsers (fun r => decide (r.id = u.id)) db := by
    rw [Prog.after, hrun]
    rfl
  have hpurged := purged_eraseUsers hdb hu
  rw [hafter]
  exact ⟨by rw [Prog.outcome, hrun], hpurged.consistent hdb, hpurged.not_refersTo, hpurged⟩

/-! ### An account with content -/

def leavingUser : User := User.create 1 "clerk" "sub_1" "ada" "Ada" 0

/-- Ada has added a venue, reported it and checked in there, and bob has liked the check-in. -/
def leavingDb : Db :=
  { Db.empty with
    users := (Table.empty.insert leavingUser).insert (User.create 2 "clerk" "sub_2" "bob" "Bob" 0)
    venueCategories := Table.empty.insert ⟨3, "cafe", none⟩
    venues := Table.empty.insert
      { id := 4, name := "Cafe", lat := 0, lng := 0, addressNote := none, googlePlacesId := none
        addedBy := some 1, categoryId := 3, city := none, countryCode := none, timezone := none
        district := none, isVerified := false, isActive := true, isSuspended := false
        createdAt := 0 }
    checkins := Table.empty.insert
      { id := 5, userId := 1, venueId := 4, ratingTaste := 1, ratingService := 1
        ratingAmbiance := 1, ratingValue := 1, note := none, photoUrl := none
        visibility := Visibility.pub, visitedAt := ⟨2024, 1, 1⟩, visitedTz := "UTC"
        deletedAt := none, createdAt := 0 }
    checkinLikes := Table.empty.insert ⟨2, 5, 0⟩
    venueReports := Table.empty.insert
      { id := 6, reporterId := some 1, venueId := 4, reason := .wrongName, details := none
        status := .pending, resolvedBy := none, resolvedAt := none, createdAt := 0 } }

/-- Ada leaves: her account, her check-in and bob's like of it are gone. -/
theorem deleteAccount_purges_leavingDb :
    Purged 1 leavingDb ((deleteAccount 1).after (some 1) leavingDb) :=
  (deleteAccount_purges leavingDb leavingUser (by decide) (by decide)).2.2.2

end OburBackend
