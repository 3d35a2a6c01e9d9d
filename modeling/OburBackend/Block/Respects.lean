import OburBackend.Model.Tables

/-!
# Interactions that respect a relation between users

A follow, a close-friends row, a like, a bookmark and a notification each link two users. A database
respects a relation `B` between users when no such row links two users in the relation; blocking is
sound when the database respects its own `Db.Blocked`. Keeping `B` apart from the stored blocks lets
one lemma a write cover both a request that leaves the blocks alone and one that is about to change
them.
-/

namespace OburBackend

open Sql

/-- The target of a mark on a check-in is stored, and its owner is not in the relation with the user
of the mark. -/
def Db.MarksCheckin (db : Db) (B : Uuid → Uuid → Prop) (r : Mark) : Prop :=
  ∃ c ∈ db.checkins, c.id = r.targetId ∧ ¬ B r.userId c.userId

/-- The same for a mark on a list. -/
def Db.MarksList (db : Db) (B : Uuid → Uuid → Prop) (r : Mark) : Prop :=
  ∃ l ∈ db.lists, l.id = r.targetId ∧ ¬ B r.userId l.userId

/-- No row links two users in the relation. A close-friends row rests on the follow back, and a mark
on its target. -/
structure Db.Respects (db : Db) (B : Uuid → Uuid → Prop) : Prop where
  follows : ∀ r ∈ db.follows, ¬ B r.followerId r.followingId
  closeFriends : ∀ r ∈ db.closeFriends,
    ∃ f ∈ db.follows, f.followerId = r.friendId ∧ f.followingId = r.userId
  checkinLikes : ∀ r ∈ db.checkinLikes, db.MarksCheckin B r
  listLikes : ∀ r ∈ db.listLikes, db.MarksList B r
  checkinBookmarks : ∀ r ∈ db.checkinBookmarks, db.MarksCheckin B r
  listBookmarks : ∀ r ∈ db.listBookmarks, db.MarksList B r
  notifications : ∀ r ∈ db.notifications, ∀ a, r.actorId = some a → ¬ B r.userId a

variable {db : Db} {B B' : Uuid → Uuid → Prop}

/-- The owner of a mark's target is not in the relation with its user, and no other check-in has the
target's id. -/
theorem Db.MarksCheckin.not_rel {r : Mark} {c : Checkin} (h : db.MarksCheckin B r)
    (hc : c ∈ db.checkins) (hid : c.id = r.targetId) : ¬ B r.userId c.userId := by
  obtain ⟨c', hc', hid', hfree⟩ := h
  rwa [Table.eq_of_key_eq hc hc' (hid.trans hid'.symm)]

/-- The owner of a marked list is not related to whoever marked it. -/
theorem Db.MarksList.not_rel {r : Mark} {l : VenueList} (h : db.MarksList B r)
    (hl : l ∈ db.lists) (hid : l.id = r.targetId) : ¬ B r.userId l.userId := by
  obtain ⟨l', hl', hid', hfree⟩ := h
  rwa [Table.eq_of_key_eq hl hl' (hid.trans hid'.symm)]

namespace Db.Respects

/-- The empty database respects everything. -/
theorem empty : Db.empty.Respects B where
  follows _ h := absurd h (Table.not_mem_empty _)
  closeFriends _ h := absurd h (Table.not_mem_empty _)
  checkinLikes _ h := absurd h (Table.not_mem_empty _)
  listLikes _ h := absurd h (Table.not_mem_empty _)
  checkinBookmarks _ h := absurd h (Table.not_mem_empty _)
  listBookmarks _ h := absurd h (Table.not_mem_empty _)
  notifications _ h := absurd h (Table.not_mem_empty _)

/-- Fewer pairs are easier to respect. -/
theorem anti (h : db.Respects B) (hB : ∀ a b, B' a b → B a b) : db.Respects B' where
  follows r hr hb := h.follows r hr (hB _ _ hb)
  closeFriends := h.closeFriends
  checkinLikes r hr :=
    let ⟨c, hc, hid, hfree⟩ := h.checkinLikes r hr
    ⟨c, hc, hid, fun hb => hfree (hB _ _ hb)⟩
  listLikes r hr :=
    let ⟨l, hl, hid, hfree⟩ := h.listLikes r hr
    ⟨l, hl, hid, fun hb => hfree (hB _ _ hb)⟩
  checkinBookmarks r hr :=
    let ⟨c, hc, hid, hfree⟩ := h.checkinBookmarks r hr
    ⟨c, hc, hid, fun hb => hfree (hB _ _ hb)⟩
  listBookmarks r hr :=
    let ⟨l, hl, hid, hfree⟩ := h.listBookmarks r hr
    ⟨l, hl, hid, fun hb => hfree (hB _ _ hb)⟩
  notifications r hr a ha hb := h.notifications r hr a ha (hB _ _ hb)

/-- Two relations that are respected, are respected together. -/
theorem or (h : db.Respects B) (h' : db.Respects B') : db.Respects fun a b => B a b ∨ B' a b where
  follows r hr := not_or.mpr ⟨h.follows r hr, h'.follows r hr⟩
  closeFriends := h.closeFriends
  checkinLikes r hr :=
    let ⟨c, hc, hid, hfree⟩ := h.checkinLikes r hr
    ⟨c, hc, hid, not_or.mpr ⟨hfree, (h'.checkinLikes r hr).not_rel hc hid⟩⟩
  listLikes r hr :=
    let ⟨l, hl, hid, hfree⟩ := h.listLikes r hr
    ⟨l, hl, hid, not_or.mpr ⟨hfree, (h'.listLikes r hr).not_rel hl hid⟩⟩
  checkinBookmarks r hr :=
    let ⟨c, hc, hid, hfree⟩ := h.checkinBookmarks r hr
    ⟨c, hc, hid, not_or.mpr ⟨hfree, (h'.checkinBookmarks r hr).not_rel hc hid⟩⟩
  listBookmarks r hr :=
    let ⟨l, hl, hid, hfree⟩ := h.listBookmarks r hr
    ⟨l, hl, hid, not_or.mpr ⟨hfree, (h'.listBookmarks r hr).not_rel hl hid⟩⟩
  notifications r hr a ha := not_or.mpr ⟨h.notifications r hr a ha, h'.notifications r hr a ha⟩

/-! ## Rows that are added -/

/-- A follow may be added between two who are not related. -/
theorem insert_follow (h : db.Respects B) {r : Follow} (hr : ¬ B r.followerId r.followingId) :
    { db with follows := db.follows.insert r }.Respects B :=
  { h with
    follows := by
      intro x hx
      rcases Table.mem_or_eq_of_mem_insert hx with hx | rfl
      · exact h.follows x hx
      · exact hr
    closeFriends := by
      intro x hx
      obtain ⟨f, hf, hends⟩ := h.closeFriends x hx
      exact ⟨f, Table.mem_insert_of_mem hf, hends⟩ }

/-- A close friend who follows may be added. -/
theorem insert_closeFriend (h : db.Respects B) {r : CloseFriend}
    (hr : closeFriendsConstraints db r = true) :
    { db with closeFriends := db.closeFriends.insert r }.Respects B :=
  { h with
    closeFriends := by
      intro x hx
      rcases Table.mem_or_eq_of_mem_insert hx with hx | rfl
      · exact h.closeFriends x hx
      · obtain ⟨f, hf⟩ := Option.isSome_iff_exists.mp hr
        obtain ⟨hmem, hkey⟩ := Table.get_eq_some.mp hf
        exact ⟨f, hmem, Prod.mk.inj hkey⟩ }

/-- So may a like of a check-in whose owner is not related. -/
theorem insert_checkinLike (h : db.Respects B) {r : Mark} (hr : db.MarksCheckin B r) :
    { db with checkinLikes := db.checkinLikes.insert r }.Respects B :=
  { h with
    checkinLikes := by
      intro x hx
      rcases Table.mem_or_eq_of_mem_insert hx with hx | rfl
      · exact h.checkinLikes x hx
      · exact hr }

/-- So may a like of such a list. -/
theorem insert_listLike (h : db.Respects B) {r : Mark} (hr : db.MarksList B r) :
    { db with listLikes := db.listLikes.insert r }.Respects B :=
  { h with
    listLikes := by
      intro x hx
      rcases Table.mem_or_eq_of_mem_insert hx with hx | rfl
      · exact h.listLikes x hx
      · exact hr }

/-- So may a bookmark of such a check-in. -/
theorem insert_checkinBookmark (h : db.Respects B) {r : Mark} (hr : db.MarksCheckin B r) :
    { db with checkinBookmarks := db.checkinBookmarks.insert r }.Respects B :=
  { h with
    checkinBookmarks := by
      intro x hx
      rcases Table.mem_or_eq_of_mem_insert hx with hx | rfl
      · exact h.checkinBookmarks x hx
      · exact hr }

/-- So may a bookmark of such a list. -/
theorem insert_listBookmark (h : db.Respects B) {r : Mark} (hr : db.MarksList B r) :
    { db with listBookmarks := db.listBookmarks.insert r }.Respects B :=
  { h with
    listBookmarks := by
      intro x hx
      rcases Table.mem_or_eq_of_mem_insert hx with hx | rfl
      · exact h.listBookmarks x hx
      · exact hr }

/-- So may a notification about somebody who is not related. -/
theorem insert_notification (h : db.Respects B) {r : Notification}
    (hr : ∀ a, r.actorId = some a → ¬ B r.userId a) :
    { db with notifications := db.notifications.insert r }.Respects B :=
  { h with
    notifications := by
      intro x hx
      rcases Table.mem_or_eq_of_mem_insert hx with hx | rfl
      · exact h.notifications x hx
      · exact hr }

/-! ## Content that is added or edited

Marks stay on their targets as long as each check-in and each list keeps its owner. -/

/-- Check-ins may change as long as they keep their ids and owners. -/
theorem of_checkins {t : Table Checkin.id} (h : db.Respects B)
    (ht : ∀ c ∈ db.checkins, ∃ c' ∈ t, c'.id = c.id ∧ c'.userId = c.userId) :
    { db with checkins := t }.Respects B := by
  have hmark : ∀ r, db.MarksCheckin B r → { db with checkins := t }.MarksCheckin B r := by
    rintro r ⟨c, hc, hid, hfree⟩
    obtain ⟨c', hc', hid', huser⟩ := ht c hc
    exact ⟨c', hc', hid'.trans hid, by rwa [huser]⟩
  exact { h with
    checkinLikes := fun r hr => hmark r (h.checkinLikes r hr)
    checkinBookmarks := fun r hr => hmark r (h.checkinBookmarks r hr) }

/-- So may lists. -/
theorem of_lists {t : Table VenueList.id} (h : db.Respects B)
    (ht : ∀ l ∈ db.lists, ∃ l' ∈ t, l'.id = l.id ∧ l'.userId = l.userId) :
    { db with lists := t }.Respects B := by
  have hmark : ∀ r, db.MarksList B r → { db with lists := t }.MarksList B r := by
    rintro r ⟨l, hl, hid, hfree⟩
    obtain ⟨l', hl', hid', huser⟩ := ht l hl
    exact ⟨l', hl', hid'.trans hid, by rwa [huser]⟩
  exact { h with
    listLikes := fun r hr => hmark r (h.listLikes r hr)
    listBookmarks := fun r hr => hmark r (h.listBookmarks r hr) }

/-- A new check-in has no marks. -/
theorem insert_checkin (h : db.Respects B) (c : Checkin) :
    { db with checkins := db.checkins.insert c }.Respects B :=
  h.of_checkins fun x hx => ⟨x, Table.mem_insert_of_mem hx, rfl, rfl⟩

/-- Nor has a new list. -/
theorem insert_list (h : db.Respects B) (l : VenueList) :
    { db with lists := db.lists.insert l }.Respects B :=
  h.of_lists fun x hx => ⟨x, Table.mem_insert_of_mem hx, rfl, rfl⟩

/-- An edit of a check-in keeps its owner. -/
theorem set_checkin (h : db.Respects B) {k : Uuid} {f : Checkin → Option Checkin}
    {hf : ∀ r r', f r = some r' → r'.id = r.id}
    (hown : ∀ c c', f c = some c' → c'.userId = c.userId) :
    (OburBackend.checkins.set k f hf db).Respects B := by
  refine h.of_checkins fun c hc => ⟨_, Table.mem_modify.mpr ⟨c, hc, rfl⟩, ?_⟩
  split
  · cases hfc : f c with
    | none => exact ⟨rfl, rfl⟩
    | some c' => exact ⟨hf c c' hfc, hown c c' hfc⟩
  · exact ⟨rfl, rfl⟩

/-- So does an edit of a list. -/
theorem set_list (h : db.Respects B) {k : Uuid} {f : VenueList → Option VenueList}
    {hf : ∀ r r', f r = some r' → r'.id = r.id}
    (hown : ∀ l l', f l = some l' → l'.userId = l.userId) :
    (OburBackend.lists.set k f hf db).Respects B := by
  refine h.of_lists fun l hl => ⟨_, Table.mem_modify.mpr ⟨l, hl, rfl⟩, ?_⟩
  split
  · cases hfl : f l with
    | none => exact ⟨rfl, rfl⟩
    | some l' => exact ⟨hf l l' hfl, hown l l' hfl⟩
  · exact ⟨rfl, rfl⟩

/-! ## Rows that are deleted -/

/-- Marks and notifications may go at any time. -/
theorem erase_marks (h : db.Respects B) (p₁ p₂ p₃ p₄ : Mark → Bool) (p₅ : Notification → Bool) :
    { db with
      checkinLikes := db.checkinLikes.erase p₁
      listLikes := db.listLikes.erase p₂
      checkinBookmarks := db.checkinBookmarks.erase p₃
      listBookmarks := db.listBookmarks.erase p₄
      notifications := db.notifications.erase p₅ }.Respects B :=
  { h with
    checkinLikes := fun r hr => h.checkinLikes r (Table.mem_erase.mp hr).1
    listLikes := fun r hr => h.listLikes r (Table.mem_erase.mp hr).1
    checkinBookmarks := fun r hr => h.checkinBookmarks r (Table.mem_erase.mp hr).1
    listBookmarks := fun r hr => h.listBookmarks r (Table.mem_erase.mp hr).1
    notifications := fun r hr => h.notifications r (Table.mem_erase.mp hr).1 }

/-- Close friends may go. -/
theorem erase_closeFriends (h : db.Respects B) (p : CloseFriend → Bool) :
    { db with closeFriends := db.closeFriends.erase p }.Respects B :=
  { h with closeFriends := fun r hr => h.closeFriends r (Table.mem_erase.mp hr).1 }

/-- A follow takes the close-friends row that rests on it along. -/
theorem erase_follows (h : db.Respects B) (p : Follow → Bool) : (eraseFollows p db).Respects B :=
  { h with
    follows := fun r hr => h.follows r (Table.mem_erase.mp hr).1
    closeFriends := by
      intro r hr
      obtain ⟨hr, hkeep⟩ := Table.mem_erase.mp hr
      obtain ⟨f, hf, hends⟩ := h.closeFriends r hr
      have hget : db.follows.get (r.friendId, r.userId) = some f :=
        Table.get_eq_some.mpr ⟨hf, Prod.ext hends.1 hends.2⟩
      rw [hget] at hkeep
      exact ⟨f, Table.mem_erase.mpr ⟨hf, hkeep⟩, hends⟩ }

/-- A check-in takes the marks on it along. -/
theorem erase_checkins (h : db.Respects B) (p : Checkin → Bool) :
    (eraseCheckins p db).Respects B := by
  have hmark : ∀ r, (db.checkins.get r.targetId).any p = false → db.MarksCheckin B r →
      (eraseCheckins p db).MarksCheckin B r := by
    rintro r hkeep ⟨c, hc, hid, hfree⟩
    rw [Table.get_eq_some.mpr ⟨hc, hid⟩] at hkeep
    exact ⟨c, Table.mem_erase.mpr ⟨hc, hkeep⟩, hid, hfree⟩
  exact { h with
    checkinLikes := fun r hr =>
      hmark r (Table.mem_erase.mp hr).2 (h.checkinLikes r (Table.mem_erase.mp hr).1)
    checkinBookmarks := fun r hr =>
      hmark r (Table.mem_erase.mp hr).2 (h.checkinBookmarks r (Table.mem_erase.mp hr).1) }

/-- A list takes the marks on it along. -/
theorem erase_lists (h : db.Respects B) (p : VenueList → Bool) : (eraseLists p db).Respects B := by
  have hmark : ∀ r, (db.lists.get r.targetId).any p = false → db.MarksList B r →
      (eraseLists p db).MarksList B r := by
    rintro r hkeep ⟨l, hl, hid, hfree⟩
    rw [Table.get_eq_some.mpr ⟨hl, hid⟩] at hkeep
    exact ⟨l, Table.mem_erase.mpr ⟨hl, hkeep⟩, hid, hfree⟩
  exact { h with
    listLikes := fun r hr =>
      hmark r (Table.mem_erase.mp hr).2 (h.listLikes r (Table.mem_erase.mp hr).1)
    listBookmarks := fun r hr =>
      hmark r (Table.mem_erase.mp hr).2 (h.listBookmarks r (Table.mem_erase.mp hr).1) }

/-- A user takes everything of theirs along: it is the deletion of their follows, their check-ins,
their lists, and then of the marks and notifications that are left. -/
theorem erase_users (h : db.Respects B) (p : User → Bool) : (eraseUsers p db).Respects B := by
  have hfollows := h.erase_follows fun r => db.goes p r.followerId || db.goes p r.followingId
  have hcheckins := hfollows.erase_checkins fun c => db.goes p c.userId
  have hlists := hcheckins.erase_lists fun l => db.goes p l.userId
  have hmarks := hlists.erase_marks (fun r => db.goes p r.userId) (fun r => db.goes p r.userId)
    (fun r => db.goes p r.userId) (fun r => db.goes p r.userId)
    fun r => db.goes p r.userId || r.actorId.any (db.goes p)
  exact { hmarks with }

end Db.Respects

end OburBackend
