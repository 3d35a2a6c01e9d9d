import Mathlib.Data.Set.Basic
import OburBackend.Block.Invariant

/-!
# The rows that link users, whatever their table

A follow, a like, a bookmark and a notification live in six tables. `Link` is a row of one of them,
`Db.Has` says that it is stored, and `LinkTable` says once for each table how its statements change
the links. What a transaction does to the links is then one of two things: it adds some
(`AddsLinks`), or it takes some away by their keys (`Trims`).
-/

namespace OburBackend

open Sql

/-- A row that links two users. -/
inductive Link where
  | follow (r : Follow)
  | checkinLike (r : Mark)
  | listLike (r : Mark)
  | checkinBookmark (r : Mark)
  | listBookmark (r : Mark)
  | notification (r : Notification)

/-- The row is stored. -/
def Db.Has (db : Db) : Link → Prop
  | .follow r => r ∈ db.follows
  | .checkinLike r => r ∈ db.checkinLikes
  | .listLike r => r ∈ db.listLikes
  | .checkinBookmark r => r ∈ db.checkinBookmarks
  | .listBookmark r => r ∈ db.listBookmarks
  | .notification r => r ∈ db.notifications

/-- The row is between the users `a` and `b`: one of them follows the other, has liked or bookmarked
what the other owns, or is notified of the other. -/
def Link.Between (db : Db) (a b : Uuid) : Link → Prop
  | .follow r => IsPair a b r.followerId r.followingId
  | .checkinLike r | .checkinBookmark r =>
    ∃ c ∈ db.checkins, c.id = r.targetId ∧ IsPair a b r.userId c.userId
  | .listLike r | .listBookmark r =>
    ∃ l ∈ db.lists, l.id = r.targetId ∧ IsPair a b r.userId l.userId
  | .notification r => ∃ actorId, r.actorId = some actorId ∧ IsPair a b r.userId actorId

/-- A follow, like, bookmark or notification between `a` and `b` is stored. -/
def Db.Interact (db : Db) (a b : Uuid) : Prop := ∃ l, db.Has l ∧ l.Between db a b

/-- A block between the two users of the pair, whichever is named first. -/
theorem blocked_of_isPair {db : Db} {a b x y : Uuid} (h : IsPair a b x y) (hb : db.Blocked a b) :
    db.Blocked x y := by
  rcases h with ⟨rfl, rfl⟩ | ⟨rfl, rfl⟩
  · exact hb
  · exact hb.symm

/-- What the requests keep apart one after the other has nothing between two users with a block. -/
theorem Db.KeepsApart.not_interact {db : Db} {a b : Uuid} (h : db.KeepsApart)
    (hb : db.Blocked a b) : ¬ db.Interact a b := by
  have hr := h.respects
  rintro ⟨l, hhas, hbetween⟩
  cases l with
  | follow r => exact hr.follows r hhas (blocked_of_isPair hbetween hb)
  | checkinLike r =>
    obtain ⟨c, hc, hid, hpair⟩ := hbetween
    exact (hr.checkinLikes r hhas).not_rel hc hid (blocked_of_isPair hpair hb)
  | listLike r =>
    obtain ⟨v, hv, hid, hpair⟩ := hbetween
    exact (hr.listLikes r hhas).not_rel hv hid (blocked_of_isPair hpair hb)
  | checkinBookmark r =>
    obtain ⟨c, hc, hid, hpair⟩ := hbetween
    exact (hr.checkinBookmarks r hhas).not_rel hc hid (blocked_of_isPair hpair hb)
  | listBookmark r =>
    obtain ⟨v, hv, hid, hpair⟩ := hbetween
    exact (hr.listBookmarks r hhas).not_rel hv hid (blocked_of_isPair hpair hb)
  | notification r =>
    obtain ⟨actorId, hactor, hpair⟩ := hbetween
    exact hr.notifications r hhas actorId hactor (blocked_of_isPair hpair hb)

/-- Users, check-ins and lists are the same in both, and every block is still there. -/
structure Db.Settles (s s' : Db) : Prop where
  users : s'.users = s.users
  checkins : s'.checkins = s.checkins
  lists : s'.lists = s.lists
  blocks : ∀ r ∈ s.blocks, r ∈ s'.blocks

namespace Db.Settles

variable {s s' s'' : Db}

/-- Nothing has changed at first. -/
theorem refl (s : Db) : s.Settles s := ⟨rfl, rfl, rfl, fun _ hr => hr⟩

/-- Two such changes one after the other are one. -/
theorem trans (h : s.Settles s') (h' : s'.Settles s'') : s.Settles s'' where
  users := h'.users.trans h.users
  checkins := h'.checkins.trans h.checkins
  lists := h'.lists.trans h.lists
  blocks r hr := h'.blocks r (h.blocks r hr)

/-- The owners stay, so the same links are between the same users. -/
theorem between_iff (h : s.Settles s') {l : Link} {a b : Uuid} :
    l.Between s' a b ↔ l.Between s a b := by
  cases l <;> simp only [Link.Between, h.checkins, h.lists]

/-- Users in a block stay in it. -/
theorem blocked (h : s.Settles s') {a b : Uuid} (hb : s.Blocked a b) : s'.Blocked a b := by
  obtain ⟨r, hr, hends⟩ := hb
  exact ⟨r, h.blocks r hr, hends⟩

/-- The administrators are the same. -/
theorem isAdmin_iff (h : s.Settles s') {me : Identity} : s'.IsAdmin me ↔ s.IsAdmin me := by
  unfold Db.IsAdmin
  rw [h.users]

end Db.Settles

/-- From `s` to `s'` only links that satisfy `P` are added, and no block. -/
structure AddsLinks (P : Link → Prop) (s s' : Db) : Prop where
  settles : s.Settles s'
  blocks : ∀ r ∈ s'.blocks, r ∈ s.blocks
  links : ∀ l, s'.Has l → s.Has l ∨ P l

namespace AddsLinks

variable {P Q : Link → Prop} {s s' s'' : Db}

/-- Nothing has been added at first. -/
theorem refl (s : Db) : AddsLinks P s s := ⟨.refl s, fun _ hr => hr, fun _ hl => .inl hl⟩

/-- Two additions one after the other are one. -/
theorem trans (h : AddsLinks P s s') (h' : AddsLinks P s' s'') : AddsLinks P s s'' where
  settles := h.settles.trans h'.settles
  blocks r hr := h.blocks r (h'.blocks r hr)
  links l hl := by
    rcases h'.links l hl with hl | hP
    · exact h.links l hl
    · exact .inr hP

/-- Links that satisfy `P` satisfy what follows from it. -/
theorem mono (hPQ : ∀ l, P l → Q l) (h : AddsLinks P s s') : AddsLinks Q s s' :=
  ⟨h.settles, h.blocks, fun l hl => (h.links l hl).imp_right (hPQ l)⟩

/-- The blocks are the same. -/
theorem blocked_iff (h : AddsLinks P s s') {a b : Uuid} : s'.Blocked a b ↔ s.Blocked a b := by
  refine ⟨?_, h.settles.blocked⟩
  rintro ⟨r, hr, hends⟩
  exact ⟨r, h.blocks r hr, hends⟩

end AddsLinks

/-- A change that takes away links by a fixed rule, whatever else is stored. -/
structure Trims (f : Db → Db) : Prop where
  settles : ∀ s : Db, s.Settles (f s)
  keeps : ∃ keep : Link → Prop, ∀ s l, (f s).Has l ↔ s.Has l ∧ keep l

namespace Trims

variable {f g : Db → Db}

/-- A change that leaves the links alone. -/
theorem of_has_iff (hsettles : ∀ s : Db, s.Settles (f s)) (hf : ∀ s l, (f s).Has l ↔ s.Has l) :
    Trims f where
  settles := hsettles
  keeps := ⟨fun _ => True, fun s l => by rw [hf, and_true]⟩

/-- Two changes one after the other take away by both of their rules. -/
theorem comp (hf : Trims f) (hg : Trims g) : Trims fun s => g (f s) where
  settles s := (hf.settles s).trans (hg.settles _)
  keeps := by
    obtain ⟨keep, hkeep⟩ := hf.keeps
    obtain ⟨keep', hkeep'⟩ := hg.keeps
    refine ⟨fun l => keep l ∧ keep' l, fun s l => ?_⟩
    rw [hkeep', hkeep, and_assoc]

/-- What is left was there before. -/
theorem has (hf : Trims f) {s : Db} {l : Link} (h : (f s).Has l) : s.Has l := by
  obtain ⟨keep, hkeep⟩ := hf.keeps
  exact ((hkeep s l).mp h).1

/-- Where the rule takes a link away, it does so whatever else is stored. -/
theorem not_has (hf : Trims f) {s s' : Db} {l : Link} (h : ¬ (f s).Has l)
    (hl : s'.Has l → s.Has l) : ¬ (f s').Has l := by
  obtain ⟨keep, hkeep⟩ := hf.keeps
  rw [hkeep] at h ⊢
  exact fun ⟨hs', hk⟩ => h ⟨hl hs', hk⟩

end Trims

/-! ## The six tables -/

section Tables

variable {ρ π : Type} {key : ρ → π} [DecidableEq π] {T : DbTable key} {link : ρ → Link}

/-- The rows of the table are the links `link r`. -/
structure LinkTable (T : DbTable key) (link : ρ → Link) : Prop where
  has : ∀ s r, s.Has (link r) ↔ r ∈ T.read s
  insert : ∀ s r, AddsLinks (· = link r) s (T.write (·.insert r) s)
  erase : ∀ p, Trims (T.erase p)
  has_erase : ∀ p s r, (T.erase p s).Has (link r) → p r = false

/-- A table whose statements replace one field of the database, as far as links are concerned. -/
theorem LinkTable.of_set (set : Table key → Db → Db) (hinj : Function.Injective link)
    (hwrite : ∀ f s, T.write f s = set (f (T.read s)) s)
    (herase : ∀ p s l, (T.erase p s).Has l ↔ (set ((T.read s).erase p) s).Has l)
    (hsettles : ∀ p (s : Db), s.Settles (T.erase p s))
    (hset : ∀ t (s : Db), s.Settles (set t s) ∧ (set t s).blocks = s.blocks)
    (hhas : ∀ s r, s.Has (link r) ↔ r ∈ T.read s) (hread : ∀ t s, T.read (set t s) = t)
    (hother : ∀ t s l, (∀ r, l ≠ link r) → ((set t s).Has l ↔ s.Has l)) : LinkTable T link where
  has := hhas
  insert s r := by
    rw [hwrite]
    refine ⟨(hset _ s).1, fun _ hb => (hset _ s).2 ▸ hb, fun l hl => ?_⟩
    by_cases hlink : ∃ r', l = link r'
    · obtain ⟨r', rfl⟩ := hlink
      rw [hhas, hread] at hl
      rcases Table.mem_or_eq_of_mem_insert hl with hl | rfl
      · exact .inl ((hhas s r').mpr hl)
      · exact .inr rfl
    · exact .inl ((hother _ s l fun r' h => hlink ⟨r', h⟩).mp hl)
  erase p := by
    refine ⟨hsettles p, fun l => ∀ r, l = link r → p r = false, fun s l => ?_⟩
    rw [herase]
    by_cases hlink : ∃ r', l = link r'
    · obtain ⟨r', rfl⟩ := hlink
      rw [hhas, hread, hhas, Table.mem_erase]
      refine and_congr_right fun _ => ⟨fun hp r h => ?_, fun h => h r' rfl⟩
      rwa [← hinj h]
    · rw [hother _ s l fun r' h => hlink ⟨r', h⟩]
      exact ⟨fun hl => ⟨hl, fun r h => absurd ⟨r, h⟩ hlink⟩, And.left⟩
  has_erase p s r h := by
    rw [herase, hhas, hread] at h
    exact (Table.mem_erase.mp h).2

end Tables

/-- Follows are links. -/
theorem linkTable_follows : LinkTable follows .follow :=
  .of_set (fun t s => { s with follows := t }) (fun _ _ h => Link.follow.inj h) (fun _ _ => rfl)
    (fun _ _ l => by cases l <;> exact Iff.rfl) (fun _ _ => ⟨rfl, rfl, rfl, fun _ hb => hb⟩)
    (fun _ _ => ⟨⟨rfl, rfl, rfl, fun _ hb => hb⟩, rfl⟩) (fun _ _ => Iff.rfl) (fun _ _ => rfl)
    fun _ _ l hl => by cases l <;> first | exact Iff.rfl | exact absurd rfl (hl _)

/-- Likes of check-ins are links. -/
theorem linkTable_checkinLikes : LinkTable checkinLikes .checkinLike :=
  .of_set (fun t s => { s with checkinLikes := t }) (fun _ _ h => Link.checkinLike.inj h)
    (fun _ _ => rfl) (fun _ _ _ => Iff.rfl) (fun _ _ => ⟨rfl, rfl, rfl, fun _ hb => hb⟩)
    (fun _ _ => ⟨⟨rfl, rfl, rfl, fun _ hb => hb⟩, rfl⟩) (fun _ _ => Iff.rfl) (fun _ _ => rfl)
    fun _ _ l hl => by cases l <;> first | exact Iff.rfl | exact absurd rfl (hl _)

/-- Likes of lists are links. -/
theorem linkTable_listLikes : LinkTable listLikes .listLike :=
  .of_set (fun t s => { s with listLikes := t }) (fun _ _ h => Link.listLike.inj h)
    (fun _ _ => rfl) (fun _ _ _ => Iff.rfl) (fun _ _ => ⟨rfl, rfl, rfl, fun _ hb => hb⟩)
    (fun _ _ => ⟨⟨rfl, rfl, rfl, fun _ hb => hb⟩, rfl⟩) (fun _ _ => Iff.rfl) (fun _ _ => rfl)
    fun _ _ l hl => by cases l <;> first | exact Iff.rfl | exact absurd rfl (hl _)

/-- Bookmarks of check-ins are links. -/
theorem linkTable_checkinBookmarks : LinkTable checkinBookmarks .checkinBookmark :=
  .of_set (fun t s => { s with checkinBookmarks := t }) (fun _ _ h => Link.checkinBookmark.inj h)
    (fun _ _ => rfl) (fun _ _ _ => Iff.rfl) (fun _ _ => ⟨rfl, rfl, rfl, fun _ hb => hb⟩)
    (fun _ _ => ⟨⟨rfl, rfl, rfl, fun _ hb => hb⟩, rfl⟩) (fun _ _ => Iff.rfl) (fun _ _ => rfl)
    fun _ _ l hl => by cases l <;> first | exact Iff.rfl | exact absurd rfl (hl _)

/-- Bookmarks of lists are links. -/
theorem linkTable_listBookmarks : LinkTable listBookmarks .listBookmark :=
  .of_set (fun t s => { s with listBookmarks := t }) (fun _ _ h => Link.listBookmark.inj h)
    (fun _ _ => rfl) (fun _ _ _ => Iff.rfl) (fun _ _ => ⟨rfl, rfl, rfl, fun _ hb => hb⟩)
    (fun _ _ => ⟨⟨rfl, rfl, rfl, fun _ hb => hb⟩, rfl⟩) (fun _ _ => Iff.rfl) (fun _ _ => rfl)
    fun _ _ l hl => by cases l <;> first | exact Iff.rfl | exact absurd rfl (hl _)

/-- Notifications are links. -/
theorem linkTable_notifications : LinkTable notifications .notification :=
  .of_set (fun t s => { s with notifications := t }) (fun _ _ h => Link.notification.inj h)
    (fun _ _ => rfl) (fun _ _ _ => Iff.rfl) (fun _ _ => ⟨rfl, rfl, rfl, fun _ hb => hb⟩)
    (fun _ _ => ⟨⟨rfl, rfl, rfl, fun _ hb => hb⟩, rfl⟩) (fun _ _ => Iff.rfl) (fun _ _ => rfl)
    fun _ _ l hl => by cases l <;> first | exact Iff.rfl | exact absurd rfl (hl _)

end OburBackend
