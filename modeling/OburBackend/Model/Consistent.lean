import OburBackend.Model.Request

/-!
# Data that the constraints have let in

The statements check the constraints of the rows that they write, and the database keeps those of
the others. `Consistent` says that every stored row satisfies the constraints of its table.
-/

namespace Sql

variable {σ κ ℓ τ ρ π : Type} {key : ρ → π}

/-- Every stored row of the table satisfies the table's constraints. -/
def TableDef.Valid (T : TableDef σ κ ℓ τ key) (s : σ) : Prop :=
  ∀ r ∈ T.read s, T.constraints s r = true

instance (T : TableDef σ κ ℓ τ key) (s : σ) : Decidable (T.Valid s) :=
  inferInstanceAs (Decidable (∀ r ∈ (T.read s).rows, T.constraints s r = true))

end Sql

namespace OburBackend

open Sql

/-- Every stored row satisfies the constraints of its table. -/
structure Consistent (db : Db) : Prop where
  users : users.Valid db
  follows : follows.Valid db
  closeFriends : closeFriends.Valid db
  blocks : blocks.Valid db
  mutes : mutes.Valid db
  venueCategories : venueCategories.Valid db
  venues : venues.Valid db
  checkins : checkins.Valid db
  lists : lists.Valid db
  listItems : listItems.Valid db
  venueSaves : venueSaves.Valid db
  checkinLikes : checkinLikes.Valid db
  listLikes : listLikes.Valid db
  checkinBookmarks : checkinBookmarks.Valid db
  listBookmarks : listBookmarks.Valid db
  notifications : notifications.Valid db
  contentReports : contentReports.Valid db
  venueReports : venueReports.Valid db

instance (db : Db) : Decidable (Consistent db) :=
  decidable_of_iff
    (users.Valid db ∧ follows.Valid db ∧ closeFriends.Valid db ∧ blocks.Valid db ∧ mutes.Valid db ∧
      venueCategories.Valid db ∧ venues.Valid db ∧ checkins.Valid db ∧ lists.Valid db ∧
      listItems.Valid db ∧ venueSaves.Valid db ∧ checkinLikes.Valid db ∧ listLikes.Valid db ∧
      checkinBookmarks.Valid db ∧ listBookmarks.Valid db ∧ notifications.Valid db ∧
      contentReports.Valid db ∧ venueReports.Valid db)
    ⟨fun ⟨h1, h2, h3, h4, h5, h6, h7, h8, h9, h10, h11, h12, h13, h14, h15, h16, h17, h18⟩ =>
      ⟨h1, h2, h3, h4, h5, h6, h7, h8, h9, h10, h11, h12, h13, h14, h15, h16, h17, h18⟩,
    fun ⟨h1, h2, h3, h4, h5, h6, h7, h8, h9, h10, h11, h12, h13, h14, h15, h16, h17, h18⟩ =>
      ⟨h1, h2, h3, h4, h5, h6, h7, h8, h9, h10, h11, h12, h13, h14, h15, h16, h17, h18⟩⟩

section Unique

variable {ρ π β : Type} [DecidableEq π] [DecidableEq β] {key : ρ → π} {t : Table key}
  {value : ρ → Option β} {r r' : ρ}

/-- No other row has the value, if the row has one. -/
theorem uniqueIn_eq_true :
    uniqueIn t value r = true ↔ ∀ x ∈ t, key x ≠ key r → value x = value r → value r = none := by
  simp [uniqueIn]

/-- Two rows that are stored under a unique constraint do not share their values. -/
theorem eq_of_uniqueIn {b : β} (hunique : uniqueIn t value r = true) (hr : r ∈ t) (hr' : r' ∈ t)
    (h : value r = some b) (h' : value r' = some b) : r' = r := by
  by_contra hne
  have hkey : key r' ≠ key r := fun hkey => hne (Table.eq_of_key_eq hr' hr hkey)
  have hnone := uniqueIn_eq_true.mp hunique r' hr' hkey (h'.trans h.symm)
  rw [h] at hnone
  cases hnone

/-- The constraint still holds when rows have gone, and others have lost their value. -/
theorem uniqueIn_of_forall {t' : Table key} (hunique : uniqueIn t value r = true)
    (hkey : key r' = key r) (hvalue : value r' = value r ∨ value r' = none)
    (hrows : ∀ x ∈ t', ∃ y ∈ t, key y = key x ∧ (value x = value y ∨ value x = none)) :
    uniqueIn t' value r' = true := by
  refine uniqueIn_eq_true.mpr fun x hx hne heq => ?_
  obtain ⟨y, hy, hykey, hyvalue⟩ := hrows x hx
  rcases hvalue with hvalue | hvalue
  swap
  · exact hvalue
  rcases hyvalue with hyvalue | hyvalue
  · rw [hvalue]
    refine uniqueIn_eq_true.mp hunique y hy ?_ ?_
    · rw [hykey, ← hkey]
      exact hne
    · rw [← hyvalue, heq, hvalue]
  · rw [← heq, hyvalue]

/-- The constraint still holds when rows have gone. -/
theorem uniqueIn_of_subset {t' : Table key} (hunique : uniqueIn t value r = true)
    (hrows : ∀ x ∈ t', x ∈ t) : uniqueIn t' value r = true :=
  uniqueIn_of_forall hunique rfl (.inl rfl) fun x hx => ⟨x, hrows x hx, rfl, .inl rfl⟩

/-- Rows with other values do not matter to the constraint. -/
theorem uniqueIn_erase {p : ρ → Bool}
    (h : ∀ x ∈ t, ∀ b, value r = some b → value x = some b → p x = false) :
    uniqueIn (t.erase p) value r = uniqueIn t value r := by
  have hany := @Table.any_erase _ _ _ t p
    (fun x => decide (key x ≠ key r) && (decide (value x = value r) && (value r).isSome)) ?_
  · exact congrArg (!·) hany
  · intro x hx hq
    simp only [Bool.and_eq_true, decide_eq_true_eq, Option.isSome_iff_exists] at hq
    obtain ⟨-, heq, b, hb⟩ := hq
    exact h x hx b hb (heq.trans hb)

end Unique

/-! ## Foreign keys -/

section Has

variable {db : Db} {id : Uuid}

/-- A key is found when a row has it. -/
theorem isSome_get {ρ π : Type} {key : ρ → π} [DecidableEq π] {t : Table key} {k : π} :
    (t.get k).isSome = true ↔ ∃ r ∈ t, key r = k := by
  simp [Option.isSome_iff_exists, Table.get_eq_some]

/-- An account with the id is stored. -/
theorem hasUser_iff : db.hasUser id = true ↔ ∃ u ∈ db.users, u.id = id := isSome_get

/-- The account that is referred to is stored, if there is one. -/
theorem hasUser?_iff {reference : Option Uuid} :
    db.hasUser? reference = true ↔ ∀ id, reference = some id → db.hasUser id = true := by
  cases reference <;> simp [Db.hasUser?]

/-- A venue with the id is stored. -/
theorem hasVenue_iff : db.hasVenue id = true ↔ ∃ v ∈ db.venues, v.id = id := isSome_get

/-- A check-in with the id is stored. -/
theorem hasCheckin_iff : db.hasCheckin id = true ↔ ∃ c ∈ db.checkins, c.id = id := isSome_get

/-- A list with the id is stored. -/
theorem hasList_iff : db.hasList id = true ↔ ∃ l ∈ db.lists, l.id = id := isSome_get

end Has

/-! ## One's own row -/

section Self

variable {db : Db}

/-- Nobody has blocked themselves. -/
theorem Consistent.not_blocked_self (hdb : Consistent db) (id : Uuid) : ¬ db.Blocked id id := by
  rintro ⟨r, hr, ⟨h1, h2⟩ | ⟨h1, h2⟩⟩
  · have hcons : blocksConstraints db r = true := hdb.blocks r hr
    simp [blocksConstraints, h1, h2] at hcons
  · have hcons : blocksConstraints db r = true := hdb.blocks r hr
    simp [blocksConstraints, h1, h2] at hcons

/-- The policies show a user any row with their own id, as long as the blocks are these. -/
theorem Consistent.sees_self (hdb : Consistent db) {s : Db} (hblocks : s.blocks = db.blocks)
    (u : User) : ((usersPolicy (some u.id) s).select u).Holds := by
  refine holds_usersPolicy_select.mpr (.inr fun v hv => ?_)
  rw [← Option.some.inj hv, Db.Blocked, hblocks]
  exact hdb.not_blocked_self u.id

/-- A user finds their own row. -/
theorem lookup_self {u : User} (hdb : Consistent db) (hu : u ∈ db.users) :
    users.lookup (some u.id) db u.id = some u :=
  users.lookup_eq_some.mpr ⟨hu, rfl, hdb.sees_self rfl u⟩

end Self

end OburBackend
