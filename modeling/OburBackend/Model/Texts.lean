import OburBackend.Model.Schema

/-!
# Texts that the database can hold

A payload may have any text, and PostgreSQL holds none with U+0000 (nor one with a lone surrogate,
which no `String` has). `Db.storable` says so of the tables that the payloads for check-ins,
profiles and lists go to. Under `Prog.within Db.storable` a statement that would store such a text
raises `DbError.data`, which nothing in the source handles.
-/

namespace OburBackend

open Sql

/-- The text has no U+0000. -/
def Storable (text : String) : Prop := Char.ofNat 0 ∉ text.toList

instance (text : String) : Decidable (Storable text) :=
  inferInstanceAs (Decidable (Char.ofNat 0 ∉ text.toList))

/-- A visibility tier can be stored. -/
theorem storable_of_allowed {visibility : String} (h : visibility ∈ Visibility.allowed) :
    Storable visibility := by
  have hall : ∀ visibility ∈ Visibility.allowed, Storable visibility := by decide
  exact hall visibility h

/-- The texts among the columns can be stored. -/
def AllStorable (columns : List (Option String)) : Prop := ∀ column ∈ columns, ∀ text ∈ column,
  Storable text

instance (columns : List (Option String)) : Decidable (AllStorable columns) :=
  inferInstanceAs (Decidable (∀ column ∈ columns, ∀ text ∈ column, Storable text))

@[simp] theorem allStorable_nil : AllStorable [] := fun _ h => absurd h List.not_mem_nil

@[simp] theorem allStorable_cons {column : Option String} {columns : List (Option String)} :
    AllStorable (column :: columns) ↔ (∀ text ∈ column, Storable text) ∧ AllStorable columns := by
  simp [AllStorable]

/-- The columns of a `users` row that hold texts; the status is one of three. -/
def User.texts (u : User) : List (Option String) :=
  [some u.authProvider, some u.authProviderId, some u.displayName, some u.username, u.email, u.bio,
    u.avatarUrl, u.city, u.countryCode, some u.locale, u.timezone, some u.role]

/-- Those of a `checkins` row. -/
def Checkin.texts (x : Checkin) : List (Option String) :=
  [x.note, x.photoUrl, some x.visibility, some x.visitedTz]

/-- Those of a `lists` row. -/
def VenueList.texts (l : VenueList) : List (Option String) :=
  [some l.title, l.description, some l.visibility]

/-- What the columns of a check-in come to. -/
theorem Checkin.allStorable_iff {x : Checkin} : AllStorable x.texts ↔
    (∀ text ∈ x.note, Storable text) ∧ (∀ text ∈ x.photoUrl, Storable text) ∧
      Storable x.visibility ∧ Storable x.visitedTz := by
  simp [Checkin.texts]

/-- And those of a list. -/
theorem VenueList.allStorable_iff {l : VenueList} : AllStorable l.texts ↔
    Storable l.title ∧ (∀ text ∈ l.description, Storable text) ∧ Storable l.visibility := by
  simp [VenueList.texts]

/-- What is stored of users, check-ins and lists can be stored. -/
def Db.storable (db : Db) : Bool :=
  decide (∀ u ∈ db.users.rows, AllStorable u.texts) &&
    (decide (∀ x ∈ db.checkins.rows, AllStorable x.texts) &&
      decide (∀ l ∈ db.lists.rows, AllStorable l.texts))

variable {db : Db}

/-- The same, table by table. -/
theorem Db.storable_iff : db.storable = true ↔ (∀ u ∈ db.users, AllStorable u.texts) ∧
    (∀ x ∈ db.checkins, AllStorable x.texts) ∧ ∀ l ∈ db.lists, AllStorable l.texts := by
  simp only [Db.storable, Bool.and_eq_true, decide_eq_true_eq]
  exact Iff.rfl

/-- A new check-in can be stored when its texts can. -/
theorem Db.storable_insert_iff (h : db.storable = true) {x : Checkin}
    (hnew : db.checkins.get x.id = none) :
    ({ db with checkins := db.checkins.insert x } : Db).storable = true ↔ AllStorable x.texts := by
  obtain ⟨husers, hcheckins, hlists⟩ := Db.storable_iff.mp h
  rw [Db.storable_iff]
  refine ⟨fun h' => h'.2.1 x ((Table.mem_insert hnew).mpr (.inr rfl)), fun hx => ?_⟩
  refine ⟨husers, fun y hy => ?_, hlists⟩
  rcases (Table.mem_insert hnew).mp hy with hy | rfl
  · exact hcheckins y hy
  · exact hx

/-- In a table whose rows can be stored, so can the changed row, if and only if the table can be
with it. -/
theorem allStorable_modify_iff {ρ κ : Type} [DecidableEq κ] {key : ρ → κ} {t : Table key} {r : ρ}
    {f : ρ → ρ} (hf : ∀ x, key (f x) = key x) {texts : ρ → List (Option String)} (hr : r ∈ t)
    (h : ∀ x ∈ t, AllStorable (texts x)) :
    (∀ x ∈ t.modify (fun y => decide (key y = key r)) f hf, AllStorable (texts x)) ↔
      AllStorable (texts (f r)) := by
  constructor
  · exact fun h' => h' (f r) ((Table.mem_modify_key hf hr).mpr (.inl rfl))
  · intro hfr x hx
    rcases (Table.mem_modify_key hf hr).mp hx with rfl | ⟨hx, -⟩
    · exact hfr
    · exact h x hx

end OburBackend
