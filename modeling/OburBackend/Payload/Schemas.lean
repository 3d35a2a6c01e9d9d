import Mathlib.Data.List.Infix
import OburBackend.Core.I18n
import OburBackend.Service.Account
import OburBackend.Service.Checkin
import OburBackend.Service.List

/-!
# Request schemas (`app/schemas`)

A payload is built only with what its schema accepts. A field that the request leaves out is `none`;
a field that is present, an explicit `null` included, is passed on to the service. Lengths count
code points. The schemas accept texts that the database cannot hold (`Model/Texts.lean`).
-/

namespace OburBackend

/-- A value that a field gives satisfies the condition. -/
def Field.Within {α : Type} (f : Field α) (p : α → Prop) : Prop := ∀ v ∈ f, ∀ a ∈ v, p a

instance {α : Type} (f : Field α) (p : α → Prop) [DecidablePred p] : Decidable (f.Within p) :=
  inferInstanceAs (Decidable (∀ v ∈ f, ∀ a ∈ v, p a))

/-- What a `NOT NULL` column holds satisfies the condition if it has satisfied it before. -/
theorem Field.Within.notNull {α : Type} {f : Field α} {p : α → Prop} {old new : α}
    (h : f.Within p) (hold : p old) (hnew : f.notNull old = some new) : p new := by
  rcases Field.notNull_eq_some.mp hnew with ⟨-, rfl⟩ | hf
  · exact hold
  · exact h (some new) hf new rfl

/-- The same as a condition on the new value, if the old one satisfies it. -/
theorem Field.within_iff_notNull {α : Type} {f : Field α} {p : α → Prop} {old new : α}
    (hold : p old) (hnew : f.notNull old = some new) : f.Within p ↔ p new := by
  refine ⟨fun h => h.notNull hold hnew, fun h v hv a ha => ?_⟩
  rcases Field.notNull_eq_some.mp hnew with ⟨hnone, -⟩ | hf
  · rw [hnone] at hv
    cases hv
  · obtain rfl : some new = v := Option.some.inj (hf.symm.trans hv)
    obtain rfl : new = a := Option.some.inj ha
    exact h

/-- And for a nullable column. -/
theorem Field.within_iff_nullable {α : Type} {f : Field α} {p : α → Prop} {old : Option α}
    (hold : ∀ a ∈ old, p a) : f.Within p ↔ ∀ a ∈ f.nullable old, p a := by
  cases f with
  | none => exact iff_of_true (fun _ hv => by cases hv) hold
  | some v => simp [Field.Within, Field.nullable]

/-! ## Check-ins -/

/-- `_MAX_NOTE_LENGTH` -/
def maxNoteLength : ℕ := 2000

/-- `CheckinCreateRequest` -/
structure CheckinCreateRequest where
  venueId : Uuid
  ratingTaste : ℤ
  ratingService : ℤ
  ratingAmbiance : ℤ
  ratingValue : ℤ
  note : Option String := none
  photoUrl : Option String := none
  visibility : String := Visibility.pub
  visitedAt : Date
  visitedTz : String
  ratings_accepted : ∀ rating ∈ [ratingTaste, ratingService, ratingAmbiance, ratingValue],
    minRating ≤ rating ∧ rating ≤ maxRating := by decide
  note_accepted : ∀ text ∈ note, text.length ≤ maxNoteLength := by decide
  visibility_accepted : visibility ∈ Visibility.allowed := by decide

/-- The call of `create_checkin` that the route makes with the payload. -/
def CheckinCreateRequest.args (request : CheckinCreateRequest) (userId : Uuid) : CheckinCreate where
  userId
  venueId := request.venueId
  visitedAt := request.visitedAt
  visitedTz := request.visitedTz
  ratingTaste := request.ratingTaste
  ratingService := request.ratingService
  ratingAmbiance := request.ratingAmbiance
  ratingValue := request.ratingValue
  note := request.note
  photoUrl := request.photoUrl
  visibility := request.visibility

/-- `CheckinUpdateRequest` -/
structure CheckinUpdateRequest extends CheckinUpdates where
  ratings_accepted : ∀ rating ∈ [ratingTaste, ratingService, ratingAmbiance, ratingValue],
    rating.Within fun rating => minRating ≤ rating ∧ rating ≤ maxRating := by decide
  note_accepted : note.Within fun text => text.length ≤ maxNoteLength := by decide
  visibility_accepted : visibility.Within (· ∈ Visibility.allowed) := by decide

/-! ## Profiles -/

/-- `_MAX_DISPLAY_NAME_LENGTH`, `_MAX_USERNAME_LENGTH`, `_MAX_BIO_LENGTH`, `_MAX_CITY_LENGTH` -/
def maxDisplayNameLength : ℕ := 50
def maxUsernameLength : ℕ := 30
def maxBioLength : ℕ := 300
def maxCityLength : ℕ := 100

/-- The characters of `_USERNAME_PATTERN`. -/
def isUsernameChar (c : Char) : Bool :=
  c.isAlphanum || c == '.' || c == '_'

/-- `pattern="|".join(SUPPORTED_LOCALES)`: a search, so any part of the text may match. -/
def localePatternMatches (text : String) : Prop :=
  ∃ locale ∈ supportedLocales, locale.toList <:+: text.toList

instance (text : String) : Decidable (localePatternMatches text) :=
  inferInstanceAs (Decidable (∃ locale ∈ supportedLocales, locale.toList <:+: text.toList))

/-- `UserUpdateRequest` -/
structure UserUpdateRequest extends ProfileChanges where
  displayName_accepted : displayName.Within
    fun text => 1 ≤ text.length ∧ text.length ≤ maxDisplayNameLength := by decide
  username_accepted : username.Within fun text =>
    (3 ≤ text.length ∧ text.length ≤ maxUsernameLength) ∧
      ∀ c ∈ text.toList, isUsernameChar c = true := by decide
  bio_accepted : bio.Within fun text => text.length ≤ maxBioLength := by decide
  city_accepted : city.Within fun text => text.length ≤ maxCityLength := by decide
  countryCode_accepted : countryCode.Within fun text => text.length = 2 := by decide
  locale_accepted : locale.Within localePatternMatches := by decide

/-! ## Lists -/

/-- `_MAX_TITLE_LENGTH`, `_MAX_DESCRIPTION_LENGTH` -/
def maxTitleLength : ℕ := 200
def maxDescriptionLength : ℕ := 2000

/-- `ListUpdateRequest` -/
structure ListUpdateRequest extends ListUpdates where
  title_accepted : title.Within
    fun text => 1 ≤ text.length ∧ text.length ≤ maxTitleLength := by decide
  description_accepted : description.Within
    fun text => text.length ≤ maxDescriptionLength := by decide
  visibility_accepted : visibility.Within (· ∈ Visibility.allowed) := by decide

end OburBackend
