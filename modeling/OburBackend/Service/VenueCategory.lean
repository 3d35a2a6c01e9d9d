import OburBackend.Model.Request

/-!
# The category catalog (`app/services/venue_category.py`)

The names of the categories are rows of their own, one for each category and locale. No request
writes the catalog.
-/

namespace OburBackend

open Sql

/-- `venue_category_translations` -/
structure VenueCategoryTranslation where
  categoryId : Uuid
  locale : String
  name : String
  deriving DecidableEq, Repr

/-- The primary key: a category has one name in a locale. -/
def VenueCategoryTranslation.key (t : VenueCategoryTranslation) : Uuid × String :=
  (t.categoryId, t.locale)

/-- `CategoryNode` -/
structure CategoryNode where
  id : Uuid
  slug : String
  name : String
  children : List CategoryNode

/-- `by_locale`, after the loop over the rows of the result. -/
def byLocale (result : List VenueCategoryTranslation) : String → Uuid → Option String :=
  result.foldl (fun byLocale t => Function.update byLocale t.locale
    (Function.update (byLocale t.locale) t.categoryId (some t.name))) fun _ _ => none

/-- `resolve_names`, with the dictionary as a lookup. Its query has no `ORDER BY`. -/
def resolveNames (plan : Plan VenueCategoryTranslation)
    (translations : Table VenueCategoryTranslation.key) (locale : String) : Uuid → Option String :=
  let wanted := [locale, defaultLocale]
  let names := byLocale (plan.arrange (translations.select fun t => decide (t.locale ∈ wanted)))
  -- the second of the merged dictionaries wins
  fun id => (names locale id).or (names defaultLocale id)

/-- `children_of`, after the loop over the categories. -/
def childrenOf (categories : List VenueCategory) : Option Uuid → List VenueCategory :=
  categories.foldl (fun childrenOf c =>
    Function.update childrenOf c.parentId (childrenOf c.parentId ++ [c])) fun _ => []

/-- `build`, which gives up when the recursion is deeper than the fuel. -/
def build (childrenOf : Option Uuid → List VenueCategory) (names : Uuid → Option String) :
    ℕ → Option Uuid → Option (List CategoryNode)
  | 0, _ => none
  | fuel + 1, parentId =>
    ((childrenOf parentId).filter fun c => (names c.id).isSome).mapM fun c => do
      let name ← names c.id
      let children ← build childrenOf names fuel (some c.id)
      return { id := c.id, slug := c.slug, name, children }

/-- `_build_tree` -/
def buildTree (fuel : ℕ) (categories : List VenueCategory) (names : Uuid → Option String) :
    Option (List CategoryNode) :=
  build (childrenOf categories) names fuel none

/-- `list_category_tree`. The slugs are compared by the collation of the database. -/
def listCategoryTree (collation : String → String → Bool) (plan : Plan VenueCategory)
    (namesPlan : Plan VenueCategoryTranslation)
    (translations : Table VenueCategoryTranslation.key) (locale : String) (fuel : ℕ) :
    Service (Option (List CategoryNode)) := do
  let categories ← query ⟨.select, .venueCategories, []⟩ fun me db =>
    orderBy (fun a b => collation a.slug b.slug) plan (venueCategories.rows me db fun _ => true)
  return buildTree fuel categories (resolveNames namesPlan translations locale)

end OburBackend
