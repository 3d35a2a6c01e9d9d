import OburBackend.Core.I18n

/-!
# The seed files (`app/seeds/venue_categories.py`, `app/seeds/locales`)

`SeedFiles` is what the seeder reads: the categories, by their slugs, and a table of names for each
locale. The files are edited as the catalog grows, and `SeedFiles.WellFormed` is what has to hold of
them: a category stands after its parent, and has a name in every supported locale. The files of the
repository are well-formed (`wellFormed_seedFiles`).
-/

namespace OburBackend

/-- `VenueCategorySeed` -/
structure VenueCategorySeed where
  slug : String
  parentSlug : Option String := none
  deriving DecidableEq, Repr

/-- The files of the catalog. -/
structure SeedFiles where
  /-- `VENUE_CATEGORIES` -/
  categories : List VenueCategorySeed
  /-- `_LOCALE_NAME_TABLES`: the `VENUE_CATEGORY_NAMES` of each locale. -/
  localeNameTables : List (String × List (String × String))

namespace SeedFiles

/-- `get_venue_category_names(locale)[slug]`; `none` is a `KeyError`. -/
def name (files : SeedFiles) (locale slug : String) : Option String := do
  let names ← files.localeNameTables.lookup locale
  names.lookup slug

/-- Each category stands after its parent, where `seen` are the slugs above. -/
def parentsFirst (seen : List String) : List VenueCategorySeed → Bool
  | [] => true
  | seed :: seeds =>
    seed.parentSlug.all (fun parent => decide (parent ∈ seen)) &&
      parentsFirst (seed.slug :: seen) seeds

/-- What holds of the files, whatever is added to them. The seeder relies on there being categories:
an `INSERT` of no rows proposes one of defaults, which no table takes. -/
structure WellFormed (files : SeedFiles) : Prop where
  nonempty : files.categories ≠ []
  slugs : (files.categories.map VenueCategorySeed.slug).Nodup
  parents : parentsFirst [] files.categories = true
  named : ∀ locale ∈ supportedLocales, ∀ seed ∈ files.categories,
    (files.name locale seed.slug).isSome = true

end SeedFiles

/-! ## The files of the repository -/

def venueCategorySeeds : List VenueCategorySeed := [
  -- roots: universal, shared by every market
  ⟨"restaurant", none⟩,
  ⟨"cafe", none⟩,
  ⟨"bar", none⟩,
  ⟨"dessert", none⟩,
  -- restaurant: Turkish formats
  ⟨"kebap", some "restaurant"⟩,
  ⟨"doner", some "restaurant"⟩,
  ⟨"pide", some "restaurant"⟩,
  ⟨"lahmacun", some "restaurant"⟩,
  ⟨"kofte", some "restaurant"⟩,
  ⟨"ciger", some "restaurant"⟩,
  ⟨"balik", some "restaurant"⟩,
  ⟨"lokanta", some "restaurant"⟩,
  ⟨"esnaf-lokantasi", some "restaurant"⟩,
  ⟨"kahvalti", some "restaurant"⟩,
  ⟨"brunch", some "restaurant"⟩,
  ⟨"manti", some "restaurant"⟩,
  ⟨"corba", some "restaurant"⟩,
  ⟨"tantuni", some "restaurant"⟩,
  ⟨"kokorec", some "restaurant"⟩,
  ⟨"midye", some "restaurant"⟩,
  ⟨"cig-kofte", some "restaurant"⟩,
  ⟨"bufe", some "restaurant"⟩,
  ⟨"borek", some "restaurant"⟩,
  -- restaurant: formats defined by the kind of outing, not the food
  ⟨"steakhouse", some "restaurant"⟩,
  ⟨"fine-dining", some "restaurant"⟩,
  ⟨"burger", some "restaurant"⟩,
  ⟨"pizza", some "restaurant"⟩,
  ⟨"sandwich", some "restaurant"⟩,
  -- restaurant: cuisines that became venue formats here (ADR-0013)
  ⟨"chinese", some "restaurant"⟩,
  ⟨"sushi", some "restaurant"⟩,
  ⟨"italian", some "restaurant"⟩,
  ⟨"far-east", some "restaurant"⟩,
  -- cafe
  ⟨"cafe-general", some "cafe"⟩,
  ⟨"specialty-coffee", some "cafe"⟩,
  ⟨"kiraathane", some "cafe"⟩,
  ⟨"cay-bahcesi", some "cafe"⟩,
  -- bar
  ⟨"bar-general", some "bar"⟩,
  ⟨"meyhane", some "bar"⟩,
  ⟨"pub", some "bar"⟩,
  ⟨"birahane", some "bar"⟩,
  ⟨"cocktail-bar", some "bar"⟩,
  ⟨"wine-bar", some "bar"⟩,
  -- dessert
  ⟨"pastane", some "dessert"⟩,
  ⟨"baklavaci", some "dessert"⟩,
  ⟨"muhallebici", some "dessert"⟩,
  ⟨"dondurma", some "dessert"⟩,
  ⟨"waffle", some "dessert"⟩,
  ⟨"cikolata", some "dessert"⟩]

/-- `app/seeds/locales/tr.py` -/
def turkishNames : List (String × String) := [
  ("restaurant", "Restoran"),
  ("cafe", "Kafe"),
  ("bar", "Bar"),
  ("dessert", "Tatlı"),
  ("kebap", "Kebap Salonu"),
  ("doner", "Dönerci"),
  ("pide", "Pideci"),
  ("lahmacun", "Lahmacun Salonu"),
  ("kofte", "Köfteci"),
  ("ciger", "Ciğerci"),
  ("balik", "Balık Lokantası"),
  ("lokanta", "Lokanta"),
  ("esnaf-lokantasi", "Esnaf Lokantası"),
  ("kahvalti", "Kahvaltı Salonu"),
  ("brunch", "Brunch"),
  ("manti", "Mantıcı"),
  ("corba", "Çorbacı"),
  ("tantuni", "Tantuni"),
  ("kokorec", "Kokoreç"),
  ("midye", "Midyeci"),
  ("cig-kofte", "Çiğ Köfteci"),
  ("bufe", "Büfe"),
  ("borek", "Börekçi"),
  ("steakhouse", "Steakhouse"),
  ("fine-dining", "Fine Dining"),
  ("burger", "Burger"),
  ("pizza", "Pizza"),
  ("sandwich", "Sandviç"),
  ("chinese", "Çin Lokantası"),
  ("sushi", "Suşi"),
  ("italian", "İtalyan Lokantası"),
  ("far-east", "Uzak Doğu"),
  ("cafe-general", "Kafe"),
  ("specialty-coffee", "Üçüncü Nesil Kahve"),
  ("kiraathane", "Kıraathane"),
  ("cay-bahcesi", "Çay Bahçesi"),
  ("bar-general", "Bar"),
  ("meyhane", "Meyhane"),
  ("pub", "Pub"),
  ("birahane", "Birahane"),
  ("cocktail-bar", "Kokteyl Bar"),
  ("wine-bar", "Şarap Barı"),
  ("pastane", "Pastane"),
  ("baklavaci", "Baklavacı"),
  ("muhallebici", "Muhallebici"),
  ("dondurma", "Dondurmacı"),
  ("waffle", "Waffle"),
  ("cikolata", "Çikolata & Kurabiye")]

/-- `app/seeds/locales/en.py` -/
def englishNames : List (String × String) := [
  ("restaurant", "Restaurant"),
  ("cafe", "Cafe"),
  ("bar", "Bar"),
  ("dessert", "Dessert"),
  ("kebap", "Kebab House"),
  ("doner", "Doner Shop"),
  ("pide", "Pide House"),
  ("lahmacun", "Lahmacun"),
  ("kofte", "Meatball House"),
  ("ciger", "Liver House"),
  ("balik", "Seafood Restaurant"),
  ("lokanta", "Lokanta (Turkish Restaurant)"),
  ("esnaf-lokantasi", "Esnaf Lokantası (Tradesman's Eatery)"),
  ("kahvalti", "Turkish Breakfast"),
  ("brunch", "Brunch"),
  ("manti", "Mantı House"),
  ("corba", "Soup House"),
  ("tantuni", "Tantuni"),
  ("kokorec", "Kokoreç"),
  ("midye", "Stuffed Mussels"),
  ("cig-kofte", "Çiğ Köfte"),
  ("bufe", "Büfe (Corner Shop Eatery)"),
  ("borek", "Börek Shop"),
  ("steakhouse", "Steakhouse"),
  ("fine-dining", "Fine Dining"),
  ("burger", "Burger"),
  ("pizza", "Pizza"),
  ("sandwich", "Sandwich"),
  ("chinese", "Chinese"),
  ("sushi", "Sushi"),
  ("italian", "Italian"),
  ("far-east", "Far Eastern"),
  ("cafe-general", "Cafe"),
  ("specialty-coffee", "Specialty Coffee"),
  ("kiraathane", "Kıraathane (Traditional Coffee House)"),
  ("cay-bahcesi", "Tea Garden"),
  ("bar-general", "Bar"),
  ("meyhane", "Meyhane (Turkish Tavern)"),
  ("pub", "Pub"),
  ("birahane", "Beer Hall"),
  ("cocktail-bar", "Cocktail Bar"),
  ("wine-bar", "Wine Bar"),
  ("pastane", "Patisserie"),
  ("baklavaci", "Baklava Shop"),
  ("muhallebici", "Milk Pudding Shop"),
  ("dondurma", "Ice Cream"),
  ("waffle", "Waffle"),
  ("cikolata", "Chocolate & Cookies")]

def seedFiles : SeedFiles where
  categories := venueCategorySeeds
  localeNameTables := [("tr", turkishNames), ("en", englishNames)]

/-- The files of the repository are well formed. -/
theorem wellFormed_seedFiles : seedFiles.WellFormed where
  nonempty := by decide
  slugs := by decide +kernel
  parents := by decide +kernel
  named := by decide +kernel

end OburBackend
