import Mathlib.Data.List.ProdSigma
import OburBackend.Catalog.CategoryTree
import OburBackend.Model.Consistent
import OburBackend.Seeds.Files
import OburBackend.Sql.Upsert

/-!
# The seeder (`app/seeds/runner.py`, `app/seeds/identity.py`)

`seedCatalog` is one run of the seeder, over the tables of the catalog. The row policies of these
let no one write, and bind every role but the owner of the tables: a run as the owner, whom the
deployment means to use, succeeds and stores the rows of the files (`Seeds`), where the command of
the module connects as the application and fails (`seedCatalog_spec`). Of a catalog that has
only ever been seeded, through whatever versions of the files, each category is the one of the
latest version that lists its slug (`seedHistory_spec`).
-/

namespace OburBackend

open Sql

/-- The tables of the catalog. -/
structure Catalog where
  categories : Table VenueCategory.id
  translations : Table VenueCategoryTranslation.key

/-- `venue_category_id`, with `uuid.uuid5` in the namespace of the seeds. -/
def venueCategoryId (uuid5 : String → Uuid) (slug : String) : Uuid :=
  uuid5 ("venue_category:" ++ slug)

/-- One of `_category_rows`. -/
def VenueCategorySeed.row (uuid5 : String → Uuid) (seed : VenueCategorySeed) : VenueCategory where
  id := venueCategoryId uuid5 seed.slug
  slug := seed.slug
  parentId := seed.parentSlug.map (venueCategoryId uuid5)

/-- `_category_rows` -/
def SeedFiles.categoryRows (files : SeedFiles) (uuid5 : String → Uuid) : List VenueCategory :=
  files.categories.map (VenueCategorySeed.row uuid5)

/-- One of `_category_translation_rows`; `none` is a `KeyError`. -/
def SeedFiles.translationRow (files : SeedFiles) (uuid5 : String → Uuid) (locale : String)
    (seed : VenueCategorySeed) : Option VenueCategoryTranslation :=
  (files.name locale seed.slug).map fun name =>
    { categoryId := venueCategoryId uuid5 seed.slug, locale, name }

/-- `_category_translation_rows` -/
def SeedFiles.translationRows (files : SeedFiles) (uuid5 : String → Uuid) :
    Option (List VenueCategoryTranslation) :=
  (supportedLocales.product files.categories).mapM fun p => files.translationRow uuid5 p.1 p.2

/-- The role that a session connects as. -/
inductive DbRole where
  /-- The owner of the tables, of `database_url`. -/
  | owner
  /-- `obur_app`, of `app_database_url`. -/
  | app
  deriving DecidableEq, Repr

/-- The policies of a table that bind the role: an owner is exempt. -/
def DbRole.policy {ρ : Type} (policy : RowPolicy ρ) : DbRole → RowPolicy ρ
  | .owner => .exempt
  | .app => policy

/-- As of `venue_categories`, the rows are read by everybody and written by nobody. -/
def venueCategoryTranslationsPolicy : RowPolicy VenueCategoryTranslation where
  select _ := .yes
  insert _ := .no
  updateUsing _ := .no
  updateCheck _ := .no
  delete _ := .no

/-- The upsert of `venue_categories`, with the policies and constraints of the table. -/
def upsertCategories (role : DbRole) : Upsert VenueCategory.id where
  set proposed r := { r with slug := proposed.slug, parentId := proposed.parentId }
  set_key _ _ := rfl
  policy := role.policy venueCategoriesPolicy
  unique t c := uniqueIn t (fun x => some x.slug) c
  foreign t c := c.parentId.all fun parent => (t.get parent).isSome

/-- The upsert of `venue_category_translations`, which refer to the categories. -/
def upsertTranslations (role : DbRole) (categories : Table VenueCategory.id) :
    Upsert VenueCategoryTranslation.key where
  set proposed r := { r with name := proposed.name }
  set_key _ _ := rfl
  policy := role.policy venueCategoryTranslationsPolicy
  unique _ _ := true
  foreign _ t := (categories.get t.categoryId).isSome

/-- `seed_catalog`: one transaction. An exception rolls it back. -/
def seedCatalog (role : DbRole) (files : SeedFiles) (uuid5 : String → Uuid) (catalog : Catalog) :
    Option Catalog := do
  let categories ← (upsertCategories role).values catalog.categories (files.categoryRows uuid5)
  let rows ← files.translationRows uuid5
  let translations ← (upsertTranslations role categories).values catalog.translations rows
  return { categories, translations }

/-- `_main`, whose sessions are those of the application. -/
def seedMain (files : SeedFiles) (uuid5 : String → Uuid) (catalog : Catalog) : Option Catalog :=
  seedCatalog .app files uuid5 catalog

/-! ## Specification -/

/-- The constraints of the two tables. -/
structure Catalog.Valid (catalog : Catalog) : Prop where
  slugs : ∀ c ∈ catalog.categories, uniqueIn catalog.categories (fun x => some x.slug) c = true
  parents : ∀ c ∈ catalog.categories,
    c.parentId.all (fun parent => (catalog.categories.get parent).isSome) = true
  translations : ∀ t ∈ catalog.translations, (catalog.categories.get t.categoryId).isSome = true

/-- The files have this name of a category. -/
def SeedFiles.Names (files : SeedFiles) (uuid5 : String → Uuid) (t : VenueCategoryTranslation) :
    Prop :=
  ∃ locale ∈ supportedLocales, ∃ seed ∈ files.categories,
    files.translationRow uuid5 locale seed = some t

/-- What a run stores: the rows of the files, and what was stored under other keys. -/
structure Seeds (files : SeedFiles) (uuid5 : String → Uuid) (catalog seeded : Catalog) : Prop where
  categories : ∀ c, c ∈ seeded.categories ↔
    (∃ seed ∈ files.categories, c = seed.row uuid5) ∨
      c ∈ catalog.categories ∧ ∀ seed ∈ files.categories, c.id ≠ venueCategoryId uuid5 seed.slug
  translations : ∀ t, t ∈ seeded.translations ↔
    files.Names uuid5 t ∨
      t ∈ catalog.translations ∧ ∀ t', files.Names uuid5 t' → t.key ≠ t'.key

/-- Different slugs get different ids. -/
def DistinctIds (uuid5 : String → Uuid) (slugs : String → Prop) : Prop :=
  ∀ a b, slugs a → slugs b → venueCategoryId uuid5 a = venueCategoryId uuid5 b → a = b

/-- A slug of the files. -/
def SeedFiles.Lists (files : SeedFiles) (slug : String) : Prop :=
  ∃ seed ∈ files.categories, seed.slug = slug

/-- A slug of one of the versions of the files. -/
def ListedBy (versions : List SeedFiles) (slug : String) : Prop :=
  ∃ files ∈ versions, files.Lists slug

/-! ## One run -/

/-- The upsert of the categories sets every column but the key. -/
theorem replaces_upsertCategories (role : DbRole) : (upsertCategories role).Replaces := by
  rintro ⟨id, slug, parentId⟩ ⟨id', slug', parentId'⟩ ⟨⟩
  rfl

/-- So does the upsert of the names. -/
theorem replaces_upsertTranslations (role : DbRole) (categories : Table VenueCategory.id) :
    (upsertTranslations role categories).Replaces := by
  rintro ⟨id, locale, name⟩ ⟨id', locale', name'⟩ hkey
  obtain ⟨rfl, rfl⟩ := Prod.mk.inj hkey
  rfl

section Run

variable {role : DbRole} {files : SeedFiles} {uuid5 : String → Uuid} {catalog seeded : Catalog}

/-- There is one proposed row for each category of the files. -/
theorem mem_categoryRows {c : VenueCategory} :
    c ∈ files.categoryRows uuid5 ↔ ∃ seed ∈ files.categories, c = seed.row uuid5 := by
  simp only [SeedFiles.categoryRows, List.mem_map, eq_comm]

/-- An id is not proposed when no category has it. -/
theorem mem_ids_categoryRows {id : Uuid} :
    id ∉ (files.categoryRows uuid5).map VenueCategory.id ↔
      ∀ seed ∈ files.categories, id ≠ venueCategoryId uuid5 seed.slug := by
  simp only [SeedFiles.categoryRows, List.map_map, List.mem_map, not_exists, not_and, eq_comm]
  exact Iff.rfl

/-- Distinct slugs make distinct ids. -/
theorem nodup_ids_categoryRows (hfiles : files.WellFormed) (hid : DistinctIds uuid5 files.Lists) :
    ((files.categoryRows uuid5).map VenueCategory.id).Nodup := by
  have hids : (files.categoryRows uuid5).map VenueCategory.id =
      (files.categories.map VenueCategorySeed.slug).map (venueCategoryId uuid5) := by
    rw [SeedFiles.categoryRows, List.map_map, List.map_map]
    rfl
  rw [hids]
  refine hfiles.slugs.map_on fun a ha b hb h => ?_
  exact hid a b (List.mem_map.mp ha) (List.mem_map.mp hb) h

/-- The parent of a category is listed. -/
theorem lists_of_parentsFirst {seen : List String} {seeds : List VenueCategorySeed}
    (h : SeedFiles.parentsFirst seen seeds = true) {seed : VenueCategorySeed} (hseed : seed ∈ seeds)
    {parent : String} (hparent : seed.parentSlug = some parent) :
    parent ∈ seen ∨ ∃ s ∈ seeds, s.slug = parent := by
  induction seeds generalizing seen with
  | nil => cases hseed
  | cons s seeds ih =>
    rw [SeedFiles.parentsFirst, Bool.and_eq_true] at h
    rcases List.mem_cons.mp hseed with rfl | hseed
    · rw [hparent] at h
      exact .inl (of_decide_eq_true h.1)
    · rcases ih h.2 hseed with hseen | ⟨s', hs', hslug⟩
      · rcases List.mem_cons.mp hseen with rfl | hseen
        · exact .inr ⟨s, List.mem_cons_self, rfl⟩
        · exact .inl hseen
      · exact .inr ⟨s', List.mem_cons_of_mem s hs', hslug⟩

/-- A parent is a category of the files. -/
theorem SeedFiles.WellFormed.lists_parent (hfiles : files.WellFormed) {seed : VenueCategorySeed}
    (hseed : seed ∈ files.categories) {parent : String} (hparent : seed.parentSlug = some parent) :
    files.Lists parent :=
  (lists_of_parentsFirst hfiles.parents hseed hparent).resolve_left List.not_mem_nil

/-- Every name is there. -/
theorem exists_translationRows (uuid5 : String → Uuid) (hfiles : files.WellFormed) :
    ∃ rows, files.translationRows uuid5 = some rows ∧
      List.Forall₂ (fun p t => files.translationRow uuid5 p.1 p.2 = some t)
        (supportedLocales.product files.categories) rows := by
  have hrow : ∀ p ∈ supportedLocales.product files.categories,
      ∃ t, files.translationRow uuid5 p.1 p.2 = some t := by
    intro p hp
    obtain ⟨hlocale, hseed⟩ := List.mem_product.mp hp
    obtain ⟨name, hname⟩ := Option.isSome_iff_exists.mp (hfiles.named p.1 hlocale p.2 hseed)
    exact ⟨_, by rw [SeedFiles.translationRow, hname]; rfl⟩
  obtain ⟨rows, hrows⟩ := exists_forall₂ hrow
  exact ⟨rows, mapM_eq_some_iff.mpr hrows, hrows⟩

/-- The name's key is the category and the locale. -/
theorem key_translationRow {locale : String} {seed : VenueCategorySeed}
    {t : VenueCategoryTranslation} (h : files.translationRow uuid5 locale seed = some t) :
    t.key = (venueCategoryId uuid5 seed.slug, locale) := by
  obtain ⟨name, -, rfl⟩ := Option.map_eq_some_iff.mp h
  rfl

/-- The proposed names are those of the files. -/
theorem mem_translationRows {rows : List VenueCategoryTranslation}
    (hrows : List.Forall₂ (fun p t => files.translationRow uuid5 p.1 p.2 = some t)
      (supportedLocales.product files.categories) rows) {t : VenueCategoryTranslation} :
    t ∈ rows ↔ files.Names uuid5 t := by
  constructor
  · intro ht
    obtain ⟨⟨locale, seed⟩, hp, hrow⟩ := forall₂_mem_right hrows ht
    obtain ⟨hlocale, hseed⟩ := List.mem_product.mp hp
    exact ⟨locale, hlocale, seed, hseed, hrow⟩
  · rintro ⟨locale, hlocale, seed, hseed, hrow⟩
    obtain ⟨t', ht', hrow'⟩ := forall₂_mem_left hrows
      (List.mem_product.mpr ⟨hlocale, hseed⟩ : (locale, seed) ∈ _)
    rwa [Option.some.inj (hrow.symm.trans hrow')]

/-- No two of them have one key. -/
theorem nodup_keys_translationRows (hfiles : files.WellFormed)
    (hid : DistinctIds uuid5 files.Lists) {rows : List VenueCategoryTranslation}
    (hrows : List.Forall₂ (fun p t => files.translationRow uuid5 p.1 p.2 = some t)
      (supportedLocales.product files.categories) rows) :
    (rows.map VenueCategoryTranslation.key).Nodup := by
  have hkeys : (supportedLocales.product files.categories).map (fun p =>
      (venueCategoryId uuid5 p.2.slug, p.1)) = rows.map VenueCategoryTranslation.key :=
    map_eq_of_forall₂ hrows fun _ _ h => (key_translationRow h).symm
  have hpairs : (supportedLocales.product files.categories).Nodup :=
    List.Nodup.product (by decide) (List.Nodup.of_map _ hfiles.slugs)
  rw [← hkeys]
  refine hpairs.map_on fun p hp q hq h => ?_
  obtain ⟨-, hp⟩ := List.mem_product.mp hp
  obtain ⟨-, hq⟩ := List.mem_product.mp hq
  obtain ⟨hids, hlocale⟩ := Prod.mk.inj h
  have hslug := hid _ _ ⟨p.2, hp, rfl⟩ ⟨q.2, hq, rfl⟩ hids
  exact Prod.ext hlocale (List.inj_on_of_nodup_map hfiles.slugs hp hq hslug)

/-- A run stores what it is to store. -/
theorem seeds_of_seedCatalog (hfiles : files.WellFormed)
    (h : seedCatalog role files uuid5 catalog = some seeded) :
    Seeds files uuid5 catalog seeded := by
  obtain ⟨rows, hrows, hall⟩ := exists_translationRows uuid5 hfiles
  unfold seedCatalog at h
  rw [hrows] at h
  simp only [Option.bind_eq_bind, Option.bind_eq_some_iff, Option.some.injEq, exists_eq_left',
    Option.pure_def] at h
  obtain ⟨categories, hcategories, translations, htranslations, rfl⟩ := h
  refine ⟨fun c => ?_, fun t => ?_⟩
  · rw [Upsert.mem_of_values (replaces_upsertCategories role) hcategories, mem_categoryRows,
      mem_ids_categoryRows]
  · rw [Upsert.mem_of_values (replaces_upsertTranslations role _) htranslations,
      mem_translationRows hall]
    refine or_congr_right (and_congr_right fun _ => ?_)
    simp only [List.mem_map, mem_translationRows hall, not_exists, not_and]
    exact forall₂_congr fun _ _ => ne_comm

/-- A category that is stored stays, and so do the constraints. -/
theorem Seeds.isSome_get (h : Seeds files uuid5 catalog seeded) {id : Uuid}
    (hid : (catalog.categories.get id).isSome = true) :
    (seeded.categories.get id).isSome = true := by
  obtain ⟨c, hc⟩ := Option.isSome_iff_exists.mp hid
  obtain ⟨hmem, rfl⟩ := Table.get_eq_some.mp hc
  rw [Option.isSome_iff_exists]
  by_cases hlisted : ∃ seed ∈ files.categories, c.id = venueCategoryId uuid5 seed.slug
  · obtain ⟨seed, hseed, hkey⟩ := hlisted
    exact ⟨seed.row uuid5,
      Table.get_eq_some.mpr ⟨(h.categories _).mpr (.inl ⟨seed, hseed, rfl⟩), hkey.symm⟩⟩
  · have hnot : ∀ seed ∈ files.categories, c.id ≠ venueCategoryId uuid5 seed.slug :=
      fun seed hseed hkey => hlisted ⟨seed, hseed, hkey⟩
    exact ⟨c, Table.get_eq_some.mpr ⟨(h.categories _).mpr (.inr ⟨hmem, hnot⟩), rfl⟩⟩

/-- A category of the files is stored afterwards. -/
theorem Seeds.isSome_get_of_lists (h : Seeds files uuid5 catalog seeded) {slug : String}
    (hslug : files.Lists slug) :
    (seeded.categories.get (venueCategoryId uuid5 slug)).isSome = true := by
  obtain ⟨seed, hseed, rfl⟩ := hslug
  have hmem := (h.categories (seed.row uuid5)).mpr (.inl ⟨seed, hseed, rfl⟩)
  exact Option.isSome_iff_exists.mpr ⟨_, Table.get_eq_some.mpr ⟨hmem, rfl⟩⟩

/-- No other category has a slug of the files. -/
def Catalog.Clear (catalog : Catalog) (files : SeedFiles) (uuid5 : String → Uuid) : Prop :=
  ∀ c ∈ catalog.categories, files.Lists c.slug → c.id = venueCategoryId uuid5 c.slug

/-- A row of the files is alone with its slug, among themselves and the rows of the catalog. -/
theorem unique_row (hfiles : files.WellFormed) (hclear : catalog.Clear files uuid5)
    {t : Table VenueCategory.id} (ht : ∀ c ∈ t, (∃ seed ∈ files.categories, c = seed.row uuid5) ∨
      c ∈ catalog.categories) {seed : VenueCategorySeed} (hseed : seed ∈ files.categories) :
    uniqueIn t (fun x => some x.slug) (seed.row uuid5) = true := by
  refine uniqueIn_eq_true.mpr fun c hc hne hslug => absurd ?_ hne
  obtain hslug : c.slug = seed.slug := Option.some.inj hslug
  rcases ht c hc with ⟨seed', hseed', rfl⟩ | hold
  · rw [List.inj_on_of_nodup_map hfiles.slugs hseed' hseed hslug]
  · have hid := hclear c hold ⟨seed, hseed, hslug.symm⟩
    rwa [hslug] at hid

/-- The catalog keeps its constraints. -/
theorem Seeds.valid (h : Seeds files uuid5 catalog seeded) (hfiles : files.WellFormed)
    (hclear : catalog.Clear files uuid5) (hvalid : catalog.Valid) : seeded.Valid where
  slugs c hc := by
    have hmem : ∀ c ∈ seeded.categories, (∃ seed ∈ files.categories, c = seed.row uuid5) ∨
        c ∈ catalog.categories := fun c hc => ((h.categories c).mp hc).imp_right And.left
    rcases (h.categories c).mp hc with ⟨seed, hseed, rfl⟩ | ⟨hold, hnot⟩
    · exact unique_row hfiles hclear hmem hseed
    · refine uniqueIn_eq_true.mpr fun x hx hne hslug => ?_
      rcases (h.categories x).mp hx with ⟨seed, hseed, rfl⟩ | ⟨hxold, -⟩
      · obtain hslug : seed.slug = c.slug := Option.some.inj hslug
        refine absurd ?_ (hnot seed hseed)
        rw [hslug]
        exact hclear c hold ⟨seed, hseed, hslug⟩
      · exact (uniqueIn_eq_true (t := catalog.categories) (r := c)).mp (hvalid.slugs c hold)
          x hxold hne hslug
  parents c hc := by
    refine Option.all_eq_true _ _ |>.mpr fun parent hparent => ?_
    rcases (h.categories c).mp hc with ⟨seed, hseed, rfl⟩ | ⟨hold, -⟩
    · obtain ⟨slug, hslug, rfl⟩ := Option.map_eq_some_iff.mp hparent
      exact h.isSome_get_of_lists (hfiles.lists_parent hseed hslug)
    · exact h.isSome_get (Option.all_eq_true _ _ |>.mp (hvalid.parents c hold) parent hparent)
  translations t ht := by
    rcases (h.translations t).mp ht with ⟨locale, -, seed, hseed, hrow⟩ | ⟨hold, -⟩
    · obtain ⟨hid, -⟩ := Prod.mk.inj (key_translationRow hrow)
      show (seeded.categories.get t.categoryId).isSome = true
      rw [hid]
      exact h.isSome_get_of_lists ⟨seed, hseed, rfl⟩
    · exact h.isSome_get (hvalid.translations t hold)

/-- A run as the owner succeeds, unless another category has a slug of the files. -/
theorem exists_seedCatalog_owner (hfiles : files.WellFormed) (hid : DistinctIds uuid5 files.Lists)
    (hclear : catalog.Clear files uuid5) :
    ∃ seeded, seedCatalog .owner files uuid5 catalog = some seeded := by
  obtain ⟨rows, hrows, hall⟩ := exists_translationRows uuid5 hfiles
  obtain ⟨categories, hcategories, -⟩ := Upsert.exists_values (t := catalog.categories)
    (P := fun t => ∀ c ∈ t, (∃ seed ∈ files.categories, c = seed.row uuid5) ∨
      c ∈ catalog.categories) rfl (replaces_upsertCategories .owner)
    (nodup_ids_categoryRows hfiles hid) (fun c hc => .inr hc)
    (by
      intro t ht r hr
      obtain ⟨seed, hseed, rfl⟩ := mem_categoryRows.mp hr
      have hput : ∀ c ∈ (upsertCategories .owner).put t (seed.row uuid5),
          (∃ seed ∈ files.categories, c = seed.row uuid5) ∨ c ∈ catalog.categories := by
        intro c hc
        rcases (Upsert.mem_put (replaces_upsertCategories .owner)).mp hc with rfl | ⟨hc, -⟩
        · exact .inl ⟨seed, hseed, rfl⟩
        · exact ht c hc
      exact ⟨unique_row hfiles hclear hput hseed, hput⟩)
    (by
      rintro t - hstored r hr
      obtain ⟨seed, hseed, rfl⟩ := mem_categoryRows.mp hr
      refine Option.all_eq_true _ _ |>.mpr fun parent hparent => ?_
      obtain ⟨slug, hslug, rfl⟩ := Option.map_eq_some_iff.mp hparent
      obtain ⟨seed', hseed', rfl⟩ := hfiles.lists_parent hseed hslug
      have hmem := hstored _ (mem_categoryRows.mpr ⟨seed', hseed', rfl⟩)
      exact Option.isSome_iff_exists.mpr ⟨_, Table.get_eq_some.mpr ⟨hmem, rfl⟩⟩)
  obtain ⟨translations, htranslations, -⟩ := Upsert.exists_values (t := catalog.translations)
    (P := fun _ => True) rfl (replaces_upsertTranslations .owner categories)
    (nodup_keys_translationRows hfiles hid hall) trivial (fun _ _ _ _ => ⟨rfl, trivial⟩)
    (by
      rintro s - - t ht
      obtain ⟨locale, -, seed, hseed, hrow⟩ := (mem_translationRows hall).mp ht
      obtain ⟨hkey, -⟩ := Prod.mk.inj (key_translationRow hrow)
      have hmem := (Upsert.mem_of_values (replaces_upsertCategories .owner) hcategories).mpr
        (.inl (mem_categoryRows.mpr ⟨seed, hseed, rfl⟩))
      exact Option.isSome_iff_exists.mpr ⟨_, Table.get_eq_some.mpr ⟨hmem, hkey.symm⟩⟩)
  refine ⟨⟨categories, translations⟩, ?_⟩
  simp only [seedCatalog, hcategories, hrows, htranslations, Option.bind_eq_bind, Option.bind_some,
    Option.pure_def]

/-- A second run of the same files changes nothing. -/
theorem seedCatalog_seeded (hfiles : files.WellFormed) (hid : DistinctIds uuid5 files.Lists)
    (h : Seeds files uuid5 catalog seeded) (hvalid : seeded.Valid) :
    seedCatalog .owner files uuid5 seeded = some seeded := by
  obtain ⟨rows, hrows, hall⟩ := exists_translationRows uuid5 hfiles
  have hcategory : ∀ c ∈ files.categoryRows uuid5, c ∈ seeded.categories := fun c hc =>
    (h.categories c).mpr (.inl (mem_categoryRows.mp hc))
  have hname : ∀ t ∈ rows, t ∈ seeded.translations := fun t ht =>
    (h.translations t).mpr (.inl ((mem_translationRows hall).mp ht))
  have hcategories := Upsert.values_eq_self rfl (replaces_upsertCategories .owner)
    (nodup_ids_categoryRows hfiles hid) hcategory (fun c hc => hvalid.slugs c (hcategory c hc))
    fun c hc => hvalid.parents c (hcategory c hc)
  have htranslations := Upsert.values_eq_self rfl
    (replaces_upsertTranslations .owner seeded.categories)
    (nodup_keys_translationRows hfiles hid hall) hname (fun _ _ => rfl)
    fun t ht => hvalid.translations t (hname t ht)
  simp only [seedCatalog, hcategories, hrows, htranslations, Option.bind_eq_bind, Option.bind_some,
    Option.pure_def]

/-- A run as the application fails, which may not write the catalog. -/
theorem seedMain_eq_none (hfiles : files.categories ≠ []) :
    seedMain files uuid5 catalog = none := by
  have hrows : files.categoryRows uuid5 ≠ [] := List.map_eq_nil_iff.not.mpr hfiles
  have hdenied : ∀ r, ¬ ((upsertCategories .app).policy.insert r).Holds := fun _ => nofun
  unfold seedMain seedCatalog
  rw [Upsert.values_eq_none hdenied hrows]
  rfl

end Run

/-- Where no other category has a slug of the files, a run succeeds just as the owner of the tables;
the command of the module connects as the application, and fails. What a run has stored are the rows
of the files, beside all others that were stored, and it keeps the constraints. -/
theorem seedCatalog_spec (files : SeedFiles) (uuid5 : String → Uuid) (catalog : Catalog)
    (hfiles : files.WellFormed) (hid : DistinctIds uuid5 files.Lists)
    (hclear : catalog.Clear files uuid5) :
    (∀ role, (∃ seeded, seedCatalog role files uuid5 catalog = some seeded) ↔ role = .owner) ∧
      seedMain files uuid5 catalog = none ∧
      ∀ role seeded, seedCatalog role files uuid5 catalog = some seeded →
        Seeds files uuid5 catalog seeded ∧ (catalog.Valid → seeded.Valid) := by
  have hmain : seedMain files uuid5 catalog = none := seedMain_eq_none hfiles.nonempty
  refine ⟨fun role => ?_, hmain, fun role seeded h => ?_⟩
  · cases role with
    | owner => exact iff_of_true (exists_seedCatalog_owner hfiles hid hclear) rfl
    | app =>
      refine iff_of_false ?_ nofun
      rintro ⟨seeded, h⟩
      exact Option.some_ne_none seeded (h.symm.trans hmain)
  · have hseeds := seeds_of_seedCatalog hfiles h
    exact ⟨hseeds, hseeds.valid hfiles hclear⟩

/-- A catalog that opens with cafés. -/
def openingFiles : SeedFiles where
  categories := [⟨"cafe", none⟩]
  localeNameTables := [("tr", [("cafe", "Kafe")]), ("en", [("cafe", "Café")])]

/-- The next version of it, which tells the plain ones from the others. -/
def grownFiles : SeedFiles where
  categories := [⟨"cafe", none⟩, ⟨"cafe-general", some "cafe"⟩]
  localeNameTables := [("tr", [("cafe", "Kafe"), ("cafe-general", "Kafe")]),
    ("en", [("cafe", "Cafe"), ("cafe-general", "Cafe")])]

/-- `uuid.uuid5` of the two categories. -/
def cafeIds (name : String) : Uuid :=
  if name = "venue_category:cafe" then 0x82f137666a15539e980ae97d46029e9f
  else if name = "venue_category:cafe-general" then 0x1a0521d46a2c5e44abf4b5b30be9ad25
  else 0

/-- The files of the example are well formed. -/
theorem wellFormed_openingFiles : openingFiles.WellFormed :=
  ⟨by decide, by decide, by decide, by decide⟩

/-- So are those of the next version. -/
theorem wellFormed_grownFiles : grownFiles.WellFormed :=
  ⟨by decide, by decide, by decide, by decide⟩

/-- The ids of the example are distinct. -/
theorem distinctIds_cafeIds : DistinctIds cafeIds (ListedBy [grownFiles, openingFiles]) := by
  have hall : ∀ f ∈ [grownFiles, openingFiles], ∀ s ∈ f.categories,
      ∀ g ∈ [grownFiles, openingFiles], ∀ t ∈ g.categories,
        venueCategoryId cafeIds s.slug = venueCategoryId cafeIds t.slug → s.slug = t.slug := by
    decide
  rintro _ _ ⟨f, hf, s, hs, rfl⟩ ⟨g, hg, t, ht, rfl⟩
  exact hall f hf s hs g hg t ht

/-- A category that is no longer in the files, and which stays. -/
def bathCatalog : Catalog where
  categories := Table.empty.insert ⟨0x9b7729fbd0ef5eeeba7b9dfc2dcf7dc4, "hamam", none⟩
  translations := .empty

/-- A catalog with an old category: the owner seeds it, and `_main` does not. -/
theorem seedCatalog_spec_bathCatalog :
    (∀ role, (∃ seeded, seedCatalog role grownFiles cafeIds bathCatalog = some seeded) ↔
        role = .owner) ∧
      seedMain grownFiles cafeIds bathCatalog = none ∧
      ∀ role seeded, seedCatalog role grownFiles cafeIds bathCatalog = some seeded →
        Seeds grownFiles cafeIds bathCatalog seeded ∧ (bathCatalog.Valid → seeded.Valid) := by
  refine seedCatalog_spec grownFiles cafeIds bathCatalog wellFormed_grownFiles
    (fun a b ha hb => distinctIds_cafeIds a b ⟨_, List.mem_cons_self, ha⟩
      ⟨_, List.mem_cons_self, hb⟩) ?_
  intro c hc hlists
  obtain rfl := ((Table.mem_insert rfl).mp hc).resolve_left List.not_mem_nil
  simp [SeedFiles.Lists, grownFiles] at hlists

/-! ## The history of a catalog -/

/-- The catalog after a run of the owner on each version of the files, the latest version first. -/
def seedHistory (uuid5 : String → Uuid) : List SeedFiles → Option Catalog
  | [] => some ⟨.empty, .empty⟩
  | files :: older => do
    let catalog ← seedHistory uuid5 older
    seedCatalog .owner files uuid5 catalog

/-- The seed is that of the latest version which lists its slug, and that version is `files`. -/
def Current : List SeedFiles → SeedFiles → VenueCategorySeed → Prop
  | [], _, _ => False
  | latest :: older, files, seed =>
    files = latest ∧ seed ∈ latest.categories ∨
      Current older files seed ∧ ¬ latest.Lists seed.slug

/-- What a catalog is that has only ever been seeded: a category is stored for each slug that a
version has listed, as the latest of these versions has it, under the names of that version. -/
structure Catalog.IsSeeded (uuid5 : String → Uuid) (versions : List SeedFiles) (catalog : Catalog) :
    Prop where
  valid : catalog.Valid
  categories : ∀ c, c ∈ catalog.categories ↔
    ∃ files seed, Current versions files seed ∧ c = seed.row uuid5
  translations : ∀ t, t ∈ catalog.translations ↔
    ∃ files seed, Current versions files seed ∧
      ∃ locale ∈ supportedLocales, files.translationRow uuid5 locale seed = some t

section History

variable {uuid5 : String → Uuid} {versions older : List SeedFiles} {files latest : SeedFiles}
  {catalog : Catalog} {seed : VenueCategorySeed}

/-- A current category comes from one of the versions. -/
theorem Current.mem (h : Current versions files seed) :
    files ∈ versions ∧ seed ∈ files.categories := by
  induction versions with
  | nil => exact h.elim
  | cons latest older ih =>
    rcases h with ⟨rfl, hseed⟩ | ⟨h, -⟩
    · exact ⟨List.mem_cons_self, hseed⟩
    · exact (ih h).imp_left (List.mem_cons_of_mem latest)

/-- So its slug is in one of them. -/
theorem Current.listedBy (h : Current versions files seed) : ListedBy versions seed.slug :=
  ⟨files, h.mem.1, seed, h.mem.2, rfl⟩

/-- One more version. -/
theorem Catalog.IsSeeded.exists_next (h : catalog.IsSeeded uuid5 older) (hfiles : latest.WellFormed)
    (hid : DistinctIds uuid5 (ListedBy (latest :: older))) :
    ∃ seeded, seedCatalog .owner latest uuid5 catalog = some seeded ∧
      seeded.IsSeeded uuid5 (latest :: older) := by
  have hlatest : ∀ slug, latest.Lists slug → ListedBy (latest :: older) slug :=
    fun slug hslug => ⟨latest, List.mem_cons_self, hslug⟩
  have holder : ∀ {f s}, Current older f s → ListedBy (latest :: older) s.slug := fun hcurrent =>
    ⟨_, List.mem_cons_of_mem latest hcurrent.mem.1, _, hcurrent.mem.2, rfl⟩
  have hdistinct : DistinctIds uuid5 latest.Lists := fun a b ha hb =>
    hid a b (hlatest a ha) (hlatest b hb)
  have hclear : catalog.Clear latest uuid5 := by
    intro c hc _
    obtain ⟨f, s, -, rfl⟩ := (h.categories c).mp hc
    rfl
  -- a category of an older version is replaced just when the latest lists its slug
  have hkept : ∀ {f s}, Current older f s →
      ((∀ seed ∈ latest.categories,
        venueCategoryId uuid5 s.slug ≠ venueCategoryId uuid5 seed.slug) ↔
          ¬ latest.Lists s.slug) := by
    intro f s hcurrent
    constructor
    · rintro hne ⟨seed, hseed, hslug⟩
      exact hne seed hseed (by rw [hslug])
    · intro hnot seed hseed heq
      exact hnot ⟨seed, hseed, (hid _ _ (holder hcurrent) (hlatest _ ⟨seed, hseed, rfl⟩) heq).symm⟩
  obtain ⟨seeded, hseeded⟩ := exists_seedCatalog_owner hfiles hdistinct hclear
  have hseeds := seeds_of_seedCatalog hfiles hseeded
  refine ⟨seeded, hseeded, hseeds.valid hfiles hclear h.valid, fun c => ?_, fun t => ?_⟩
  · rw [hseeds.categories]
    constructor
    · rintro (⟨seed, hseed, rfl⟩ | ⟨hc, hnot⟩)
      · exact ⟨latest, seed, .inl ⟨rfl, hseed⟩, rfl⟩
      · obtain ⟨f, s, hcurrent, rfl⟩ := (h.categories c).mp hc
        exact ⟨f, s, .inr ⟨hcurrent, (hkept hcurrent).mp hnot⟩, rfl⟩
    · rintro ⟨f, s, ⟨rfl, hs⟩ | ⟨hcurrent, hnot⟩, rfl⟩
      · exact .inl ⟨s, hs, rfl⟩
      · exact .inr ⟨(h.categories _).mpr ⟨f, s, hcurrent, rfl⟩, (hkept hcurrent).mpr hnot⟩
  · rw [hseeds.translations]
    constructor
    · rintro (⟨locale, hlocale, seed, hseed, hrow⟩ | ⟨ht, hnot⟩)
      · exact ⟨latest, seed, .inl ⟨rfl, hseed⟩, locale, hlocale, hrow⟩
      · obtain ⟨f, s, hcurrent, locale, hlocale, hrow⟩ := (h.translations t).mp ht
        refine ⟨f, s, .inr ⟨hcurrent, ?_⟩, locale, hlocale, hrow⟩
        rintro ⟨seed, hseed, hslug⟩
        obtain ⟨name, hname⟩ :=
          Option.isSome_iff_exists.mp (hfiles.named locale hlocale seed hseed)
        have hrow' : latest.translationRow uuid5 locale seed =
            some ⟨venueCategoryId uuid5 seed.slug, locale, name⟩ := by
          rw [SeedFiles.translationRow, hname]
          rfl
        refine hnot _ ⟨locale, hlocale, seed, hseed, hrow'⟩ ?_
        rw [key_translationRow hrow, ← hslug]
        rfl
    · rintro ⟨f, s, ⟨rfl, hs⟩ | ⟨hcurrent, hnot⟩, locale, hlocale, hrow⟩
      · exact .inl ⟨locale, hlocale, s, hs, hrow⟩
      · refine .inr ⟨(h.translations t).mpr ⟨f, s, hcurrent, locale, hlocale, hrow⟩, ?_⟩
        rintro t' ⟨locale', -, seed, hseed, hrow'⟩ hkey
        rw [key_translationRow hrow, key_translationRow hrow'] at hkey
        exact (hkept hcurrent).mpr hnot seed hseed (Prod.mk.inj hkey).1

/-- Every run succeeds. -/
theorem exists_seedHistory (hfiles : ∀ files ∈ versions, files.WellFormed)
    (hid : DistinctIds uuid5 (ListedBy versions)) :
    ∃ catalog, seedHistory uuid5 versions = some catalog ∧ catalog.IsSeeded uuid5 versions := by
  induction versions with
  | nil =>
    refine ⟨_, rfl, ⟨nofun, nofun, nofun⟩, fun c => iff_of_false nofun ?_,
      fun t => iff_of_false nofun ?_⟩
    all_goals
      rintro ⟨_, _, ⟨⟩, _⟩
  | cons latest older ih =>
    obtain ⟨hlatest, holder⟩ := List.forall_mem_cons.mp hfiles
    have hlisted : ∀ slug, ListedBy older slug → ListedBy (latest :: older) slug :=
      fun slug ⟨files, hmem, hslug⟩ => ⟨files, List.mem_cons_of_mem latest hmem, hslug⟩
    obtain ⟨catalog, hcatalog, hseeded⟩ := ih holder fun a b ha hb =>
      hid a b (hlisted a ha) (hlisted b hb)
    obtain ⟨next, hnext, hnextSeeded⟩ := hseeded.exists_next hlatest hid
    refine ⟨next, ?_, hnextSeeded⟩
    rw [seedHistory, hcatalog]
    exact hnext

/-- What a history of versions leaves is what the versions say. -/
theorem isSeeded_of_seedHistory (hfiles : ∀ files ∈ versions, files.WellFormed)
    (hid : DistinctIds uuid5 (ListedBy versions))
    (h : seedHistory uuid5 versions = some catalog) : catalog.IsSeeded uuid5 versions := by
  obtain ⟨catalog', hcatalog, hseeded⟩ := exists_seedHistory hfiles hid
  rwa [Option.some.inj (h.symm.trans hcatalog)]

end History

/-- Through whatever versions of the files an empty catalog is seeded, every run succeeds: nothing
is lost, each category and its names are those of the latest version that lists it, and another run
on the latest version changes nothing. -/
theorem seedHistory_spec (uuid5 : String → Uuid) (versions : List SeedFiles)
    (hfiles : ∀ files ∈ versions, files.WellFormed)
    (hid : DistinctIds uuid5 (ListedBy versions)) :
    ∃ catalog, seedHistory uuid5 versions = some catalog ∧ catalog.IsSeeded uuid5 versions ∧
      ∀ latest ∈ versions.head?, seedCatalog .owner latest uuid5 catalog = some catalog := by
  obtain ⟨catalog, hcatalog, hseeded⟩ := exists_seedHistory hfiles hid
  refine ⟨catalog, hcatalog, hseeded, ?_⟩
  rintro latest hlatest
  obtain ⟨older, rfl⟩ := List.head?_eq_some_iff.mp hlatest
  have hwell := hfiles latest List.mem_cons_self
  have hdistinct : DistinctIds uuid5 latest.Lists := fun a b ha hb =>
    hid a b ⟨latest, List.mem_cons_self, ha⟩ ⟨latest, List.mem_cons_self, hb⟩
  rw [seedHistory, Option.bind_eq_bind, Option.bind_eq_some_iff] at hcatalog
  obtain ⟨before, -, hlast⟩ := hcatalog
  exact seedCatalog_seeded hwell hdistinct (seeds_of_seedCatalog hwell hlast) hseeded.valid

/-- Both versions of the example are well formed. -/
theorem wellFormed_cafeVersions : ∀ files ∈ [grownFiles, openingFiles], files.WellFormed :=
  List.forall_mem_cons.mpr
    ⟨wellFormed_grownFiles, List.forall_mem_singleton.mpr wellFormed_openingFiles⟩

/-- Both versions one after the other, and the later one again. -/
theorem seedHistory_spec_cafeVersions :
    ∃ catalog, seedHistory cafeIds [grownFiles, openingFiles] = some catalog ∧
      catalog.IsSeeded cafeIds [grownFiles, openingFiles] ∧
      ∀ latest ∈ [grownFiles, openingFiles].head?,
        seedCatalog .owner latest cafeIds catalog = some catalog :=
  seedHistory_spec cafeIds [grownFiles, openingFiles] wellFormed_cafeVersions distinctIds_cafeIds

end OburBackend
