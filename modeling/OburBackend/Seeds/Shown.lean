import OburBackend.Api.Endpoints
import OburBackend.Core.AcceptLanguage
import OburBackend.Seeds.Runner

/-!
# The seeded catalog, as it is listed

What the seeder stores is what `list_venue_categories` shows: whoever asks and whatever languages
they accept, the tree has a node for every seed that is current, under the name that its files give
it in the locale of the answer, at the top or among the children of its parent
(`categories_of_seedHistory`). That no links go in circles follows from the order in the files
(`complete_of_isSeeded`), and that no name is missing from the locales that can be asked for
(`resolveLocale_mem`).
-/

namespace OburBackend

open Sql

/-! ## The locale of an answer -/

/-- The header is resolved to supported locales. -/
theorem parseAcceptLanguage_mem {header : Option String} {locale : String}
    (h : locale ∈ parseAcceptLanguage header) : locale ∈ supportedLocales := by
  unfold parseAcceptLanguage at h
  split at h
  · cases h
  · split at h
    · cases h
    · obtain ⟨r, hr, rfl⟩ := List.mem_map.mp h
      rw [List.mem_insertionSort] at hr
      obtain ⟨⟨entry, index⟩, -, hrank⟩ := List.mem_filterMap.mp hr
      obtain ⟨w, language, ⟨tag, -, -, hsupported⟩, rfl⟩ := rankEntry_eq_some.mp hrank
      exact hsupported

/-- So is a request. -/
theorem resolveLocale_mem (acceptLanguage : Option String) (viewer : Option User) :
    resolveLocale acceptLanguage viewer ∈ supportedLocales := by
  unfold resolveLocale
  split
  · next u hu => exact of_decide_eq_true (Option.filter_eq_some_iff.mp hu).2
  · cases hparse : parseAcceptLanguage acceptLanguage with
    | nil => exact List.mem_cons_self
    | cons locale locales =>
      exact parseAcceptLanguage_mem (hparse ▸ List.mem_cons_self)

/-! ## The tree -/

section Tree

variable {uuid5 : String → Uuid} {versions older : List SeedFiles} {files latest : SeedFiles}
  {catalog : Catalog} {seed : VenueCategorySeed} {categories : List VenueCategory}
  {names : Uuid → Option String}

/-- A complete category has a node that shows it. -/
theorem exists_shows_of_complete {forest : List CategoryNode}
    (hforest : IsTreeOf categories names forest) {c : VenueCategory}
    (hc : Complete categories names c) :
    ∃ n, Shows names c n ∧
      ((c.parentId = none ∧ n ∈ forest) ∨
        ∃ m ∈ nodesOf forest, c.parentId = some m.id ∧ n ∈ m.children) := by
  cases hc with
  | root hmem hname hroot =>
    obtain ⟨n, hn, hshows⟩ :=
      forall₂_mem_left hforest.roots (mem_siblings.mpr ⟨hmem, hroot, hname⟩)
    exact ⟨n, hshows, .inl ⟨hroot, hn⟩⟩
  | child hmem hname hp hlink =>
    obtain ⟨m, hm, hid⟩ := exists_node_of_complete hforest.roots hforest.children hp
    obtain ⟨n, hn, hshows⟩ := forall₂_mem_left (hforest.children m hm)
      (mem_siblings.mpr ⟨hmem, hid ▸ hlink, hname⟩)
    exact ⟨n, hshows, .inr ⟨m, hm, hid ▸ hlink, hn⟩⟩

/-- The category with this slug hangs below a root. -/
def Hangs (uuid5 : String → Uuid) (categories : List VenueCategory) (names : Uuid → Option String)
    (slug : String) : Prop :=
  ∃ c, Complete categories names c ∧ c.id = venueCategoryId uuid5 slug

/-- Categories that stand after their parents hang below a root. -/
theorem hangs_of_parentsFirst {seen : List String} {seeds : List VenueCategorySeed}
    (horder : SeedFiles.parentsFirst seen seeds = true)
    (hname : ∀ c ∈ categories, (names c.id).isSome = true)
    (hseen : ∀ slug ∈ seen, Hangs uuid5 categories names slug)
    (hmem : ∀ seed ∈ seeds, seed.row uuid5 ∈ categories ∨ Hangs uuid5 categories names seed.slug) :
    ∀ seed ∈ seeds, Hangs uuid5 categories names seed.slug := by
  induction seeds generalizing seen with
  | nil => nofun
  | cons seed seeds ih =>
    rw [SeedFiles.parentsFirst, Bool.and_eq_true] at horder
    obtain ⟨hfirst, hrest⟩ := List.forall_mem_cons.mp hmem
    have hhangs : Hangs uuid5 categories names seed.slug := by
      refine hfirst.elim (fun hrow => ⟨seed.row uuid5, ?_, rfl⟩) id
      cases hparent : seed.parentSlug with
      | none =>
        refine .root hrow (hname _ hrow) ?_
        rw [VenueCategorySeed.row, hparent]
        rfl
      | some parent =>
        rw [hparent] at horder
        obtain ⟨c, hc, hid⟩ := hseen parent (of_decide_eq_true horder.1)
        refine .child hrow (hname _ hrow) hc ?_
        rw [VenueCategorySeed.row, hparent, hid]
        rfl
    refine List.forall_mem_cons.mpr ⟨hhangs, ih horder.2 (fun slug hslug => ?_) hrest⟩
    rcases List.mem_cons.mp hslug with rfl | hslug
    · exact hhangs
    · exact hseen slug hslug

/-- So they do through all versions: the parent of a category is of the same version or has been
replaced by a later one. The induction goes from the latest version back, with the slugs of the
later ones as `D`. -/
theorem hangs_of_listedBy {D : String → Prop} (hfiles : ∀ files ∈ versions, files.WellFormed)
    (hname : ∀ c ∈ categories, (names c.id).isSome = true)
    (hdone : ∀ slug, D slug → Hangs uuid5 categories names slug)
    (hmem : ∀ files seed, Current versions files seed → ¬ D seed.slug →
      seed.row uuid5 ∈ categories) {slug : String} (hslug : ListedBy versions slug) :
    Hangs uuid5 categories names slug := by
  induction versions generalizing D with
  | nil =>
    obtain ⟨_, hnil, -⟩ := hslug
    cases hnil
  | cons latest older ih =>
    obtain ⟨hlatest, holder⟩ := List.forall_mem_cons.mp hfiles
    have hlisted : ∀ seed ∈ latest.categories, Hangs uuid5 categories names seed.slug := by
      refine hangs_of_parentsFirst hlatest.parents hname nofun fun seed hseed => ?_
      by_cases hlater : D seed.slug
      · exact .inr (hdone _ hlater)
      · exact .inl (hmem latest seed (.inl ⟨rfl, hseed⟩) hlater)
    have hnext : ∀ slug, D slug ∨ latest.Lists slug → Hangs uuid5 categories names slug := by
      rintro slug (hlater | ⟨seed, hseed, rfl⟩)
      · exact hdone slug hlater
      · exact hlisted seed hseed
    obtain ⟨files, hfile, hlists⟩ := hslug
    rcases List.mem_cons.mp hfile with rfl | hfile
    · exact hnext slug (.inr hlists)
    · refine ih holder hnext (fun files seed hcurrent hnot => ?_) ⟨files, hfile, hlists⟩
      exact hmem files seed (.inr ⟨hcurrent, fun h => hnot (.inr h)⟩) fun h => hnot (.inl h)

/-- Every category of a seeded catalog hangs below a root. -/
theorem complete_of_isSeeded (hcatalog : catalog.IsSeeded uuid5 versions)
    (hfiles : ∀ files ∈ versions, files.WellFormed)
    (hmem : ∀ c, c ∈ categories ↔ c ∈ catalog.categories)
    (hname : ∀ c ∈ categories, (names c.id).isSome = true) {c : VenueCategory}
    (hc : c ∈ catalog.categories) : Complete categories names c := by
  obtain ⟨files, seed, hcurrent, rfl⟩ := (hcatalog.categories c).mp hc
  obtain ⟨c, hcomplete, hid⟩ := hangs_of_listedBy (D := fun _ => False) hfiles hname nofun
    (fun files seed h _ => (hmem _).mpr ((hcatalog.categories _).mpr ⟨files, seed, h, rfl⟩))
    hcurrent.listedBy
  have hstored : c ∈ catalog.categories := by
    refine (hmem c).mp ?_
    cases hcomplete with
    | root h _ _ => exact h
    | child h _ _ _ => exact h
  rwa [← Table.eq_of_key_eq hstored hc hid]

end Tree

/-- What the endpoint answers with: the tree of all categories, under their names in the locale of
the answer. -/
theorem outcome_listVenueCategories (b : Backend) (c : Ctx) (db : Db) (me : Identity)
    (acceptLanguage : Option String) (viewer : Option User)
    (hlimit : db.venueCategories.rows.length < b.recursionLimit) :
    ∃ tree, (ViewerEndpoint.listVenueCategories.run b c acceptLanguage viewer).outcome me db =
        .ok (.categories tree) ∧
      IsTreeOf (orderBy (fun x y => b.collation x.slug y.slug) b.categoryPlan
          db.venueCategories.rows)
        (resolveNames b.translationPlan b.translations (resolveLocale acceptLanguage viewer))
        tree := by
  obtain ⟨tree, hforest, htree⟩ := outcome_listCategoryTree b.collation b.categoryPlan
    b.translationPlan b.translations (resolveLocale acceptLanguage viewer) me db hlimit
  refine ⟨tree, ?_, htree⟩
  have hbuild : buildTree b.recursionLimit
      (orderBy (fun x y => b.collation x.slug y.slug) b.categoryPlan
        (venueCategories.rows me db fun _ => true))
      (resolveNames b.translationPlan b.translations (resolveLocale acceptLanguage viewer)) =
        some tree := Except.ok.inj hforest
  change Prog.outcome (Prog.bind (.ret (buildTree b.recursionLimit
    (orderBy (fun x y => b.collation x.slug y.slug) b.categoryPlan
      (venueCategories.rows me db fun _ => true))
    (resolveNames b.translationPlan b.translations (resolveLocale acceptLanguage viewer)))) _)
      me db = _
  rw [hbuild]
  rfl

/-- What a seeder has stored is listed: for whatever versions of the files, to whoever asks and in
whatever languages, each seed that is current is shown once, under the name that its files have in
the locale of the answer, at the top or among the children of its parent. -/
theorem categories_of_seedHistory (uuid5 : String → Uuid) (versions : List SeedFiles)
    (catalog : Catalog) (b : Backend) (c : Ctx) (db : Db) (me : Identity)
    (acceptLanguage : Option String) (viewer : Option User)
    (hfiles : ∀ files ∈ versions, files.WellFormed) (hid : DistinctIds uuid5 (ListedBy versions))
    (hseeded : seedHistory uuid5 versions = some catalog)
    (hcategories : db.venueCategories = catalog.categories)
    (htranslations : b.translations = catalog.translations)
    (hlimit : db.venueCategories.rows.length < b.recursionLimit) :
    ∃ tree, (ViewerEndpoint.listVenueCategories.run b c acceptLanguage viewer).outcome me db =
        .ok (.categories tree) ∧
      ((nodesOf tree).map CategoryNode.id).Nodup ∧
      ∀ files seed, Current versions files seed →
        ∃ n, n.id = venueCategoryId uuid5 seed.slug ∧ n.slug = seed.slug ∧
          files.name (resolveLocale acceptLanguage viewer) seed.slug = some n.name ∧
          ((seed.parentSlug = none ∧ n ∈ tree) ∨
            ∃ m ∈ nodesOf tree, seed.parentSlug.map (venueCategoryId uuid5) = some m.id ∧
              n ∈ m.children) := by
  have hcatalog := isSeeded_of_seedHistory hfiles hid hseeded
  obtain ⟨tree, hout, htree⟩ :=
    outcome_listVenueCategories b c db me acceptLanguage viewer hlimit
  rw [htranslations] at htree
  refine ⟨tree, hout, htree.once, fun files seed hcurrent => ?_⟩
  have hlocale := resolveLocale_mem acceptLanguage viewer
  -- the name that the files have is the one that is stored, and so the one that is found
  have hname : ∀ {f s}, Current versions f s → ∃ name,
      f.name (resolveLocale acceptLanguage viewer) s.slug = some name ∧
        resolveNames b.translationPlan catalog.translations (resolveLocale acceptLanguage viewer)
          (venueCategoryId uuid5 s.slug) = some name := by
    intro f s hcurrent
    obtain ⟨hf, hs⟩ := hcurrent.mem
    obtain ⟨name, hname⟩ := Option.isSome_iff_exists.mp ((hfiles f hf).named _ hlocale s hs)
    have hrow := (hcatalog.translations
      ⟨venueCategoryId uuid5 s.slug, resolveLocale acceptLanguage viewer, name⟩).mpr
        ⟨f, s, hcurrent, _, hlocale, by rw [SeedFiles.translationRow, hname]; rfl⟩
    refine ⟨name, hname, ?_⟩
    have hget : catalog.translations.get
        (venueCategoryId uuid5 s.slug, resolveLocale acceptLanguage viewer) =
          some ⟨venueCategoryId uuid5 s.slug, resolveLocale acceptLanguage viewer, name⟩ :=
      Table.get_eq_some.mpr ⟨hrow, rfl⟩
    rw [resolveNames_eq, hget]
    rfl
  have hmem : ∀ c, c ∈ orderBy (fun x y => b.collation x.slug y.slug) b.categoryPlan
      db.venueCategories.rows ↔ c ∈ catalog.categories := by
    intro c
    rw [(orderBy_perm _ _ _).mem_iff, hcategories]
    rfl
  have hcomplete := complete_of_isSeeded hcatalog hfiles hmem
    (by
      intro c hc
      obtain ⟨f, s, hs, rfl⟩ := (hcatalog.categories c).mp ((hmem c).mp hc)
      obtain ⟨name, -, hfound⟩ := hname hs
      exact Option.isSome_iff_exists.mpr ⟨name, hfound⟩)
    ((hcatalog.categories _).mpr ⟨files, seed, hcurrent, rfl⟩)
  obtain ⟨n, ⟨hid, hslug, hshown⟩, hplace⟩ := exists_shows_of_complete htree hcomplete
  obtain ⟨name, hfile, hfound⟩ := hname hcurrent
  refine ⟨n, hid, hslug, ?_, ?_⟩
  · rw [hfile]
    exact hfound.symm.trans hshown
  · exact hplace.imp_left (And.imp_left Option.map_eq_none_iff.mp)

/-- The catalog of cafés, after its two versions. -/
def cafeCatalog : Catalog := (seedHistory cafeIds [grownFiles, openingFiles]).get (by decide)

def cafeDb : Db := { Db.empty with venueCategories := cafeCatalog.categories }

def cafeBackend : Backend := { Backend.plain with translations := cafeCatalog.translations }

/-- The categories of the example as an English visitor gets them. -/
theorem categories_of_seedHistory_cafes :
    ∃ tree, (ViewerEndpoint.listVenueCategories.run cafeBackend (.fixed 0 1) (some "en")
        none).outcome none cafeDb = .ok (.categories tree) ∧
      ((nodesOf tree).map CategoryNode.id).Nodup ∧
      ∀ files seed, Current [grownFiles, openingFiles] files seed →
        ∃ n, n.id = venueCategoryId cafeIds seed.slug ∧ n.slug = seed.slug ∧
          files.name (resolveLocale (some "en") none) seed.slug = some n.name ∧
          ((seed.parentSlug = none ∧ n ∈ tree) ∨
            ∃ m ∈ nodesOf tree, seed.parentSlug.map (venueCategoryId cafeIds) = some m.id ∧
              n ∈ m.children) :=
  categories_of_seedHistory cafeIds [grownFiles, openingFiles] cafeCatalog cafeBackend (.fixed 0 1)
    cafeDb none (some "en") none wellFormed_cafeVersions distinctIds_cafeIds
    (Option.some_get _).symm rfl rfl (by decide)

end OburBackend
