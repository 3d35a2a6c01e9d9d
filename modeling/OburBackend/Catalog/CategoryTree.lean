import OburBackend.Service.VenueCategory
import OburBackend.Tree.ParentLinks

/-!
# The tree of categories

`build` follows the links from parent to child, of which some may go in circles. From the roots it
never meets those: what it meets has a depth (`ParentLinks.RootedAt`), and the depth bounds the
recursion (`exists_build`). The tree then shows the categories that hang, with all their ancestors
named, below a root, and no other (`IsTreeOf`).
-/

namespace OburBackend

open Sql Relation ParentLinks

/-! ## Specification -/

mutual

/-- The node and what is below it. -/
def CategoryNode.nodes : CategoryNode → List CategoryNode
  | ⟨id, slug, name, children⟩ => ⟨id, slug, name, children⟩ :: nodesOf children

/-- The nodes of a forest. -/
def nodesOf : List CategoryNode → List CategoryNode
  | [] => []
  | n :: ns => n.nodes ++ nodesOf ns

end

/-- The node shows the category under its name. -/
def Shows (names : Uuid → Option String) (c : VenueCategory) (n : CategoryNode) : Prop :=
  n.id = c.id ∧ n.slug = c.slug ∧ names c.id = some n.name

/-- The named categories under a parent, in the order of the input. -/
def siblings (categories : List VenueCategory) (names : Uuid → Option String)
    (parentId : Option Uuid) : List VenueCategory :=
  categories.filter fun c => decide (c.parentId = parentId) && (names c.id).isSome

/-- The category and all its ancestors, up to a root, are listed and named. -/
inductive Complete (categories : List VenueCategory) (names : Uuid → Option String) :
    VenueCategory → Prop
  | root {c : VenueCategory} : c ∈ categories → (names c.id).isSome → c.parentId = none →
    Complete categories names c
  | child {c p : VenueCategory} : c ∈ categories → (names c.id).isSome →
    Complete categories names p → c.parentId = some p.id → Complete categories names c

/-- The forest shows the complete categories, each once, under its parent and in the order of the
input. -/
structure IsTreeOf (categories : List VenueCategory) (names : Uuid → Option String)
    (forest : List CategoryNode) : Prop where
  once : ((nodesOf forest).map CategoryNode.id).Nodup
  shown : ∀ c ∈ categories, (∃ n ∈ nodesOf forest, n.id = c.id) ↔ Complete categories names c
  roots : List.Forall₂ (Shows names) (siblings categories names none) forest
  children : ∀ n ∈ nodesOf forest,
    List.Forall₂ (Shows names) (siblings categories names (some n.id)) n.children

/-! ## Forests -/

/-- The nodes of a forest are its roots, each followed by the nodes under it. -/
theorem nodesOf_eq_flatMap (forest : List CategoryNode) :
    nodesOf forest = forest.flatMap fun n => n :: nodesOf n.children := by
  induction forest with
  | nil => rfl
  | cons n ns ih =>
    obtain ⟨id, slug, name, children⟩ := n
    rw [nodesOf, CategoryNode.nodes, List.flatMap_cons, ih]

/-- A node of the forest is a root or below one. -/
theorem mem_nodesOf {forest : List CategoryNode} {m : CategoryNode} :
    m ∈ nodesOf forest ↔ ∃ n ∈ forest, m = n ∨ m ∈ nodesOf n.children := by
  rw [nodesOf_eq_flatMap, List.mem_flatMap]
  simp only [List.mem_cons]

mutual

/-- A child of a node below a node is below it. -/
theorem CategoryNode.mem_nodes_of_child {m k : CategoryNode} : ∀ {n : CategoryNode},
    m ∈ n.nodes → k ∈ m.children → k ∈ n.nodes
  | ⟨id, slug, name, children⟩, hm, hk => by
    rw [CategoryNode.nodes, List.mem_cons] at hm ⊢
    rcases hm with rfl | hm
    · exact .inr (mem_nodesOf.mpr ⟨k, hk, .inl rfl⟩)
    · exact .inr (mem_nodesOf_of_child hm hk)

/-- The children of a node are nodes. -/
theorem mem_nodesOf_of_child {m k : CategoryNode} : ∀ {forest : List CategoryNode},
    m ∈ nodesOf forest → k ∈ m.children → k ∈ nodesOf forest
  | [], hm, _ => absurd hm List.not_mem_nil
  | n :: ns, hm, hk => by
    rw [nodesOf, List.mem_append] at hm ⊢
    exact hm.imp (fun h => CategoryNode.mem_nodes_of_child h hk) fun h => mem_nodesOf_of_child h hk

end

/-! ## The loops -/

/-- The children of a category are those that name it as their parent. -/
theorem childrenOf_eq (categories : List VenueCategory) (parentId : Option Uuid) :
    childrenOf categories parentId = categories.filter fun c => decide (c.parentId = parentId) := by
  induction categories using List.reverseRecOn with
  | nil => rfl
  | append_singleton categories c ih =>
    rw [childrenOf, List.foldl_append, List.filter_append, ← ih]
    simp only [List.foldl_cons, List.foldl_nil, Function.update_apply]
    by_cases h : parentId = c.parentId
    · subst h
      simp [childrenOf]
    · simp [childrenOf, h, Ne.symm h]

/-- The name of a category in a locale is that of the last row that has both. -/
theorem byLocale_eq (result : List VenueCategoryTranslation) (locale : String) (id : Uuid) :
    byLocale result locale id =
      (result.reverse.find? fun t => decide (t.key = (id, locale))).map
        VenueCategoryTranslation.name := by
  induction result using List.reverseRecOn with
  | nil => rfl
  | append_singleton result t ih =>
    rw [byLocale, List.foldl_append, List.reverse_append, List.reverse_singleton,
      List.singleton_append, List.foldl_cons, List.foldl_nil]
    by_cases hkey : t.key = (id, locale)
    · obtain ⟨rfl, rfl⟩ := Prod.mk.inj hkey
      rw [List.find?_cons_of_pos (by simpa using hkey), Function.update_self, Function.update_self]
      rfl
    · rw [List.find?_cons_of_neg (by simpa using hkey), ← ih]
      by_cases hlocale : locale = t.locale
      · subst hlocale
        have hid : id ≠ t.categoryId := by
          rintro rfl
          exact hkey rfl
        rw [Function.update_self, Function.update_of_ne hid]
        rfl
      · rw [Function.update_of_ne hlocale]
        rfl

/-- Each name is that of the locale, if the category has one there, and else that of the default
locale. -/
theorem resolveNames_eq (plan : Plan VenueCategoryTranslation)
    (translations : Table VenueCategoryTranslation.key) (locale : String) (id : Uuid) :
    resolveNames plan translations locale id =
      ((translations.get (id, locale)).or (translations.get (id, defaultLocale))).map
        VenueCategoryTranslation.name := by
  have hget : ∀ wanted ∈ [locale, defaultLocale],
      (plan.arrange (translations.select fun t =>
        decide (t.locale ∈ [locale, defaultLocale]))).reverse.find?
          (fun t => decide (t.key = (id, wanted))) = translations.get (id, wanted) := by
    intro wanted hwanted
    refine Table.find?_eq_get fun t hkey => ?_
    have hlocale : t.locale = wanted := congrArg Prod.snd hkey
    rw [List.mem_reverse, (plan.perm _).mem_iff, Table.mem_select]
    exact and_iff_left (decide_eq_true (hlocale ▸ hwanted))
  simp only [resolveNames, byLocale_eq]
  rw [hget locale (by simp), hget defaultLocale (by simp), Option.map_or]

/-! ## The recursion -/

/-- A `mapM` that gives up nowhere. -/
theorem mapM_eq_some_iff {α β : Type} {f : α → Option β} {l : List α} {l' : List β} :
    l.mapM f = some l' ↔ List.Forall₂ (fun x y => f x = some y) l l' := by
  induction l generalizing l' with
  | nil => simp [eq_comm]
  | cons x l ih =>
    simp only [List.mapM_cons, Option.bind_eq_bind, Option.bind_eq_some_iff, ih,
      List.forall₂_cons_left_iff, Option.pure_def, Option.some.injEq]
    constructor
    · rintro ⟨y, hy, ys, hys, rfl⟩
      exact ⟨y, ys, hy, hys, rfl⟩
    · rintro ⟨y, ys, hy, hys, rfl⟩
      exact ⟨y, hy, ys, hys, rfl⟩

section Forall₂

variable {α β : Type} {P : α → β → Prop} {l : List α} {l' : List β}

/-- When each element has a partner there is a list of partners. -/
theorem exists_forall₂ (h : ∀ x ∈ l, ∃ y, P x y) : ∃ l', List.Forall₂ P l l' := by
  induction l with
  | nil => exact ⟨[], .nil⟩
  | cons x l ih =>
    obtain ⟨y, hy⟩ := h x List.mem_cons_self
    obtain ⟨l', hl⟩ := ih fun x hx => h x (List.mem_cons_of_mem _ hx)
    exact ⟨y :: l', .cons hy hl⟩

/-- Each element of the first list has a partner in the second. -/
theorem forall₂_mem_left (h : List.Forall₂ P l l') {x : α} (hx : x ∈ l) : ∃ y ∈ l', P x y := by
  induction h with
  | nil => exact absurd hx List.not_mem_nil
  | @cons _ y _ _ hxy _ ih =>
    rcases List.mem_cons.mp hx with rfl | hx
    · exact ⟨y, List.mem_cons_self, hxy⟩
    · obtain ⟨y, hy, hP⟩ := ih hx
      exact ⟨y, List.mem_cons_of_mem _ hy, hP⟩

/-- Each element of the second list has a partner in the first. -/
theorem forall₂_mem_right (h : List.Forall₂ P l l') {y : β} (hy : y ∈ l') : ∃ x ∈ l, P x y :=
  forall₂_mem_left h.flip hy

/-- Partners with the same value make lists with the same values. -/
theorem map_eq_of_forall₂ {γ : Type} {f : α → γ} {g : β → γ} (h : List.Forall₂ P l l')
    (hP : ∀ x y, P x y → f x = g y) : l.map f = l'.map g := by
  induction h with
  | nil => rfl
  | cons hxy _ ih => rw [List.map_cons, List.map_cons, hP _ _ hxy, ih]

end Forall₂

variable {categories : List VenueCategory} {names : Uuid → Option String}

/-- One level: the siblings, each with what is built below it. -/
theorem build_succ_eq_some {fuel : ℕ} {parentId : Option Uuid} {forest : List CategoryNode} :
    build (childrenOf categories) names (fuel + 1) parentId = some forest ↔
      List.Forall₂ (fun c n => Shows names c n ∧
        build (childrenOf categories) names fuel (some c.id) = some n.children)
        (siblings categories names parentId) forest := by
  have hlevel : (childrenOf categories parentId).filter (fun c => (names c.id).isSome) =
      siblings categories names parentId := by
    rw [childrenOf_eq, List.filter_filter]
    exact List.filter_congr fun c _ => Bool.and_comm _ _
  have hnode : ∀ (c : VenueCategory) (n : CategoryNode),
      ((do
        let name ← names c.id
        let children ← build (childrenOf categories) names fuel (some c.id)
        return { id := c.id, slug := c.slug, name, children } : Option CategoryNode) = some n) ↔
        Shows names c n ∧
          build (childrenOf categories) names fuel (some c.id) = some n.children := by
    rintro c ⟨id, slug, name, children⟩
    simp only [Option.bind_eq_bind, Option.bind_eq_some_iff, Option.pure_def, Option.some.injEq,
      CategoryNode.mk.injEq, Shows]
    constructor
    · rintro ⟨_, hname, _, hchildren, rfl, rfl, rfl, rfl⟩
      exact ⟨⟨rfl, rfl, hname⟩, hchildren⟩
    · rintro ⟨⟨rfl, rfl, hname⟩, hchildren⟩
      exact ⟨_, hname, _, hchildren, rfl, rfl, rfl, rfl⟩
  rw [build, hlevel, mapM_eq_some_iff]
  exact ⟨List.Forall₂.imp fun c n => (hnode c n).mp, List.Forall₂.imp fun c n => (hnode c n).mpr⟩

/-- More fuel changes nothing. -/
theorem build_mono {fuel more : ℕ} (hle : fuel ≤ more) {parentId : Option Uuid}
    {forest : List CategoryNode}
    (hbuild : build (childrenOf categories) names fuel parentId = some forest) :
    build (childrenOf categories) names more parentId = some forest := by
  induction fuel generalizing more parentId forest with
  | zero => exact absurd hbuild (Option.some_ne_none _).symm
  | succ fuel ih =>
    obtain ⟨more, rfl⟩ : ∃ more', more = more' + 1 := Nat.exists_eq_add_of_le' (by omega)
    rw [build_succ_eq_some] at hbuild ⊢
    exact hbuild.imp fun c n h => ⟨h.1, ih (Nat.le_of_succ_le_succ hle) h.2⟩

/-- The items that links lead to: the categories that are listed and named. -/
abbrev named (categories : List VenueCategory) (names : Uuid → Option String) :
    List VenueCategory :=
  categories.filter fun c => (names c.id).isSome

/-- A category that hangs below a root, at a depth. -/
abbrev HangsAt (categories : List VenueCategory) (names : Uuid → Option String) :
    ℕ → VenueCategory → Prop :=
  RootedAt VenueCategory.id VenueCategory.parentId (named categories names)

/-- The siblings are the named categories with that parent. -/
theorem mem_siblings {parentId : Option Uuid} {c : VenueCategory} :
    c ∈ siblings categories names parentId ↔
      c ∈ categories ∧ c.parentId = parentId ∧ (names c.id).isSome := by
  simp [siblings]

/-- The named categories are those with a name in the locale. -/
theorem mem_named {c : VenueCategory} :
    c ∈ named categories names ↔ c ∈ categories ∧ (names c.id).isSome := by
  simp [named]

/-- What hangs below a root is complete. -/
theorem complete_iff {c : VenueCategory} :
    Complete categories names c ↔ ∃ depth, HangsAt categories names depth c := by
  constructor
  · intro h
    induction h with
    | root hc hname hroot => exact ⟨0, .root (mem_named.mpr ⟨hc, hname⟩) hroot⟩
    | child hc hname _ hlink ih =>
      obtain ⟨depth, hp⟩ := ih
      exact ⟨depth + 1, .child (mem_named.mpr ⟨hc, hname⟩) hp hlink⟩
  · rintro ⟨depth, h⟩
    induction h with
    | root hc hroot =>
      obtain ⟨hc, hname⟩ := mem_named.mp hc
      exact .root hc hname hroot
    | child hc _ hlink ih =>
      obtain ⟨hc, hname⟩ := mem_named.mp hc
      exact .child hc hname ih hlink

/-- A category without a parent hangs at the top. -/
theorem hangsAt_siblings_root {c : VenueCategory} (hc : c ∈ siblings categories names none) :
    HangsAt categories names 0 c := by
  obtain ⟨hc, hroot, hname⟩ := mem_siblings.mp hc
  exact .root (mem_named.mpr ⟨hc, hname⟩) hroot

/-- A child hangs one below its parent. -/
theorem hangsAt_siblings {depth : ℕ} {p c : VenueCategory} (hp : HangsAt categories names depth p)
    (hc : c ∈ siblings categories names (some p.id)) : HangsAt categories names (depth + 1) c := by
  obtain ⟨hc, hlink, hname⟩ := mem_siblings.mp hc
  exact .child (mem_named.mpr ⟨hc, hname⟩) hp hlink

/-- What is built below a category are its descendants, and deeper than it. -/
theorem build_below {fuel depth : ℕ} {c : VenueCategory} {forest : List CategoryNode}
    (hc : HangsAt categories names depth c)
    (hbuild : build (childrenOf categories) names fuel (some c.id) = some forest) :
    ∀ n ∈ nodesOf forest, ∃ x k, depth < k ∧ HangsAt categories names k x ∧ n.id = x.id ∧
      ReflTransGen (HasParent VenueCategory.id VenueCategory.parentId (named categories names))
        x c := by
  induction fuel generalizing depth c forest with
  | zero => exact absurd hbuild (Option.some_ne_none _).symm
  | succ fuel ih =>
    intro n hn
    obtain ⟨m, hm, hin⟩ := mem_nodesOf.mp hn
    obtain ⟨c', hc', hshows, hchildren⟩ := forall₂_mem_right (build_succ_eq_some.mp hbuild) hm
    have hdeeper := hangsAt_siblings hc hc'
    have hlink : HasParent VenueCategory.id VenueCategory.parentId (named categories names) c' c :=
      ⟨hc.mem, (mem_siblings.mp hc').2.1⟩
    rcases hin with rfl | hin
    · exact ⟨c', depth + 1, Nat.lt_succ_self _, hdeeper, hshows.1, .single hlink⟩
    · obtain ⟨x, k, hk, hx, hid, hup⟩ := ih hdeeper hchildren n hin
      exact ⟨x, k, Nat.lt_of_succ_lt hk, hx, hid, hup.tail hlink⟩

section

variable (hids : (categories.map VenueCategory.id).Nodup)
include hids

/-- No two named categories have one id. -/
theorem nodup_named : ((named categories names).map VenueCategory.id).Nodup :=
  hids.sublist (List.filter_sublist.map _)

/-- The recursion ends: the fuel that is left covers the depths that are left. -/
theorem exists_build {fuel depth : ℕ} {parentId : Option Uuid}
    (hdepth : ∀ c ∈ siblings categories names parentId, HangsAt categories names depth c)
    (hfuel : (named categories names).length ≤ fuel + depth) :
    ∃ forest, build (childrenOf categories) names (fuel + 1) parentId = some forest := by
  induction fuel generalizing depth parentId with
  | zero =>
    have hnone : siblings categories names parentId = [] := by
      refine List.eq_nil_iff_forall_not_mem.mpr fun c hc => ?_
      have hlt := (hdepth c hc).lt_length (nodup_named hids)
      omega
    exact ⟨[], build_succ_eq_some.mpr (hnone ▸ .nil)⟩
  | succ fuel ih =>
    have hnodes : ∀ c ∈ siblings categories names parentId, ∃ n, Shows names c n ∧
        build (childrenOf categories) names (fuel + 1) (some c.id) = some n.children := by
      intro c hc
      have hdeeper : ∀ c' ∈ siblings categories names (some c.id),
          HangsAt categories names (depth + 1) c' := fun _ => hangsAt_siblings (hdepth c hc)
      obtain ⟨children, hchildren⟩ := ih hdeeper (by omega)
      obtain ⟨name, hname⟩ := Option.isSome_iff_exists.mp (mem_siblings.mp hc).2.2
      exact ⟨⟨c.id, c.slug, name, children⟩, ⟨rfl, rfl, hname⟩, hchildren⟩
    obtain ⟨forest, hforest⟩ := exists_forall₂ hnodes
    exact ⟨forest, build_succ_eq_some.mpr hforest⟩

/-- No category is shown twice. -/
theorem build_nodup {fuel depth : ℕ} {parentId : Option Uuid} {forest : List CategoryNode}
    (hdepth : ∀ c ∈ siblings categories names parentId, HangsAt categories names depth c)
    (hbuild : build (childrenOf categories) names fuel parentId = some forest) :
    ((nodesOf forest).map CategoryNode.id).Nodup := by
  have hnamed : ((named categories names).map VenueCategory.id).Nodup := nodup_named hids
  induction fuel generalizing depth parentId forest with
  | zero => exact absurd hbuild (Option.some_ne_none _).symm
  | succ fuel ih =>
    have hlevel := build_succ_eq_some.mp hbuild
    -- the ids under a node of this level are of descendants of its category
    have hbelow : ∀ m ∈ forest, ∃ c ∈ siblings categories names parentId, m.id = c.id ∧
        (∀ n ∈ m :: nodesOf m.children, ∃ x k, HangsAt categories names k x ∧ n.id = x.id ∧
          ReflTransGen (HasParent VenueCategory.id VenueCategory.parentId
            (named categories names)) x c) ∧
        ((m :: nodesOf m.children).map CategoryNode.id).Nodup := by
      intro m hm
      obtain ⟨c, hc, hshows, hchildren⟩ := forall₂_mem_right hlevel hm
      have hunder := build_below (hdepth c hc) hchildren
      refine ⟨c, hc, hshows.1, ?_, List.nodup_cons.mpr ⟨?_, ?_⟩⟩
      · rintro n (_ | ⟨_, hn⟩)
        · exact ⟨c, depth, hdepth c hc, hshows.1, .refl⟩
        · obtain ⟨x, k, -, hx⟩ := hunder n hn
          exact ⟨x, k, hx⟩
      · intro hself
        obtain ⟨n, hn, hid⟩ := List.mem_map.mp hself
        obtain ⟨x, k, hk, hx, hnx, -⟩ := hunder n hn
        have hsame : x = c := List.inj_on_of_nodup_map hnamed hx.mem (hdepth c hc).mem
          (hnx.symm.trans (hid.trans hshows.1))
        have hdeep := (hsame ▸ hx).unique hnamed (hdepth c hc)
        omega
      · exact ih (fun c' hc' => hangsAt_siblings (hdepth c hc) hc') hchildren
    have hids' : (forest.map CategoryNode.id).Nodup := by
      rw [← map_eq_of_forall₂ hlevel fun c n h => h.1.1.symm]
      exact hids.sublist (List.filter_sublist.map _)
    rw [nodesOf_eq_flatMap, List.map_flatMap, List.nodup_flatMap]
    refine ⟨fun m hm => (hbelow m hm).elim fun _ h => h.2.2.2, ?_⟩
    rw [List.Nodup, List.pairwise_map] at hids'
    refine hids'.imp_of_mem fun {m m'} hm hm' hne i hi hi' => hne ?_
    -- a category under two of the siblings has both as ancestors of the same depth
    obtain ⟨c, hc, hmc, hunder, -⟩ := hbelow m hm
    obtain ⟨c', hc', hmc', hunder', -⟩ := hbelow m' hm'
    obtain ⟨n, hn, rfl⟩ := List.mem_map.mp hi
    obtain ⟨n', hn', hnn'⟩ := List.mem_map.mp hi'
    obtain ⟨x, _, hx, hnx, hup⟩ := hunder n hn
    obtain ⟨x', _, hx', hnx', hup'⟩ := hunder' n' hn'
    have hsame : x = x' := List.inj_on_of_nodup_map hnamed hx.mem hx'.mem
      (hnx.symm.trans (hnn'.symm.trans hnx'))
    have hcc' : c = c' :=
      eq_of_common_descendant hnamed (hdepth c hc) (hdepth c' hc') hup (hsame ▸ hup')
    rw [hmc, hmc', hcc']

end

/-! ## The tree -/

/-- Under each node are the named categories that name it as their parent. -/
theorem build_children {fuel : ℕ} {parentId : Option Uuid} {forest : List CategoryNode}
    (hbuild : build (childrenOf categories) names fuel parentId = some forest) :
    ∀ n ∈ nodesOf forest,
      List.Forall₂ (Shows names) (siblings categories names (some n.id)) n.children := by
  induction fuel generalizing parentId forest with
  | zero => exact absurd hbuild (Option.some_ne_none _).symm
  | succ fuel ih =>
    intro n hn
    obtain ⟨m, hm, hin⟩ := mem_nodesOf.mp hn
    obtain ⟨c, -, hshows, hchildren⟩ := forall₂_mem_right (build_succ_eq_some.mp hbuild) hm
    rcases hin with rfl | hin
    · rw [hshows.1]
      cases fuel with
      | zero => exact absurd hchildren (Option.some_ne_none _).symm
      | succ fuel => exact (build_succ_eq_some.mp hchildren).imp fun _ _ h => h.1
    · exact ih hchildren n hin

/-- A complete category is shown, as all its ancestors are. -/
theorem exists_node_of_complete {forest : List CategoryNode}
    (hroots : List.Forall₂ (Shows names) (siblings categories names none) forest)
    (hchildren : ∀ n ∈ nodesOf forest,
      List.Forall₂ (Shows names) (siblings categories names (some n.id)) n.children)
    {c : VenueCategory} (hc : Complete categories names c) : ∃ n ∈ nodesOf forest, n.id = c.id := by
  induction hc with
  | root hc hname hroot =>
    obtain ⟨n, hn, hshows⟩ := forall₂_mem_left hroots (mem_siblings.mpr ⟨hc, hroot, hname⟩)
    exact ⟨n, mem_nodesOf.mpr ⟨n, hn, .inl rfl⟩, hshows.1⟩
  | child hc hname _ hlink ih =>
    obtain ⟨m, hm, hid⟩ := ih
    obtain ⟨n, hn, hshows⟩ := forall₂_mem_left (hchildren m hm)
      (mem_siblings.mpr ⟨hc, hid ▸ hlink, hname⟩)
    exact ⟨n, mem_nodesOf_of_child hm hn, hshows.1⟩

/-- What the recursion builds is the tree of the categories. -/
theorem isTreeOf_of_buildTree (hids : (categories.map VenueCategory.id).Nodup) {fuel : ℕ}
    {forest : List CategoryNode} (hbuild : buildTree fuel categories names = some forest) :
    IsTreeOf categories names forest := by
  have hchildren := build_children hbuild
  cases fuel with
  | zero => exact absurd hbuild (Option.some_ne_none _).symm
  | succ fuel =>
    have hlevel := build_succ_eq_some.mp hbuild
    have hroots := hlevel.imp fun _ _ h => h.1
    refine ⟨build_nodup hids (fun _ => hangsAt_siblings_root) hbuild, fun c hc => ⟨?_, ?_⟩,
      hroots, hchildren⟩
    · rintro ⟨n, hn, hid⟩
      obtain ⟨m, hm, hin⟩ := mem_nodesOf.mp hn
      obtain ⟨r, hr, hshows, hbelow⟩ := forall₂_mem_right hlevel hm
      obtain ⟨x, k, hx, hnx⟩ : ∃ x k, HangsAt categories names k x ∧ n.id = x.id := by
        rcases hin with rfl | hin
        · exact ⟨r, 0, hangsAt_siblings_root hr, hshows.1⟩
        · obtain ⟨x, k, -, hx, hnx, -⟩ := build_below (hangsAt_siblings_root hr) hbelow n hin
          exact ⟨x, k, hx, hnx⟩
      have hxc : x = c := List.inj_on_of_nodup_map hids (mem_named.mp hx.mem).1 hc
        (hnx.symm.trans hid)
      exact complete_iff.mpr ⟨k, hxc ▸ hx⟩
    · exact exists_node_of_complete hroots hchildren

/-- For every catalog with distinct ids and all names: the recursion ends, and what it returns is
the tree of the catalog. The names that `resolve_names` returns are those of the requested locale,
and of the default locale where there is none. -/
theorem category_tree (categories : List VenueCategory)
    (hids : (categories.map VenueCategory.id).Nodup) :
    (∀ names : Uuid → Option String, ∃ forest,
      (∀ fuel, categories.length < fuel → buildTree fuel categories names = some forest) ∧
      IsTreeOf categories names forest) ∧
    ∀ (plan : Plan VenueCategoryTranslation) (translations : Table VenueCategoryTranslation.key)
      (locale : String) (id : Uuid),
      resolveNames plan translations locale id =
        ((translations.get (id, locale)).or (translations.get (id, defaultLocale))).map
          VenueCategoryTranslation.name := by
  refine ⟨fun names => ?_, resolveNames_eq⟩
  have hfuel : (named categories names).length ≤ categories.length + 0 := List.length_filter_le _ _
  obtain ⟨forest, hforest⟩ := exists_build hids (fun _ => hangsAt_siblings_root) hfuel
  exact ⟨forest, fun fuel hlt => build_mono hlt hforest, isTreeOf_of_buildTree hids hforest⟩

/-- A root with a child, and two categories that are each other's parent. -/
def tangledCatalog : List VenueCategory :=
  [⟨1, "food", none⟩, ⟨2, "doner", some 1⟩, ⟨3, "hen", some 4⟩, ⟨4, "egg", some 3⟩]

/-- Two categories that are each other's parents: neither is in the tree. -/
theorem category_tree_tangled :
    ∃ forest, (∀ fuel, tangledCatalog.length < fuel →
        buildTree fuel tangledCatalog (fun _ => some "Yeme İçme") = some forest) ∧
      IsTreeOf tangledCatalog (fun _ => some "Yeme İçme") forest :=
  (category_tree tangledCatalog (by decide)).1 fun _ => some "Yeme İçme"

/-- What `list_category_tree` returns: the tree of all categories, with the siblings in the order of
their slugs. -/
theorem outcome_listCategoryTree (collation : String → String → Bool) (plan : Plan VenueCategory)
    (namesPlan : Plan VenueCategoryTranslation)
    (translations : Table VenueCategoryTranslation.key) (locale : String) (me : Identity) (db : Db)
    {fuel : ℕ} (hfuel : db.venueCategories.rows.length < fuel) :
    ∃ forest, (listCategoryTree collation plan namesPlan translations locale fuel).outcome me db =
        .ok (some forest) ∧
      IsTreeOf (orderBy (fun a b => collation a.slug b.slug) plan db.venueCategories.rows)
        (resolveNames namesPlan translations locale) forest := by
  have hall : venueCategories.rows me db (fun _ => true) = db.venueCategories.rows :=
    List.filter_eq_self.mpr fun _ _ => rfl
  have hperm := orderBy_perm (fun a b => collation a.slug b.slug) plan db.venueCategories.rows
  have hids := (hperm.map VenueCategory.id).nodup_iff.mpr db.venueCategories.nodup
  have hbound : (named (orderBy (fun a b => collation a.slug b.slug) plan db.venueCategories.rows)
      (resolveNames namesPlan translations locale)).length ≤ db.venueCategories.rows.length + 0 :=
    hperm.length_eq ▸ List.length_filter_le _ _
  obtain ⟨forest, hforest⟩ := exists_build hids (fun _ => hangsAt_siblings_root) hbound
  have hbuild := build_mono hfuel hforest
  refine ⟨forest, ?_, isTreeOf_of_buildTree hids hbuild⟩
  rw [← hall] at hbuild
  exact congrArg Except.ok hbuild

end OburBackend
