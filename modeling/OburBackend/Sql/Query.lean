import Mathlib.Data.List.Sort
import Mathlib.Data.List.Perm.Basic

/-!
# Ordered pages of a query

`ORDER BY` fixes the order of the rows of a result up to the rows that tie, and leaves those in the
order in which the executor happens to meet them. A `Plan` is that order, a permutation chosen anew
for each query; sorting stably after it gives every order the `ORDER BY` allows and no other. `page`
is `LIMIT ... OFFSET ...`.
-/

namespace Sql

variable {α : Type}

/-- The order in which the executor meets the rows of a result. -/
structure Plan (α : Type) where
  arrange : List α → List α
  perm : ∀ l, (arrange l).Perm l

/-- The executor meets the rows in the order of the table. -/
def Plan.sequential : Plan α := ⟨id, fun l => List.Perm.refl l⟩

instance : Inhabited (Plan α) := ⟨.sequential⟩

/-- `ORDER BY`, where `le` says which of two rows comes first. -/
def orderBy (le : α → α → Bool) (plan : Plan α) (l : List α) : List α :=
  (plan.arrange l).insertionSort fun a b => le a b = true

/-- Ordering loses no row and adds none. -/
theorem orderBy_perm (le : α → α → Bool) (plan : Plan α) (l : List α) :
    (orderBy le plan l).Perm l :=
  (List.perm_insertionSort _ _).trans (plan.perm l)

@[simp] theorem mem_orderBy {le : α → α → Bool} {plan : Plan α} {l : List α} {x : α} :
    x ∈ orderBy le plan l ↔ x ∈ l :=
  (orderBy_perm le plan l).mem_iff

/-- `ORDER BY f DESC`. -/
def orderByDesc (f : α → ℕ) : Plan α → List α → List α := orderBy fun a b => decide (f b ≤ f a)

@[simp] theorem mem_orderByDesc {f : α → ℕ} {plan : Plan α} {l : List α} {x : α} :
    x ∈ orderByDesc f plan l ↔ x ∈ l := mem_orderBy

/-- `xs JOIN ys ON on`. -/
def join {β : Type} (xs : List α) (ys : List β) (on : α → β → Bool) : List (α × β) :=
  xs.flatMap fun x => (ys.filter (on x)).map fun y => (x, y)

@[simp] theorem mem_join {β : Type} {xs : List α} {ys : List β} {on : α → β → Bool} {p : α × β} :
    p ∈ join xs ys on ↔ p.1 ∈ xs ∧ p.2 ∈ ys ∧ on p.1 p.2 = true := by
  obtain ⟨x, y⟩ := p
  simp only [join, List.mem_flatMap, List.mem_map, List.mem_filter, Prod.mk.injEq]
  constructor
  · rintro ⟨x', hx, y', ⟨hy, hon⟩, rfl, rfl⟩
    exact ⟨hx, hy, hon⟩
  · rintro ⟨hx, hy, hon⟩
    exact ⟨x, hx, y, ⟨hy, hon⟩, rfl, rfl⟩

/-- Rows that join with nothing do not matter. -/
theorem join_filter {β : Type} {xs : List α} {ys : List β} {on : α → β → Bool} {p : β → Bool}
    (h : ∀ x ∈ xs, ∀ y ∈ ys, on x y = true → p y = true) :
    join xs (ys.filter p) on = join xs ys on := by
  refine List.flatMap_congr fun x hx => ?_
  rw [List.filter_filter]
  refine congrArg _ (List.filter_congr fun y hy => ?_)
  cases hon : on x y with
  | false => rfl
  | true => rw [h x hx y hy hon, Bool.and_true]

/-- A row that joins with one row at most appears in the join once at most. -/
theorem nodup_join_map_fst {β : Type} {xs : List α} {ys : List β} {on : α → β → Bool}
    (hxs : xs.Nodup) (hys : ys.Nodup)
    (hon : ∀ x ∈ xs, ∀ y ∈ ys, ∀ y' ∈ ys, on x y = true → on x y' = true → y = y') :
    ((join xs ys on).map Prod.fst).Nodup := by
  have hpairs : (join xs ys on).Nodup := by
    rw [join, List.nodup_flatMap]
    constructor
    · intro x _
      exact (hys.filter _).map fun y y' h => (Prod.mk.inj h).2
    · refine hxs.imp fun {x x'} hne p hp hp' => hne ?_
      obtain ⟨y, -, rfl⟩ := List.mem_map.mp hp
      obtain ⟨y', -, h⟩ := List.mem_map.mp hp'
      exact (Prod.mk.inj h).1.symm
  refine hpairs.map_on ?_
  rintro ⟨x, y⟩ hp ⟨x', y'⟩ hp' rfl
  obtain ⟨hx, hy, h⟩ := mem_join.mp hp
  obtain ⟨-, hy', h'⟩ := mem_join.mp hp'
  rw [hon x hx y hy y' hy' h h']

/-- `LIMIT limit OFFSET offset`. -/
def page (limit offset : ℕ) (l : List α) : List α := (l.drop offset).take limit

/-- A limit that does not truncate returns everything. -/
@[simp] theorem page_of_length_le {limit : ℕ} {l : List α} (h : l.length ≤ limit) :
    page limit 0 l = l := List.take_of_length_le h

/-- A page may be taken before or after a map. -/
theorem map_page {β : Type} (f : α → β) (limit offset : ℕ) (l : List α) :
    (page limit offset l).map f = page limit offset (l.map f) := by
  simp only [page, List.map_take, List.map_drop]

/-- The rows of a page are rows. -/
theorem mem_of_mem_page {limit offset : ℕ} {l : List α} {x : α} (h : x ∈ page limit offset l) :
    x ∈ l :=
  List.mem_of_mem_drop (List.mem_of_mem_take h)

/-- Every row of a result is on some page, whatever the page size. -/
theorem exists_mem_page {limit : ℕ} {l : List α} {x : α} (hl : 1 ≤ limit) (h : x ∈ l) :
    ∃ offset, x ∈ page limit offset l := by
  obtain ⟨n, hn, rfl⟩ := List.mem_iff_getElem.mp h
  refine ⟨n, ?_⟩
  have hlt : 0 < ((l.drop n).take limit).length := by
    rw [List.length_take, List.length_drop]
    omega
  have h0 : ((l.drop n).take limit)[0] = l[n] := by
    rw [List.getElem_take, List.getElem_drop]
    rfl
  exact h0 ▸ List.getElem_mem hlt

/-- What the pages of an ordered query return, over all page sizes and offsets and whatever the
plan: the values of the rows of its result. -/
theorem exists_mem_page_map {β : Type} {f : α → ℕ} {plan : Plan α} {rows : List α} {g : α → β}
    {b : β} :
    (∃ limit offset, b ∈ (page limit offset (orderByDesc f plan rows)).map g) ↔
      ∃ x ∈ rows, g x = b := by
  constructor
  · rintro ⟨limit, offset, h⟩
    obtain ⟨x, hx, rfl⟩ := List.mem_map.mp h
    exact ⟨x, mem_orderByDesc.mp (mem_of_mem_page hx), rfl⟩
  · rintro ⟨x, hx, rfl⟩
    obtain ⟨offset, h⟩ := exists_mem_page le_rfl (mem_orderByDesc.mpr hx)
    exact ⟨1, offset, List.mem_map.mpr ⟨x, h, rfl⟩⟩

end Sql
