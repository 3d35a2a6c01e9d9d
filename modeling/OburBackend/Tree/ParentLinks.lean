import Mathlib.Data.List.Nodup
import Mathlib.Data.List.Perm.Subperm
import Mathlib.Logic.Relation

/-!
# Parent links

Items name their parent by its key, or have none. Nothing keeps the links from going in circles, or
out of the items. What hangs below an item without a parent does neither: each such item has a depth
(`RootedAt`), which is smaller than the number of items (`RootedAt.lt_length`), and two items of one
depth have no descendant in common (`eq_of_common_descendant`).
-/

namespace ParentLinks

open Relation

section

variable {α κ : Type} (key : α → κ) (parent : α → Option κ) (items : List α)

/-- The item `p` is the parent of `x`. -/
def HasParent (x p : α) : Prop := p ∈ items ∧ parent x = some (key p)

/-- The item hangs `n` links below one without a parent. -/
inductive RootedAt : ℕ → α → Prop
  | root {x : α} : x ∈ items → parent x = none → RootedAt 0 x
  | child {n : ℕ} {x p : α} : x ∈ items → RootedAt n p → parent x = some (key p) →
    RootedAt (n + 1) x

end

variable {α κ : Type} {key : α → κ} {parent : α → Option κ} {items : List α}

/-- What hangs on a root is an item. -/
theorem RootedAt.mem {n : ℕ} {x : α} (h : RootedAt key parent items n x) : x ∈ items := by
  cases h with
  | root hx _ => exact hx
  | child hx _ _ => exact hx

section

variable (hkeys : (items.map key).Nodup)
include hkeys

/-- With distinct keys, there is one parent at most. -/
theorem hasParent_rightUnique : Relator.RightUnique (HasParent key parent items) := by
  rintro x p p' ⟨hp, hx⟩ ⟨hp', hx'⟩
  exact List.inj_on_of_nodup_map hkeys hp hp' (Option.some.inj (hx.symm.trans hx'))

/-- One step up. -/
theorem RootedAt.of_hasParent {n : ℕ} {x p : α} (h : RootedAt key parent items n x)
    (hp : HasParent key parent items x p) : ∃ m, n = m + 1 ∧ RootedAt key parent items m p := by
  cases h with
  | root _ hx => exact absurd (hx.symm.trans hp.2) (Option.some_ne_none _).symm
  | child _ hq hx =>
    obtain rfl := hasParent_rightUnique hkeys ⟨hq.mem, hx⟩ hp
    exact ⟨_, rfl, hq⟩

/-- An item has one depth. -/
theorem RootedAt.unique {m n : ℕ} {x : α} (h : RootedAt key parent items m x)
    (h' : RootedAt key parent items n x) : m = n := by
  induction h generalizing n with
  | root _ hx =>
    cases h' with
    | root _ _ => rfl
    | child _ _ hx' => exact absurd (hx.symm.trans hx') (Option.some_ne_none _).symm
  | child _ hp hx ih =>
    obtain ⟨n, rfl, hp'⟩ := h'.of_hasParent hkeys ⟨hp.mem, hx⟩
    rw [ih hp']

/-- The items on the way up are different, so the way is no longer than there are items. -/
theorem RootedAt.lt_length {n : ℕ} {x : α} (h : RootedAt key parent items n x) :
    n < items.length := by
  have hway : ∃ way : List α, way.Nodup ∧ way ⊆ items ∧ way.length = n + 1 ∧
      ∀ y ∈ way, ∃ m ≤ n, RootedAt key parent items m y := by
    induction h with
    | @root x hx hnone =>
      exact ⟨[x], List.nodup_singleton x, List.cons_subset.mpr ⟨hx, List.nil_subset _⟩, rfl,
        fun y hy => ⟨0, Nat.le_refl 0, List.mem_singleton.mp hy ▸ .root hx hnone⟩⟩
    | @child n x p hx hp hlink ih =>
      obtain ⟨way, hnodup, hsub, hlength, hdepth⟩ := ih
      have hself : RootedAt key parent items (n + 1) x := .child hx hp hlink
      have hnew : x ∉ way := by
        intro hmem
        obtain ⟨m, hm, hx'⟩ := hdepth x hmem
        have heq := hself.unique hkeys hx'
        omega
      refine ⟨x :: way, List.nodup_cons.mpr ⟨hnew, hnodup⟩, List.cons_subset.mpr ⟨hx, hsub⟩,
        congrArg (· + 1) hlength, fun y hy => ?_⟩
      rcases List.mem_cons.mp hy with rfl | hy
      · exact ⟨n + 1, Nat.le_refl _, hself⟩
      · obtain ⟨m, hm, hy⟩ := hdepth y hy
        exact ⟨m, by omega, hy⟩
  obtain ⟨way, hnodup, hsub, hlength, -⟩ := hway
  have hle := (List.subperm_of_subset hnodup hsub).length_le
  omega

/-- An ancestor is less deep, or the item itself. -/
theorem RootedAt.ancestor {n : ℕ} {x a : α} (h : RootedAt key parent items n x)
    (hup : ReflTransGen (HasParent key parent items) x a) :
    ∃ m ≤ n, RootedAt key parent items m a ∧ (m = n → a = x) := by
  induction hup with
  | refl => exact ⟨n, Nat.le_refl n, h, fun _ => rfl⟩
  | tail _ hp ih =>
    obtain ⟨m, hm, ha, -⟩ := ih
    obtain ⟨m', rfl, hp'⟩ := ha.of_hasParent hkeys hp
    exact ⟨m', by omega, hp', fun heq => absurd heq (by omega)⟩

/-- The ancestors of an item lie on one way up, and no two of them are equally deep. -/
theorem eq_of_common_descendant {n : ℕ} {x a b : α} (ha : RootedAt key parent items n a)
    (hb : RootedAt key parent items n b)
    (hxa : ReflTransGen (HasParent key parent items) x a)
    (hxb : ReflTransGen (HasParent key parent items) x b) : a = b := by
  rcases ReflTransGen.total_of_right_unique (hasParent_rightUnique hkeys) hxa hxb with hab | hba
  · obtain ⟨m, -, hb', heq⟩ := ha.ancestor hkeys hab
    exact (heq (hb'.unique hkeys hb)).symm
  · obtain ⟨m, -, ha', heq⟩ := hb.ancestor hkeys hba
    exact heq (ha'.unique hkeys ha)

end

end ParentLinks
