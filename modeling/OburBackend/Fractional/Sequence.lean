import Mathlib.Order.Defs.LinearOrder
import OburBackend.Sql.Query

/-!
# Sequences ordered by key

Rows that carry a key of a linear order make up a sequence: the rows in the order of their keys. A
new row goes into a gap of the sequence by a key between those of its neighbours, and no other row
has to change. `Ordered` says that the keys are strictly increasing, which is what keeps such gaps
open; an ordered list is determined by its members (`Ordered.ext`), so it is what any `ORDER BY` of
the rows returns (`Ordered.orderBy_eq`).
-/

namespace Fractional

open Sql

variable {α K : Type} [LinearOrder K] {key : α → K}

/-- The keys are strictly increasing. -/
abbrev Ordered (key : α → K) (l : List α) : Prop := l.Pairwise fun x y => key x < key y

/-- The key lies between two bounds, of which each may be missing. -/
def Between (a b : Option K) (k : K) : Prop := (∀ x ∈ a, x < k) ∧ ∀ y ∈ b, k < y

instance (a b : Option K) (k : K) : Decidable (Between a b k) :=
  haveI : Decidable (∀ x ∈ a, x < k) := Option.decidableForallMem _
  haveI : Decidable (∀ y ∈ b, k < y) := Option.decidableForallMem _
  inferInstanceAs (Decidable (_ ∧ _))

/-- The bound that the rows before a gap set. -/
def lower (key : α → K) (before : List α) : Option K := before.getLast?.map key

/-- The bound that the rows after a gap set. -/
def upper (key : α → K) (after : List α) : Option K := after.head?.map key

namespace Ordered

variable {before after l l' : List α} {k : K} {x : α}

/-- Whatever is above the lower bound of a gap is above all rows before it. -/
theorem lt_of_lower (h : Ordered key before) (hk : ∀ a ∈ lower key before, a < k) :
    ∀ x ∈ before, key x < k := by
  rcases List.eq_nil_or_concat before with rfl | ⟨init, last, rfl⟩
  · exact fun x hx => absurd hx List.not_mem_nil
  · rw [List.concat_eq_append] at h hk ⊢
    have hlast : key last < k := hk _ (by simp [lower])
    intro x hx
    rcases List.mem_append.mp hx with hx | hx
    · exact lt_trans ((List.pairwise_append.mp h).2.2 x hx last List.mem_cons_self) hlast
    · rwa [List.mem_singleton.mp hx]

/-- Whatever is below the upper bound of a gap is below all rows after it. -/
theorem lt_of_upper (h : Ordered key after) (hk : ∀ b ∈ upper key after, k < b) :
    ∀ x ∈ after, k < key x := by
  cases after with
  | nil => exact fun x hx => absurd hx List.not_mem_nil
  | cons first after =>
    have hfirst : k < key first := hk _ (by simp [upper])
    intro x hx
    rcases List.mem_cons.mp hx with rfl | hx
    · exact hfirst
    · exact lt_trans hfirst ((List.pairwise_cons.mp h).1 x hx)

/-- The bounds of a gap leave room between them. -/
theorem lower_lt_upper (h : Ordered key (before ++ after)) :
    ∀ a ∈ lower key before, ∀ b ∈ upper key after, a < b := by
  intro a ha b hb
  obtain ⟨x, hx, rfl⟩ := Option.map_eq_some_iff.mp ha
  obtain ⟨y, hy, rfl⟩ := Option.map_eq_some_iff.mp hb
  exact (List.pairwise_append.mp h).2.2 x (List.mem_of_getLast? hx) y (List.mem_of_head? hy)

/-- A row with a key between the bounds of a gap goes into the gap. -/
theorem insert (h : Ordered key (before ++ after))
    (hx : Between (lower key before) (upper key after) (key x)) :
    Ordered key (before ++ x :: after) := by
  obtain ⟨hbefore, hafter, hcross⟩ := List.pairwise_append.mp h
  have hlow := lt_of_lower hbefore hx.1
  have hhigh := lt_of_upper hafter hx.2
  rw [Ordered, List.pairwise_append, List.pairwise_cons]
  refine ⟨hbefore, ⟨hhigh, hafter⟩, fun y hy z hz => ?_⟩
  rcases List.mem_cons.mp hz with rfl | hz
  · exact hlow y hy
  · exact hcross y hy z hz

/-- No row of the sequence lies in one of its gaps. -/
theorem not_between (h : Ordered key (before ++ after)) (hx : x ∈ before ++ after) :
    ¬ Between (lower key before) (upper key after) (key x) := by
  intro hbetween
  obtain ⟨hbefore, hafter, -⟩ := List.pairwise_append.mp h
  rcases List.mem_append.mp hx with hx | hx
  · exact lt_irrefl _ (lt_of_lower hbefore hbetween.1 x hx)
  · exact lt_irrefl _ (lt_of_upper hafter hbetween.2 x hx)

/-- An ordered list has no element twice. -/
theorem nodup (h : Ordered key l) : l.Nodup :=
  h.imp fun hlt heq => ne_of_lt hlt (congrArg key heq)

/-- The keys of an ordered list are distinct. -/
theorem nodup_map (h : Ordered key l) : (l.map key).Nodup := by
  rw [List.Nodup, List.pairwise_map]
  exact h.imp ne_of_lt

/-- An ordered list is determined by its members. -/
theorem ext (h : Ordered key l) (h' : Ordered key l') (hmem : ∀ x, x ∈ l ↔ x ∈ l') : l = l' := by
  have hperm : l.Perm l' := (List.perm_ext_iff_of_nodup h.nodup h'.nodup).mpr hmem
  exact hperm.eq_of_pairwise (fun x y _ _ hxy hyx => absurd hyx (lt_asymm hxy)) h h'

/-- Sorting rows with distinct keys. -/
theorem orderBy (plan : Plan α) (hnodup : l.Nodup)
    (hkey : ∀ x ∈ l, ∀ y ∈ l, key x = key y → x = y) :
    Ordered key (Sql.orderBy (fun a b => decide (key a ≤ key b)) plan l) := by
  let le : α → α → Prop := fun a b => decide (key a ≤ key b) = true
  have htotal : Std.Total le := ⟨fun a b => by
    simpa only [le, decide_eq_true_eq] using le_total (key a) (key b)⟩
  have htrans : IsTrans α le := ⟨fun a b c => by
    simpa only [le, decide_eq_true_eq] using le_trans⟩
  have hperm := orderBy_perm (fun a b => decide (key a ≤ key b)) plan l
  have hsorted : (Sql.orderBy (fun a b => decide (key a ≤ key b)) plan l).Pairwise le :=
    List.pairwise_insertionSort le _
  have hdistinct := hperm.nodup_iff.mpr hnodup
  refine (hsorted.and hdistinct).imp_of_mem fun {x y} hx hy hxy => ?_
  refine lt_of_le_of_ne (of_decide_eq_true hxy.1) fun heq => hxy.2 ?_
  exact hkey x (hperm.mem_iff.mp hx) y (hperm.mem_iff.mp hy) heq

/-- An `ORDER BY` of the members of an ordered list returns the list. -/
theorem orderBy_eq (h : Ordered key l) (plan : Plan α) {rows : List α} (hnodup : rows.Nodup)
    (hmem : ∀ x, x ∈ rows ↔ x ∈ l) :
    Sql.orderBy (fun a b => decide (key a ≤ key b)) plan rows = l := by
  have hkey : ∀ x ∈ rows, ∀ y ∈ rows, key x = key y → x = y := by
    intro x hx y hy heq
    exact List.inj_on_of_nodup_map h.nodup_map ((hmem x).mp hx) ((hmem y).mp hy) heq
  refine (orderBy plan hnodup hkey).ext h fun x => ?_
  rw [mem_orderBy, hmem]

end Ordered

end Fractional
