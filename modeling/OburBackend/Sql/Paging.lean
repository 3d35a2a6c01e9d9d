import OburBackend.Sql.Query

/-!
# Page after page

A listing is read page after page until a page is empty, and each page is a query of its own: the
executor may meet the rows in another order each time. Rows that tie under the `ORDER BY` take up an
interval of the result, from `Selection.before` to `Selection.upTo`, and within it each query may
arrange them as it likes. So the pages hold every row once as long as no page ends inside such an
interval (`Selection.onceEach_iff`).
-/

namespace Sql

variable {α β : Type}

/-- What a query selects before it takes a page: the rows, their order and what is returned of
them, which is different for different rows. -/
structure Selection (α β : Type) where
  rows : List α
  le : α → α → Bool
  item : α → β
  total : ∀ x y, le x y = true ∨ le y x = true
  trans : ∀ x y z, le x y = true → le y z = true → le x z = true
  nodup : (rows.map item).Nodup

/-- The least keys first. -/
def Selection.asc {κ : Type} [LinearOrder κ] (key : α → κ) (item : α → β) (rows : List α)
    (nodup : (rows.map item).Nodup) : Selection α β where
  rows
  le x y := decide (key x ≤ key y)
  item
  total x y := by simpa only [decide_eq_true_eq] using le_total (key x) (key y)
  trans x y z := by simpa only [decide_eq_true_eq] using le_trans
  nodup

/-- The greatest keys first. -/
def Selection.desc {κ : Type} [LinearOrder κ] (key : α → κ) (item : α → β) (rows : List α)
    (nodup : (rows.map item).Nodup) : Selection α β where
  rows
  le x y := decide (key y ≤ key x)
  item
  total x y := by simpa only [decide_eq_true_eq] using le_total (key y) (key x)
  trans x y z hxy hyz := by
    simp only [decide_eq_true_eq] at hxy hyz ⊢
    exact hyz.trans hxy
  nodup

/-- The items are what the pages hold up to the first empty page. -/
def Collects (pages : ℕ → List β) (items : List β) : Prop :=
  ∃ n, pages n = [] ∧ (∀ i < n, pages i ≠ []) ∧ items = (List.range n).flatMap pages

/-! ## Sorted lists -/

section Sorted

variable {le : α → α → Bool} {p : α → Bool} {l : List α}

/-- What is closed towards the front of a sorted list is a front part of it. -/
theorem take_countP_of_sorted (hsorted : l.Pairwise fun x y => le x y = true)
    (hp : ∀ x y, le x y = true → p y = true → p x = true) :
    l.take (l.countP p) = l.filter p := by
  induction l with
  | nil => rfl
  | cons x l ih =>
    obtain ⟨hx, hl⟩ := List.pairwise_cons.mp hsorted
    by_cases hpx : p x = true
    · rw [List.countP_cons_of_pos hpx, List.take_succ_cons, List.filter_cons_of_pos hpx, ih hl]
    · have hnone : ∀ y ∈ l, ¬ p y = true := fun y hy hpy => hpx (hp x y (hx y hy) hpy)
      rw [List.countP_cons_of_neg hpx, List.filter_cons_of_neg hpx,
        List.countP_eq_zero.mpr hnone, List.filter_eq_nil_iff.mpr hnone, List.take_zero]

/-- The rows of the front part are those before its end. -/
theorem getElem_iff_lt_countP (hsorted : l.Pairwise fun x y => le x y = true)
    (hp : ∀ x y, le x y = true → p y = true → p x = true) {n : ℕ} (hn : n < l.length) :
    p l[n] = true ↔ n < l.countP p := by
  induction l generalizing n with
  | nil => exact absurd hn (Nat.not_lt_zero n)
  | cons x l ih =>
    obtain ⟨hx, hl⟩ := List.pairwise_cons.mp hsorted
    by_cases hpx : p x = true
    · rw [List.countP_cons_of_pos hpx]
      cases n with
      | zero => exact iff_of_true hpx (Nat.succ_pos _)
      | succ n => exact (ih hl (Nat.lt_of_succ_lt_succ hn)).trans Nat.succ_lt_succ_iff.symm
    · have hnone : ∀ y ∈ x :: l, ¬ p y = true := by
        intro y hy hpy
        rcases List.mem_cons.mp hy with rfl | hy
        · exact hpx hpy
        · exact hpx (hp x y (hx y hy) hpy)
      rw [List.countP_eq_zero.mpr hnone]
      exact iff_of_false (hnone _ (List.getElem_mem hn)) (Nat.not_lt_zero n)

end Sorted

namespace Selection

variable (S : Selection α β)

/-- A page of the query, as the plan has it. -/
def page (plan : Plan α) (limit offset : ℕ) : List β :=
  (Sql.page limit offset (orderBy S.le plan S.rows)).map S.item

/-- Every item is collected exactly once, whatever the plans of the queries. -/
def OnceEach (limit : ℕ) : Prop :=
  ∀ plans : ℕ → Plan α, ∃ items, Collects (fun i => S.page (plans i) limit (i * limit)) items ∧
    items.Nodup ∧ ∀ b, b ∈ items ↔ b ∈ S.rows.map S.item

/-- The number of rows that come before `x`. -/
def before (x : α) : ℕ := S.rows.countP fun y => !S.le x y

/-- The number of rows that come before `x` or tie with it, `x` included. -/
def upTo (x : α) : ℕ := S.rows.countP fun y => S.le y x

/-- A page ends inside a group of rows that tie. -/
def Straddles (limit : ℕ) : Prop :=
  ∃ x ∈ S.rows, ∃ n, S.before x < n * limit ∧ n * limit < S.upTo x

/-! ## The orders of a selection -/

/-- The rows come in order. -/
theorem sorted_orderBy (plan : Plan α) :
    (orderBy S.le plan S.rows).Pairwise fun x y => S.le x y = true := by
  have htotal : Std.Total fun x y => S.le x y = true := ⟨S.total⟩
  have htrans : IsTrans α fun x y => S.le x y = true := ⟨S.trans⟩
  exact List.pairwise_insertionSort _ _

/-- Every sorted arrangement of the rows is the result under some plan. -/
theorem exists_plan {l : List α} (hperm : l.Perm S.rows)
    (hsorted : l.Pairwise fun x y => S.le x y = true) :
    ∃ plan, orderBy S.le plan S.rows = l := by
  classical
  refine ⟨⟨fun rows => if rows = S.rows then l else rows, fun rows => ?_⟩, ?_⟩
  · split
    · next h => exact h ▸ hperm
    · exact List.Perm.refl rows
  · simp only [orderBy, if_true]
    exact hsorted.insertionSort_eq

/-- What comes before a row is closed towards the front. -/
theorem not_le_of_le (z : α) {x y : α} (hxy : S.le x y = true) (hy : (!S.le z y) = true) :
    (!S.le z x) = true := by
  rw [Bool.not_eq_true', ← Bool.not_eq_true] at hy ⊢
  exact fun hzx => hy (S.trans z x y hzx hxy)

section

variable {S} {l : List α} (hperm : l.Perm S.rows)
  (hsorted : l.Pairwise fun x y => S.le x y = true)
include hperm hsorted

/-- The rows before a row are those that are less. -/
theorem take_before (x : α) : l.take (S.before x) = l.filter fun y => !S.le x y := by
  rw [before, ← hperm.countP_eq]
  exact take_countP_of_sorted hsorted fun _ _ => S.not_le_of_le x

/-- The place of a row lies in the interval of the rows that tie with it. -/
theorem le_getElem_iff (x : α) {n : ℕ} (hn : n < l.length) :
    S.le x l[n] = true ↔ S.before x ≤ n := by
  have h := getElem_iff_lt_countP hsorted (fun _ _ => S.not_le_of_le x) hn
  rw [hperm.countP_eq, Bool.not_eq_true', ← Bool.not_eq_true] at h
  rw [← not_iff_not, h, Nat.not_le]
  rfl

/-- A row is at most another one when it comes no later than the last of those. -/
theorem getElem_le_iff (x : α) {n : ℕ} (hn : n < l.length) :
    S.le l[n] x = true ↔ n < S.upTo x := by
  have h := getElem_iff_lt_countP (p := fun y => S.le y x) hsorted
    (fun y z hyz hz => S.trans y z x hyz hz) hn
  rw [h, hperm.countP_eq]
  rfl

/-- Two arrangements have the same rows in front of a place that is inside no group of rows that
tie. -/
theorem take_perm {l' : List α} (hperm' : l'.Perm S.rows)
    (hsorted' : l'.Pairwise fun x y => S.le x y = true) {n : ℕ}
    (hcut : ∀ x ∈ S.rows, ¬ (S.before x < n ∧ n < S.upTo x)) : (l.take n).Perm (l'.take n) := by
  have hall : l.Perm l' := hperm.trans hperm'.symm
  by_cases hn : n < l.length
  · have hself : S.le l[n] l[n] = true := (S.total l[n] l[n]).elim id id
    have hlow := (le_getElem_iff hperm hsorted l[n] hn).mp hself
    have hhigh := (getElem_le_iff hperm hsorted l[n] hn).mp hself
    -- the group of the row at the place starts there
    have hstart : S.before l[n] = n := by
      have hnot := hcut l[n] (hperm.mem_iff.mp (List.getElem_mem hn))
      omega
    rw [← hstart, take_before hperm hsorted, take_before hperm' hsorted']
    exact hall.filter _
  · rw [List.take_of_length_le (by omega), List.take_of_length_le (by rw [← hall.length_eq]; omega)]
    exact hall

end

/-! ## Pages -/

section

variable {limit : ℕ} (hlimit : 0 < limit)
include hlimit

/-- A page is empty when the listing ends before it. -/
theorem page_eq_nil_iff (plan : Plan α) (offset : ℕ) :
    S.page plan limit offset = [] ↔ S.rows.length ≤ offset := by
  have hlength := (orderBy_perm S.le plan S.rows).length_eq
  rw [page, List.map_eq_nil_iff, Sql.page, List.take_eq_nil_iff, List.drop_eq_nil_iff, hlength]
  omega

/-- The pages up to the first empty one. -/
theorem exists_collects (plans : ℕ → Plan α) :
    ∃ n, S.rows.length ≤ n * limit ∧ Collects (fun i => S.page (plans i) limit (i * limit))
      ((List.range n).flatMap fun i => S.page (plans i) limit (i * limit)) := by
  have hex : ∃ n, S.rows.length ≤ n * limit := ⟨S.rows.length, Nat.le_mul_of_pos_right _ hlimit⟩
  refine ⟨Nat.find hex, Nat.find_spec hex, Nat.find hex, ?_, fun i hi => ?_, rfl⟩
  · exact (S.page_eq_nil_iff hlimit _ _).mpr (Nat.find_spec hex)
  · exact mt (S.page_eq_nil_iff hlimit _ _).mp (Nat.find_min hex hi)

end

/-- The first pages hold the first rows, in whatever arrangement these are looked at. -/
theorem flatMap_page_perm {limit : ℕ} (hties : ¬ S.Straddles limit) (plans : ℕ → Plan α) (n : ℕ)
    (plan : Plan α) :
    ((List.range n).flatMap fun i =>
      Sql.page limit (i * limit) (orderBy S.le (plans i) S.rows)).Perm
        ((orderBy S.le plan S.rows).take (n * limit)) := by
  induction n generalizing plan with
  | zero => simp
  | succ n ih =>
    have hcut : ∀ x ∈ S.rows, ¬ (S.before x < (n + 1) * limit ∧ (n + 1) * limit < S.upTo x) :=
      fun x hx h => hties ⟨x, hx, n + 1, h⟩
    have hlast := take_perm (orderBy_perm S.le (plans n) S.rows) (S.sorted_orderBy (plans n))
      (orderBy_perm S.le plan S.rows) (S.sorted_orderBy plan) hcut
    rw [List.range_succ, List.flatMap_append, List.flatMap_singleton]
    refine ((ih (plans n)).append_right _).trans ?_
    rw [Sql.page, ← List.take_add, ← Nat.succ_mul]
    exact hlast

/-- Two neighbours that tie change places. -/
theorem exists_swapped {l : List α} (hsorted : l.Pairwise fun x y => S.le x y = true) {n : ℕ}
    (hn : n + 1 < l.length) (htie : S.le l[n + 1] l[n] = true) :
    ∃ l' : List α, l'.Perm l ∧ (l'.Pairwise fun x y => S.le x y = true) ∧
      l'[n + 1]? = some l[n] := by
  have hsplit : l = l.take n ++ l[n] :: l[n + 1] :: l.drop (n + 2) := by
    rw [← List.drop_eq_getElem_cons hn, ← List.drop_eq_getElem_cons (by omega),
      List.take_append_drop]
  have hlength : (l.take n).length = n := List.length_take_of_le (by omega)
  refine ⟨l.take n ++ l[n + 1] :: l[n] :: l.drop (n + 2), ?_, ?_, ?_⟩
  · conv_rhs => rw [hsplit]
    exact (List.Perm.swap _ _ _).append_left _
  · rw [hsplit] at hsorted
    obtain ⟨hfront, hrest, hcross⟩ := List.pairwise_append.mp hsorted
    obtain ⟨hx, hrest⟩ := List.pairwise_cons.mp hrest
    obtain ⟨hy, hrest⟩ := List.pairwise_cons.mp hrest
    refine List.pairwise_append.mpr ⟨hfront, List.pairwise_cons.mpr ⟨?_, List.pairwise_cons.mpr
      ⟨fun z hz => hx z (List.mem_cons_of_mem _ hz), hrest⟩⟩, fun x hx y hy => ?_⟩
    · rintro z (_ | ⟨_, hz⟩)
      · exact htie
      · exact hy z hz
    · exact hcross x hx y (by simp only [List.mem_cons] at hy ⊢; tauto)
  · rw [List.getElem?_append_right (by omega), hlength, Nat.add_sub_cancel_left]
    rfl

/-- A row within the limit is on the page. -/
theorem mem_page_of_getElem? {l : List α} {limit offset n : ℕ} {x : α}
    (hx : l[offset + n]? = some x) (hn : n < limit) : x ∈ Sql.page limit offset l := by
  refine List.mem_of_getElem? (i := n) ?_
  rw [Sql.page, List.getElem?_take_of_lt hn, List.getElem?_drop, hx]

/-- When page `m` ends inside a group of rows that tie, the query of the next page may show the last
row of page `m` again. -/
theorem exists_shown_twice {limit m : ℕ} (hlimit : 0 < limit) {x : α}
    (hlow : S.before x < (m + 1) * limit) (hhigh : (m + 1) * limit < S.upTo x) :
    ∃ plan b, b ∈ S.page .sequential limit (m * limit) ∧
      b ∈ S.page plan limit ((m + 1) * limit) := by
  obtain ⟨n, rfl⟩ : ∃ n, limit = n + 1 := Nat.exists_eq_succ_of_ne_zero hlimit.ne'
  have hend : (m + 1) * (n + 1) = m * (n + 1) + n + 1 := by rw [Nat.succ_mul, Nat.add_assoc]
  have hperm := orderBy_perm S.le .sequential S.rows
  have hsorted := S.sorted_orderBy .sequential
  have hlength : m * (n + 1) + n + 1 < (orderBy S.le .sequential S.rows).length := by
    rw [hperm.length_eq, ← hend]
    exact Nat.lt_of_lt_of_le hhigh List.countP_le_length
  -- the rows around the end of the page tie with `x`, and so with one another
  have htie : S.le (orderBy S.le .sequential S.rows)[m * (n + 1) + n + 1]
      (orderBy S.le .sequential S.rows)[m * (n + 1) + n] = true :=
    S.trans _ x _ ((getElem_le_iff hperm hsorted x hlength).mpr (by omega))
      ((le_getElem_iff hperm hsorted x (by omega)).mpr (by omega))
  obtain ⟨l', hperm', hsorted', hshown⟩ := S.exists_swapped hsorted hlength htie
  obtain ⟨plan, hplan⟩ := S.exists_plan (hperm'.trans hperm) hsorted'
  refine ⟨plan, _, List.mem_map_of_mem (mem_page_of_getElem?
    (List.getElem?_eq_getElem (by omega)) (Nat.lt_succ_self n)), List.mem_map_of_mem ?_⟩
  rw [hplan, hend]
  exact mem_page_of_getElem? (n := 0) hshown hlimit

/-- The pages of a listing, read one after the other with a plan made anew for each, hold every item
exactly once if and only if no page ends inside a group of rows that tie. -/
theorem onceEach_iff {limit : ℕ} (hlimit : 0 < limit) : S.OnceEach limit ↔ ¬ S.Straddles limit := by
  constructor
  · rintro honce ⟨x, -, m, hlow, hhigh⟩
    obtain ⟨m, rfl⟩ : ∃ m', m = m' + 1 := by
      refine Nat.exists_eq_succ_of_ne_zero fun hm => ?_
      rw [hm, Nat.zero_mul] at hlow
      exact Nat.not_lt_zero _ hlow
    obtain ⟨plan, b, hfirst, hagain⟩ := S.exists_shown_twice hlimit hlow hhigh
    obtain ⟨-, ⟨n, hnil, -, rfl⟩, hnodup, -⟩ :=
      honce fun i => if i = m + 1 then plan else .sequential
    have hn : m + 1 < n := by
      have hend := (S.page_eq_nil_iff hlimit _ _).mp hnil
      have hmore : (m + 1) * limit < n * limit :=
        Nat.lt_of_lt_of_le (Nat.lt_of_lt_of_le hhigh List.countP_le_length) hend
      exact Nat.lt_of_mul_lt_mul_right hmore
    -- pages `m` and `m + 1` have `b` in common
    have hdisjoint := (List.nodup_flatMap.mp hnodup).2
    have hpages := List.pairwise_iff_getElem.mp hdisjoint m (m + 1)
      (by rw [List.length_range]; omega) (by rw [List.length_range]; omega) (Nat.lt_succ_self m)
    simp only [List.getElem_range] at hpages
    refine hpages (a := b) ?_ ?_
    · simpa only [Nat.left_eq_add, Nat.one_ne_zero, if_false] using hfirst
    · simpa only [if_true] using hagain
  · intro hties plans
    obtain ⟨n, hn, hcollects⟩ := S.exists_collects hlimit plans
    have hperm : ((List.range n).flatMap fun i => S.page (plans i) limit (i * limit)).Perm
        (S.rows.map S.item) := by
      have hall := S.flatMap_page_perm hties plans n .sequential
      have hrows := orderBy_perm S.le .sequential S.rows
      rw [List.take_of_length_le (by rw [hrows.length_eq]; exact hn)] at hall
      have hitems := (hall.trans hrows).map S.item
      rwa [List.map_flatMap] at hitems
    exact ⟨_, hcollects, hperm.nodup_iff.mpr S.nodup, fun b => hperm.mem_iff⟩

end Selection

end Sql
