import Mathlib.Data.String.Basic

/-!
# Splitting a text at a character

`String.splitOn` walks over byte positions. At a separator of one character it is the splitting of
the list of characters, for which the lemmas of the core library hold.
-/

namespace Text

open String

/-- The loop, at a point where `l` has been split off, `m` has been read since and `r` is ahead. -/
theorem splitOnAux_of_valid (c : Char) (l m r : List Char) (acc : List String) :
    splitOnAux (ofList (l ++ m ++ r)) (ofList [c]) ⟨utf8Len l⟩ ⟨utf8Len (l ++ m)⟩ 0 acc =
      acc.reverse ++ (List.splitOnPPrepend (· == c) r m.reverse).map ofList := by
  have hsep : (0 : Pos.Raw).get (ofList [c]) = c := get_of_valid [] [c]
  have hnext : (0 : Pos.Raw).next (ofList [c]) = ⟨c.utf8Size⟩ := by
    have h := next_of_valid [] c []
    simpa using h
  have hend : (⟨c.utf8Size⟩ : Pos.Raw).atEnd (ofList [c]) = true := by
    have h := (atEnd_of_valid [c] []).mpr rfl
    simpa using h
  have hzero : ∀ i : Pos.Raw, i.unoffsetBy 0 = i := fun i => by simp [Pos.Raw.unoffsetBy]
  induction r generalizing l m acc with
  | nil =>
    have hext := extract_of_valid l m []
    rw [← utf8Len_append] at hext
    unfold splitOnAux
    rw [if_pos ((atEnd_of_valid (l ++ m) []).mpr rfl), hext]
    simp
  | cons a r ih =>
    have hnot : ¬ Pos.Raw.atEnd (ofList (l ++ m ++ a :: r)) ⟨utf8Len (l ++ m)⟩ = true := by
      rw [atEnd_of_valid]
      simp
    have hget : Pos.Raw.get (ofList (l ++ m ++ a :: r)) ⟨utf8Len (l ++ m)⟩ = a :=
      get_of_valid (l ++ m) (a :: r)
    have hstep : Pos.Raw.next (ofList (l ++ m ++ a :: r)) ⟨utf8Len (l ++ m)⟩ =
        ⟨utf8Len (l ++ m ++ [a])⟩ := by
      rw [next_of_valid, utf8Len_append (l ++ m), utf8Len_cons, utf8Len_nil, Nat.zero_add]
    have hwhole : l ++ m ++ a :: r = l ++ m ++ [a] ++ r := by simp
    unfold splitOnAux
    rw [if_neg hnot]
    simp only [hget, hsep, hnext, hstep, hend, hzero, if_true]
    by_cases hac : a = c
    · have hback : (⟨utf8Len (l ++ m ++ [a])⟩ : Pos.Raw).unoffsetBy ⟨c.utf8Size⟩ =
          ⟨utf8Len l + utf8Len m⟩ := by
        simp [Pos.Raw.unoffsetBy, hac, ← Nat.add_assoc]
      have hrest := ih (l ++ m ++ [a]) [] (ofList m :: acc)
      rw [List.append_nil] at hrest
      rw [if_pos (beq_iff_eq.mpr hac), hback, extract_of_valid l m (a :: r), hwhole, hrest,
        List.splitOnPPrepend_cons_pos (p := (· == c)) (beq_iff_eq.mpr hac)]
      simp
    · have hrest := ih l (m ++ [a]) acc
      rw [← List.append_assoc] at hrest
      rw [if_neg (by simpa using hac), hwhole, hrest,
        List.splitOnPPrepend_cons_neg (p := (· == c)) (by simpa using hac), List.reverse_append]
      rfl

/-- Splitting a text at one character. -/
theorem splitOn_singleton (c : Char) (s : String) :
    s.splitOn (ofList [c]) = (s.toList.splitOn c).map ofList := by
  have hsep : (ofList [c] == "") = false := by
    rw [beq_eq_false_iff_ne]
    intro h
    simpa using congrArg String.toList h
  have h := splitOnAux_of_valid c [] [] s.toList []
  rw [splitOn, hsep, List.splitOn_eq_splitOnP]
  simpa using h

/-- What is appended after the separator is a part of its own. -/
theorem splitOn_append {c : Char} {s t : String} (ht : c ∉ t.toList) :
    (s ++ ofList [c] ++ t).splitOn (ofList [c]) = s.splitOn (ofList [c]) ++ [t] := by
  rw [splitOn_singleton, splitOn_singleton, toList_append, toList_append, toList_ofList,
    List.append_assoc, List.singleton_append, List.splitOn_append_cons_self,
    List.splitOn_eq_singleton ht, List.map_append]
  simp

/-- A text without the separator is one part. -/
theorem splitOn_of_not_mem {c : Char} {t : String} (ht : c ∉ t.toList) :
    t.splitOn (ofList [c]) = [t] := by
  rw [splitOn_singleton, List.splitOn_eq_singleton ht]
  simp

/-- The separator is in none of the parts. -/
theorem not_mem_of_mem_splitOn {c : Char} {l part : List Char} (h : part ∈ l.splitOn c) :
    c ∉ part := by
  induction l generalizing part with
  | nil =>
    rw [List.splitOn_nil, List.mem_singleton] at h
    exact h ▸ List.not_mem_nil
  | cons d l ih =>
    rw [List.splitOn_cons_eq_if_modifyHead] at h
    split at h
    · rcases List.mem_cons.mp h with rfl | h
      · exact List.not_mem_nil
      · exact ih h
    · next hne =>
      obtain ⟨first, parts, hparts⟩ := List.exists_cons_of_ne_nil (List.splitOn_ne_nil c l)
      rw [hparts] at h ih
      rcases List.mem_cons.mp h with rfl | h
      · refine List.not_mem_cons_of_ne_of_not_mem ?_ (ih List.mem_cons_self)
        rintro rfl
        exact hne (beq_self_eq_true c)
      · exact ih (List.mem_cons_of_mem first h)

/-- The other characters are those of the parts. -/
theorem mem_iff_mem_splitOn {c d : Char} (hne : d ≠ c) {l : List Char} :
    d ∈ l ↔ ∃ part ∈ l.splitOn c, d ∈ part := by
  have hparts : ∀ parts : List (List Char),
      d ∈ [c].intercalate parts ↔ ∃ part ∈ parts, d ∈ part := by
    intro parts
    induction parts with
    | nil => simp
    | cons part parts ih =>
      cases parts with
      | nil => simp
      | cons next parts =>
        rw [List.intercalate_cons_cons, List.mem_append, ih]
        simp [hne]
  rw [← hparts, List.intercalate_splitOn]

/-- There is one part when there is no separator. -/
theorem splitOn_eq_singleton_iff {c : Char} {l part : List Char} :
    l.splitOn c = [part] ↔ l = part ∧ c ∉ part := by
  constructor
  · intro h
    have hl : [c].intercalate (l.splitOn c) = l := List.intercalate_splitOn c
    rw [h, List.intercalate_singleton] at hl
    subst hl
    exact ⟨rfl, not_mem_of_mem_splitOn (h ▸ List.mem_singleton_self part)⟩
  · rintro ⟨rfl, hc⟩
    exact List.splitOn_eq_singleton hc

/-- The first part ends at the first separator. -/
theorem splitOn_eq_cons_iff {c : Char} {l part : List Char} {parts : List (List Char)}
    (hne : parts ≠ []) :
    l.splitOn c = part :: parts ↔
      ∃ rest, l = part ++ c :: rest ∧ c ∉ part ∧ rest.splitOn c = parts := by
  constructor
  · intro h
    have hc : c ∉ part := not_mem_of_mem_splitOn (h ▸ List.mem_cons_self)
    have hl : [c].intercalate (l.splitOn c) = l := List.intercalate_splitOn c
    rw [h, List.intercalate_cons_of_ne_nil hne, List.append_assoc, List.singleton_append] at hl
    subst hl
    rw [List.splitOn_append_cons_self_of_not_mem hc] at h
    exact ⟨[c].intercalate parts, rfl, hc, (List.cons.inj h).2⟩
  · rintro ⟨rest, rfl, hc, rfl⟩
    exact List.splitOn_append_cons_self_of_not_mem hc rest

end Text
