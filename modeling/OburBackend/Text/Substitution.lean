import OburBackend.Text.Regex

/-!
# Searching a text for a pattern

`scan` walks over a text from left to right and takes the first way to match at each place, as
`re.finditer` does; what it skips is kept. `sub` and `split` are made of it. Where all ways to match
at a place read the same word, the order in which they are tried does not matter
(`scan_of_ways`, `scan_of_no_way`).
-/

namespace Text.Regex

/-- A text from a place on: the characters that are kept, and `none` for each match. An empty match
is a match too; the next one has to get on. -/
def scan (r : Regex) (behind ahead : List Char) : List (Option Char) :=
  let ways := r.run ⟨behind, ahead, []⟩
  let rest :=
    match _ : ways.find? fun y => decide (y.ahead.length < ahead.length) with
    | some y => none :: scan r y.behind y.ahead
    | none =>
      match _ : ahead with
      | [] => []
      | c :: cs => some c :: scan r (c :: behind) cs
  if ways.head?.any fun y => decide (y.ahead.length = ahead.length) then none :: rest else rest
termination_by ahead.length
decreasing_by
  · next h => simpa using List.find?_some h
  · next => simp

/-- The text with the replacement in the place of each match. -/
def substitute (repl : List Char) (pieces : List (Option Char)) : List Char :=
  pieces.flatMap fun piece => piece.elim repl fun c => [c]

/-- `r.sub(repl, text)`, for a replacement without references to groups. -/
def sub (r : Regex) (repl text : List Char) : List Char := substitute repl (r.scan [] text)

/-- The words between the matches. -/
def kept : List (Option Char) → List (List Char)
  | [] => [[]]
  | none :: pieces => [] :: kept pieces
  | some c :: pieces => (kept pieces).modifyHead (c :: ·)

/-- `r.split(text)`, for a pattern without groups. -/
def split (r : Regex) (text : List Char) : List (List Char) := kept (r.scan [] text)

variable {r : Regex} {behind ahead rest : List Char}

/-! ## Substitution -/

/-- A match is replaced. -/
theorem substitute_match (repl : List Char) (pieces : List (Option Char)) :
    substitute repl (none :: pieces) = repl ++ substitute repl pieces := rfl

/-- A character between matches is kept. -/
theorem substitute_char (repl : List Char) (c : Char) (pieces : List (Option Char)) :
    substitute repl (some c :: pieces) = c :: substitute repl pieces := rfl

/-- So is a word between matches. -/
theorem substitute_kept (repl word : List Char) (pieces : List (Option Char)) :
    substitute repl (word.map some ++ pieces) = word ++ substitute repl pieces := by
  induction word with
  | nil => rfl
  | cons c word ih => exact congrArg (c :: ·) ih

/-! ## Splitting -/

/-- There is always a part, an empty one perhaps. -/
theorem kept_ne_nil (pieces : List (Option Char)) : kept pieces ≠ [] := by
  induction pieces with
  | nil => exact List.cons_ne_nil _ _
  | cons piece pieces ih =>
    cases piece with
    | none => exact List.cons_ne_nil _ _
    | some c =>
      obtain ⟨word, words, hkept⟩ := List.exists_cons_of_ne_nil ih
      rw [kept, hkept]
      exact List.cons_ne_nil _ _

/-- A word in front belongs to the first part. -/
theorem kept_append (word : List Char) (pieces : List (Option Char)) :
    kept (word.map some ++ pieces) = (kept pieces).modifyHead (word ++ ·) := by
  induction word with
  | nil =>
    obtain ⟨first, words, hkept⟩ := List.exists_cons_of_ne_nil (kept_ne_nil pieces)
    rw [List.map_nil, List.nil_append, hkept]
    rfl
  | cons c word ih =>
    rw [List.map_cons, List.cons_append, kept, ih, List.modifyHead_modifyHead]
    rfl

/-- Joining what is kept puts the separator in the place of each match. -/
theorem intercalate_kept {α : Type} (sep : List α) (f : Char → List α)
    (pieces : List (Option Char)) :
    sep.intercalate ((kept pieces).map fun word => word.flatMap f) =
      pieces.flatMap fun piece => piece.elim sep f := by
  induction pieces with
  | nil => simp [kept]
  | cons piece pieces ih =>
    obtain ⟨word, words, hkept⟩ := List.exists_cons_of_ne_nil (kept_ne_nil pieces)
    rw [List.flatMap_cons, ← ih]
    cases piece with
    | none =>
      rw [kept, List.map_cons, List.intercalate_cons_of_ne_nil (by simp [hkept])]
      simp
    | some c =>
      rw [kept, hkept]
      cases words with
      | nil => simp
      | cons next words => simp [List.intercalate_cons_cons]

/-! ## Steps of the scan -/

/-- Where the ways to match all read the same word, the scan goes on behind it. -/
theorem scan_of_ways {behind' : List Char} (hne : r.run ⟨behind, ahead, []⟩ ≠ [])
    (hways : ∀ y ∈ r.run ⟨behind, ahead, []⟩, y.behind = behind' ∧ y.ahead = rest)
    (hlt : rest.length < ahead.length) :
    r.scan behind ahead = none :: r.scan behind' rest := by
  obtain ⟨y, ys, hrun⟩ := List.exists_cons_of_ne_nil hne
  rw [hrun] at hways
  obtain ⟨rfl, rfl⟩ := hways y List.mem_cons_self
  have hfind : (y :: ys).find? (fun y => decide (y.ahead.length < ahead.length)) = some y :=
    List.find?_cons_of_pos (decide_eq_true hlt)
  have hhead : ((y :: ys).head?.any fun y => decide (y.ahead.length = ahead.length)) = false :=
    decide_eq_false (Nat.ne_of_lt hlt)
  rw [scan, hrun]
  simp only [hhead, Bool.false_eq_true, if_false]
  split
  · next z hz =>
    rw [hfind] at hz
    cases hz
    rfl
  · next hz => exact absurd (hfind.symm.trans hz) (Option.some_ne_none y)

/-- Where the pattern does not match, the next character is kept. -/
theorem scan_of_no_way {c : Char} {cs : List Char} (hrun : r.run ⟨behind, c :: cs, []⟩ = []) :
    r.scan behind (c :: cs) = some c :: r.scan (c :: behind) cs := by
  rw [scan, hrun]
  rfl

/-- A pattern that does not match the empty text finds nothing in it. -/
theorem scan_nil (hrun : r.run ⟨behind, [], []⟩ = []) : r.scan behind [] = [] := by
  rw [scan, hrun]
  rfl

end Text.Regex
