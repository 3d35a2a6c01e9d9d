import Mathlib.Data.List.Forall2
import OburBackend.RateLimit.Middleware
import OburBackend.Text.RegexSyntax
import OburBackend.Text.Split
import OburBackend.Text.Substitution

/-!
# What a compiled route template matches (`app/middleware/route_match.py`)

`templatePattern` is the text that `compile_template` compiles: the literals of the template,
escaped, with `[^/]+` between them. `compile_templatePattern` reads it back piece by piece, and
`isSome_matchStart_template` says which paths it matches: those that `Reads` reads, up to a last
slash. The rate limiter's `matchLiterals` decides just that (`matchLiterals_kept`), for the
parameters that `_PARAMETER` finds are those that `splitParameters` finds (`compileTemplate_eq`). Of
a template made of literals and parameters, these are the paths that agree with it segment by
segment (`reads_iff_isInstance`). The strict routes are such templates
(`isTemplate_strictRoutes`).
-/

namespace OburBackend.RateLimit

open Text Regex

/-! ## The pattern of a template -/

/-- `[^/}]` -/
def isNameChar (c : Char) : Bool := decide (c ≠ '/') && decide (c ≠ '}')

/-- `_PARAMETER` -/
def parameter : Regex := .all [.lit '{', .plus (.char isNameChar), .lit '}']

/-- `_ONE_SEGMENT` -/
def oneSegment : List Char := "[^/]+".toList

/-- What `compile_template` compiles. -/
def templatePattern (template : String) : List Char :=
  '^' :: (oneSegment.intercalate ((parameter.split template.toList).map escape) ++ "/?$".toList)

/-! ## Specification -/

/-- A segment that stands for itself. -/
def IsLiteral (segment : List Char) : Prop := '{' ∉ segment ∧ '}' ∉ segment

/-- A segment `{name}`. -/
def IsParameter (segment : List Char) : Prop :=
  ∃ name, name ≠ [] ∧ '}' ∉ name ∧ segment = '{' :: (name ++ ['}'])

/-- The template is made of literals and parameters. -/
def IsTemplate (template : String) : Prop :=
  ∀ segment ∈ template.splitOn "/", IsLiteral segment.toList ∨ IsParameter segment.toList

/-- A part of a path is what the segment of the template asks for. -/
def Fits (segment part : List Char) : Prop :=
  (IsLiteral segment ∧ part = segment) ∨ (IsParameter segment ∧ part ≠ [])

/-- The path has the segments of the template, equal at the literals, not empty at the
parameters. -/
def IsInstance (template path : String) : Prop :=
  List.Forall₂ (fun segment part => Fits segment.toList part.toList) (template.splitOn "/")
    (path.splitOn "/")

/-- The path is an instance of the template, up to one slash at its end. -/
def Serves (template path : String) : Prop :=
  IsInstance template path ∨ ∃ shorter, path = shorter ++ "/" ∧ IsInstance template shorter

/-! ## The pattern, piece by piece -/

/-- What a template's pieces read: a segment for each parameter. -/
inductive Reads : List (Option Char) → List Char → Prop
  | nil : Reads [] []
  | literal {c : Char} {pieces : List (Option Char)} {word : List Char} : Reads pieces word →
    Reads (some c :: pieces) (c :: word)
  | segment {part : List Char} {pieces : List (Option Char)} {word : List Char} : part ≠ [] →
    '/' ∉ part → Reads pieces word → Reads (none :: pieces) (part ++ word)

def pieceRegex (piece : Option Char) : Regex :=
  piece.elim (.plus (.char fun d => decide (d ≠ '/'))) .lit

/-- The pattern of the pieces reads what the pieces read. -/
theorem means_pieces (pieces : List (Option Char)) :
    Means (.all (pieces.map pieceRegex)) fun word groups => Reads pieces word ∧ groups = [] := by
  induction pieces with
  | nil =>
    refine Means.empty.congr fun word groups => and_congr_left fun _ => ?_
    constructor
    · rintro rfl
      exact .nil
    · rintro ⟨⟩
      rfl
  | cons piece pieces ih =>
    cases piece with
    | none =>
      refine ((Means.plus_char _).silent_seq ih).congr fun word groups =>
        and_congr_left fun _ => ?_
      constructor
      · rintro ⟨part, word, rfl, ⟨hne, hpart⟩, hword⟩
        exact .segment hne (fun h => of_decide_eq_true (hpart '/' h) rfl) hword
      · rintro ⟨⟩
        next part word hne hslash hword =>
        exact ⟨part, word, rfl,
          ⟨hne, fun c hc => decide_eq_true (ne_of_mem_of_not_mem hc hslash)⟩, hword⟩
    | some c =>
      refine ((Means.lit c).silent_seq ih).congr fun word groups => and_congr_left fun _ => ?_
      constructor
      · rintro ⟨_, word, rfl, rfl, hword⟩
        exact .literal hword
      · rintro ⟨⟩
        next word hword => exact ⟨[c], word, rfl, rfl, hword⟩

/-- The tokens of a piece. -/
def pieceTokens (piece : Option Char) : List Token :=
  piece.elim [.atom (.char fun d => decide (d ≠ '/')), .plus] fun c => [.atom (.lit c)]

/-- One piece is split into its tokens. -/
theorem tokens_piece (piece : Option Char) (rest : List Char) :
    tokens (piece.elim oneSegment escapeChar ++ rest) =
      (tokens rest).map (pieceTokens piece ++ ·) := by
  cases piece with
  | none =>
    have hclass : tokens (oneSegment ++ rest) = (tokens ('+' :: rest)).map
        (.atom (.char fun d => decide (d ≠ '/')) :: ·) := rfl
    have hplus : tokens ('+' :: rest) = (tokens rest).map (.plus :: ·) := rfl
    rw [Option.elim_none, hclass, hplus, Option.map_map]
    rfl
  | some c => exact tokens_escapeChar_append c rest

/-- So are all the pieces. -/
theorem tokens_pieces (pieces : List (Option Char)) (rest : List Char) :
    tokens ((pieces.flatMap fun piece => piece.elim oneSegment escapeChar) ++ rest) =
      (tokens rest).map (pieces.flatMap pieceTokens ++ ·) := by
  induction pieces with
  | nil => simp
  | cons piece pieces ih =>
    rw [List.flatMap_cons, List.append_assoc, tokens_piece, ih, Option.map_map]
    simp [Function.comp_def]

/-- The tokens after `^`. -/
def restTokens (pieces : List (Option Char)) : List Token :=
  pieces.flatMap pieceTokens ++ [.atom (.lit '/'), .opt, .anchor .eol]

/-- They start with an atom, so a literal before them is not repeated. -/
theorem exists_restTokens (pieces : List (Option Char)) :
    ∃ r ts, restTokens pieces = .atom r :: ts := by
  cases pieces with
  | nil => exact ⟨_, _, rfl⟩
  | cons piece pieces =>
    cases piece with
    | none => exact ⟨_, _, rfl⟩
    | some c => exact ⟨_, _, rfl⟩

/-- The tokens are put together to the pieces, an optional slash and the end. -/
theorem assemble_restTokens (pieces : List (Option Char)) :
    assemble (restTokens pieces) = some (pieces.map pieceRegex ++ [.opt (.lit '/'), .eol]) := by
  induction pieces with
  | nil => rfl
  | cons piece pieces ih =>
    cases piece with
    | none =>
      have hplus : assemble (restTokens (none :: pieces)) =
          (assemble (restTokens pieces)).map (pieceRegex none :: ·) := rfl
      rw [hplus, ih]
      rfl
    | some c =>
      obtain ⟨r, ts, hrest⟩ := exists_restTokens pieces
      have hlit : restTokens (some c :: pieces) = .atom (.lit c) :: restTokens pieces := rfl
      have hatom : assemble (.atom (.lit c) :: .atom r :: ts) =
          (assemble (.atom r :: ts)).map (.lit c :: ·) := rfl
      rw [hlit, hrest, hatom, ← hrest, ih]
      rfl

/-- The pieces of a template: its characters, and `none` for a parameter. -/
def templatePieces (template : String) : List (Option Char) := parameter.scan [] template.toList

/-- The pattern is read back piece by piece. -/
theorem compile_templatePattern (template : String) :
    Regex.compile (templatePattern template) =
      some (.all (.bol :: (((templatePieces template).map pieceRegex ++ [.opt (.lit '/')]) ++
        [.eol]))) := by
  have hpattern : templatePattern template =
      '^' :: (((templatePieces template).flatMap fun piece => piece.elim oneSegment escapeChar) ++
        "/?$".toList) := by
    rw [← intercalate_kept]
    rfl
  have hend : tokens "/?$".toList = some [.atom (.lit '/'), .opt, .anchor .eol] := rfl
  have hstart : ∀ rest, tokens ('^' :: rest) = (tokens rest).map (.anchor .bol :: ·) :=
    fun _ => rfl
  have htokens : tokens (templatePattern template) =
      some (.anchor .bol :: restTokens (templatePieces template)) := by
    rw [hpattern, hstart, tokens_pieces, hend]
    rfl
  rw [Regex.compile, htokens, Option.bind_some, assemble, assemble_restTokens]
  simp

/-! ## What the pattern matches -/

/-- The pattern of a template matches what its pieces read, with a slash after it or none, and with
a line feed after that or none. -/
theorem isSome_matchStart_template {template : String} {r : Regex}
    (hr : Regex.compile (templatePattern template) = some r) (path : List Char) :
    (r.matchStart path).isSome = true ↔
      ∃ word rest, path = word ++ rest ∧ Reads (templatePieces template) word ∧
        pathEnd rest = true := by
  rw [compile_templatePattern, Option.some.injEq] at hr
  subst hr
  have hmeans : Means
      (.all ((templatePieces template).map pieceRegex ++ [.opt (.lit '/')]))
      fun word groups => (∃ u v, word = u ++ v ∧ Reads (templatePieces template) u ∧
        (v = ['/'] ∨ v = [])) ∧ groups = [] := by
    have hslash : Means (.opt (.lit '/')) fun word groups =>
        (word = ['/'] ∨ word = []) ∧ groups = [] :=
      ((Means.lit '/').alt Means.empty).congr fun _ _ => or_and_right.symm
    exact ((means_pieces _).silent_seq hslash).of_run_eq (run_all_concat _ _)
  rw [matchStart_all_anchored, isSome_matchStart_anchored hmeans]
  constructor
  · rintro ⟨_, rest, _, rfl, ⟨⟨u, v, rfl, hu, hv⟩, rfl⟩, hrest⟩
    refine ⟨u, v ++ rest, List.append_assoc u v rest, hu, ?_⟩
    rcases hv with rfl | rfl <;> rcases hrest with rfl | rfl <;> rfl
  · rintro ⟨u, rest, rfl, hu, hrest⟩
    have hends : rest ∈ [[], ['\n'], ['/'], ['/', '\n']] := of_decide_eq_true hrest
    simp only [List.mem_cons, List.not_mem_nil, or_false] at hends
    rcases hends with rfl | rfl | rfl | rfl
    · exact ⟨u ++ [], [], [], by simp, ⟨⟨u, [], rfl, hu, .inr rfl⟩, rfl⟩, .inl rfl⟩
    · exact ⟨u ++ [], ['\n'], [], by simp, ⟨⟨u, [], rfl, hu, .inr rfl⟩, rfl⟩, .inr rfl⟩
    · exact ⟨u ++ ['/'], [], [], by simp, ⟨⟨u, ['/'], rfl, hu, .inl rfl⟩, rfl⟩, .inl rfl⟩
    · exact ⟨u ++ ['/'], ['\n'], [], by simp, ⟨⟨u, ['/'], rfl, hu, .inl rfl⟩, rfl⟩, .inr rfl⟩

/-! ## The rate limiter's matcher -/

/-- `[^/]+` reads a part that is not empty and has no slash. -/
theorem segment_iff {next : List Char → Bool} {cs : List Char} :
    segment next cs = true ↔
      ∃ part rest, cs = part ++ rest ∧ part ≠ [] ∧ '/' ∉ part ∧ next rest = true := by
  induction cs with
  | nil =>
    refine iff_of_false Bool.false_ne_true ?_
    rintro ⟨part, rest, hcs, hne, -, -⟩
    exact hne (List.append_eq_nil_iff.mp hcs.symm).1
  | cons c cs ih =>
    rw [segment, Bool.and_eq_true, Bool.or_eq_true, ih, decide_eq_true_eq]
    constructor
    · rintro ⟨hc, hnext | ⟨part, rest, rfl, -, hpart, hnext⟩⟩
      · exact ⟨[c], cs, rfl, List.cons_ne_nil c [], by simpa using hc.symm, hnext⟩
      · refine ⟨c :: part, rest, rfl, List.cons_ne_nil c part, ?_, hnext⟩
        exact List.not_mem_cons_of_ne_of_not_mem hc.symm hpart
    · rintro ⟨part, rest, hcs, hne, hslash, hnext⟩
      obtain ⟨d, part, rfl⟩ := List.exists_cons_of_ne_nil hne
      obtain ⟨rfl, rfl⟩ := List.cons.inj hcs
      obtain ⟨hc, hpart⟩ := not_or.mp (mt List.mem_cons.mpr hslash)
      refine ⟨Ne.symm hc, ?_⟩
      by_cases hempty : part = []
      · subst hempty
        exact .inl hnext
      · exact .inr ⟨part, rest, rfl, hempty, hpart, hnext⟩

/-- A literal character is read first. -/
theorem matchLiterals_cons {c : Char} {literal : List Char} {literals : List (List Char)}
    {cs : List Char} :
    matchLiterals ((c :: literal) :: literals) cs = true ↔
      ∃ rest, cs = c :: rest ∧ matchLiterals (literal :: literals) rest = true := by
  cases cs with
  | nil =>
    have hnil : matchLiterals ((c :: literal) :: literals) [] = false := by
      cases literals with
      | nil => rfl
      | cons next literals => rfl
    rw [hnil]
    refine iff_of_false Bool.false_ne_true ?_
    rintro ⟨rest, hcs, -⟩
    cases hcs
  | cons d cs =>
    have hcons : matchLiterals ((c :: literal) :: literals) (d :: cs) =
        (c == d && matchLiterals (literal :: literals) cs) := by
      cases literals with
      | nil => exact Bool.and_assoc ..
      | cons next literals => exact Bool.and_assoc ..
    rw [hcons, Bool.and_eq_true, beq_iff_eq]
    constructor
    · rintro ⟨rfl, hrest⟩
      exact ⟨cs, rfl, hrest⟩
    · rintro ⟨rest, hcs, hrest⟩
      obtain ⟨rfl, rfl⟩ := List.cons.inj hcs
      exact ⟨rfl, hrest⟩

/-- The literals between the parameters, matched one after the other, are what the pieces read. -/
theorem matchLiterals_kept {pieces : List (Option Char)} {cs : List Char} :
    matchLiterals (kept pieces) cs = true ↔
      ∃ word rest, cs = word ++ rest ∧ Reads pieces word ∧ pathEnd rest = true := by
  induction pieces generalizing cs with
  | nil =>
    have hend : matchLiterals (kept []) cs = pathEnd cs := rfl
    rw [hend]
    constructor
    · exact fun h => ⟨[], cs, rfl, .nil, h⟩
    · rintro ⟨_, rest, rfl, ⟨⟩, h⟩
      exact h
  | cons piece pieces ih =>
    obtain ⟨literal, literals, hkept⟩ := List.exists_cons_of_ne_nil (kept_ne_nil pieces)
    cases piece with
    | none =>
      have hsegment : matchLiterals (kept (none :: pieces)) cs =
          segment (matchLiterals (kept pieces)) cs := by
        rw [kept, hkept, matchLiterals]
        · rfl
        · exact List.cons_ne_nil literal literals
      rw [hsegment, segment_iff]
      constructor
      · rintro ⟨part, _, rfl, hne, hslash, hrest⟩
        obtain ⟨word, rest, rfl, hword, hend⟩ := ih.mp hrest
        exact ⟨part ++ word, rest, (List.append_assoc part word rest).symm,
          .segment hne hslash hword, hend⟩
      · rintro ⟨_, rest, rfl, ⟨⟩, hend⟩
        next part word hne hslash hword =>
        exact ⟨part, word ++ rest, List.append_assoc part word rest, hne, hslash,
          ih.mpr ⟨word, rest, rfl, hword, hend⟩⟩
    | some c =>
      rw [kept, hkept, List.modifyHead_cons, matchLiterals_cons, ← hkept]
      constructor
      · rintro ⟨_, rfl, hrest⟩
        obtain ⟨word, rest, rfl, hword, hend⟩ := ih.mp hrest
        exact ⟨c :: word, rest, rfl, .literal hword, hend⟩
      · rintro ⟨_, rest, rfl, ⟨⟩, hend⟩
        next word hword => exact ⟨word ++ rest, rfl, ih.mpr ⟨word, rest, rfl, hword, hend⟩⟩

/-! ## The parameters of a template -/

/-- A name of a parameter: it ends neither its segment nor the parameter. -/
def IsName (name : List Char) : Prop := ∀ c ∈ name, isNameChar c = true

variable {behind name rest : List Char}

/-- The pattern of a parameter reads a name in braces. -/
theorem mem_run_parameter {ahead : List Char} {y : Point} :
    y ∈ parameter.run ⟨behind, ahead, []⟩ ↔
      ∃ name rest, ahead = '{' :: (name ++ '}' :: rest) ∧ (name ≠ [] ∧ IsName name) ∧
        y = ⟨('{' :: (name ++ ['}'])).reverse ++ behind, rest, []⟩ := by
  have hmeans : Means parameter fun word groups => ∃ v, word = '{' :: v ∧ ∃ name w, v = name ++ w ∧
      (name ≠ [] ∧ IsName name) ∧ w = ['}'] ∧ groups = [] :=
    Means.lit_seq '{' ((Means.plus_char isNameChar).seq_of_silent (Means.lit '}').seq_empty)
  rw [hmeans]
  constructor
  · rintro ⟨_, rest, _, hahead, ⟨_, rfl, name, _, rfl, hname, rfl, rfl⟩, rfl⟩
    refine ⟨name, rest, ?_, hname, rfl⟩
    simpa using hahead
  · rintro ⟨name, rest, hahead, hname, rfl⟩
    refine ⟨'{' :: (name ++ ['}']), rest, [], ?_, ⟨_, rfl, name, _, rfl, hname, rfl, rfl⟩, rfl⟩
    simpa using hahead

/-- There is no way to match where no parameter starts. -/
theorem run_parameter_eq_nil {ahead : List Char}
    (h : ∀ name rest, name ≠ [] → IsName name → ahead ≠ '{' :: (name ++ '}' :: rest)) :
    parameter.run ⟨behind, ahead, []⟩ = [] := by
  refine List.eq_nil_iff_forall_not_mem.mpr fun y hy => ?_
  obtain ⟨name, rest, hahead, ⟨hne, hname⟩, -⟩ := mem_run_parameter.mp hy
  exact h name rest hne hname hahead

/-- A parameter is one piece. -/
theorem scan_parameter (hne : name ≠ []) (hname : IsName name) :
    parameter.scan behind ('{' :: (name ++ '}' :: rest)) =
      none :: parameter.scan (('{' :: (name ++ ['}'])).reverse ++ behind) rest := by
  refine scan_of_ways (List.ne_nil_of_mem
    (mem_run_parameter.mpr ⟨name, rest, rfl, ⟨hne, hname⟩, rfl⟩)) (fun y hy => ?_) ?_
  · obtain ⟨name', rest', hahead, ⟨-, hname'⟩, rfl⟩ := mem_run_parameter.mp hy
    obtain ⟨rfl, hrest⟩ := append_inj_of_class hname hname' (by simp [isNameChar])
      (by simp [isNameChar]) (List.cons.inj hahead).2
    exact ⟨rfl, (List.cons.inj hrest).2.symm⟩
  · rw [List.length_cons, List.length_append, List.length_cons]
    omega

/-- Other characters are kept. -/
theorem scan_char {c : Char} (hc : c ≠ '{') :
    parameter.scan behind (c :: rest) = some c :: parameter.scan (c :: behind) rest :=
  scan_of_no_way (run_parameter_eq_nil fun _ _ _ _ hahead => hc (List.cons.inj hahead).1)

/-- A parameter does not reach over the end of a segment. -/
theorem not_parameter_of_blocked {name' rest' : List Char} (hblocked : '}' ∉ name)
    (hrest : rest = [] ∨ rest.head? = some '/') (hname : IsName name')
    (h : name ++ rest = name' ++ '}' :: rest') : False := by
  have hslash : '/' ∉ name' := fun hmem => absurd (hname '/' hmem) (by decide)
  have hhead : ∀ more, rest ≠ '}' :: more := by
    rintro more rfl
    rcases hrest with hnil | hhead
    · cases hnil
    · exact absurd (Option.some.inj hhead) (by decide)
  rcases List.append_eq_append_iff.mp h with ⟨tail, rfl, htail⟩ | ⟨tail, rfl, htail⟩
  · -- the name would go on behind the end of the segment
    cases tail with
    | nil => exact hhead rest' htail
    | cons c tail =>
      subst htail
      rcases hrest with hnil | hhead
      · cases hnil
      · obtain rfl : c = '/' := Option.some.inj hhead
        exact hslash (by simp)
  · cases tail with
    | nil => exact hhead rest' htail.symm
    | cons c tail =>
      obtain ⟨rfl, -⟩ := List.cons.inj htail
      exact hblocked (by simp)

/-- What is open at the end of a segment is kept. -/
theorem scan_blocked (hname : '}' ∉ name) (hrest : rest = [] ∨ rest.head? = some '/') :
    parameter.scan behind (name ++ rest) =
      name.map some ++ parameter.scan (name.reverse ++ behind) rest := by
  induction name generalizing behind with
  | nil => rfl
  | cons c name ih =>
    have hbrace : '}' ∉ name := fun h => hname (List.mem_cons_of_mem c h)
    have hrun : parameter.run ⟨behind, c :: (name ++ rest), []⟩ = [] :=
      run_parameter_eq_nil fun name' rest' _ hname' hahead =>
        not_parameter_of_blocked hbrace hrest hname' (List.cons.inj hahead).2
    rw [List.cons_append, scan_of_no_way hrun, ih hbrace]
    simp

/-- Nothing is replaced in the empty text. -/
theorem scan_parameter_nil : parameter.scan behind [] = [] :=
  scan_nil (run_parameter_eq_nil fun _ _ _ _ hahead => List.cons_ne_nil _ _ hahead.symm)

/-- A name has no closing brace. -/
theorem IsName.not_mem (h : IsName name) : '}' ∉ '{' :: name :=
  List.not_mem_cons_of_ne_of_not_mem (by decide) fun hmem => absurd (h '}' hmem) (by decide)

/-- A brace that no parameter starts at is kept, with what has been read behind it. -/
theorem scan_not_parameter {c : Char} (hname : IsName name) (hc : c = '/' ∨ c = '}')
    (hclose : ¬ (c = '}' ∧ name ≠ [])) :
    parameter.scan behind ('{' :: (name ++ c :: rest)) =
      ('{' :: (name ++ [c])).map some ++
        parameter.scan (('{' :: (name ++ [c])).reverse ++ behind) rest := by
  rcases hc with rfl | rfl
  · -- the segment ends before the brace is closed
    have hopen : parameter.scan behind ('{' :: name ++ '/' :: rest) = ('{' :: name).map some ++
        parameter.scan (('{' :: name).reverse ++ behind) ('/' :: rest) :=
      scan_blocked hname.not_mem (.inr rfl)
    rw [← List.cons_append, hopen, scan_char (by decide)]
    simp
  · -- there is no name
    obtain rfl : name = [] := by_contra fun hne => hclose ⟨rfl, hne⟩
    have hrun : parameter.run ⟨behind, '{' :: '}' :: rest, []⟩ = [] := by
      refine run_parameter_eq_nil fun name rest hne hchars hahead => ?_
      obtain ⟨d, name, rfl⟩ := List.exists_cons_of_ne_nil hne
      obtain ⟨rfl, -⟩ := List.cons.inj (List.cons.inj hahead).2
      exact absurd (hchars '}' List.mem_cons_self) (by decide)
    rw [List.nil_append, scan_of_no_way hrun, scan_char (by decide)]
    rfl

/-- `splitParameters` splits where `_PARAMETER` matches, in either of its states. -/
theorem splitParameters_eq (cs : List Char) :
    (∀ behind literal, splitParameters cs none literal =
        (kept (parameter.scan behind cs)).modifyHead (literal ++ ·)) ∧
      ∀ behind literal name, IsName name → splitParameters cs (some name) literal =
        (kept (parameter.scan behind ('{' :: (name ++ cs)))).modifyHead (literal ++ ·) := by
  induction cs with
  | nil =>
    refine ⟨fun behind literal => ?_, fun behind literal name hname => ?_⟩
    · rw [scan_parameter_nil, splitParameters]
      simp [kept]
    · have hscan : parameter.scan behind ('{' :: (name ++ [])) = ('{' :: name).map some ++
          parameter.scan (('{' :: name).reverse ++ behind) [] :=
        scan_blocked hname.not_mem (.inl rfl)
      rw [hscan, scan_parameter_nil, kept_append, splitParameters]
      simp [kept]
  | cons c cs ih =>
    obtain ⟨hliteral, hopen⟩ := ih
    refine ⟨fun behind literal => ?_, fun behind literal name hname => ?_⟩
    · rw [splitParameters]
      split
      · next hc =>
        subst hc
        exact hopen behind literal [] (List.forall_mem_nil _)
      · next hc =>
        rw [scan_char hc, hliteral (c :: behind), kept, List.modifyHead_modifyHead]
        simp [Function.comp_def]
    · rw [splitParameters]
      split
      · next hc =>
        -- the parameter ends here
        obtain ⟨rfl, hne⟩ := hc
        have hid : ∀ words : List (List Char), words.modifyHead ([] ++ ·) = words := by
          rintro (_ | ⟨word, words⟩) <;> rfl
        rw [scan_parameter hne hname, kept, List.modifyHead_cons, List.append_nil,
          hliteral (('{' :: (name ++ ['}'])).reverse ++ behind) [], hid]
      · next hclose =>
        split
        · next hc =>
          -- there is no parameter at the brace that was open
          have hscan : parameter.scan behind ('{' :: (name ++ c :: cs)) =
              ('{' :: (name ++ [c])).map some ++
                parameter.scan (('{' :: (name ++ [c])).reverse ++ behind) cs :=
            scan_not_parameter hname hc hclose
          rw [hscan, kept_append, List.modifyHead_modifyHead,
            hliteral (('{' :: (name ++ [c])).reverse ++ behind)]
          simp [Function.comp_def]
        · next hc =>
          have hmore : IsName (name ++ [c]) := by
            obtain ⟨hslash, hbrace⟩ := not_or.mp hc
            refine List.forall_mem_append.mpr ⟨hname, List.forall_mem_singleton.mpr ?_⟩
            simp [isNameChar, hslash, hbrace]
          rw [hopen behind literal (name ++ [c]) hmore, List.append_assoc, List.singleton_append]

/-- The literals of a template are what `_PARAMETER.split` leaves of it. -/
theorem compileTemplate_eq (template : String) :
    compileTemplate template = parameter.split template.toList := by
  obtain ⟨word, words, hkept⟩ := List.exists_cons_of_ne_nil
    (kept_ne_nil (parameter.scan [] template.toList))
  rw [compileTemplate, (splitParameters_eq template.toList).1 [] [], Regex.split, hkept]
  rfl

/-! ## Segment by segment -/

/-- The pieces of two parts read two words one after the other. -/
theorem reads_append {pieces more : List (Option Char)} {word : List Char} :
    Reads (pieces ++ more) word ↔ ∃ u v, word = u ++ v ∧ Reads pieces u ∧ Reads more v := by
  constructor
  · intro h
    induction pieces generalizing word with
    | nil => exact ⟨[], word, rfl, .nil, h⟩
    | cons piece pieces ih =>
      cases h with
      | literal h =>
        obtain ⟨u, v, rfl, hu, hv⟩ := ih h
        exact ⟨_ :: u, v, rfl, .literal hu, hv⟩
      | segment hne hslash h =>
        obtain ⟨u, v, rfl, hu, hv⟩ := ih h
        exact ⟨_ ++ u, v, (List.append_assoc ..).symm, .segment hne hslash hu, hv⟩
  · rintro ⟨u, v, rfl, hu, hv⟩
    induction hu with
    | nil => exact hv
    | literal _ ih => exact .literal ih
    | segment hne hslash _ ih =>
      rw [List.append_assoc]
      exact .segment hne hslash ih

/-- Literal pieces read themselves. -/
theorem reads_map_some {literal word : List Char} :
    Reads (literal.map some) word ↔ word = literal := by
  constructor
  · intro h
    induction literal generalizing word with
    | nil =>
      cases h
      rfl
    | cons c literal ih =>
      cases h with
      | literal h => rw [ih h]
  · rintro rfl
    induction word with
    | nil => exact .nil
    | cons c word ih => exact .literal ih

/-- The pieces of a segment read the parts that fit it. -/
theorem exists_scan_segment (behind : List Char) {segment : List Char} (hslash : '/' ∉ segment)
    (hsegment : IsLiteral segment ∨ IsParameter segment)
    (hrest : rest = [] ∨ rest.head? = some '/') :
    ∃ pieces behind', parameter.scan behind (segment ++ rest) =
        pieces ++ parameter.scan behind' rest ∧
      ∀ part, Reads pieces part ↔ '/' ∉ part ∧ Fits segment part := by
  rcases hsegment with hliteral | ⟨name, hne, hbrace, rfl⟩
  · refine ⟨segment.map some, segment.reverse ++ behind, scan_blocked hliteral.2 hrest,
      fun part => ?_⟩
    rw [reads_map_some]
    constructor
    · rintro rfl
      exact ⟨hslash, .inl ⟨hliteral, rfl⟩⟩
    · rintro ⟨-, ⟨-, rfl⟩ | ⟨⟨name, -, -, rfl⟩, -⟩⟩
      · rfl
      · exact absurd List.mem_cons_self hliteral.1
  · have hname : IsName name := by
      intro c hc
      have hc' : c ∈ '{' :: (name ++ ['}']) := List.mem_cons_of_mem _ (List.mem_append_left _ hc)
      simp [isNameChar, ne_of_mem_of_not_mem hc' hslash, ne_of_mem_of_not_mem hc hbrace]
    refine ⟨[none], ('{' :: (name ++ ['}'])).reverse ++ behind, ?_, fun part => ?_⟩
    · rw [List.singleton_append, ← scan_parameter hne hname]
      simp
    · constructor
      · rintro ⟨⟩
        next part word hpart hslash' hword =>
        cases hword
        rw [List.append_nil]
        exact ⟨hslash', .inr ⟨⟨name, hne, hbrace, rfl⟩, hpart⟩⟩
      · rintro ⟨hslash', ⟨hliteral, -⟩ | ⟨-, hpart⟩⟩
        · exact absurd List.mem_cons_self hliteral.1
        · have hreads : Reads [none] (part ++ []) := .segment hpart hslash' .nil
          rwa [List.append_nil] at hreads

/-- By induction on the segments, each read up to the slash behind it. -/
theorem reads_scan_intercalate (behind : List Char) {segments : List (List Char)}
    (hne : segments ≠ []) (hslash : ∀ segment ∈ segments, '/' ∉ segment)
    (hsegments : ∀ segment ∈ segments, IsLiteral segment ∨ IsParameter segment)
    (word : List Char) :
    Reads (parameter.scan behind (['/'].intercalate segments)) word ↔
      List.Forall₂ Fits segments (word.splitOn '/') := by
  induction segments generalizing behind word with
  | nil => exact absurd rfl hne
  | cons segment segments ih =>
    obtain ⟨hslash₁, hslash⟩ := List.forall_mem_cons.mp hslash
    obtain ⟨hsegment, hsegments⟩ := List.forall_mem_cons.mp hsegments
    cases segments with
    | nil =>
      obtain ⟨pieces, behind', hscan, hpieces⟩ :=
        exists_scan_segment behind hslash₁ hsegment (.inl rfl)
      rw [List.intercalate_singleton, ← List.append_nil segment, hscan, scan_parameter_nil,
        List.append_nil, List.append_nil, hpieces]
      constructor
      · rintro ⟨hword, hfits⟩
        rw [List.splitOn_eq_singleton hword]
        exact .cons hfits .nil
      · intro h
        obtain ⟨part, parts, hfits, hparts, hsplit⟩ := List.forall₂_cons_left_iff.mp h
        obtain rfl := List.forall₂_nil_left_iff.mp hparts
        obtain ⟨rfl, hword⟩ := splitOn_eq_singleton_iff.mp hsplit
        exact ⟨hword, hfits⟩
    | cons next segments =>
      have hmore := List.cons_ne_nil next segments
      obtain ⟨pieces, behind', hscan, hpieces⟩ :=
        exists_scan_segment behind hslash₁ hsegment (.inr List.head?_cons)
      rw [List.intercalate_cons_of_ne_nil hmore, List.append_assoc, List.singleton_append, hscan,
        scan_char (by decide), reads_append]
      constructor
      · rintro ⟨part, _, rfl, hpart, ⟨⟩⟩
        next word hword =>
        obtain ⟨hslash', hfits⟩ := (hpieces part).mp hpart
        rw [List.splitOn_append_cons_self_of_not_mem hslash']
        exact .cons hfits ((ih _ hmore hslash hsegments word).mp hword)
      · intro h
        obtain ⟨part, parts, hfits, hparts, hsplit⟩ := List.forall₂_cons_left_iff.mp h
        have hne : parts ≠ [] := by
          rintro rfl
          exact hmore (List.forall₂_nil_right_iff.mp hparts)
        obtain ⟨rest, rfl, hslash', rfl⟩ := (splitOn_eq_cons_iff hne).mp hsplit
        exact ⟨part, '/' :: rest, rfl, (hpieces part).mpr ⟨hslash', hfits⟩,
          .literal ((ih _ hmore hslash hsegments rest).mpr hparts)⟩

/-! ## Routes -/

/-- A template is a path of literals and parameters. -/
theorem isTemplate_iff {template : String} :
    IsTemplate template ↔
      ∀ segment ∈ template.toList.splitOn '/', IsLiteral segment ∨ IsParameter segment := by
  have hsplit : template.splitOn "/" = (template.toList.splitOn '/').map String.ofList :=
    splitOn_singleton '/' template
  rw [IsTemplate, hsplit, List.forall_mem_map]
  simp only [String.toList_ofList]

/-- A path is an instance when each of its segments fits the segment of the template. -/
theorem isInstance_iff {template path : String} :
    IsInstance template path ↔
      List.Forall₂ Fits (template.toList.splitOn '/') (path.toList.splitOn '/') := by
  have hsplit : ∀ text : String, text.splitOn "/" =
      (text.toList.splitOn '/').map String.ofList := splitOn_singleton '/'
  rw [IsInstance, hsplit, hsplit, List.forall₂_map_left_iff, List.forall₂_map_right_iff]
  simp only [String.toList_ofList]

/-- The pieces of a template read its instances. -/
theorem reads_iff_isInstance {template path : String} (htemplate : IsTemplate template) :
    Reads (templatePieces template) path.toList ↔ IsInstance template path := by
  have hreads := reads_scan_intercalate [] (List.splitOn_ne_nil '/' template.toList)
    (fun _ => not_mem_of_mem_splitOn) (isTemplate_iff.mp htemplate) path.toList
  rwa [List.intercalate_splitOn, ← isInstance_iff] at hreads

/-- Without a line feed, only a slash may stand behind an instance. -/
theorem exists_reads_iff_serves {template path : String} (htemplate : IsTemplate template)
    (hpath : '\n' ∉ path.toList) :
    (∃ word rest, path.toList = word ++ rest ∧ Reads (templatePieces template) word ∧
      pathEnd rest = true) ↔ Serves template path := by
  constructor
  · rintro ⟨word, rest, hword, hreads, hend⟩
    have hinstance : IsInstance template (String.ofList word) :=
      (reads_iff_isInstance htemplate).mp (by rwa [String.toList_ofList])
    have hends : rest ∈ [[], ['\n'], ['/'], ['/', '\n']] := of_decide_eq_true hend
    simp only [List.mem_cons, List.not_mem_nil, or_false] at hends
    rw [hword] at hpath
    rcases hends with rfl | rfl | rfl | rfl
    · have hwhole : String.ofList word = path := String.toList_inj.mp (by simp [hword])
      exact .inl (hwhole ▸ hinstance)
    · simp at hpath
    · exact .inr ⟨String.ofList word, String.toList_inj.mp (hword.trans (by simp)), hinstance⟩
    · simp at hpath
  · rintro (hinstance | ⟨shorter, rfl, hinstance⟩)
    · exact ⟨path.toList, [], (List.append_nil _).symm,
        (reads_iff_isInstance htemplate).mpr hinstance, rfl⟩
    · exact ⟨shorter.toList, ['/'], String.toList_append,
        (reads_iff_isInstance htemplate).mpr hinstance, rfl⟩

/-- The matcher of the rate limiter decides what the compiled pattern matches. -/
theorem matchLiterals_iff_matchStart {template : String} {r : Regex}
    (hr : Regex.compile (templatePattern template) = some r) (path : List Char) :
    matchLiterals (compileTemplate template) path = true ↔ (r.matchStart path).isSome = true := by
  rw [compileTemplate_eq, Regex.split, matchLiterals_kept, isSome_matchStart_template hr]
  rfl

/-- A parameter is a name in braces. -/
theorem isParameter_iff {segment : List Char} :
    IsParameter segment ↔ segment.tail.dropLast ≠ [] ∧ '}' ∉ segment.tail.dropLast ∧
      segment = '{' :: (segment.tail.dropLast ++ ['}']) := by
  constructor
  · rintro ⟨name, hne, hbrace, rfl⟩
    simp [hne, hbrace]
  · exact fun h => ⟨_, h⟩

/-- The declared routes are templates. -/
theorem isTemplate_strictRoutes : ∀ route ∈ strictRoutes, IsTemplate route.2 := by
  simp only [isTemplate_iff, isParameter_iff, IsLiteral]
  decide

/-- The matcher that starts with the literals serves the same paths. -/
theorem matchLiterals_iff_serves {template path : String} (htemplate : IsTemplate template)
    (hpath : '\n' ∉ path.toList) :
    matchLiterals (compileTemplate template) path.toList = true ↔ Serves template path := by
  have hr := compile_templatePattern template
  rw [matchLiterals_iff_matchStart hr, isSome_matchStart_template hr,
    exists_reads_iff_serves htemplate hpath]

/-- The strict patterns of a method are those of its strict routes. -/
theorem tierFor_iff_exists {request : Request} :
    tierFor request = .strict ↔ ∃ template, (request.method, template) ∈ strictRoutes ∧
      matchLiterals (compileTemplate template) request.path.toList = true := by
  have htier : tierFor request = .strict ↔
      matchesAny request.path (strictPatterns request.method) = true := by
    rw [tierFor]
    split
    · next h => exact iff_of_true rfl h
    · next h => exact iff_of_false (by decide) h
  rw [htier, matchesAny, List.any_eq_true]
  constructor
  · rintro ⟨_, hpattern, hmatch⟩
    obtain ⟨⟨method, template⟩, hroute, rfl⟩ := List.mem_map.mp hpattern
    obtain ⟨hroute, hmethod⟩ := List.mem_filter.mp hroute
    obtain rfl : method = request.method := of_decide_eq_true hmethod
    exact ⟨template, hroute, hmatch⟩
  · rintro ⟨template, hroute, hmatch⟩
    have hmine : (request.method, template) ∈
        strictRoutes.filter fun route => route.1 = request.method :=
      List.mem_filter.mpr ⟨hroute, decide_eq_true rfl⟩
    exact ⟨compileTemplate template, List.mem_map.mpr ⟨_, hmine, rfl⟩, hmatch⟩

/-- The pattern of a template matches its instances, up to a slash at the end; so the rate limiter
is strict for the instances of the strict routes of the method, and for no other path. -/
theorem tierFor_eq_strict_iff (path : String) (hpath : '\n' ∉ path.toList) :
    (∀ template, IsTemplate template →
      ∃ r, Regex.compile (templatePattern template) = some r ∧
        ((r.matchStart path.toList).isSome = true ↔ Serves template path)) ∧
      ∀ request : Request, request.path = path →
        (tierFor request = .strict ↔
          ∃ template, (request.method, template) ∈ strictRoutes ∧ Serves template path) := by
  constructor
  · intro template htemplate
    have hr := compile_templatePattern template
    exact ⟨_, hr, by
      rw [← matchLiterals_iff_matchStart hr, matchLiterals_iff_serves htemplate hpath]⟩
  · rintro request rfl
    rw [tierFor_iff_exists]
    refine exists_congr fun template => and_congr_right fun hroute => ?_
    exact matchLiterals_iff_serves (isTemplate_strictRoutes _ hroute) hpath

/-- A request to follow a user. -/
def followRequest : Request where
  method := "POST"
  path := "/api/v1/users/7/follow/"
  client := none
  forwardedFor := []
  requestId := none
  state := .fresh

/-- The tier of a request to follow somebody. -/
theorem tierFor_eq_strict_iff_follow :
    (∃ r, Regex.compile (templatePattern "/api/v1/users/{user_id}/follow") = some r ∧
      ((r.matchStart followRequest.path.toList).isSome = true ↔
        Serves "/api/v1/users/{user_id}/follow" followRequest.path)) ∧
      (tierFor followRequest = .strict ↔
        ∃ template, ("POST", template) ∈ strictRoutes ∧ Serves template followRequest.path) :=
  have h := tierFor_eq_strict_iff followRequest.path (by decide)
  ⟨h.1 _ (isTemplate_strictRoutes ("POST", _) (by simp [strictRoutes])), h.2 followRequest rfl⟩

end OburBackend.RateLimit
