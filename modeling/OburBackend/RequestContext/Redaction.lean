import Mathlib.Data.List.Forall2
import OburBackend.RequestContext.Middleware
import OburBackend.Text.Split

/-!
# What the redaction of a path leaves

The redaction replaces the segments of a path that are identifiers as a whole, and nothing else
(`forall₂_redact`). The pattern asks for a slash behind an identifier, and for a slash or the end of
the path ahead of it, so a match at a place is the segment that starts there
(`mem_run_redactedSegment`): the scan takes an identifier in one step (`scan_identifier`) and
anything else character by character (`scan_segment`).
-/

namespace OburBackend.RequestContext

open Text Regex

/-! ## Specification -/

/-- A run of hex digits of the given length. -/
def IsHex (n : ℕ) (word : List Char) : Prop := word.length = n ∧ ∀ c ∈ word, isHexDigit c = true

/-- What looks like an identifier: a UUID, a number, or a long run of hex digits. -/
inductive IsIdentifier : List Char → Prop
  | uuid {u v w x y : List Char} : IsHex 8 u → IsHex 4 v → IsHex 4 w → IsHex 4 x → IsHex 12 y →
    IsIdentifier (u ++ '-' :: (v ++ '-' :: (w ++ '-' :: (x ++ '-' :: y))))
  | number {word : List Char} : word ≠ [] → (∀ c ∈ word, c.isDigit = true) → IsIdentifier word
  | hex {word : List Char} : 16 ≤ word.length → (∀ c ∈ word, isHexDigit c = true) →
    IsIdentifier word

/-- The second segment stands for the first in a redacted path. -/
def Redacted (segment redacted : List Char) : Prop :=
  (IsIdentifier segment ∧ redacted = identifierPlaceholder.toList) ∨
    (¬ IsIdentifier segment ∧ redacted = segment)

/-- An identifier has hexadecimal digits and hyphens only. -/
theorem IsIdentifier.chars {word : List Char} (h : IsIdentifier word) :
    ∀ c ∈ word, isHexDigit c = true ∨ c = '-' := by
  cases h with
  | uuid hu hv hw hx hy =>
    intro c hc
    simp only [List.mem_append, List.mem_cons] at hc
    rcases hc with hc | rfl | hc | rfl | hc | rfl | hc | rfl | hc
    · exact .inl (hu.2 c hc)
    · exact .inr rfl
    · exact .inl (hv.2 c hc)
    · exact .inr rfl
    · exact .inl (hw.2 c hc)
    · exact .inr rfl
    · exact .inl (hx.2 c hc)
    · exact .inr rfl
    · exact .inl (hy.2 c hc)
  | number _ hword =>
    refine fun c hc => .inl ?_
    rw [isHexDigit, hword c hc]
    rfl
  | hex _ hword => exact fun c hc => .inl (hword c hc)

/-- So no other character is in it. -/
theorem IsIdentifier.not_mem {word : List Char} (h : IsIdentifier word) {c : Char}
    (hhex : isHexDigit c = false) (hdash : c ≠ '-') : c ∉ word := by
  intro hc
  rcases h.chars c hc with hyes | hyes
  · exact absurd (hyes.symm.trans hhex) (by decide)
  · exact hdash hyes

/-- There is no slash in it. -/
theorem IsIdentifier.slash_not_mem {word : List Char} (h : IsIdentifier word) : '/' ∉ word :=
  h.not_mem (by decide) (by decide)

/-- It is not empty. -/
theorem IsIdentifier.ne_nil {word : List Char} (h : IsIdentifier word) : word ≠ [] := by
  cases h with
  | uuid _ _ _ _ _ => exact List.append_ne_nil_of_right_ne_nil _ (List.cons_ne_nil _ _)
  | number hne _ => exact hne
  | hex hlen _ =>
    rintro rfl
    exact absurd hlen (by decide)

/-- The placeholder is no identifier itself. -/
theorem not_isIdentifier_placeholder : ¬ IsIdentifier identifierPlaceholder.toList :=
  fun h => h.not_mem (by decide : isHexDigit '{' = false) (by decide) (by decide)

/-! ## The pattern -/

/-- The three forms of the pattern are those of an identifier. -/
theorem means_identifier : Means
    (.alt
      (.all
        [.times 8 (.char isHexDigit), .lit '-', .times 4 (.char isHexDigit), .lit '-',
          .times 4 (.char isHexDigit), .lit '-', .times 4 (.char isHexDigit), .lit '-',
          .times 12 (.char isHexDigit)])
      (.alt (.plus (.char Char.isDigit)) (.atLeast 16 (.char isHexDigit))))
    fun word groups => IsIdentifier word ∧ groups = [] := by
  have hhex := fun n => Means.times_char n isHexDigit
  have huuid := (hhex 8).seq_of_silent <| Means.lit_seq '-' <| (hhex 4).seq_of_silent <|
    Means.lit_seq '-' <| (hhex 4).seq_of_silent <| Means.lit_seq '-' <|
    (hhex 4).seq_of_silent <| Means.lit_seq '-' <| (hhex 12).seq_empty
  refine (huuid.alt ((Means.plus_char Char.isDigit).alt (Means.atLeast_char 16 isHexDigit))).congr
    fun word groups => ?_
  constructor
  · rintro (⟨u, _, rfl, hu, _, rfl, v, _, rfl, hv, _, rfl, w, _, rfl, hw, _, rfl, x, _, rfl, hx, y,
      rfl, hy, rfl⟩ | ⟨⟨hne, hword⟩, rfl⟩ | ⟨⟨hlen, hword⟩, rfl⟩)
    · exact ⟨.uuid hu hv hw hx hy, rfl⟩
    · exact ⟨.number hne hword, rfl⟩
    · exact ⟨.hex hlen hword, rfl⟩
  · rintro ⟨⟨hu, hv, hw, hx, hy⟩ | ⟨hne, hword⟩ | ⟨hlen, hword⟩, rfl⟩
    · exact .inl ⟨_, _, rfl, hu, _, rfl, _, _, rfl, hv, _, rfl, _, _, rfl, hw, _, rfl, _, _, rfl,
        hx, _, rfl, hy, rfl⟩
    · exact .inr (.inl ⟨⟨hne, hword⟩, rfl⟩)
    · exact .inr (.inr ⟨⟨hlen, hword⟩, rfl⟩)

/-- The pattern matches an identifier with a slash behind it, and a slash or the end ahead of it. -/
theorem mem_run_redactedSegment {behind ahead : List Char} {y : Point} :
    y ∈ redactedSegment.run ⟨behind, ahead, []⟩ ↔
      behind.head? = some '/' ∧ ∃ word rest, ahead = word ++ rest ∧ IsIdentifier word ∧
        (rest.head? = some '/' ∨ rest = [] ∨ rest = ['\n']) ∧
        y = ⟨word.reverse ++ behind, rest, []⟩ := by
  have hend : ∀ z : Point, (Regex.alt (.lit '/') .eol).run z ≠ [] ↔
      (z.ahead.head? = some '/' ∨ z.ahead = [] ∨ z.ahead = ['\n']) := by
    intro z
    constructor
    · intro hne
      obtain ⟨y, hy⟩ := List.exists_mem_of_ne_nil _ hne
      rcases mem_run_alt.mp hy with hslash | heol
      · obtain ⟨c, rest, hahead, hc, -⟩ := mem_run_char.mp hslash
        rw [hahead, of_decide_eq_true hc]
        exact .inl rfl
      · exact .inr (mem_run_eol.mp heol).1
    · rintro (hslash | hend)
      · obtain ⟨cs, hahead⟩ := List.head?_eq_some_iff.mp hslash
        exact List.ne_nil_of_mem (mem_run_alt.mpr (.inl (mem_run_char.mpr
          ⟨'/', cs, hahead, by decide, rfl⟩)))
      · exact List.ne_nil_of_mem (mem_run_alt.mpr (.inr (mem_run_eol.mpr ⟨hend, rfl⟩)))
  rw [redactedSegment, mem_run_seq]
  constructor
  · rintro ⟨z, hz, hy⟩
    obtain ⟨⟨c, hc, hslash⟩, rfl⟩ := mem_run_lookbehind.mp hz
    obtain ⟨z, hz, hy⟩ := mem_run_seq.mp hy
    obtain ⟨hahead, rfl⟩ := mem_run_lookahead.mp hy
    obtain ⟨word, rest, _, hword, ⟨hidentifier, rfl⟩, rfl⟩ := (means_identifier _ _).mp hz
    rw [of_decide_eq_true hslash] at hc
    exact ⟨hc, word, rest, hword, hidentifier, (hend _).mp hahead, rfl⟩
  · rintro ⟨hslash, word, rest, hword, hidentifier, hrest, rfl⟩
    refine ⟨_, mem_run_lookbehind.mpr ⟨⟨'/', hslash, by decide⟩, rfl⟩, mem_run_seq.mpr ?_⟩
    exact ⟨_, (means_identifier _ _).mpr ⟨word, rest, [], hword, ⟨hidentifier, rfl⟩, rfl⟩,
      mem_run_lookahead.mpr ⟨(hend _).mpr hrest, rfl⟩⟩

/-! ## The scan -/

variable {behind segment rest : List Char}

/-- Inside a segment there is no match. -/
theorem scan_inside (hbehind : behind.head? ≠ some '/') (hslash : '/' ∉ segment) :
    redactedSegment.scan behind (segment ++ rest) =
      segment.map some ++ redactedSegment.scan (segment.reverse ++ behind) rest := by
  induction segment generalizing behind with
  | nil => rfl
  | cons c segment ih =>
    obtain ⟨hne, hslash⟩ := not_or.mp (mt List.mem_cons.mpr hslash)
    have hrun : redactedSegment.run ⟨behind, c :: (segment ++ rest), []⟩ = [] := by
      refine List.eq_nil_iff_forall_not_mem.mpr fun y hy => ?_
      exact hbehind (mem_run_redactedSegment.mp hy).1
    have hbehind' : (c :: behind).head? ≠ some '/' := fun h => hne (Option.some.inj h).symm
    rw [List.cons_append, scan_of_no_way hrun, ih hbehind' hslash]
    simp

/-- At a slash there is no match. -/
theorem scan_slash : redactedSegment.scan behind ('/' :: rest) =
    some '/' :: redactedSegment.scan ('/' :: behind) rest := by
  refine scan_of_no_way (List.eq_nil_iff_forall_not_mem.mpr fun y hy => ?_)
  obtain ⟨-, word, rest', hahead, hword, -, -⟩ := mem_run_redactedSegment.mp hy
  obtain ⟨c, cs, rfl⟩ := List.exists_cons_of_ne_nil hword.ne_nil
  obtain ⟨rfl, -⟩ := List.cons.inj hahead
  exact hword.slash_not_mem List.mem_cons_self

/-- Nothing is replaced at the end of the path. -/
theorem scan_end : redactedSegment.scan behind [] = [] := by
  refine scan_nil (List.eq_nil_iff_forall_not_mem.mpr fun y hy => ?_)
  obtain ⟨-, word, rest', hahead, hword, -, -⟩ := mem_run_redactedSegment.mp hy
  exact hword.ne_nil (List.append_eq_nil_iff.mp hahead.symm).1

/-- The whole segment is what may match where it starts. -/
theorem mem_run_segment (hslash : '/' ∉ segment) (hrest : rest = [] ∨ rest.head? = some '/')
    (hline : '\n' ∉ segment ++ rest) {y : Point} :
    y ∈ redactedSegment.run ⟨'/' :: behind, segment ++ rest, []⟩ ↔
      IsIdentifier segment ∧ y = ⟨segment.reverse ++ '/' :: behind, rest, []⟩ := by
  have hword : ∀ {word : List Char}, '/' ∉ word → ∀ c ∈ word, decide (c ≠ '/') = true :=
    fun hslash c hc => decide_eq_true (ne_of_mem_of_not_mem hc hslash)
  have hstop : ∀ {rest : List Char}, rest = [] ∨ rest.head? = some '/' →
      ∀ c ∈ rest.head?, decide (c ≠ '/') = false := by
    rintro rest (rfl | hhead) c hc
    · cases hc
    · rw [hhead] at hc
      cases hc
      decide
  rw [mem_run_redactedSegment]
  constructor
  · rintro ⟨-, word, rest', hahead, hidentifier, hrest', rfl⟩
    have hend : rest' = [] ∨ rest'.head? = some '/' := by
      rcases hrest' with hhead | hnil | rfl
      · exact .inr hhead
      · exact .inl hnil
      · exact absurd (hahead ▸ by simp) hline
    obtain ⟨rfl, rfl⟩ := append_inj_of_class (hword hslash)
      (hword hidentifier.slash_not_mem) (hstop hrest) (hstop hend) hahead
    exact ⟨hidentifier, rfl⟩
  · rintro ⟨hsegment, rfl⟩
    refine ⟨rfl, segment, rest, rfl, hsegment, ?_, rfl⟩
    exact hrest.elim (fun h => .inr (.inl h)) .inl

/-- An identifier is taken in one step. -/
theorem scan_identifier (hslash : '/' ∉ segment) (hrest : rest = [] ∨ rest.head? = some '/')
    (hline : '\n' ∉ segment ++ rest) (h : IsIdentifier segment) :
    redactedSegment.scan ('/' :: behind) (segment ++ rest) =
      none :: redactedSegment.scan (segment.reverse ++ '/' :: behind) rest := by
  refine scan_of_ways (List.ne_nil_of_mem ((mem_run_segment hslash hrest hline).mpr ⟨h, rfl⟩))
    (fun y hy => ?_) ?_
  · obtain ⟨-, rfl⟩ := (mem_run_segment hslash hrest hline).mp hy
    exact ⟨rfl, rfl⟩
  · rw [List.length_append]
    exact Nat.lt_add_of_pos_left (List.length_pos_of_ne_nil h.ne_nil)

/-- Any other segment is kept. -/
theorem scan_segment (hslash : '/' ∉ segment) (hrest : rest = [] ∨ rest.head? = some '/')
    (hline : '\n' ∉ segment ++ rest) (h : ¬ IsIdentifier segment) :
    redactedSegment.scan ('/' :: behind) (segment ++ rest) =
      segment.map some ++ redactedSegment.scan (segment.reverse ++ '/' :: behind) rest := by
  cases segment with
  | nil => rfl
  | cons c segment =>
    obtain ⟨hne, hslash'⟩ := not_or.mp (mt List.mem_cons.mpr hslash)
    have hrun : redactedSegment.run ⟨'/' :: behind, c :: (segment ++ rest), []⟩ = [] := by
      refine List.eq_nil_iff_forall_not_mem.mpr fun y hy => h ?_
      exact ((mem_run_segment hslash hrest hline).mp hy).1
    have hbehind : (c :: '/' :: behind).head? ≠ some '/' := fun h => hne (Option.some.inj h).symm
    rw [List.cons_append, scan_of_no_way hrun, scan_inside hbehind hslash']
    simp

/-- Each segment leaves what stands for it. -/
theorem exists_redacted_segment (behind : List Char) (hslash : '/' ∉ segment)
    (hrest : rest = [] ∨ rest.head? = some '/') (hline : '\n' ∉ segment ++ rest) :
    ∃ redacted, Redacted segment redacted ∧
      substitute identifierPlaceholder.toList
          (redactedSegment.scan ('/' :: behind) (segment ++ rest)) =
        redacted ++ substitute identifierPlaceholder.toList
          (redactedSegment.scan (segment.reverse ++ '/' :: behind) rest) := by
  by_cases h : IsIdentifier segment
  · refine ⟨identifierPlaceholder.toList, .inl ⟨h, rfl⟩, ?_⟩
    rw [scan_identifier hslash hrest hline h, substitute_match]
  · refine ⟨segment, .inr ⟨h, rfl⟩, ?_⟩
    rw [scan_segment hslash hrest hline h, substitute_kept]

/-- The segments ahead of a slash leave what stands for them. -/
theorem exists_redacted {segments : List (List Char)} (hne : segments ≠ [])
    (hslash : ∀ segment ∈ segments, '/' ∉ segment) (hline : '\n' ∉ ['/'].intercalate segments)
    (behind : List Char) :
    ∃ redacted, List.Forall₂ Redacted segments redacted ∧
      substitute identifierPlaceholder.toList
          (redactedSegment.scan ('/' :: behind) (['/'].intercalate segments)) =
        ['/'].intercalate redacted := by
  induction segments generalizing behind with
  | nil => exact absurd rfl hne
  | cons segment segments ih =>
    obtain ⟨hsegment, hsegments⟩ := List.forall_mem_cons.mp hslash
    cases segments with
    | nil =>
      rw [List.intercalate_singleton, ← List.append_nil segment] at hline
      obtain ⟨redacted, hredacted, hscan⟩ :=
        exists_redacted_segment behind hsegment (.inl rfl) hline
      rw [scan_end, List.append_nil] at hscan
      refine ⟨[redacted], .cons hredacted .nil, ?_⟩
      rw [List.intercalate_singleton, List.intercalate_singleton, hscan]
      exact List.append_nil redacted
    | cons next segments =>
      rw [List.intercalate_cons_cons, List.append_assoc] at hline
      obtain ⟨redacted, hredacted, hscan⟩ :=
        exists_redacted_segment behind hsegment (.inr rfl) hline
      have hline' := fun h => hline (List.mem_append_right segment (List.mem_cons_of_mem '/' h))
      obtain ⟨more, hmore, hrest⟩ :=
        ih (List.cons_ne_nil next segments) hsegments hline' (segment.reverse ++ '/' :: behind)
      refine ⟨redacted :: more, .cons hredacted hmore, ?_⟩
      have hne : more ≠ [] := by
        rintro rfl
        cases hmore
      rw [List.singleton_append, scan_slash] at hscan
      rw [List.intercalate_cons_cons, List.append_assoc, List.singleton_append, hscan,
        substitute_char, hrest, List.intercalate_cons_of_ne_nil hne, List.append_assoc,
        List.singleton_append]

/-! ## The result -/

/-- The redacted path has what stands for each segment. -/
theorem exists_sub_redactedSegment {path : List Char} (hroot : path.head? = some '/')
    (hline : '\n' ∉ path) :
    ∃ redacted, List.Forall₂ Redacted (path.splitOn '/') redacted ∧
      redactedSegment.sub identifierPlaceholder.toList path = ['/'].intercalate redacted := by
  obtain ⟨ahead, rfl⟩ := List.head?_eq_some_iff.mp hroot
  have hsplit : ('/' :: ahead).splitOn '/' = [] :: ahead.splitOn '/' :=
    List.splitOn_append_cons_self_of_not_mem List.not_mem_nil ahead
  have hahead : ['/'].intercalate (ahead.splitOn '/') = ahead := List.intercalate_splitOn '/'
  have hline' : '\n' ∉ ['/'].intercalate (ahead.splitOn '/') := by
    rw [hahead]
    exact mt (List.mem_cons_of_mem '/') hline
  obtain ⟨redacted, hredacted, hscan⟩ :=
    exists_redacted (List.splitOn_ne_nil '/' ahead) (fun _ => not_mem_of_mem_splitOn) hline' []
  rw [hahead] at hscan
  have hempty : Redacted [] [] := .inr ⟨fun h => h.ne_nil rfl, rfl⟩
  refine ⟨[] :: redacted, hsplit ▸ .cons hempty hredacted, ?_⟩
  have hne : redacted ≠ [] := by
    rintro rfl
    exact List.splitOn_ne_nil '/' ahead (List.forall₂_nil_right_iff.mp hredacted)
  rw [sub, scan_slash, substitute_char, hscan, List.intercalate_cons_of_ne_nil hne]
  rfl

/-- Redaction adds no characters but those of the placeholder. -/
theorem Redacted.not_mem {redacted : List Char} (h : Redacted segment redacted) {c : Char}
    (hplaceholder : c ∉ identifierPlaceholder.toList) (hc : c ∉ segment) : c ∉ redacted := by
  rcases h with ⟨-, rfl⟩ | ⟨-, rfl⟩
  · exact hplaceholder
  · exact hc

/-- What stands for a segment is no identifier. -/
theorem Redacted.not_isIdentifier {redacted : List Char} (h : Redacted segment redacted) :
    ¬ IsIdentifier redacted := by
  rcases h with ⟨-, rfl⟩ | ⟨hnot, rfl⟩
  · exact not_isIdentifier_placeholder
  · exact hnot

/-- What stands for something that is no identifier is the same. -/
theorem Redacted.eq {redacted : List Char} (h : Redacted segment redacted)
    (hnot : ¬ IsIdentifier segment) : redacted = segment :=
  (h.resolve_left fun hyes => hnot hyes.1).2

/-- What all segments satisfy, all that stands for them does. -/
theorem forall_redacted {segments redacted : List (List Char)}
    (h : List.Forall₂ Redacted segments redacted) {p q : List Char → Prop}
    (hq : ∀ s t, Redacted s t → p s → q t) (hp : ∀ s ∈ segments, p s) : ∀ t ∈ redacted, q t := by
  induction h with
  | nil => exact List.forall_mem_nil _
  | cons hfirst _ ih =>
    obtain ⟨hs, hrest⟩ := List.forall_mem_cons.mp hp
    exact List.forall_mem_cons.mpr ⟨hq _ _ hfirst hs, ih hrest⟩

/-- The segments of the redacted path stand for those of the path. -/
theorem forall₂_redact {path : String} (hroot : path.toList.head? = some '/')
    (hline : '\n' ∉ path.toList) :
    List.Forall₂ Redacted (path.toList.splitOn '/') ((redact path).toList.splitOn '/') := by
  obtain ⟨redacted, hredacted, hsub⟩ := exists_sub_redactedSegment hroot hline
  have hslash : ∀ t ∈ redacted, '/' ∉ t :=
    forall_redacted hredacted (fun _ _ h => h.not_mem (by decide))
      fun _ => not_mem_of_mem_splitOn
  have hne : redacted ≠ [] := by
    rintro rfl
    exact List.splitOn_ne_nil '/' path.toList (List.forall₂_nil_right_iff.mp hredacted)
  rwa [redact, String.toList_ofList, hsub, List.splitOn_intercalate '/' hslash hne]

/-- No segment of a redacted path is an identifier. -/
theorem not_isIdentifier_redact {path : String} (hroot : path.toList.head? = some '/')
    (hline : '\n' ∉ path.toList) :
    ∀ segment ∈ (redact path).toList.splitOn '/', ¬ IsIdentifier segment :=
  forall_redacted (forall₂_redact hroot hline) (fun _ _ h _ => h.not_isIdentifier)
    fun _ _ => trivial

/-- The redacted path starts with a slash. -/
theorem head?_redact {path : String} (hroot : path.toList.head? = some '/')
    (hline : '\n' ∉ path.toList) : (redact path).toList.head? = some '/' := by
  have hsegments := forall₂_redact hroot hline
  obtain ⟨ahead, hpath⟩ := List.head?_eq_some_iff.mp hroot
  have hsplit : path.toList.splitOn '/' = [] :: ahead.splitOn '/' := by
    rw [hpath]
    exact List.splitOn_append_cons_self_of_not_mem List.not_mem_nil ahead
  rw [hsplit] at hsegments
  obtain ⟨first, more, hfirst, hmore, heq⟩ := List.forall₂_cons_left_iff.mp hsegments
  have hne : more ≠ [] := by
    rintro rfl
    exact List.splitOn_ne_nil '/' ahead (List.forall₂_nil_right_iff.mp hmore)
  have hjoin : ['/'].intercalate ((redact path).toList.splitOn '/') = (redact path).toList :=
    List.intercalate_splitOn '/'
  rw [← hjoin, heq, hfirst.eq fun h => h.ne_nil rfl, List.intercalate_cons_of_ne_nil hne]
  rfl

/-- Redaction adds no line feed. -/
theorem feed_not_mem_redact {path : String} (hroot : path.toList.head? = some '/')
    (hline : '\n' ∉ path.toList) : '\n' ∉ (redact path).toList := by
  have hne : '\n' ≠ '/' := by decide
  have hsegments : ∀ s ∈ path.toList.splitOn '/', '\n' ∉ s := fun s hs h =>
    hline ((mem_iff_mem_splitOn hne).mpr ⟨s, hs, h⟩)
  rw [mem_iff_mem_splitOn hne]
  rintro ⟨t, ht, hmem⟩
  exact forall_redacted (forall₂_redact hroot hline) (fun _ _ h => h.not_mem (by decide))
    hsegments t ht hmem

/-- A path without identifiers is left unchanged. -/
theorem redact_eq_self {path : String} (hroot : path.toList.head? = some '/')
    (hline : '\n' ∉ path.toList)
    (hnone : ∀ segment ∈ path.toList.splitOn '/', ¬ IsIdentifier segment) :
    redact path = path := by
  have hkept : List.Forall₂ (· = ·) (path.toList.splitOn '/')
      ((redact path).toList.splitOn '/') := by
    refine ((List.forall₂_and_left _ _).mpr ⟨hnone, forall₂_redact hroot hline⟩).imp ?_
    exact fun s t h => (h.2.eq h.1).symm
  rw [List.forall₂_eq_eq_eq] at hkept
  rw [← String.toList_inj]
  calc (redact path).toList
      = ['/'].intercalate ((redact path).toList.splitOn '/') :=
        (List.intercalate_splitOn '/').symm
    _ = ['/'].intercalate (path.toList.splitOn '/') := by rw [hkept]
    _ = path.toList := List.intercalate_splitOn '/'

/-- The redaction replaces just the segments that are identifiers, leaves none, and changes nothing
when it is applied again. -/
theorem redact_path (path : String) (hroot : path.toList.head? = some '/')
    (hline : '\n' ∉ path.toList) :
    List.Forall₂ (fun s t => Redacted s.toList t.toList) (path.splitOn "/")
        ((redact path).splitOn "/") ∧
      (∀ segment ∈ (redact path).splitOn "/", ¬ IsIdentifier segment.toList) ∧
      redact (redact path) = redact path := by
  have hnone := not_isIdentifier_redact hroot hline
  have hslash : ∀ text : String, text.splitOn "/" = (text.toList.splitOn '/').map String.ofList :=
    splitOn_singleton '/'
  rw [hslash, hslash, List.forall₂_map_left_iff, List.forall₂_map_right_iff, List.forall_mem_map]
  simp only [String.toList_ofList]
  exact ⟨forall₂_redact hroot hline, hnone,
    redact_eq_self (head?_redact hroot hline) (feed_not_mem_redact hroot hline) hnone⟩

/-- A venue's path, and numbers next to each other. -/
theorem redact_path_venue :
    List.Forall₂ (fun s t => Redacted s.toList t.toList)
        ("/venues/0123456789abcdef/7//8".splitOn "/")
        ((redact "/venues/0123456789abcdef/7//8").splitOn "/") ∧
      (∀ segment ∈ (redact "/venues/0123456789abcdef/7//8").splitOn "/",
        ¬ IsIdentifier segment.toList) ∧
      redact (redact "/venues/0123456789abcdef/7//8") = redact "/venues/0123456789abcdef/7//8" :=
  redact_path "/venues/0123456789abcdef/7//8" (by decide) (by decide)

/-- The log line of a request that no route has matched carries no identifier in its route. -/
theorem log_of_unrouted {ε : Type} {request : Request}
    (hroot : request.path.toList.head? = some '/') (hline : '\n' ∉ request.path.toList)
    (generated : Uuid) (durationMs : ℚ) (outcome : Except ε RateLimit.Response) :
    ∀ record ∈ (dispatch request generated durationMs fun _ => (none, outcome)).1,
      ∀ segment ∈ record.fields.route.toList.splitOn '/', ¬ IsIdentifier segment := by
  intro record hrecord
  have hroute : record.fields.route = redact request.path := by
    cases outcome with
    | error e => exact congrArg (·.fields.route) (List.mem_singleton.mp hrecord)
    | ok response => exact congrArg (·.fields.route) (List.mem_singleton.mp hrecord)
  rw [hroute]
  exact not_isIdentifier_redact hroot hline

end OburBackend.RequestContext
