import Mathlib.Algebra.Order.Field.Basic
import Mathlib.Algebra.Order.Ring.Rat
import Mathlib.Data.List.TakeWhile
import Mathlib.Tactic.Positivity
import OburBackend.Core.I18n
import OburBackend.Text.Split

/-!
# What `Accept-Language` means

`Names` says when an entry of the header names a supported locale, and with which weight. The
pattern of the source captures the tag and the weight of an entry as they are written
(`matchStart_acceptLanguageEntry`), so a round of the loop finds what the entry names
(`rankEntry_eq_some`), and the result ranks the named locales (`ranks_parseAcceptLanguage`). It
ranks those with the weight 0 last, where the specification of the header leaves them out.
-/

namespace OburBackend

open Text Regex

/-! ## Specification -/

def Spaces (s : List Char) : Prop := ∀ c ∈ s, isSpace c = true

def IsTag (tag : List Char) : Prop :=
  ∃ c cs, tag = c :: cs ∧ isTagStart c = true ∧ ∀ d ∈ cs, isTagChar d = true

/-- The text is a decimal number with the value: at least one digit and at most one dot. -/
inductive Decimal : List Char → ℚ → Prop
  | whole {ds : List Char} : ds ≠ [] → (∀ c ∈ ds, c.isDigit = true) → Decimal ds (digits ds)
  | point {ds fs : List Char} : (ds ≠ [] ∨ fs ≠ []) → (∀ c ∈ ds, c.isDigit = true) →
    (∀ c ∈ fs, c.isDigit = true) →
    Decimal (ds ++ '.' :: fs) (digits ds + digits fs / 10 ^ fs.length)

/-- The weight of an entry as it is written, spaces included: `;q=` and the number. -/
def IsWeight (text q : List Char) : Prop :=
  ∃ s t u, Spaces s ∧ Spaces t ∧ Spaces u ∧
    text = ';' :: (s ++ 'q' :: (t ++ '=' :: (u ++ q)))

/-- The entry has the tag and the weight, which is 1 when it is missing. -/
inductive IsEntry : List Char → List Char → ℚ → Prop
  | bare {s tag t : List Char} : Spaces s → IsTag tag → Spaces t → IsEntry (s ++ (tag ++ t)) tag 1
  | weighted {s tag t text q u : List Char} {w : ℚ} : Spaces s → IsTag tag → Spaces t →
    IsWeight text q → Decimal q w → Spaces u → IsEntry (s ++ (tag ++ (t ++ (text ++ u)))) tag w

/-- The entry names the supported locale with the weight. -/
def Names (entry : String) (w : ℚ) (language : String) : Prop :=
  ∃ tag, IsEntry entry.toList tag w ∧ language = baseLanguage tag ∧ language ∈ supportedLocales

/-- The entry names the locale as acceptable: a weight of 0 says that it is not. -/
def Accepts (entry : String) (w : ℚ) (language : String) : Prop :=
  Names entry w language ∧ 0 < w

/-- The result is one locale for each entry of the header that takes part, the greatest weights
first and entries of one weight in the order of the header. -/
def Ranks (TakesPart : String → ℚ → String → Prop) (header : String) (result : List String) :
    Prop :=
  ∃ ranked : List (ℚ × ℕ × String),
    ranked.Pairwise (fun a b => b.1 < a.1 ∨ b.1 = a.1 ∧ a.2.1 < b.2.1) ∧
    (∀ w i language, (w, i, language) ∈ ranked ↔
      ∃ entry, (header.splitOn ",")[i]? = some entry ∧ TakesPart entry w language) ∧
    result = ranked.map fun r => r.2.2

/-- The locale served is not one that the header only rules out, if the header accepts another. -/
def Heeds (header : String) (served : String) : Prop :=
  ∀ language, (∃ entry ∈ header.splitOn ",", Names entry 0 language) →
    (∀ entry ∈ header.splitOn ",", ∀ w, Names entry w language → w = 0) →
    (∃ entry ∈ header.splitOn ",", ∃ w other, Accepts entry w other) → served ≠ language

/-! ## The pattern -/

/-- What the pattern reads and captures. Whether the weight is a number is not its concern. -/
inductive Written : List Char → List (String × List Char) → Prop
  | bare {s tag t : List Char} : Spaces s → IsTag tag → Spaces t →
    Written (s ++ (tag ++ t)) [("tag", tag)]
  | weighted {s tag t text q u : List Char} : Spaces s → IsTag tag → Spaces t → IsWeight text q →
    q ≠ [] → (∀ c ∈ q, isWeightChar c = true) → Spaces u →
    Written (s ++ (tag ++ (t ++ (text ++ u)))) [("q", q), ("tag", tag)]

/-- `\s*` reads white space. -/
theorem means_spaces : Means spaces fun word groups => Spaces word ∧ groups = [] :=
  Means.star_char isSpace

/-- The group of the tag reads a tag and captures it. -/
theorem means_tag : Means (.group "tag" (.seq (.char isTagStart) (.star (.char isTagChar))))
    fun word groups => IsTag word ∧ groups = [("tag", word)] := by
  refine (Means.group "tag" ((Means.char _).seq (Means.star_char _))).congr fun word groups => ?_
  constructor
  · rintro ⟨_, ⟨_, cs, _, _, rfl, rfl, ⟨⟨c, hc, rfl⟩, rfl⟩, hcs, rfl⟩, rfl⟩
    exact ⟨⟨c, cs, rfl, hc, hcs⟩, rfl⟩
  · rintro ⟨⟨c, cs, rfl, hc, hcs⟩, rfl⟩
    exact ⟨[], ⟨[c], cs, [], [], rfl, rfl, ⟨⟨c, hc, rfl⟩, rfl⟩, hcs, rfl⟩, rfl⟩

/-- The group of the weight reads at least one of its characters and captures them. -/
theorem means_q : Means (.group "q" (.plus (.char isWeightChar)))
    fun word groups => (word ≠ [] ∧ ∀ c ∈ word, isWeightChar c = true) ∧
      groups = [("q", word)] := by
  refine (Means.group "q" (Means.plus_char isWeightChar)).congr fun word groups => ?_
  constructor
  · rintro ⟨_, ⟨hq, rfl⟩, rfl⟩
    exact ⟨hq, rfl⟩
  · rintro ⟨hq, rfl⟩
    exact ⟨[], ⟨hq, rfl⟩, rfl⟩

/-- The weight of an entry is read with the white space around its parts. -/
theorem means_weight : Means
    (.all [.lit ';', .spaces, .lit 'q', .spaces, .lit '=', .spaces,
      .group "q" (.plus (.char isWeightChar))])
    fun word groups => ∃ q, IsWeight word q ∧ (q ≠ [] ∧ ∀ c ∈ q, isWeightChar c = true) ∧
      groups = [("q", q)] := by
  refine (Means.lit_seq ';' (means_spaces.seq_of_silent (Means.lit_seq 'q'
    (means_spaces.seq_of_silent (Means.lit_seq '=' (means_spaces.seq_of_silent
      means_q.seq_empty)))))).congr fun word groups => ?_
  constructor
  · rintro ⟨_, rfl, s, _, rfl, hs, _, rfl, t, _, rfl, ht, _, rfl, u, q, rfl, hu, hq, rfl⟩
    exact ⟨q, ⟨s, t, u, hs, ht, hu, rfl⟩, hq, rfl⟩
  · rintro ⟨q, ⟨s, t, u, hs, ht, hu, rfl⟩, hq, rfl⟩
    exact ⟨_, rfl, s, _, rfl, hs, _, rfl, t, _, rfl, ht, _, rfl, u, q, rfl, hu, hq, rfl⟩

/-- The pattern between its anchors. -/
theorem means_entry : Means
    (.all [.spaces, .group "tag" (.seq (.char isTagStart) (.star (.char isTagChar))), .spaces,
      .opt (.all [.lit ';', .spaces, .lit 'q', .spaces, .lit '=', .spaces,
        .group "q" (.plus (.char isWeightChar))]),
      .spaces]) Written := by
  refine (means_spaces.seq_of_silent (means_tag.seq (means_spaces.seq_of_silent
    ((means_weight.alt Means.empty).seq means_spaces.seq_empty)))).congr fun word groups => ?_
  constructor
  · rintro ⟨s, _, rfl, hs, tag, _, _, _, rfl, rfl, ⟨htag, rfl⟩, t, _, rfl, ht, text, u, _, _, rfl,
      rfl, ⟨q, hweight, ⟨hne, hq⟩, rfl⟩ | ⟨rfl, rfl⟩, hu, rfl⟩
    · exact .weighted hs htag ht hweight hne hq hu
    · exact .bare hs htag (List.forall_mem_append.mpr ⟨ht, hu⟩)
  · rintro (⟨hs, htag, ht⟩ | ⟨hs, htag, ht, hweight, hne, hq, hu⟩)
    · exact ⟨_, _, rfl, hs, _, _, _, [], rfl, rfl, ⟨htag, rfl⟩, _, [],
        (List.append_nil _).symm, ht, [], [], [], [], rfl, rfl, .inr ⟨rfl, rfl⟩,
        List.forall_mem_nil _, rfl⟩
    · exact ⟨_, _, rfl, hs, _, _, _, _, rfl, rfl, ⟨htag, rfl⟩, _, _, rfl, ht, _, _, _, [], rfl, rfl,
        .inl ⟨_, hweight, ⟨hne, hq⟩, rfl⟩, hu, rfl⟩

/-! ## One way to read an entry -/

/-- No character from `*` to `z` is white space. -/
theorem isSpace_of_ascii {c : Char} (hlow : 42 ≤ c.toNat) (hhigh : c.toNat ≤ 122) :
    isSpace c = false := by
  simp only [isSpace, Bool.or_eq_false_iff, Bool.and_eq_false_iff, decide_eq_false_iff_not,
    List.mem_cons, List.not_mem_nil, or_false]
  omega

/-- So it is with a range inside that. -/
theorem isSpace_of_range {a b c : Char} (ha : 42 ≤ a.toNat) (hb : b.toNat ≤ 122)
    (hlow : a.val ≤ c.val) (hhigh : c.val ≤ b.val) : isSpace c = false :=
  isSpace_of_ascii (ha.trans (UInt32.le_iff_toNat_le.mp hlow))
    ((UInt32.le_iff_toNat_le.mp hhigh).trans hb)

/-- A letter is no white space. -/
theorem isSpace_of_isAlpha {c : Char} (hc : c.isAlpha = true) : isSpace c = false := by
  rcases (Bool.or_eq_true _ _).mp hc with hupper | hlower
  · obtain ⟨hlow, hhigh⟩ : 'A'.val ≤ c.val ∧ c.val ≤ 'Z'.val := of_decide_eq_true hupper
    exact isSpace_of_range (by decide) (by decide) hlow hhigh
  · obtain ⟨hlow, hhigh⟩ := (Bool.and_eq_true _ _).mp hlower
    exact isSpace_of_range (by decide : 42 ≤ 'a'.toNat) (by decide : 'z'.toNat ≤ 122)
      (of_decide_eq_true hlow) (of_decide_eq_true hhigh)

/-- Nor is a digit. -/
theorem isSpace_of_isDigit {c : Char} (hc : c.isDigit = true) : isSpace c = false := by
  obtain ⟨hlow, hhigh⟩ := (Bool.and_eq_true _ _).mp hc
  exact isSpace_of_range (by decide : 42 ≤ '0'.toNat) (by decide : '9'.toNat ≤ 122)
    (of_decide_eq_true hlow) (of_decide_eq_true hhigh)

/-- Nor is a character of a tag. -/
theorem isSpace_of_isTagChar {c : Char} (hc : isTagChar c = true) : isSpace c = false := by
  rw [isTagChar, Bool.or_eq_true, decide_eq_true_eq] at hc
  rcases hc with hc | rfl
  · rcases (Bool.or_eq_true _ _).mp hc with halpha | hdigit
    · exact isSpace_of_isAlpha halpha
    · exact isSpace_of_isDigit hdigit
  · decide

/-- Nor is the first character of one. -/
theorem isSpace_of_isTagStart {c : Char} (hc : isTagStart c = true) : isSpace c = false := by
  rw [isTagStart, Bool.or_eq_true, decide_eq_true_eq] at hc
  rcases hc with hc | rfl
  · exact isSpace_of_isAlpha hc
  · decide

/-- Nor is a character of a weight. -/
theorem isSpace_of_isWeightChar {c : Char} (hc : isWeightChar c = true) : isSpace c = false := by
  rw [isWeightChar, Bool.or_eq_true, decide_eq_true_eq] at hc
  rcases hc with hc | rfl
  · exact isSpace_of_isDigit hc
  · decide

/-- What is not a space does not go on with a run of spaces. -/
theorem head_cons {p : Char → Bool} {c : Char} {cs : List Char} (hc : p c = false) :
    ∀ d ∈ (c :: cs).head?, p d = false := by
  rintro d ⟨⟩
  exact hc

/-- White space does not begin with such a character. -/
theorem head_of_spaces {p : Char → Bool} {u : List Char} (hu : Spaces u)
    (hp : ∀ c, p c = true → isSpace c = false) : ∀ c ∈ u.head?, p c = false := by
  intro c hc
  have hspace := hu c (List.mem_of_mem_head? hc)
  rw [← Bool.not_eq_true]
  exact fun hpc => by simp [hp c hpc] at hspace

/-- Spaces before a given character are read in one way. -/
theorem after_spaces {c : Char} (hc : isSpace c = false) {s s' v v' : List Char} (hs : Spaces s)
    (hs' : Spaces s') (h : s ++ c :: v = s' ++ c :: v') : v = v' :=
  (List.cons.inj (append_inj_of_class hs hs' (head_cons hc) (head_cons hc) h).2).2

/-- What begins with a tag does not begin with white space. -/
theorem IsTag.head_append {tag : List Char} (htag : IsTag tag) (v : List Char) :
    ∀ c ∈ (tag ++ v).head?, isSpace c = false := by
  obtain ⟨c, cs, rfl, hc, -⟩ := htag
  exact head_cons (isSpace_of_isTagStart hc)

/-- The tag is read in one way. -/
theorem IsTag.read {s s' tag tag' v v' : List Char} (hs : Spaces s) (hs' : Spaces s')
    (htag : IsTag tag) (htag' : IsTag tag') (hv : ∀ c ∈ v.head?, isTagChar c = false)
    (hv' : ∀ c ∈ v'.head?, isTagChar c = false) (h : s ++ (tag ++ v) = s' ++ (tag' ++ v')) :
    tag = tag' ∧ v = v' := by
  have hrest : tag ++ v = tag' ++ v' :=
    (append_inj_of_class hs hs' (htag.head_append v) (htag'.head_append v') h).2
  obtain ⟨c, cs, rfl, -, hcs⟩ := htag
  obtain ⟨c', cs', rfl, -, hcs'⟩ := htag'
  obtain ⟨hfirst, hmore⟩ := List.cons.inj hrest
  obtain ⟨rfl, rfl⟩ := append_inj_of_class hcs hcs' hv hv' hmore
  exact ⟨congrArg (· :: cs) hfirst, rfl⟩

/-- The number of the weight is read in one way. -/
theorem IsWeight.read {text text' q q' u u' : List Char} (h : IsWeight text q)
    (h' : IsWeight text' q') (hne : q ≠ []) (hne' : q' ≠ []) (hq : ∀ c ∈ q, isWeightChar c = true)
    (hq' : ∀ c ∈ q', isWeightChar c = true) (hu : Spaces u) (hu' : Spaces u')
    (htext : text ++ u = text' ++ u') : q = q' := by
  obtain ⟨a, b, d, ha, hb, hd, rfl⟩ := h
  obtain ⟨a', b', d', ha', hb', hd', rfl⟩ := h'
  have hhead : ∀ {q v : List Char}, q ≠ [] → (∀ c ∈ q, isWeightChar c = true) →
      ∀ c ∈ (q ++ v).head?, isSpace c = false := by
    intro q v hne hq
    obtain ⟨c, cs, rfl⟩ := List.exists_cons_of_ne_nil hne
    exact head_cons (isSpace_of_isWeightChar (hq c List.mem_cons_self))
  simp only [List.cons_append, List.append_assoc, List.cons.injEq, true_and] at htext
  have hequals := after_spaces (by decide) ha ha' htext
  have hnumber := after_spaces (by decide) hb hb' hequals
  obtain ⟨-, hrest⟩ := append_inj_of_class hd hd' (hhead hne hq) (hhead hne' hq') hnumber
  have hspaces : ∀ c, isWeightChar c = true → isSpace c = false :=
    fun c => isSpace_of_isWeightChar
  exact (append_inj_of_class hq hq' (head_of_spaces hu hspaces) (head_of_spaces hu' hspaces)
    hrest).1

/-- Spaces before a weight are read in one way. -/
theorem weight_after_spaces {t t' text text' q q' u u' : List Char} (ht : Spaces t)
    (ht' : Spaces t') (h : IsWeight text q) (h' : IsWeight text' q')
    (heq : t ++ (text ++ u) = t' ++ (text' ++ u')) : text ++ u = text' ++ u' := by
  obtain ⟨a, b, d, -, -, -, rfl⟩ := h
  obtain ⟨a', b', d', -, -, -, rfl⟩ := h'
  exact congrArg (';' :: ·) (after_spaces (by decide) ht ht' heq)

/-- What comes after a tag does not go on with it. -/
theorem head_of_weight {t text q u : List Char} (ht : Spaces t) (htext : IsWeight text q) :
    ∀ c ∈ (t ++ (text ++ u)).head?, isTagChar c = false := by
  obtain ⟨a, b, d, -, -, -, rfl⟩ := htext
  cases t with
  | nil => exact head_cons (by decide)
  | cons c t =>
    rintro d ⟨⟩
    exact head_of_spaces ht (fun c => isSpace_of_isTagChar) c rfl

/-- A weight is not a run of spaces. -/
theorem IsWeight.not_spaces {t t' text q u : List Char} (h : IsWeight text q) (ht : Spaces t)
    (heq : t = t' ++ (text ++ u)) : False := by
  obtain ⟨a, b, d, -, -, -, rfl⟩ := h
  have hsemicolon : isSpace ';' = true := ht ';' (by simp [heq])
  exact absurd hsemicolon (by decide)

/-- An entry is written in one way. -/
theorem Written.unique {word : List Char} {groups groups' : List (String × List Char)}
    (h : Written word groups) (h' : Written word groups') : groups = groups' := by
  have hbare : ∀ {t}, Spaces t → ∀ c ∈ t.head?, isTagChar c = false :=
    fun ht => head_of_spaces ht fun c => isSpace_of_isTagChar
  generalize hword : word = word' at h'
  rcases h with ⟨hs, htag, ht⟩ | ⟨hs, htag, ht, hweight, hne, hq, hu⟩ <;>
    rcases h' with ⟨hs', htag', ht'⟩ | ⟨hs', htag', ht', hweight', hne', hq', hu'⟩
  · obtain ⟨rfl, -⟩ := IsTag.read hs hs' htag htag' (hbare ht) (hbare ht') hword
    rfl
  · obtain ⟨-, heq⟩ :=
      IsTag.read hs hs' htag htag' (hbare ht) (head_of_weight ht' hweight') hword
    exact (hweight'.not_spaces ht heq).elim
  · obtain ⟨-, heq⟩ :=
      IsTag.read hs hs' htag htag' (head_of_weight ht hweight) (hbare ht') hword
    exact (hweight.not_spaces ht' heq.symm).elim
  · obtain ⟨rfl, hrest⟩ := IsTag.read hs hs' htag htag' (head_of_weight ht hweight)
      (head_of_weight ht' hweight') hword
    have htext := weight_after_spaces ht ht' hweight hweight' hrest
    obtain rfl := hweight.read hweight' hne hne' hq hq' hu hu' htext
    rfl

/-- A line feed at the end changes nothing. -/
theorem Written.feed {word : List Char} {groups : List (String × List Char)}
    (h : Written word groups) : Written (word ++ ['\n']) groups := by
  have hfeed : ∀ {u}, Spaces u → Spaces (u ++ ['\n']) := fun hu =>
    List.forall_mem_append.mpr ⟨hu, List.forall_mem_singleton.mpr rfl⟩
  cases h with
  | bare hs htag ht =>
    rw [List.append_assoc, List.append_assoc]
    exact .bare hs htag (hfeed ht)
  | weighted hs htag ht hweight hne hq hu =>
    simp only [List.append_assoc]
    exact .weighted hs htag ht hweight hne hq (hfeed hu)

/-- The pattern matches what is written as an entry, and captures its parts. -/
theorem matchStart_acceptLanguageEntry (word : List Char) (groups : List (String × List Char)) :
    acceptLanguageEntry.matchStart word = some groups ↔ Written word groups :=
  matchStart_anchored means_entry (fun _ _ => Written.feed) (fun _ _ _ => Written.unique) word
    groups

/-! ## What a round of the loop finds -/

/-- A decimal number has at least one character. -/
theorem Decimal.ne_nil {q : List Char} {w : ℚ} (h : Decimal q w) : q ≠ [] := by
  cases h with
  | whole hne _ => exact hne
  | point _ _ _ => exact List.append_ne_nil_of_right_ne_nil _ (List.cons_ne_nil _ _)

/-- It consists of characters of a weight. -/
theorem Decimal.isWeightChar {q : List Char} {w : ℚ} (h : Decimal q w) :
    ∀ c ∈ q, isWeightChar c = true := by
  have hdigit : ∀ {c : Char}, c.isDigit = true → OburBackend.isWeightChar c = true := fun hc => by
    rw [OburBackend.isWeightChar, hc, Bool.true_or]
  cases h with
  | whole _ hds => exact fun c hc => hdigit (hds c hc)
  | point _ hds hfs =>
    refine List.forall_mem_append.mpr ⟨fun c hc => hdigit (hds c hc), ?_⟩
    exact List.forall_mem_cons.mpr ⟨by decide, fun c hc => hdigit (hfs c hc)⟩

/-- It is not negative. -/
theorem Decimal.nonneg {q : List Char} {w : ℚ} (h : Decimal q w) : 0 ≤ w := by
  cases h with
  | whole _ _ => positivity
  | point _ _ _ => positivity

/-- `float` of digits without a point is their number. -/
theorem float_whole {ds : List Char} (hds : '.' ∉ ds) :
    float ds = if ds = [] then none else some (digits ds : ℚ) := by
  have hpoint : ∀ c ∈ ds, decide (c ≠ '.') = true := fun c hc =>
    decide_eq_true (ne_of_mem_of_not_mem hc hds)
  rw [float, List.takeWhile_eq_self_iff.mpr hpoint, List.dropWhile_eq_nil_iff.mpr hpoint]

/-- With one point it is the number of the digits before it and after it. -/
theorem float_point {ds : List Char} (hds : '.' ∉ ds) (fs : List Char) :
    float (ds ++ '.' :: fs) = if '.' ∈ fs ∨ ds = [] ∧ fs = [] then none
      else some (digits ds + digits fs / 10 ^ fs.length : ℚ) := by
  have hpoint : ∀ c ∈ ds, decide (c ≠ '.') = true := fun c hc =>
    decide_eq_true (ne_of_mem_of_not_mem hc hds)
  rw [float, List.takeWhile_append_of_pos hpoint, List.dropWhile_append_of_pos hpoint]
  simp

/-- Digits have no point. -/
theorem not_mem_of_digits {ds : List Char} (hds : ∀ c ∈ ds, c.isDigit = true) : '.' ∉ ds :=
  fun hmem => absurd (hds '.' hmem) (by decide)

/-- Of digits and dots, `float` reads the decimal numbers. -/
theorem float_eq_some {q : List Char} {w : ℚ} (hq : ∀ c ∈ q, isWeightChar c = true) :
    float q = some w ↔ Decimal q w := by
  have hdigit : ∀ {ds : List Char}, (∀ c ∈ ds, isWeightChar c = true) → '.' ∉ ds →
      ∀ c ∈ ds, c.isDigit = true := by
    intro ds hds hpoint c hc
    have hchar := hds c hc
    rw [isWeightChar, Bool.or_eq_true, decide_eq_true_eq] at hchar
    exact hchar.resolve_right (ne_of_mem_of_not_mem hc hpoint)
  constructor
  · intro h
    by_cases hpoint : '.' ∈ q
    · obtain ⟨ds, fs, rfl, hds⟩ := List.eq_append_cons_of_mem hpoint
      obtain ⟨hwhole, hfraction⟩ := List.forall_mem_append.mp hq
      rw [float_point hds] at h
      split at h
      · cases h
      · next hnumber =>
        cases h
        obtain ⟨hfs, hne⟩ := not_or.mp hnumber
        exact .point (not_and_or.mp hne) (hdigit hwhole hds)
          (hdigit (List.forall_mem_cons.mp hfraction).2 hfs)
    · rw [float_whole hpoint] at h
      split at h
      · cases h
      · next hne =>
        cases h
        exact .whole hne (hdigit hq hpoint)
  · rintro (⟨hne, hds⟩ | ⟨hne, hds, hfs⟩)
    · rw [float_whole (not_mem_of_digits hds), if_neg hne]
    · rw [float_point (not_mem_of_digits hds), if_neg]
      exact not_or.mpr ⟨not_mem_of_digits hfs, not_and_or.mpr hne⟩

/-- What the pattern captures and `float` reads of an entry. -/
theorem entry_iff {word tag : List Char} {w : ℚ} :
    IsEntry word tag w ↔ ∃ groups, Written word groups ∧ groups.lookup "tag" = some tag ∧
      (groups.lookup "q").elim (some defaultQuality) float = some w := by
  constructor
  · rintro (⟨hs, htag, ht⟩ | ⟨hs, htag, ht, htext, hq, hu⟩)
    · exact ⟨_, .bare hs htag ht, rfl, rfl⟩
    · exact ⟨_, .weighted hs htag ht htext hq.ne_nil hq.isWeightChar hu, rfl,
        (float_eq_some hq.isWeightChar).mpr hq⟩
  · rintro ⟨_, ⟨hs, htag, ht⟩ | ⟨hs, htag, ht, htext, hne, hq, hu⟩, hlookup, hw⟩
    · obtain rfl := Option.some.inj hlookup
      obtain rfl := Option.some.inj hw
      exact .bare hs htag ht
    · obtain rfl := Option.some.inj hlookup
      exact .weighted hs htag ht htext ((float_eq_some hq).mp hw) hu

/-- An entry always captures a tag. -/
theorem Written.lookup_tag {word : List Char} {groups : List (String × List Char)}
    (h : Written word groups) : ∃ tag, groups.lookup "tag" = some tag := by
  cases h with
  | bare _ _ _ => exact ⟨_, rfl⟩
  | weighted _ _ _ _ _ _ _ => exact ⟨_, rfl⟩

/-- What `rank_entry` makes of an entry follows from what the pattern captures. -/
theorem rankEntry_of_written {entry : String} {groups : List (String × List Char)}
    {tag : List Char} (hwritten : Written entry.toList groups)
    (htag : groups.lookup "tag" = some tag) (index : ℕ) :
    rankEntry entry index =
      ((groups.lookup "q").elim (some defaultQuality) float).bind fun w =>
        if baseLanguage tag ∈ supportedLocales then
          some (toLex (-w, toLex (index, baseLanguage tag)))
        else none := by
  rw [rankEntry, (matchStart_acceptLanguageEntry _ _).mpr hwritten, Option.bind_eq_bind,
    Option.bind_some, htag, Option.getD_some]
  cases groups.lookup "q" with
  | none => rfl
  | some q => rfl

/-- A round of the loop finds what the entry names. -/
theorem rankEntry_eq_some {entry : String} {index : ℕ} {r : ℚ ×ₗ ℕ ×ₗ String} :
    rankEntry entry index = some r ↔
      ∃ w language, Names entry w language ∧ r = toLex (-w, toLex (index, language)) := by
  cases hmatch : acceptLanguageEntry.matchStart entry.toList with
  | none =>
    have hround : rankEntry entry index = none := by
      rw [rankEntry, hmatch, Option.bind_eq_bind, Option.bind_none]
    rw [hround]
    refine iff_of_false (Option.some_ne_none r).symm ?_
    rintro ⟨w, _, ⟨tag, hentry, -, -⟩, -⟩
    obtain ⟨groups, hwritten, -⟩ := entry_iff.mp hentry
    rw [← matchStart_acceptLanguageEntry, hmatch] at hwritten
    cases hwritten
  | some groups =>
    have hwritten := (matchStart_acceptLanguageEntry _ _).mp hmatch
    obtain ⟨tag, htag⟩ := hwritten.lookup_tag
    rw [rankEntry_of_written hwritten htag, Option.bind_eq_some_iff]
    constructor
    · rintro ⟨w, hw, hfound⟩
      split at hfound
      · next hsupported =>
        exact ⟨w, _, ⟨tag, entry_iff.mpr ⟨groups, hwritten, htag, hw⟩, rfl, hsupported⟩,
          (Option.some.inj hfound).symm⟩
      · cases hfound
    · rintro ⟨w, _, ⟨tag', hentry, rfl, hsupported⟩, rfl⟩
      obtain ⟨groups', hwritten', htag', hw⟩ := entry_iff.mp hentry
      obtain rfl := hwritten.unique hwritten'
      obtain rfl := Option.some.inj (htag.symm.trans htag')
      exact ⟨w, hw, if_pos hsupported⟩

/-- No weight is negative. -/
theorem IsEntry.nonneg {word tag : List Char} {w : ℚ} (h : IsEntry word tag w) : 0 ≤ w := by
  cases h with
  | bare _ _ _ => exact zero_le_one
  | weighted _ _ _ _ hq _ => exact hq.nonneg

/-- What a round finds, taken apart. -/
theorem rankEntry_eq_some_toLex {entry : String} {index i : ℕ} {w : ℚ} {language : String} :
    rankEntry entry index = some (toLex (-w, toLex (i, language))) ↔
      i = index ∧ Names entry w language := by
  rw [rankEntry_eq_some]
  constructor
  · rintro ⟨w', language', hnames, heq⟩
    obtain ⟨hw, hrest⟩ := Prod.mk.inj (toLex_inj.mp heq)
    obtain ⟨rfl, rfl⟩ := Prod.mk.inj (toLex_inj.mp hrest)
    obtain rfl := neg_injective hw
    exact ⟨rfl, hnames⟩
  · rintro ⟨rfl, hnames⟩
    exact ⟨w, language, hnames, rfl⟩

/-! ## The result -/

/-- What the rounds of the loop find. -/
def rounds (header : String) : List (ℚ ×ₗ ℕ ×ₗ String) :=
  (header.splitOn ",").zipIdx.filterMap fun x => rankEntry x.1 x.2

/-- The rounds find what the entries name. -/
theorem mem_rounds {header : String} {w : ℚ} {i : ℕ} {language : String} :
    toLex (-w, toLex (i, language)) ∈ rounds header ↔
      ∃ entry, (header.splitOn ",")[i]? = some entry ∧ Names entry w language := by
  rw [rounds, List.mem_filterMap]
  constructor
  · rintro ⟨⟨entry, index⟩, hentry, hround⟩
    obtain ⟨rfl, hnames⟩ := rankEntry_eq_some_toLex.mp hround
    exact ⟨entry, List.mk_mem_zipIdx_iff_getElem?.mp hentry, hnames⟩
  · rintro ⟨entry, hentry, hnames⟩
    exact ⟨(entry, i), List.mk_mem_zipIdx_iff_getElem?.mpr hentry,
      rankEntry_eq_some_toLex.mpr ⟨rfl, hnames⟩⟩

/-- Each round has its own index. -/
theorem pairwise_rounds (header : String) :
    (rounds header).Pairwise fun a b => (ofLex (ofLex a).2).1 ≠ (ofLex (ofLex b).2).1 := by
  have hindices : (header.splitOn ",").zipIdx.Pairwise fun a b => a.2 < b.2 := by
    rw [← List.pairwise_map, List.zipIdx_map_snd]
    exact List.pairwise_lt_range'
  rw [rounds, List.pairwise_filterMap]
  refine hindices.imp ?_
  intro x y hlt a ha b hb
  obtain ⟨w, language, -, rfl⟩ := rankEntry_eq_some.mp ha
  obtain ⟨w', language', -, rfl⟩ := rankEntry_eq_some.mp hb
  exact hlt.ne

/-- The empty header needs no case of its own. -/
theorem parseAcceptLanguage_some (header : String) :
    parseAcceptLanguage (some header) =
      ((rounds header).insertionSort (· ≤ ·)).map fun r => (ofLex (ofLex r).2).2 := by
  rw [parseAcceptLanguage]
  split
  · next hempty =>
    subst hempty
    have hentries : "".splitOn "," = [""] := splitOn_of_not_mem List.not_mem_nil
    rw [rounds, hentries]
    rfl
  · rfl

/-- The result ranks what the entries name, with any weight. -/
theorem ranks_parseAcceptLanguage (header : String) :
    Ranks Names header (parseAcceptLanguage (some header)) := by
  let sorted := (rounds header).insertionSort (· ≤ ·)
  have hsorted : sorted.Pairwise (· ≤ ·) := List.pairwise_insertionSort _ _
  have hindices : sorted.Pairwise fun a b => (ofLex (ofLex a).2).1 ≠ (ofLex (ofLex b).2).1 :=
    ((List.perm_insertionSort _ _).pairwise_iff fun h => h.symm).mpr (pairwise_rounds header)
  refine ⟨sorted.map fun r => (-(ofLex r).1, ofLex (ofLex r).2), ?_, ?_, ?_⟩
  · rw [List.pairwise_map]
    refine (hsorted.and hindices).imp ?_
    intro a b ⟨hle, hne⟩
    rcases Prod.Lex.le_iff.mp hle with hlt | ⟨heq, hle⟩
    · exact .inl (neg_lt_neg hlt)
    · rcases Prod.Lex.le_iff.mp hle with hlt | ⟨htie, -⟩
      · exact .inr ⟨congrArg Neg.neg heq.symm, hlt⟩
      · exact absurd htie hne
  · intro w i language
    rw [← mem_rounds, List.mem_map]
    constructor
    · rintro ⟨r, hr, heq⟩
      obtain ⟨rfl, hrest⟩ := Prod.mk.inj heq
      have hround : toLex (- -(ofLex r).1, toLex (i, language)) = r := by
        rw [neg_neg, ← hrest]
        rfl
      rw [hround]
      exact (List.mem_insertionSort _).mp hr
    · intro hr
      exact ⟨_, (List.mem_insertionSort _).mpr hr, by simp⟩
  · rw [parseAcceptLanguage_some, List.map_map]
    rfl

section

variable {TakesPart TakesPart' : String → ℚ → String → Prop} {header : String}
  {result result' : List String}

/-- The ranking depends on which parts of the header take part. -/
theorem Ranks.congr (h : Ranks TakesPart header result)
    (hparts : ∀ entry ∈ header.splitOn ",", ∀ w language,
      TakesPart entry w language ↔ TakesPart' entry w language) :
    Ranks TakesPart' header result := by
  obtain ⟨ranked, hsorted, hmem, rfl⟩ := h
  refine ⟨ranked, hsorted, fun w i language => (hmem w i language).trans ?_, rfl⟩
  refine exists_congr fun entry => and_congr_right fun hentry => ?_
  exact hparts entry (List.mem_of_getElem? hentry) w language

/-- An entry that takes part in one ranking only makes it longer. -/
theorem Ranks.length_lt (h : Ranks TakesPart header result) (h' : Ranks TakesPart' header result')
    (hparts : ∀ entry w language, TakesPart entry w language → TakesPart' entry w language)
    {entry : String} (hentry : entry ∈ header.splitOn ",") {w : ℚ} {language : String}
    (hpart' : TakesPart' entry w language) (hpart : ¬ TakesPart entry w language) :
    result.length < result'.length := by
  obtain ⟨ranked, hsorted, hmem, rfl⟩ := h
  obtain ⟨ranked', hsorted', hmem', rfl⟩ := h'
  obtain ⟨i, hi⟩ := List.mem_iff_getElem?.mp hentry
  have hnodup : ranked.Nodup := by
    refine hsorted.imp ?_
    rintro a b hab rfl
    rcases hab with hlt | ⟨-, hlt⟩
    · exact lt_irrefl _ hlt
    · exact lt_irrefl _ hlt
  have hnot : (w, i, language) ∉ ranked := by
    rw [hmem]
    rintro ⟨entry', hentry', hpart''⟩
    obtain rfl := Option.some.inj (hi.symm.trans hentry')
    exact hpart hpart''
  have hsub : (w, i, language) :: ranked ⊆ ranked' := by
    rintro ⟨w', i', language'⟩ hr
    rw [hmem']
    rcases List.mem_cons.mp hr with heq | hr
    · cases heq
      exact ⟨entry, hi, hpart'⟩
    · obtain ⟨entry', hentry', hpart''⟩ := (hmem _ _ _).mp hr
      exact ⟨entry', hentry', hparts _ _ _ hpart''⟩
  rw [List.length_map, List.length_map]
  exact (List.subperm_of_subset (List.nodup_cons.mpr ⟨hnot, hnodup⟩) hsub).length_le

end

/-- The first locale of the ranking is accepted if any is. -/
theorem heeds_resolveLocale (header : String) :
    Heeds header (resolveLocale (some header) none) := by
  rintro language - hzero ⟨entry, hentry, w, other, hother, hpos⟩ hserved
  obtain ⟨ranked, hsorted, hmem, hresult⟩ := ranks_parseAcceptLanguage header
  have hlocale : resolveLocale (some header) none =
      (parseAcceptLanguage (some header)).headD defaultLocale := rfl
  rw [hlocale, hresult] at hserved
  obtain ⟨i, hi⟩ := List.mem_iff_getElem?.mp hentry
  have hranked : (w, i, other) ∈ ranked := (hmem w i other).mpr ⟨entry, hi, hother⟩
  cases ranked with
  | nil => exact absurd hranked List.not_mem_nil
  | cons first rest =>
    obtain ⟨w', i', language'⟩ := first
    obtain rfl : language' = language := hserved
    obtain ⟨entry', hentry', hnames⟩ := (hmem w' i' language').mp List.mem_cons_self
    obtain rfl := hzero entry' (List.mem_of_getElem? hentry') w' hnames
    rcases List.mem_cons.mp hranked with heq | hrest
    · cases heq
      exact lt_irrefl _ hpos
    · rcases List.rel_of_pairwise_cons hsorted hrest with hlt | ⟨heq, -⟩
      · exact lt_asymm hpos hlt
      · exact hpos.ne heq.symm

/-- A named locale is acceptable, or has the weight 0. -/
theorem Names.pos_or_zero {entry : String} {w : ℚ} {language : String}
    (h : Names entry w language) : 0 < w ∨ w = 0 := by
  obtain ⟨tag, hentry, -, -⟩ := h
  exact hentry.nonneg.lt_or_eq.imp_right Eq.symm

/-- The result is the ranking of the accepted locales, and what is served heeds the header, just
when no entry rules a supported locale out. -/
theorem ranks_accepts_iff (header : String) :
    (Ranks Accepts header (parseAcceptLanguage (some header)) ∧
        Heeds header (resolveLocale (some header) none)) ↔
      ∀ entry ∈ header.splitOn ",", ∀ language, ¬ Names entry 0 language := by
  constructor
  · rintro ⟨haccepts, -⟩ entry hentry language hzero
    exact lt_irrefl _ (haccepts.length_lt (ranks_parseAcceptLanguage header)
      (fun _ _ _ h => h.1) hentry hzero fun h => lt_irrefl _ h.2)
  · intro hnone
    refine ⟨(ranks_parseAcceptLanguage header).congr ?_, heeds_resolveLocale header⟩
    intro entry hentry w language
    refine ⟨fun h => ⟨h, h.pos_or_zero.resolve_right ?_⟩, And.left⟩
    rintro rfl
    exact hnone entry hentry language h

/-- A locale that the header rules out is served. -/
theorem not_ranks_accepts_of_zero :
    resolveLocale (some "en;q=0") none = "en" ∧
      ¬ (Ranks Accepts "en;q=0" (parseAcceptLanguage (some "en;q=0")) ∧
        Heeds "en;q=0" (resolveLocale (some "en;q=0") none)) := by
  have hzero : Decimal ['0'] 0 := by
    simpa [digits, Nat.ofDigitChars] using
      Decimal.whole (List.cons_ne_nil '0' []) (List.forall_mem_singleton.mpr rfl)
  have hweight : IsWeight [';', 'q', '=', '0'] ['0'] :=
    ⟨[], [], [], List.forall_mem_nil _, List.forall_mem_nil _, List.forall_mem_nil _, rfl⟩
  have hentry : IsEntry "en;q=0".toList ['e', 'n'] 0 :=
    .weighted (List.forall_mem_nil _) ⟨'e', ['n'], rfl, rfl, List.forall_mem_singleton.mpr rfl⟩
      (List.forall_mem_nil _) hweight hzero (List.forall_mem_nil _)
  have hbase : "en" = baseLanguage ['e', 'n'] := by
    rw [← String.toList_inj]
    have hlower : (baseLanguage ['e', 'n']).toList = "en".toList.map Char.toLower :=
      String.toList_map
    rw [hlower]
    rfl
  have hnames : Names "en;q=0" 0 "en" := ⟨['e', 'n'], hentry, hbase, by decide⟩
  have hround : rankEntry "en;q=0" 0 = some (toLex (-0, toLex (0, "en"))) :=
    rankEntry_eq_some_toLex.mpr ⟨rfl, hnames⟩
  have hentries : "en;q=0".splitOn "," = ["en;q=0"] := splitOn_of_not_mem (by decide)
  have hmem : "en;q=0" ∈ "en;q=0".splitOn "," := by rw [hentries, List.mem_singleton]
  refine ⟨?_, ?_⟩
  · have hrounds : rounds "en;q=0" = [toLex (-0, toLex (0, "en"))] := by
      rw [rounds, hentries]
      exact List.filterMap_cons_some hround
    rw [resolveLocale, parseAcceptLanguage_some, hrounds]
    rfl
  · rintro ⟨haccepts, -⟩
    exact lt_irrefl _ (haccepts.length_lt (ranks_parseAcceptLanguage "en;q=0")
      (fun _ _ _ h => h.1) hmem hnames fun h => lt_irrefl _ h.2)

end OburBackend
