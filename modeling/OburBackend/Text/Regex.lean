import Mathlib.Data.List.Basic
import Mathlib.Data.Nat.Notation

/-!
# Regular expressions with backtracking

`run` lists the ways a pattern can go on from a point of the text, in the order in which a
backtracking matcher tries them: an alternative tries its left side first, a repetition first
repeats. The first way is the match. What a pattern reads and captures does not depend on the order
(`Means`); where all ways capture the same, that is what the match captures (`matchStart_anchored`).
-/

namespace Text

/-- A place in a text: what is behind it, nearest first, what is ahead, and what the groups have
captured, last first. -/
structure Point where
  behind : List Char
  ahead : List Char
  groups : List (String × List Char)
  deriving DecidableEq, Repr

/-- The start of a text. -/
def Point.start (text : List Char) : Point := ⟨[], text, []⟩

/-- The point after the next characters, when `rest` comes after them. -/
def Point.read (word rest : List Char) (x : Point) : Point :=
  { x with behind := word.reverse ++ x.behind, ahead := rest }

inductive Regex where
  /-- One character of a class. -/
  | char (p : Char → Bool)
  | empty
  | seq (r s : Regex)
  | alt (r s : Regex)
  /-- Greedy, any number of times. -/
  | star (r : Regex)
  | group (name : String) (r : Regex)
  /-- `^` -/
  | bol
  /-- `$`, which also holds before a line feed that ends the text. -/
  | eol
  /-- `(?=...)` -/
  | lookahead (r : Regex)
  /-- `(?<=...)`, with one character of a class. -/
  | lookbehind (p : Char → Bool)

namespace Regex

/-- The given character. -/
def lit (c : Char) : Regex := char fun d => decide (d = c)

/-- `r+` -/
def plus (r : Regex) : Regex := seq r (star r)

/-- `r?` -/
def opt (r : Regex) : Regex := alt r empty

/-- The class `\s`: what `str.isspace` holds of. -/
def isSpace (c : Char) : Bool :=
  (9 ≤ c.toNat && c.toNat ≤ 13) || (28 ≤ c.toNat && c.toNat ≤ 32) ||
    (0x2000 ≤ c.toNat && c.toNat ≤ 0x200a) ||
    decide (c.toNat ∈ [0x85, 0xa0, 0x1680, 0x2028, 0x2029, 0x202f, 0x205f, 0x3000])

/-- `\s*` -/
def spaces : Regex := star (char isSpace)

/-- One pattern after the other. -/
def all : List Regex → Regex
  | [] => empty
  | r :: rs => seq r (all rs)

/-- `r{n}` -/
def times : ℕ → Regex → Regex
  | 0, _ => empty
  | n + 1, r => seq r (times n r)

/-- `r{0,n}` -/
def upTo : ℕ → Regex → Regex
  | 0, _ => empty
  | n + 1, r => opt (seq r (upTo n r))

/-- `r{m,}` -/
def atLeast (m : ℕ) (r : Regex) : Regex := seq (times m r) (star r)

/-- `r{m,n}` -/
def between (m n : ℕ) (r : Regex) : Regex := seq (times m r) (upTo (n - m) r)

/-- Repeat a step while it gets on, at most `n` times. -/
def repeated (step : Point → List Point) : ℕ → Point → List Point
  | 0, x => [x]
  | n + 1, x =>
    ((step x).filter fun y => decide (y.ahead.length < x.ahead.length)).flatMap (repeated step n) ++
      [x]

/-- The ways to go on from a point. -/
def run : Regex → Point → List Point
  | char p, x =>
    match x.ahead with
    | [] => []
    | c :: rest => if p c then [x.read [c] rest] else []
  | empty, x => [x]
  | seq r s, x => (run r x).flatMap (run s)
  | alt r s, x => run r x ++ run s x
  | star r, x => repeated (run r) x.ahead.length x
  | group name r, x => (run r x).map fun y =>
    { y with groups := (name, x.ahead.take (x.ahead.length - y.ahead.length)) :: y.groups }
  | bol, x => if x.behind = [] then [x] else []
  | eol, x => if x.ahead = [] ∨ x.ahead = ['\n'] then [x] else []
  | lookahead r, x => if run r x = [] then [] else [x]
  | lookbehind p, x =>
    match x.behind with
    | [] => []
    | c :: _ => if p c then [x] else []

/-- `re.match`: the groups of the first way to match from the start of the text. -/
def matchStart (r : Regex) (text : List Char) : Option (List (String × List Char)) :=
  (r.run (Point.start text)).head?.map Point.groups

/-! ## The ways to go on, pattern by pattern -/

section
variable {r s : Regex} {p : Char → Bool} {x y : Point}

/-- A character class reads one character of the class. -/
theorem mem_run_char :
    y ∈ (char p).run x ↔ ∃ c rest, x.ahead = c :: rest ∧ p c = true ∧ y = x.read [c] rest := by
  obtain ⟨behind, ahead, groups⟩ := x
  cases ahead with
  | nil =>
    refine iff_of_false List.not_mem_nil ?_
    rintro ⟨c, rest, hahead, -⟩
    cases hahead
  | cons c rest =>
    refine List.mem_ite_nil_right.trans ?_
    rw [List.mem_singleton]
    constructor
    · rintro ⟨hp, rfl⟩
      exact ⟨c, rest, rfl, hp, rfl⟩
    · rintro ⟨d, rest', hahead, hp, rfl⟩
      obtain ⟨rfl, rfl⟩ := List.cons.inj hahead
      exact ⟨hp, rfl⟩

/-- The empty pattern stays where it is. -/
theorem mem_run_empty : y ∈ empty.run x ↔ y = x := List.mem_singleton

/-- The second pattern goes on where the first one has come to. -/
theorem mem_run_seq : y ∈ (seq r s).run x ↔ ∃ z ∈ r.run x, y ∈ s.run z := List.mem_flatMap

/-- One of the two patterns matches. -/
theorem mem_run_alt : y ∈ (alt r s).run x ↔ y ∈ r.run x ∨ y ∈ s.run x := List.mem_append

/-- A repetition goes round at most as often as characters are left. -/
theorem run_star : (star r).run x = repeated r.run x.ahead.length x := rfl

/-- A group captures what its pattern reads. -/
theorem mem_run_group {name : String} :
    y ∈ (group name r).run x ↔ ∃ z ∈ r.run x,
      { z with groups := (name, x.ahead.take (x.ahead.length - z.ahead.length)) :: z.groups } = y :=
  List.mem_map

/-- `^` matches at the beginning. -/
theorem mem_run_bol : y ∈ bol.run x ↔ x.behind = [] ∧ y = x :=
  List.mem_ite_nil_right.trans (and_congr_right' List.mem_singleton)

/-- `$` matches at the end, and before a last line feed. -/
theorem mem_run_eol : y ∈ eol.run x ↔ (x.ahead = [] ∨ x.ahead = ['\n']) ∧ y = x :=
  List.mem_ite_nil_right.trans (and_congr_right' List.mem_singleton)

/-- What comes next is looked at and not read. -/
theorem mem_run_lookahead : y ∈ (lookahead r).run x ↔ r.run x ≠ [] ∧ y = x :=
  List.mem_ite_nil_left.trans (and_congr_right' List.mem_singleton)

/-- So is the character before. -/
theorem mem_run_lookbehind :
    y ∈ (lookbehind p).run x ↔ (∃ c ∈ x.behind.head?, p c = true) ∧ y = x := by
  obtain ⟨behind, ahead, groups⟩ := x
  cases behind with
  | nil =>
    refine iff_of_false List.not_mem_nil ?_
    rintro ⟨⟨c, hc, -⟩, -⟩
    cases hc
  | cons c behind =>
    refine List.mem_ite_nil_right.trans ?_
    rw [List.mem_singleton, List.head?_cons]
    simp

end

/-! ## What a pattern means -/

/-- The pattern reads the words with `P` and captures the groups with them. -/
def Means (r : Regex) (P : List Char → List (String × List Char) → Prop) : Prop :=
  ∀ x y, y ∈ r.run x ↔ ∃ word rest groups, x.ahead = word ++ rest ∧ P word groups ∧
    y = { x.read word rest with groups := groups ++ x.groups }

namespace Means

variable {r s : Regex} {P Q : List Char → List (String × List Char) → Prop}

/-- An equivalent meaning may take the place of the meaning. -/
theorem congr (hr : Means r P) (h : ∀ word groups, P word groups ↔ Q word groups) :
    Means r Q := by
  intro x y
  simp only [hr x y, h]

/-- Patterns that run alike mean the same. -/
theorem of_run_eq (hr : Means r P) (h : ∀ x, s.run x = r.run x) : Means s P := by
  intro x y
  rw [h, hr x y]

/-- A character class means one character of the class. -/
theorem char (p : Char → Bool) :
    Means (.char p) fun word groups => (∃ c, p c = true ∧ word = [c]) ∧ groups = [] := by
  intro x y
  rw [mem_run_char]
  constructor
  · rintro ⟨c, rest, hahead, hp, rfl⟩
    exact ⟨[c], rest, [], hahead, ⟨⟨c, hp, rfl⟩, rfl⟩, rfl⟩
  · rintro ⟨_, rest, _, hahead, ⟨⟨c, hp, rfl⟩, rfl⟩, rfl⟩
    exact ⟨c, rest, hahead, hp, rfl⟩

/-- A literal means itself. -/
theorem lit (c : Char) : Means (Regex.lit c) fun word groups => word = [c] ∧ groups = [] :=
  (char _).congr fun word groups => by simp

/-- The empty pattern means the empty word. -/
theorem empty : Means .empty fun word groups => word = [] ∧ groups = [] := by
  intro x y
  rw [mem_run_empty]
  constructor
  · rintro rfl
    exact ⟨[], y.ahead, [], rfl, ⟨rfl, rfl⟩, rfl⟩
  · rintro ⟨_, rest, _, hahead, ⟨rfl, rfl⟩, rfl⟩
    rw [List.nil_append] at hahead
    subst hahead
    rfl

/-- A sequence means two words one after the other; the later captures come first. -/
theorem seq (hr : Means r P) (hs : Means s Q) :
    Means (.seq r s) fun word groups => ∃ word₁ word₂ groups₁ groups₂, word = word₁ ++ word₂ ∧
      groups = groups₂ ++ groups₁ ∧ P word₁ groups₁ ∧ Q word₂ groups₂ := by
  intro x y
  rw [mem_run_seq]
  constructor
  · rintro ⟨z, hz, hy⟩
    obtain ⟨word₁, rest₁, groups₁, hahead, hP, rfl⟩ := (hr x z).mp hz
    obtain ⟨word₂, rest₂, groups₂, rfl, hQ, rfl⟩ := (hs _ y).mp hy
    refine ⟨word₁ ++ word₂, rest₂, groups₂ ++ groups₁, ?_,
      ⟨word₁, word₂, groups₁, groups₂, rfl, rfl, hP, hQ⟩, ?_⟩
    · rw [hahead, List.append_assoc]
    · simp [Point.read]
  · rintro ⟨_, rest, _, hahead, ⟨word₁, word₂, groups₁, groups₂, rfl, rfl, hP, hQ⟩, rfl⟩
    rw [List.append_assoc] at hahead
    refine ⟨_, (hr x _).mpr ⟨word₁, word₂ ++ rest, groups₁, hahead, hP, rfl⟩,
      (hs _ _).mpr ⟨word₂, rest, groups₂, rfl, hQ, ?_⟩⟩
    simp [Point.read]

/-- A pattern that captures nothing, before another one. -/
theorem seq_of_silent {R : List Char → Prop} (hr : Means r fun word groups => R word ∧ groups = [])
    (hs : Means s Q) :
    Means (.seq r s) fun word groups => ∃ u v, word = u ++ v ∧ R u ∧ Q v groups := by
  refine (hr.seq hs).congr fun word groups => ?_
  constructor
  · rintro ⟨u, v, _, groups, rfl, rfl, ⟨hu, rfl⟩, hv⟩
    exact ⟨u, v, rfl, hu, (List.append_nil groups).symm ▸ hv⟩
  · rintro ⟨u, v, rfl, hu, hv⟩
    exact ⟨u, v, [], groups, rfl, (List.append_nil groups).symm, ⟨hu, rfl⟩, hv⟩

/-- A literal at the beginning is the first character. -/
theorem lit_seq (c : Char) (hs : Means s Q) :
    Means (.seq (.lit c) s) fun word groups => ∃ v, word = c :: v ∧ Q v groups := by
  refine ((lit c).seq_of_silent hs).congr fun word groups => ?_
  constructor
  · rintro ⟨_, v, rfl, rfl, hv⟩
    exact ⟨v, rfl, hv⟩
  · rintro ⟨v, rfl, hv⟩
    exact ⟨[c], v, rfl, rfl, hv⟩

/-- The empty pattern at the end adds nothing. -/
theorem seq_empty (hr : Means r P) : Means (.seq r .empty) P := by
  refine (hr.seq empty).congr fun word groups => ?_
  constructor
  · rintro ⟨u, _, groups, _, rfl, rfl, hu, rfl, rfl⟩
    rwa [List.append_nil]
  · intro h
    exact ⟨word, [], groups, [], (List.append_nil word).symm, rfl, h, rfl, rfl⟩

/-- An alternative means what one of the two means. -/
theorem alt (hr : Means r P) (hs : Means s Q) :
    Means (.alt r s) fun word groups => P word groups ∨ Q word groups := by
  intro x y
  rw [mem_run_alt, hr x y, hs x y]
  constructor
  · rintro (⟨word, rest, groups, hahead, hP, hy⟩ | ⟨word, rest, groups, hahead, hQ, hy⟩)
    · exact ⟨word, rest, groups, hahead, .inl hP, hy⟩
    · exact ⟨word, rest, groups, hahead, .inr hQ, hy⟩
  · rintro ⟨word, rest, groups, hahead, hP | hQ, hy⟩
    · exact .inl ⟨word, rest, groups, hahead, hP, hy⟩
    · exact .inr ⟨word, rest, groups, hahead, hQ, hy⟩

/-- A group means what its pattern means, and captures the word. -/
theorem group (name : String) (hr : Means r P) :
    Means (.group name r) fun word groups => ∃ inner, P word inner ∧
      groups = (name, word) :: inner := by
  intro x y
  rw [mem_run_group]
  have htake : ∀ word rest, x.ahead = word ++ rest →
      x.ahead.take (x.ahead.length - rest.length) = word := by
    intro word rest hahead
    rw [hahead, List.length_append, Nat.add_sub_cancel, List.take_left]
  constructor
  · rintro ⟨z, hz, rfl⟩
    obtain ⟨word, rest, inner, hahead, hP, rfl⟩ := (hr x z).mp hz
    refine ⟨word, rest, (name, word) :: inner, hahead, ⟨inner, hP, rfl⟩, ?_⟩
    simp only [Point.read, htake word rest hahead, List.cons_append]
  · rintro ⟨word, rest, _, hahead, ⟨inner, hP, rfl⟩, rfl⟩
    refine ⟨_, (hr x _).mpr ⟨word, rest, inner, hahead, hP, rfl⟩, ?_⟩
    simp only [Point.read, htake word rest hahead, List.cons_append]

/-- A repeated character reads a word of its class, of any length. -/
theorem star_char (p : Char → Bool) :
    Means (.star (.char p)) fun word groups => (∀ c ∈ word, p c = true) ∧ groups = [] := by
  rintro ⟨behind, ahead, groups⟩ y
  rw [run_star]
  induction ahead generalizing behind with
  | nil =>
    simp only [List.length_nil, repeated, List.mem_singleton]
    constructor
    · rintro rfl
      exact ⟨[], [], [], rfl, ⟨List.forall_mem_nil _, rfl⟩, rfl⟩
    · rintro ⟨word, rest, _, hahead, ⟨-, rfl⟩, rfl⟩
      obtain ⟨rfl, rfl⟩ := List.append_eq_nil_iff.mp hahead.symm
      rfl
  | cons c ahead ih =>
    have hstep : repeated (Regex.char p).run (c :: ahead).length ⟨behind, c :: ahead, groups⟩ =
        (if p c then
          repeated (Regex.char p).run ahead.length ⟨c :: behind, ahead, groups⟩ else []) ++
          [⟨behind, c :: ahead, groups⟩] := by
      have hchar : (Regex.char p).run ⟨behind, c :: ahead, groups⟩ =
          if p c then [⟨c :: behind, ahead, groups⟩] else [] := rfl
      rw [List.length_cons, repeated, hchar]
      split <;> simp
    rw [hstep, List.mem_append, List.mem_singleton]
    constructor
    · rintro (hmore | rfl)
      · split at hmore
        · next hp =>
          obtain ⟨word, rest, _, hahead, ⟨hword, rfl⟩, rfl⟩ := (ih (c :: behind)).mp hmore
          refine ⟨c :: word, rest, [], congrArg (c :: ·) hahead, ⟨?_, rfl⟩, ?_⟩
          · rintro d (_ | ⟨_, hd⟩)
            · exact hp
            · exact hword d hd
          · simp [Point.read]
        · exact absurd hmore List.not_mem_nil
      · exact ⟨[], c :: ahead, [], rfl, ⟨List.forall_mem_nil _, rfl⟩, rfl⟩
    · rintro ⟨word, rest, _, hahead, ⟨hword, rfl⟩, rfl⟩
      cases word with
      | nil =>
        rw [List.nil_append] at hahead
        exact .inr (hahead ▸ rfl)
      | cons d word =>
        obtain ⟨rfl, rfl⟩ := List.cons.inj hahead
        left
        rw [if_pos (hword c List.mem_cons_self)]
        exact (ih (c :: behind)).mpr ⟨word, rest, [], rfl,
          ⟨fun d hd => hword d (List.mem_cons_of_mem _ hd), rfl⟩, by simp [Point.read]⟩

/-- A pattern that captures nothing, before another one that captures nothing. -/
theorem silent_seq {R S : List Char → Prop} (hr : Means r fun word groups => R word ∧ groups = [])
    (hs : Means s fun word groups => S word ∧ groups = []) :
    Means (.seq r s) fun word groups => (∃ u v, word = u ++ v ∧ R u ∧ S v) ∧ groups = [] := by
  refine (hr.seq_of_silent hs).congr fun word groups => ?_
  constructor
  · rintro ⟨u, v, hword, hu, hv, hgroups⟩
    exact ⟨⟨u, v, hword, hu, hv⟩, hgroups⟩
  · rintro ⟨⟨u, v, hword, hu, hv⟩, hgroups⟩
    exact ⟨u, v, hword, hu, hv, hgroups⟩

/-- `p+` means a word of at least one such character. -/
theorem plus_char (p : Char → Bool) :
    Means (.plus (.char p)) fun word groups =>
      (word ≠ [] ∧ ∀ c ∈ word, p c = true) ∧ groups = [] := by
  refine ((char p).silent_seq (star_char p)).congr fun word groups => and_congr_left fun _ => ?_
  constructor
  · rintro ⟨_, cs, rfl, ⟨c, hc, rfl⟩, hcs⟩
    exact ⟨List.cons_ne_nil c cs, List.forall_mem_cons.mpr ⟨hc, hcs⟩⟩
  · rintro ⟨hne, hword⟩
    obtain ⟨c, cs, rfl⟩ := List.exists_cons_of_ne_nil hne
    obtain ⟨hc, hcs⟩ := List.forall_mem_cons.mp hword
    exact ⟨[c], cs, rfl, ⟨c, hc, rfl⟩, hcs⟩

/-- `p{n}` means a word of `n` such characters. -/
theorem times_char (n : ℕ) (p : Char → Bool) :
    Means (.times n (.char p)) fun word groups =>
      (word.length = n ∧ ∀ c ∈ word, p c = true) ∧ groups = [] := by
  induction n with
  | zero =>
    refine empty.congr fun word groups => and_congr_left fun _ => ?_
    rw [List.length_eq_zero_iff]
    exact ⟨fun h => ⟨h, h ▸ List.forall_mem_nil _⟩, And.left⟩
  | succ n ih =>
    refine ((char p).silent_seq ih).congr fun word groups => and_congr_left fun _ => ?_
    constructor
    · rintro ⟨_, cs, rfl, ⟨c, hc, rfl⟩, hlen, hcs⟩
      exact ⟨congrArg (· + 1) hlen, List.forall_mem_cons.mpr ⟨hc, hcs⟩⟩
    · rintro ⟨hlen, hword⟩
      obtain ⟨c, cs, rfl⟩ := List.exists_cons_of_length_eq_add_one hlen
      obtain ⟨hc, hcs⟩ := List.forall_mem_cons.mp hword
      exact ⟨[c], cs, rfl, ⟨c, hc, rfl⟩, Nat.succ.inj hlen, hcs⟩

/-- `p{0,n}` means a word of at most `n`. -/
theorem upTo_char (n : ℕ) (p : Char → Bool) :
    Means (.upTo n (.char p)) fun word groups =>
      (word.length ≤ n ∧ ∀ c ∈ word, p c = true) ∧ groups = [] := by
  induction n with
  | zero =>
    refine empty.congr fun word groups => and_congr_left fun _ => ?_
    rw [Nat.le_zero, List.length_eq_zero_iff]
    exact ⟨fun h => ⟨h, h ▸ List.forall_mem_nil _⟩, And.left⟩
  | succ n ih =>
    refine (((char p).silent_seq ih).alt empty).congr fun word groups => ?_
    rw [← or_and_right]
    refine and_congr_left fun _ => ?_
    constructor
    · rintro (⟨_, cs, rfl, ⟨c, hc, rfl⟩, hlen, hcs⟩ | rfl)
      · exact ⟨Nat.succ_le_succ hlen, List.forall_mem_cons.mpr ⟨hc, hcs⟩⟩
      · exact ⟨Nat.zero_le _, List.forall_mem_nil _⟩
    · rintro ⟨hlen, hword⟩
      cases word with
      | nil => exact .inr rfl
      | cons c cs =>
        obtain ⟨hc, hcs⟩ := List.forall_mem_cons.mp hword
        exact .inl ⟨[c], cs, rfl, ⟨c, hc, rfl⟩, Nat.le_of_succ_le_succ hlen, hcs⟩

/-- `p{m,}` means a word of at least `m`. -/
theorem atLeast_char (m : ℕ) (p : Char → Bool) :
    Means (.atLeast m (.char p)) fun word groups =>
      (m ≤ word.length ∧ ∀ c ∈ word, p c = true) ∧ groups = [] := by
  refine ((times_char m p).silent_seq (star_char p)).congr fun word groups =>
    and_congr_left fun _ => ?_
  constructor
  · rintro ⟨u, v, rfl, ⟨hlen, hu⟩, hv⟩
    rw [List.length_append, hlen]
    exact ⟨Nat.le_add_right m _, List.forall_mem_append.mpr ⟨hu, hv⟩⟩
  · rintro ⟨hlen, hword⟩
    exact ⟨word.take m, word.drop m, (List.take_append_drop m word).symm,
      ⟨List.length_take_of_le hlen, fun c hc => hword c (List.mem_of_mem_take hc)⟩,
      fun c hc => hword c (List.mem_of_mem_drop hc)⟩

/-- `p{m,n}` means a word of at least `m` and at most `n`. -/
theorem between_char {m n : ℕ} (hmn : m ≤ n) (p : Char → Bool) :
    Means (.between m n (.char p)) fun word groups =>
      ((m ≤ word.length ∧ word.length ≤ n) ∧ ∀ c ∈ word, p c = true) ∧ groups = [] := by
  refine ((times_char m p).silent_seq (upTo_char (n - m) p)).congr fun word groups =>
    and_congr_left fun _ => ?_
  constructor
  · rintro ⟨u, v, rfl, ⟨hlen, hu⟩, hmore, hv⟩
    rw [List.length_append, hlen]
    exact ⟨⟨by omega, by omega⟩, List.forall_mem_append.mpr ⟨hu, hv⟩⟩
  · rintro ⟨⟨hm, hn⟩, hword⟩
    refine ⟨word.take m, word.drop m, (List.take_append_drop m word).symm,
      ⟨List.length_take_of_le hm, fun c hc => hword c (List.mem_of_mem_take hc)⟩, ?_,
      fun c hc => hword c (List.mem_of_mem_drop hc)⟩
    rw [List.length_drop]
    omega

end Means

/-! ## Between anchors -/

/-- A sequence that ends in one more pattern. -/
theorem run_all_concat (rs : List Regex) (r : Regex) (x : Point) :
    (all (rs ++ [r])).run x = (seq (all rs) r).run x := by
  induction rs generalizing x with
  | nil =>
    have hlast : (seq r empty).run x = r.run x := List.flatMap_singleton' (r.run x)
    have hfirst : (seq empty r).run x = r.run x := List.flatMap_singleton r.run x
    exact hlast.trans hfirst.symm
  | cons s rs ih =>
    calc (all (s :: (rs ++ [r]))).run x
      _ = (s.run x).flatMap fun y => (seq (all rs) r).run y :=
        List.flatMap_congr fun y _ => ih y
      _ = ((s.run x).flatMap (all rs).run).flatMap r.run := List.flatMap_assoc.symm

/-- A sequence of patterns between the anchors. -/
theorem matchStart_all_anchored (rs : List Regex) (text : List Char) :
    (all (bol :: (rs ++ [eol]))).matchStart text =
      (seq bol (seq (all rs) eol)).matchStart text := by
  have hrun : ∀ x, (all (bol :: (rs ++ [eol]))).run x = (seq bol (seq (all rs) eol)).run x :=
    fun _ => List.flatMap_congr fun y _ => run_all_concat rs eol y
  rw [matchStart, matchStart, hrun]

/-- The ways to match between the anchors end at the end of the text, or before a last line feed. -/
theorem mem_run_anchored {r : Regex} {text : List Char} {y : Point} :
    y ∈ (seq bol (seq r eol)).run (Point.start text) ↔
      y ∈ r.run (Point.start text) ∧ (y.ahead = [] ∨ y.ahead = ['\n']) := by
  rw [mem_run_seq]
  constructor
  · rintro ⟨x, hx, hy⟩
    obtain ⟨-, rfl⟩ := mem_run_bol.mp hx
    obtain ⟨z, hz, hy⟩ := mem_run_seq.mp hy
    obtain ⟨hend, rfl⟩ := mem_run_eol.mp hy
    exact ⟨hz, hend⟩
  · rintro ⟨hy, hend⟩
    exact ⟨Point.start text, mem_run_bol.mpr ⟨rfl, rfl⟩,
      mem_run_seq.mpr ⟨y, hy, mem_run_eol.mpr ⟨hend, rfl⟩⟩⟩

/-- An anchored pattern matches the texts that it reads, and those with a line feed after that. -/
theorem isSome_matchStart_anchored {r : Regex} {P : List Char → List (String × List Char) → Prop}
    (hr : Means r P) (text : List Char) :
    ((seq bol (seq r eol)).matchStart text).isSome = true ↔
      ∃ word rest groups, text = word ++ rest ∧ P word groups ∧ (rest = [] ∨ rest = ['\n']) := by
  rw [matchStart, Option.isSome_map, List.isSome_head?]
  constructor
  · intro hne
    obtain ⟨y, hy⟩ := List.exists_mem_of_ne_nil _ hne
    obtain ⟨hy, hend⟩ := mem_run_anchored.mp hy
    obtain ⟨word, rest, groups, hahead, hP, rfl⟩ := (hr _ y).mp hy
    exact ⟨word, rest, groups, hahead, hP, hend⟩
  · rintro ⟨word, rest, groups, hahead, hP, hend⟩
    exact List.ne_nil_of_mem
      (mem_run_anchored.mpr ⟨(hr _ _).mpr ⟨word, rest, groups, hahead, hP, rfl⟩, hend⟩)

/-- Where all ways to match a whole text capture the same, an anchored pattern captures just that. A
line feed may be left over at the end. -/
theorem matchStart_anchored {r : Regex} {P : List Char → List (String × List Char) → Prop}
    (hr : Means r P) (hfeed : ∀ word groups, P word groups → P (word ++ ['\n']) groups)
    (hunique : ∀ word groups groups', P word groups → P word groups' → groups = groups')
    (text : List Char) (groups : List (String × List Char)) :
    (seq bol (seq r eol)).matchStart text = some groups ↔ P text groups := by
  have hmeans : ∀ y ∈ (seq bol (seq r eol)).run (Point.start text), P text y.groups := by
    intro y hy
    obtain ⟨hy, hend⟩ := mem_run_anchored.mp hy
    obtain ⟨word, rest, captured, hahead, hP, rfl⟩ := (hr _ y).mp hy
    obtain rfl : text = word ++ rest := hahead
    have hend : rest = [] ∨ rest = ['\n'] := hend
    have hgoal : P (word ++ rest) captured := by
      rcases hend with rfl | rfl
      · rwa [List.append_nil]
      · exact hfeed word captured hP
    simpa only [Point.start, List.append_nil] using hgoal
  constructor
  · intro hmatch
    rw [matchStart, Option.map_eq_some_iff] at hmatch
    obtain ⟨y, hy, rfl⟩ := hmatch
    exact hmeans y (List.mem_of_mem_head? hy)
  · intro hP
    have hsome := (isSome_matchStart_anchored hr text).mpr
      ⟨text, [], groups, (List.append_nil text).symm, hP, .inl rfl⟩
    obtain ⟨captured, hcaptured⟩ := Option.isSome_iff_exists.mp hsome
    rw [hcaptured]
    rw [matchStart, Option.map_eq_some_iff] at hcaptured
    obtain ⟨y, hy, rfl⟩ := hcaptured
    exact congrArg some (hunique text _ _ (hmeans y (List.mem_of_mem_head? hy)) hP)

end Regex

/-! ## Runs of a class -/

/-- A text splits in one way into a run of a class and what does not go on with the class. -/
theorem append_inj_of_class {p : Char → Bool} {u u' v v' : List Char} (hu : ∀ c ∈ u, p c = true)
    (hu' : ∀ c ∈ u', p c = true) (hv : ∀ c ∈ v.head?, p c = false)
    (hv' : ∀ c ∈ v'.head?, p c = false) (h : u ++ v = u' ++ v') : u = u' ∧ v = v' := by
  have htake : ∀ {u v : List Char}, (∀ c ∈ u, p c = true) → (∀ c ∈ v.head?, p c = false) →
      (u ++ v).takeWhile p = u := by
    intro u v hu hv
    rw [List.takeWhile_append_of_pos hu]
    cases v with
    | nil => rw [List.takeWhile_nil, List.append_nil]
    | cons c v => rw [List.takeWhile_cons_of_neg (by simp [hv c rfl]), List.append_nil]
  have heq : u = u' := by rw [← htake hu hv, h, htake hu' hv']
  subst heq
  exact ⟨rfl, List.append_cancel_left h⟩

end Text
