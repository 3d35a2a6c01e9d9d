import OburBackend.Text.Regex

/-!
# The syntax of patterns

`compile` reads the text of a pattern. It knows the part of the syntax of Python's `re` module that
literals, negated classes of one character, the quantifiers `*`, `+` and `?` and the anchors make
up, and gives up on the rest. `escape` writes a literal in it, which `tokens` reads back character
by character (`tokens_escapeChar_append`).
-/

namespace Text.Regex

/-! ## Escaping -/

/-- The characters that `re.escape` puts a backslash before. -/
def escaped : List Char :=
  ['(', ')', '[', ']', '{', '}', '?', '*', '+', '-', '|', '^', '$', '\\', '.', '&', '~', '#', ' ',
    '\t', '\n', '\r', '\x0b', '\x0c']

def escapeChar (c : Char) : List Char := if c ∈ escaped then ['\\', c] else [c]

/-- `re.escape` -/
def escape (word : List Char) : List Char := word.flatMap escapeChar

/-! ## Reading a pattern -/

inductive Token where
  | atom (r : Regex)
  | anchor (r : Regex)
  | star
  | plus
  | opt

/-- What a character is by itself. -/
def Token.ofChar (c : Char) : Option Token :=
  if c = '^' then some (.anchor bol)
  else if c = '$' then some (.anchor eol)
  else if c = '*' then some .star
  else if c = '+' then some .plus
  else if c = '?' then some .opt
  else if c ∈ ['.', '{', '}', '[', ']', '\\', '|', '(', ')'] then none
  else some (.atom (lit c))

/-- The tokens of a pattern. -/
def tokens : List Char → Option (List Token)
  | [] => some []
  | '\\' :: c :: cs =>
    -- a backslash and a letter or a digit is a class, an anchor or a reference
    if c.isAlphanum then none else (tokens cs).map (.atom (lit c) :: ·)
  | '[' :: '^' :: c :: ']' :: cs =>
    if c = ']' ∨ c = '\\' then none
    else (tokens cs).map (.atom (char fun d => decide (d ≠ c)) :: ·)
  | c :: cs => (Token.ofChar c).bind fun token => (tokens cs).map (token :: ·)

/-- Apply the quantifiers; there has to be something to repeat. -/
def assemble : List Token → Option (List Regex)
  | [] => some []
  | .anchor r :: ts => (assemble ts).map (r :: ·)
  | .atom r :: .star :: ts => (assemble ts).map (.star r :: ·)
  | .atom r :: .plus :: ts => (assemble ts).map (.plus r :: ·)
  | .atom r :: .opt :: ts => (assemble ts).map (.opt r :: ·)
  | .atom r :: ts => (assemble ts).map (r :: ·)
  | _ :: _ => none

/-- `re.compile`, where the pattern is in the part of the syntax that is known. -/
def compile (pattern : List Char) : Option Regex :=
  ((tokens pattern).bind assemble).map all

/-! ## Reading back what was escaped -/

/-- No character that is escaped is a letter or a digit. -/
theorem isAlphanum_of_mem_escaped {c : Char} (h : c ∈ escaped) : c.isAlphanum = false := by
  have hall : (escaped.all fun c => !c.isAlphanum) = true := rfl
  simpa using List.all_eq_true.mp hall c h

/-- Any other character stands for itself. -/
theorem ofChar_of_not_mem_escaped {c : Char} (h : c ∉ escaped) :
    Token.ofChar c = some (.atom (lit c)) := by
  simp only [escaped, List.mem_cons, List.not_mem_nil, or_false, not_or] at h
  simp [Token.ofChar, h]

/-- An escaped character is read as itself. -/
theorem tokens_escapeChar_append (c : Char) (rest : List Char) :
    tokens (escapeChar c ++ rest) = (tokens rest).map (.atom (lit c) :: ·) := by
  rw [escapeChar]
  split
  · next h => simp [tokens, isAlphanum_of_mem_escaped h]
  · next h =>
    have hbackslash : c ≠ '\\' := fun heq => h (heq ▸ by decide)
    have hbracket : c ≠ '[' := fun heq => h (heq ▸ by decide)
    rw [List.singleton_append, tokens, ofChar_of_not_mem_escaped h, Option.bind_some]
    · exact fun _ _ heq => absurd heq hbackslash
    · exact fun _ _ heq => absurd heq hbracket

end Text.Regex
