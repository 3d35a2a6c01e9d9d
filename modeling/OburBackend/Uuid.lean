import Mathlib.Algebra.Group.Nat.Defs
import Mathlib.Data.List.Basic

/-!
# Identifiers and their text form

An id is a 128-bit number. Python prints it as 32 lower-case hex digits grouped 8-4-4-4-12
(`Uuid.str`), which is how it gets into error messages and into the `SET LOCAL` that installs a
session's identity; PostgreSQL reads it back with the parser of its `uuid` type (`Uuid.parse`). The
parser accepts more than the printer writes: upper-case digits, no dashes, a dash after any group of
four digits, braces around the whole. `Uuid.parse_str` is the round trip.
-/

/-- A 128-bit identifier. -/
abbrev Uuid := BitVec 128

namespace Uuid

/-- The last `k` bytes of `n`, the most significant first. -/
def bytes : ℕ → ℕ → List ℕ
  | 0, _ => []
  | k + 1, n => bytes k (n / 256) ++ [n % 256]

/-- The number with the given bytes, the most significant first. -/
def ofBytes (bs : List ℕ) : ℕ := bs.foldl (fun acc b => acc * 256 + b) 0

@[simp] theorem length_bytes (k n : ℕ) : (bytes k n).length = k := by
  induction k generalizing n with
  | zero => rfl
  | succ k ih => simp [bytes, ih]

/-- A byte is less than 256. -/
theorem lt_of_mem_bytes {k n b : ℕ} (h : b ∈ bytes k n) : b < 256 := by
  induction k generalizing n with
  | zero => simp [bytes] at h
  | succ k ih =>
    rcases List.mem_append.mp h with h | h
    · exact ih h
    · rw [List.mem_singleton] at h
      omega

/-- The bytes of a number that fits are the number again. -/
theorem ofBytes_bytes {k n : ℕ} (h : n < 256 ^ k) : ofBytes (bytes k n) = n := by
  induction k generalizing n with
  | zero =>
    rw [Nat.pow_zero] at h
    simp [bytes, ofBytes]
    omega
  | succ k ih =>
    have hq : n / 256 < 256 ^ k := by
      rw [Nat.pow_succ] at h
      exact Nat.div_lt_of_lt_mul (by omega)
    have := ih hq
    simp only [ofBytes] at this
    simp only [bytes, ofBytes, List.foldl_append, List.foldl_cons, List.foldl_nil, this]
    omega

/-! ## Hex digits -/

/-- The digit with value `d`. -/
def hexDigit (d : ℕ) : Char :=
  ['0', '1', '2', '3', '4', '5', '6', '7', '8', '9', 'a', 'b', 'c', 'd', 'e', 'f'].getD d '0'

/-- The value of a hex digit of either case. -/
def hexValue (c : Char) : Option ℕ :=
  if '0' ≤ c ∧ c ≤ '9' then some (c.toNat - 48)
  else if 'a' ≤ c ∧ c ≤ 'f' then some (c.toNat - 87)
  else if 'A' ≤ c ∧ c ≤ 'F' then some (c.toNat - 55)
  else none

@[simp] theorem hexValue_hexDigit {d : ℕ} (h : d < 16) : hexValue (hexDigit d) = some d := by
  have : ∀ d : Fin 16, hexValue (hexDigit d) = some d.val := by decide
  exact this ⟨d, h⟩

/-- A digit is no hyphen. -/
theorem hexDigit_ne_dash {d : ℕ} (h : d < 16) : hexDigit d ≠ '-' := by
  have : ∀ d : Fin 16, hexDigit d ≠ '-' := by decide
  exact this ⟨d, h⟩

/-- Nor is it a brace. -/
theorem hexDigit_ne_brace {d : ℕ} (h : d < 16) : hexDigit d ≠ '{' := by
  have : ∀ d : Fin 16, hexDigit d ≠ '{' := by decide
  exact this ⟨d, h⟩

/-! ## Printing and parsing -/

/-- Print the bytes from number `i` on: a dash follows the bytes 3, 5, 7 and 9. -/
def printBytes : ℕ → List ℕ → List Char
  | _, [] => []
  | i, b :: bs =>
    hexDigit (b / 16) :: hexDigit (b % 16) ::
      if i ∈ [3, 5, 7, 9] then '-' :: printBytes (i + 1) bs else printBytes (i + 1) bs

/-- `str(uuid)`. -/
def str (u : Uuid) : String := String.ofList (printBytes 0 (bytes 16 u.toNat))

/-- `uuid.hex`. -/
def hex (u : Uuid) : String :=
  String.ofList ((bytes 16 u.toNat).flatMap fun b => [hexDigit (b / 16), hexDigit (b % 16)])

/-- Read `k` bytes from number `i` on. PostgreSQL skips one dash after a byte of odd number, the
last byte apart. -/
def readBytes : ℕ → ℕ → List Char → Option (List ℕ × List Char)
  | _, 0, cs => some ([], cs)
  | i, k + 1, a :: b :: cs =>
    match hexValue a, hexValue b with
    | some x, some y =>
      let cs := if cs.head? = some '-' ∧ i % 2 = 1 ∧ i < 15 then cs.tail else cs
      (readBytes (i + 1) k cs).map fun r => ((x * 16 + y) :: r.1, r.2)
    | _, _ => none
  | _, _ + 1, _ => none

/-- `text::uuid`. -/
def parse (text : String) : Option Uuid :=
  match text.toList with
  | '{' :: cs =>
    match readBytes 0 16 cs with
    | some (bs, ['}']) => some (BitVec.ofNat 128 (ofBytes bs))
    | _ => none
  | cs =>
    match readBytes 0 16 cs with
    | some (bs, []) => some (BitVec.ofNat 128 (ofBytes bs))
    | _ => none

/-- What follows a printed byte never starts with a dash of its own. -/
theorem head?_printBytes_ne_dash {i : ℕ} {bs : List ℕ} (hbs : ∀ b ∈ bs, b < 256) :
    (printBytes i bs).head? ≠ some '-' := by
  cases bs with
  | nil => simp [printBytes]
  | cons b bs =>
    have hb : b < 256 := hbs b (by simp)
    simpa [printBytes] using hexDigit_ne_dash (show b / 16 < 16 by omega)

/-- The parser reads the bytes the printer wrote. The dashes of the printer are among the places
where the parser skips one. -/
theorem readBytes_printBytes {bs : List ℕ} (hbs : ∀ b ∈ bs, b < 256) (i : ℕ) :
    readBytes i bs.length (printBytes i bs) = some (bs, []) := by
  induction bs generalizing i with
  | nil => rfl
  | cons b bs ih =>
    have hb : b < 256 := hbs b (by simp)
    have hrest : ∀ b ∈ bs, b < 256 := fun b h => hbs b (List.mem_cons_of_mem _ h)
    have hval : b / 16 * 16 + b % 16 = b := by omega
    simp only [printBytes, List.length_cons, readBytes,
      hexValue_hexDigit (show b / 16 < 16 by omega), hexValue_hexDigit (show b % 16 < 16 by omega)]
    by_cases hi : i ∈ [3, 5, 7, 9]
    · have hodd : i % 2 = 1 ∧ i < 15 := by
        simp only [List.mem_cons, List.not_mem_nil, or_false] at hi
        omega
      simp only [hi, if_true, List.head?_cons, List.tail_cons, hodd, and_self,
        ih hrest (i + 1), Option.map_some, hval]
    · simp only [hi, if_false, head?_printBytes_ne_dash hrest, false_and,
        ih hrest (i + 1), Option.map_some, hval]

/-- PostgreSQL reads the id that Python printed. -/
@[simp] theorem parse_str (u : Uuid) : parse (str u) = some u := by
  have hread : readBytes 0 (bytes 16 u.toNat).length (printBytes 0 (bytes 16 u.toNat)) =
      some (bytes 16 u.toNat, []) := readBytes_printBytes (fun b h => lt_of_mem_bytes h) 0
  rw [length_bytes] at hread
  have hval : BitVec.ofNat 128 (ofBytes (bytes 16 u.toNat)) = u := by
    rw [ofBytes_bytes (show u.toNat < 256 ^ 16 from u.isLt)]
    simp
  simp only [parse, str, String.toList_ofList]
  split
  · next cs heq =>
    -- a printed id starts with a digit, not with a brace
    have hhead : (printBytes 0 (bytes 16 u.toNat)).head? = some '{' := by rw [heq]; rfl
    obtain ⟨b, bs, hbs⟩ : ∃ b bs, bytes 16 u.toNat = b :: bs :=
      List.exists_cons_of_length_pos (by simp)
    have hb : b < 256 := lt_of_mem_bytes (k := 16) (n := u.toNat) (by simp [hbs])
    rw [hbs, printBytes, List.head?_cons, Option.some.injEq] at hhead
    exact absurd hhead (hexDigit_ne_brace (by omega))
  · rw [hread]
    simp only [hval]

/-- No id prints as the empty string, which is what an unset identity may read as. -/
theorem str_ne_empty (u : Uuid) : str u ≠ "" := by
  intro h
  have hp := parse_str u
  rw [h] at hp
  exact absurd hp (by simp [parse, readBytes])

/-- The hexadecimal form has 32 digits. -/
theorem length_hex (u : Uuid) : u.hex.length = 32 := by
  rw [hex, String.length_ofList, List.length_flatMap]
  simp

/-- A property of the hex digits is one of the characters of `hex`. -/
theorem forall_mem_hex {p : Char → Prop} (hp : ∀ d < 16, p (hexDigit d)) (u : Uuid) :
    ∀ c ∈ u.hex.toList, p c := by
  intro c hc
  rw [hex, String.toList_ofList, List.mem_flatMap] at hc
  obtain ⟨b, hb, hc⟩ := hc
  have hbyte : b < 256 := lt_of_mem_bytes hb
  rw [List.mem_pair] at hc
  rcases hc with rfl | rfl
  · exact hp _ (by omega)
  · exact hp _ (by omega)

end Uuid
