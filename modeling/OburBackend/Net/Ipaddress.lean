import Mathlib.Data.List.Basic
import Mathlib.Data.Nat.Notation

/-!
# Texts of IP addresses

`ip_address` of Python's `ipaddress` module (3.12), which reads a text as an IPv4 or else as an IPv6
address, and `str` of the addresses it returns: the canonical texts.
-/

namespace Ipaddress

/-! ## Addresses -/

structure IPv4Address where
  octets : List (Fin 256)
  length_octets : octets.length = 4
  deriving DecidableEq

/-- The scope id is what follows a `%`. -/
structure IPv6Address where
  hextets : List (Fin 65536)
  scopeId : Option (List Char)
  length_hextets : hextets.length = 8
  deriving DecidableEq

inductive IPAddress where
  | v4 (address : IPv4Address)
  | v6 (address : IPv6Address)
  deriving DecidableEq

/-! ## Reading -/

/-- The value of a digit in base 16. -/
def hexDigit (c : Char) : Option ℕ :=
  if '0' ≤ c ∧ c ≤ '9' then some (c.toNat - '0'.toNat)
  else if 'a' ≤ c ∧ c ≤ 'f' then some (c.toNat - 'a'.toNat + 10)
  else if 'A' ≤ c ∧ c ≤ 'F' then some (c.toNat - 'A'.toNat + 10)
  else none

/-- `int(text, base)` of digits. -/
def ofDigits (base : ℕ) (digits : List ℕ) : ℕ := digits.foldl (fun n d => base * n + d) 0

/-- `_parse_octet`: decimal, without leading zeros. -/
def parseOctet (octet : List Char) : Option (Fin 256) := do
  if octet = [] ∨ 3 < octet.length ∨ ¬ octet.all Char.isDigit then none
  else if octet ≠ ['0'] ∧ octet.head? = some '0' then none
  else
    let n := ofDigits 10 (octet.map fun c => c.toNat - '0'.toNat)
    if h : n < 256 then some ⟨n, h⟩ else none

/-- `IPv4Address(text)` -/
def parseIPv4 (text : List Char) : Option IPv4Address := do
  if '/' ∈ text then none
  else
    let octets ← (text.splitOn '.').mapM parseOctet
    if h : octets.length = 4 then some ⟨octets, h⟩ else none

/-- `_parse_hextet` -/
def parseHextet (hextet : List Char) : Option (Fin 65536) := do
  if hextet = [] ∨ 4 < hextet.length then none
  else
    let digits ← hextet.mapM hexDigit
    let n := ofDigits 16 digits
    if h : n < 65536 then some ⟨n, h⟩ else none

/-- `'%x' % n` -/
def hex (n : ℕ) : List Char := Nat.toDigits 16 n

/-- The parts between colons, with an IPv4 suffix written as two hextets. -/
def expandSuffix (parts : List (List Char)) : Option (List (List Char)) :=
  match parts.getLast? with
  | none => some parts
  | some suffix =>
    if '.' ∈ suffix then do
      let address ← parseIPv4 suffix
      match address.octets with
      | [a, b, c, d] =>
        some (parts.dropLast ++ [hex (256 * a.val + b.val), hex (256 * c.val + d.val)])
      | _ => none
    else some parts

/-- The positions of `::`: the empty parts between the first and the last. -/
def skips (parts : List (List Char)) : List ℕ :=
  (List.range (parts.length - 2)).filterMap fun i =>
    if parts[i + 1]? = some [] then some (i + 1) else none

/-- The parts on one side of `::`; `outer` is the part at the end of the text, which may be empty
only when it is alone. -/
def besideSkip (parts : List (List Char)) (outer : Option (List Char)) :
    Option (List (List Char)) :=
  if outer = some [] then if parts.length = 1 then some [] else none else some parts

/-- The hextets of the parts. -/
def parseParts (parts : List (List Char)) : Option (List (Fin 65536)) :=
  if parts.length < 3 then none
  else do
    let parts ← expandSuffix parts
    if 9 < parts.length then none
    else match skips parts with
      | [] => parts.mapM parseHextet
      | [skip] => do
        let hi ← besideSkip (parts.take skip) parts.head?
        let lo ← besideSkip (parts.drop (skip + 1)) parts.getLast?
        if 8 ≤ hi.length + lo.length then none
        else
          let hi ← hi.mapM parseHextet
          let lo ← lo.mapM parseHextet
          some (hi ++ List.replicate (8 - (hi.length + lo.length)) 0 ++ lo)
      | _ => none

/-- `_split_scope_id` -/
def splitScopeId (text : List Char) : Option (List Char × Option (List Char)) :=
  match text.splitOn '%' with
  | [address] => some (address, none)
  | [address, scopeId] => if scopeId = [] then none else some (address, some scopeId)
  | _ => none

/-- `IPv6Address(text)` -/
def parseIPv6 (text : List Char) : Option IPv6Address := do
  if '/' ∈ text then none
  else
    let (address, scopeId) ← splitScopeId text
    let hextets ← parseParts (address.splitOn ':')
    if h : hextets.length = 8 then some ⟨hextets, scopeId, h⟩ else none

/-- `ip_address(text)`, `none` where it raises `ValueError`. -/
def ipAddress (text : String) : Option IPAddress :=
  match parseIPv4 text.toList with
  | some address => some (.v4 address)
  | none => (parseIPv6 text.toList).map .v6

/-! ## Writing -/

/-- A run of hextets: its start and its length. -/
structure Run where
  start : ℕ
  length : ℕ
  deriving DecidableEq

/-- The loop of `_compress_hextets` that looks for the longest run of zeros: the index, the run that
ends here and the best one so far. -/
def bestRun : List (List Char) → ℕ → Run → Run → Run
  | [], _, _, best => best
  | hextet :: rest, index, run, best =>
    if hextet = ['0'] then
      let run : Run := ⟨if run.length = 0 then index else run.start, run.length + 1⟩
      bestRun rest (index + 1) run (if best.length < run.length then run else best)
    else bestRun rest (index + 1) ⟨index, 0⟩ best

/-- `_compress_hextets` -/
def compressHextets (hextets : List (List Char)) : List (List Char) :=
  let best := bestRun hextets 0 ⟨0, 0⟩ ⟨0, 0⟩
  if 1 < best.length then
    let stop := best.start + best.length
    (if best.start = 0 then [[]] else []) ++ hextets.take best.start ++ [[]] ++
      hextets.drop stop ++ (if stop = hextets.length then [[]] else [])
  else hextets

/-- `str(address)` -/
def IPAddress.str : IPAddress → String
  | .v4 address => String.ofList (['.'].intercalate (address.octets.map fun o =>
      Nat.toDigits 10 o.val))
  | .v6 address =>
    let text := [':'].intercalate (compressHextets (address.hextets.map fun h => hex h.val))
    match address.scopeId with
    | none => String.ofList text
    | some scopeId => String.ofList (text ++ '%' :: scopeId)

/-- `str(ip_address(text))` -/
def canonical (text : String) : Option String := (ipAddress text).map IPAddress.str

end Ipaddress
