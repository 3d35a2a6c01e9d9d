import Mathlib.Algebra.Order.Ring.Unbundled.Rat
import Mathlib.Data.List.Sort
import Mathlib.Data.Prod.Lex
import Mathlib.Data.String.Basic
import OburBackend.Model.Schema
import OburBackend.Text.Regex

/-!
# Locales (`app/core/i18n.py`, `app/core/locale.py`)

Weights are exact decimals here, where the code has the nearest floating-point numbers.
-/

namespace OburBackend

open Text

/-- `SUPPORTED_LOCALES` -/
def supportedLocales : List String := [defaultLocale, "en"]

/-- `[A-Za-z*]` -/
def isTagStart (c : Char) : Bool := c.isAlpha || c = '*'

/-- `[A-Za-z0-9-]` -/
def isTagChar (c : Char) : Bool := c.isAlphanum || c = '-'

/-- `[0-9.]` -/
def isWeightChar (c : Char) : Bool := c.isDigit || c = '.'

/-- `_ACCEPT_LANGUAGE_ENTRY` -/
def acceptLanguageEntry : Regex :=
  .seq .bol <| .seq (.all
    [.spaces,
      .group "tag" (.seq (.char isTagStart) (.star (.char isTagChar))),
      .spaces,
      .opt (.all
        [.lit ';', .spaces, .lit 'q', .spaces, .lit '=', .spaces,
          .group "q" (.plus (.char isWeightChar))]),
      .spaces]) .eol

/-- `_DEFAULT_QUALITY` -/
def defaultQuality : ℚ := 1

/-- `_base_language` -/
def baseLanguage (tag : List Char) : String :=
  (String.ofList (tag.takeWhile (· ≠ '-'))).toLower

/-- The number that decimal digits stand for. -/
def digits (ds : List Char) : ℕ := Nat.ofDigitChars 10 ds 0

/-- `float(text)`, for a text of digits and dots; `none` is its `ValueError`. -/
def float (text : List Char) : Option ℚ :=
  let whole := text.takeWhile (· ≠ '.')
  match text.dropWhile (· ≠ '.') with
  | [] => if whole = [] then none else some (digits whole)
  | _ :: fraction =>
    if '.' ∈ fraction ∨ whole = [] ∧ fraction = [] then none
    else some (digits whole + digits fraction / 10 ^ fraction.length)

/-- One round of the loop of `parse_accept_language`: the entry `(-quality, index, language)` of
`ranked`, if there is one. -/
def rankEntry (entry : String) (index : ℕ) : Option (ℚ ×ₗ ℕ ×ₗ String) := do
  let groups ← acceptLanguageEntry.matchStart entry.toList
  let quality ← match groups.lookup "q" with
    | some q => float q
    | none => some defaultQuality
  let language := baseLanguage ((groups.lookup "tag").getD [])
  if language ∈ supportedLocales then
    return toLex (-quality, toLex (index, language))
  else
    none

/-- `parse_accept_language` -/
def parseAcceptLanguage (header : Option String) : List String :=
  match header with
  | none => []
  | some header =>
    if header = "" then []
    else
      let ranked := (header.splitOn ",").zipIdx.filterMap fun (entry, index) =>
        rankEntry entry index
      (ranked.insertionSort (· ≤ ·)).map fun r => (ofLex (ofLex r).2).2

/-- `resolve_locale` -/
def resolveLocale (acceptLanguage : Option String) (viewer : Option User) : String :=
  match viewer.filter fun v => v.locale ∈ supportedLocales with
  | some viewer => viewer.locale
  | none => (parseAcceptLanguage acceptLanguage).headD defaultLocale

end OburBackend
