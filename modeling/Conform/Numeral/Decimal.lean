import Conform.Numeral.Binary64
import Conform.Numeral.Integer

/-!
Decimal numbers as text: an optional sign, digits with an optional point, an optional exponent; or
an infinity, or not-a-number. Single underscores may stand between digits.
-/
namespace Conform.Numeral

/-- Every underscore stands between two digits; `before` is the character before the text. -/
def underscoresBetweenDigits (before : Option Char) : List Char → Bool
  | [] => true
  | '_' :: r =>
    before.any Char.isDigit && r.head?.any Char.isDigit && underscoresBetweenDigits (some '_') r
  | c :: r => underscoresBetweenDigits (some c) r

/-- The exponent after the digits of a decimal number: none, or `e`, a sign and digits. -/
def readExponent? : List Char → Option Int
  | [] => some 0
  | c :: r =>
    let (negative, digits) := takeSign r
    if (c = 'e' || c = 'E') && !digits.isEmpty && digits.all Char.isDigit then
      let n : Int := valueOf 10 digits
      some (if negative then -n else n)
    else none

/-- Digits with an optional point, then an optional exponent. -/
def readDigits? (negative : Bool) (cs : List Char) : Option Binary64 :=
  let (whole, afterWhole) := cs.span Char.isDigit
  let (fraction, rest) :=
    match afterWhole with
    | '.' :: r => r.span Char.isDigit
    | r => ([], r)
  if whole.isEmpty && fraction.isEmpty then none
  else (readExponent? rest).map fun e =>
    .ofDecimal negative (valueOf 10 (whole ++ fraction)) (e - fraction.length)

def readUnspaced? (cs : List Char) : Option Binary64 :=
  let (negative, unsigned) := takeSign cs
  let word := String.ofList (unsigned.map Char.toLower)
  if word = "inf" || word = "infinity" then some (.infinite negative)
  else if word = "nan" then some .nan
  else readDigits? negative unsigned

/-- Reads a decimal number. -/
def readDecimal (text : List Char) : Except Error Binary64 :=
  let cs := normalise text
  if underscoresBetweenDigits none cs then
    match readUnspaced? (cs.filter (· ≠ '_')) with
    | some x => .ok x
    | none => .error (.notDecimal text)
  else .error (.notDecimal text)

end Conform.Numeral
