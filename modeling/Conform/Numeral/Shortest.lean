import Conform.Numeral.Binary64
import Conform.Text.Digit

/-!
The shortest decimal text of a double-precision number: the fewest digits that read back as the same
number, and of those the digits nearest to it.
-/
namespace Conform.Numeral

/-- The numbers that round to `m * 2 ^ e`, as fractions of the common denominator `den`; the ends
belong to the interval iff the significand is even. -/
structure Interval where
  low : Nat
  value : Nat
  high : Nat
  den : Nat
  closed : Bool

/-- Half a unit on either side; below a power of two the units are half as wide. -/
def Interval.around (m : Nat) (e : Int) : Interval :=
  let narrow := m = Nat.pow 2 52 && e > Binary64.leastExponent
  let s := Binary64.scale 1 (e - 2)
  { low := (4 * m - (if narrow then 1 else 2)) * s.1
    value := 4 * m * s.1
    high := (4 * m + 2) * s.1
    den := s.2
    closed := m % 2 = 0 }

/-- Whether `d * 10 ^ k` lies in the interval. -/
def Interval.holds (i : Interval) (d : Nat) (k : Int) : Bool :=
  let x := d * Nat.pow 10 k.toNat * i.den
  let p := Nat.pow 10 (-k).toNat
  if i.closed then i.low * p ≤ x && x ≤ i.high * p else i.low * p < x && x < i.high * p

/-- The greatest power of ten that is at most `value / den`, as an exponent. The lengths of the two
parts leave only two candidates. -/
def magnitude (value den : Nat) : Int :=
  let k : Int := (Nat.toDigits 10 value).length - (Nat.toDigits 10 den).length
  if den * Nat.pow 10 k.toNat ≤ value * Nat.pow 10 (-k).toNat then k else k - 1

/-- The neighbour of the value on the grid of multiples of `10 ^ k` that lies in the interval, the
nearer one if both do. -/
def Interval.neighbour? (i : Interval) (k : Int) : Option Nat :=
  let num := i.value * Nat.pow 10 (-k).toNat
  let den := i.den * Nat.pow 10 k.toNat
  let d := num / den
  match i.holds d k, i.holds (d + 1) k with
  | true, true => some (Binary64.roundDiv num den)
  | true, false => some d
  | false, true => some (d + 1)
  | false, false => none

/-- The first grid, from coarse to fine, with a neighbour in the interval. -/
def Interval.shortest (i : Interval) (k : Int) : Nat → Nat × Int
  | 0 => (Binary64.roundDiv (i.value * Nat.pow 10 (-k).toNat) (i.den * Nat.pow 10 k.toNat), k)
  | n + 1 =>
    match i.neighbour? k with
    | some d => (d, k)
    | none => i.shortest (k - 1) n

/-- The shortest digits of a positive number `m * 2 ^ e`, without trailing zeros, and the exponent of
ten of the first digit. Seventeen digits always suffice. -/
def shortestDigits (m : Nat) (e : Int) : List Char × Int :=
  let i := Interval.around m e
  let top := magnitude i.value i.den
  let (d, k) := i.shortest top 16
  let ds := Nat.toDigits 10 d
  ((ds.reverse.dropWhile (· = '0')).reverse, k + ds.length - 1)

/-- How digits and an exponent become text. -/
structure DecimalLayout where
  /-- The exponents of the first digit that are written without an exponent. -/
  leastPositional : Int
  greatestPositional : Int
  /-- The digits of an exponent are padded to this length. -/
  exponentWidth : Nat
  nan : String
  infinity : String

/-- Positional from `0.0001` up to sixteen digits before the point, with a digit after the point in
every case; an exponent has a sign and two digits. -/
def plainLayout : DecimalLayout where
  leastPositional := -4
  greatestPositional := 15
  exponentWidth := 2
  nan := "nan"
  infinity := "inf"

namespace DecimalLayout

def positional (digits : List Char) (top : Int) : List Char :=
  if top < 0 then '0' :: '.' :: List.replicate (-top - 1).toNat '0' ++ digits
  else
    let whole := top.toNat + 1
    let padded := digits ++ List.replicate (whole - digits.length) '0'
    let fraction := padded.drop whole
    padded.take whole ++ '.' :: (if fraction.isEmpty then ['0'] else fraction)

def scientific (layout : DecimalLayout) (digits : List Char) (top : Int) : List Char :=
  let mantissa :=
    match digits with
    | d :: r@(_ :: _) => d :: '.' :: r
    | r => r
  mantissa ++ 'e' :: (if top < 0 then '-' else '+')
    :: Text.digitsOf 10 layout.exponentWidth top.natAbs

/-- The text of a number. -/
def text (layout : DecimalLayout) : Binary64 → String
  | .nan => layout.nan
  | .infinite negative => (if negative then "-" else "") ++ layout.infinity
  | .finite negative m e =>
    let (digits, top) := if m = 0 then (['0'], 0) else shortestDigits m e
    let body :=
      if layout.leastPositional ≤ top && top ≤ layout.greatestPositional then positional digits top
      else layout.scientific digits top
    (if negative then "-" else "") ++ String.ofList body

end DecimalLayout

/-- The text of a number in messages and document dumps. -/
def Binary64.text (x : Binary64) : String := plainLayout.text x

end Conform.Numeral
