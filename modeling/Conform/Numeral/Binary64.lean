/-!
Double-precision numbers. A finite number is a sign, a significand and an exponent of two; every
number has one form, with a significand of 53 bits unless the exponent is the least. Sums and
products are taken exactly and then rounded to the nearest number, a tie going to the even
significand.
-/
namespace Conform.Numeral

/-- A double-precision number. `finite s m e` is `m * 2 ^ e`, negated if `s`. -/
inductive Binary64
  | nan
  | infinite (negative : Bool)
  | finite (negative : Bool) (significand : Nat) (exponent : Int)
deriving DecidableEq, Repr

namespace Binary64

/-- The exponent of the numbers nearest to zero. -/
def leastExponent : Int := -1074

/-- The exponent of the largest numbers. -/
def greatestExponent : Int := 971

/-- One more than the largest significand. -/
def significandBound : Nat := Nat.pow 2 53

def zero (negative : Bool) : Binary64 := .finite negative 0 leastExponent

/-- The quotient of two numbers rounded to the nearest whole number, a half to the even one. -/
def roundDiv (num den : Nat) : Nat :=
  let q := num / den
  let r := 2 * (num % den)
  if r > den || (r = den && q % 2 = 1) then q + 1 else q

/-- `n * 2 ^ e` as a fraction. -/
def scale (n : Nat) (e : Int) : Nat × Nat :=
  if 0 ≤ e then (n * Nat.pow 2 e.toNat, 1) else (n, Nat.pow 2 (-e).toNat)

/-- The exponent at which the fraction `num / den` has a significand of 53 bits, or the least. The
lengths of the two parts leave only two candidates. -/
def exponentFor (num den : Nat) : Int :=
  let e : Int := (num.log2 : Int) - den.log2 - 53
  let s := scale den e
  max leastExponent (if num * s.2 < significandBound * s.1 then e else e + 1)

/-- The number nearest to the fraction `num / den`; beyond the largest it is infinite. -/
def ofRatio (negative : Bool) (num den : Nat) : Binary64 :=
  if num = 0 then zero negative
  else
    let e := exponentFor num den
    let s := scale den e
    let m := roundDiv (num * s.2) s.1
    let (m, e) := if m = significandBound then (Nat.pow 2 52, e + 1) else (m, e)
    if e > greatestExponent then .infinite negative else .finite negative m e

/-- The number nearest to `digits * 10 ^ exponent`. Exponents far outside the range of finite
numbers are settled without computing the power. -/
def ofDecimal (negative : Bool) (digits : Nat) (exponent : Int) : Binary64 :=
  let size : Int := (Nat.toDigits 10 digits).length + exponent
  if digits = 0 || size < -330 then zero negative
  else if size > 330 then .infinite negative
  else if 0 ≤ exponent then ofRatio negative (digits * Nat.pow 10 exponent.toNat) 1
  else ofRatio negative digits (Nat.pow 10 (-exponent).toNat)

def neg : Binary64 → Binary64
  | .nan => .nan
  | .infinite s => .infinite !s
  | .finite s m e => .finite (!s) m e

/-- The nearest number to an integer, or `none` if the integer is beyond the largest. -/
def ofInt? (n : Int) : Option Binary64 :=
  match ofRatio (n < 0) n.natAbs 1 with
  | .infinite _ => none
  | x => some x

/-- A finite number as a signed numerator over a power of two. -/
def signed (negative : Bool) (m : Nat) : Int := if negative then -(m : Int) else m

def mul : Binary64 → Binary64 → Binary64
  | .nan, _ => .nan
  | _, .nan => .nan
  | .infinite s, .infinite t => .infinite (s != t)
  | .infinite s, .finite t m _ => if m = 0 then .nan else .infinite (s != t)
  | .finite s m _, .infinite t => if m = 0 then .nan else .infinite (s != t)
  | .finite s m e, .finite t n f =>
    let r := scale (m * n) (e + f)
    ofRatio (s != t) r.1 r.2

def add : Binary64 → Binary64 → Binary64
  | .nan, _ => .nan
  | _, .nan => .nan
  | .infinite s, .infinite t => if s = t then .infinite s else .nan
  | .infinite s, .finite .. => .infinite s
  | .finite .., .infinite t => .infinite t
  | .finite s m e, .finite t n f =>
    let least := min e f
    let sum := signed s m * Nat.pow 2 (e - least).toNat + signed t n * Nat.pow 2 (f - least).toNat
    if sum = 0 then zero (s && t)
    else
      let r := scale sum.natAbs least
      ofRatio (sum < 0) r.1 r.2

/-- A finite number in lowest terms: the significand without its factors of two, at most `n` of them,
and the exponent they go to. -/
def lowest (m : Nat) (e : Int) : Nat → Nat × Int
  | 0 => (m, e)
  | n + 1 => if m % 2 = 1 then (m, e) else lowest (m / 2) (e + 1) n

end Binary64
end Conform.Numeral
