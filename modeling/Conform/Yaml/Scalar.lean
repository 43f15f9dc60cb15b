import Conform.Document.View
import Conform.Numeral.Decimal
import Conform.Text.Base64
import Conform.Text.Case
import Conform.Yaml.Fault
import Conform.Yaml.Tag

/-!
Scalars: the values that texts denote by their type. A type may be given to any text, so a text need
not look like its type.
-/
namespace Conform.Yaml.Scalar

open Numeral (Binary64)

def numeral {α : Type} (x : Except Numeral.Error α) : Except ScalarError α := x.mapError .numeral

/-- The words for truth values, in small letters. -/
def truthValues : List (String × Bool) :=
  [("yes", true), ("no", false), ("true", true), ("false", false), ("on", true), ("off", false)]

def readBool (text : List Char) : Except ScalarError Bool :=
  let word := Text.toLower text
  match truthValues.lookup (String.ofList word) with
  | some b => .ok b
  | none => .error (.noBoolean word)

/-- The parts of a text between colons. -/
def splitAtColons (text : List Char) : List (List Char) := text.splitOn ':'

/-- The sign of a numeral and what follows it. -/
def takeSign (text : List Char) : Except ScalarError (Bool × List Char) :=
  if text.isEmpty then .error (.numeral .empty) else .ok (Numeral.takeSign text)

/-- An integer without its sign: in base 2 or 16 if it is announced, in base 8 after a leading zero,
in base 60 with colons, and otherwise in base 10. -/
def readUnsigned (text : List Char) : Except ScalarError Int :=
  match text with
  | [] => .error (.numeral .empty)
  | ['0'] => .ok 0
  | '0' :: 'b' :: r => numeral (Numeral.readInteger 2 r)
  | '0' :: 'x' :: r => numeral (Numeral.readInteger 16 r)
  | '0' :: _ => numeral (Numeral.readInteger 8 text)
  | _ =>
    if text.contains ':' then do
      let parts ← (splitAtColons text).mapM fun p => numeral (Numeral.readInteger 10 p)
      return parts.foldl (fun n d => n * 60 + d) 0
    else numeral (Numeral.readInteger 10 text)

/-- Underscores are left out wherever they stand. -/
def readInt (text : List Char) : Except ScalarError Int := do
  let (negative, unsigned) ← takeSign (text.filter (· ≠ '_'))
  let n ← readUnsigned unsigned
  return if negative then -n else n

/-- The sum of terms that count for more and more powers of sixty. It is taken from the last term on
and rounded at each step. -/
def sumSixties (sum : Binary64) (power : Nat) : List Binary64 → Except ScalarError Binary64
  | [] => .ok sum
  | x :: xs =>
    match Binary64.ofInt? power with
    | some p => sumSixties (sum.add (x.mul p)) (power * 60) xs
    | none => .error (.numeral .overflow)

/-- Infinity and not-a-number start with a point; colons separate terms of base 60. -/
def readFloat (text : List Char) : Except ScalarError Binary64 := do
  let (negative, unsigned) ← takeSign (Text.toLower (text.filter (· ≠ '_')))
  if unsigned = ".nan".toList then return .nan
  let x ←
    if unsigned = ".inf".toList then pure (.infinite false)
    else if unsigned.contains ':' then do
      let parts ← (splitAtColons unsigned).mapM fun p => numeral (Numeral.readDecimal p)
      sumSixties (.zero false) 1 parts.reverse
    else numeral (Numeral.readDecimal unsigned)
  return if negative then x.neg else x

/-- A fraction of a second in microseconds; further digits are dropped. -/
def microseconds (digits : List Char) : Nat :=
  let shown := digits.take 6
  Numeral.valueOf 10 shown * Nat.pow 10 (6 - shown.length)

/-- A date, or a timestamp if there is a time. -/
def readTimestamp (text : List Char) : Except ScalarError Atom :=
  match WrittenTimestamp.read? (dropLastBreak text) with
  | none => .error .noTimestamp
  | some t =>
    Except.mapError .calendar <|
      match t.time with
      | none => .date <$> Date.make t.year t.month t.day
      | some (hour, minute, second, fraction) =>
        .timestamp <$> Timestamp.make t.year t.month t.day hour minute second
          (microseconds fraction) t.offset

/-- The bytes of a text in base 64, which has ASCII characters only. -/
def readBinary (text : List Char) : Except Fault (List UInt8) :=
  if text.all fun c => c.toNat < 128 then
    match Text.Base64.decode? text with
    | some bs => .ok bs
    | none => .error .malformed
  else .error .malformed

def atom {α : Type} (make : α → Atom) (x : Except ScalarError α) : Except Fault (View Nat) :=
  match x with
  | .ok a => .ok (.scalar (.atom (make a)))
  | .error e => .error (.scalar e)

/-- The value of a text by a type of scalars; the other types have no texts. -/
def read (tag : Tag) (text : List Char) : Except Fault (View Nat) :=
  match tag with
  | .null => .ok .null
  | .bool => atom .bool (readBool text)
  | .int => atom .int (readInt text)
  | .float => atom .float (readFloat text)
  | .binary => (.scalar ∘ .atom ∘ .bytes) <$> readBinary text
  | .timestamp => atom id (readTimestamp text)
  | .str => .ok (.scalar (.atom (.str (String.ofList text))))
  | _ => .error .malformed

end Conform.Yaml.Scalar
