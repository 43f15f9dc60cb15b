import Conform.Numeral.Error
import Conform.Text.Blank

/-!
Integers as text. Blanks around the numeral are dropped, digits of every script are read, and single
underscores may stand between digits. A base of 2, 8 or 16 may be announced by its letter after a
leading zero.
-/
namespace Conform.Numeral

/-- The blanks that may surround a numeral: all but the information separators. -/
def isMargin (c : Char) : Bool :=
  Text.isBlank c && !(0x1c ≤ c.toNat && c.toNat ≤ 0x1f)

/-- The ASCII form of a digit of any script; other characters stay as they are. -/
def plainDigit (c : Char) : Char :=
  match Text.decimalDigit? c with
  | some d => Char.ofNat (0x30 + d)
  | none => c

/-- A numeral without its margins, digits in their ASCII form. -/
def normalise (text : List Char) : List Char :=
  (Text.dropTrailing isMargin (text.dropWhile isMargin)).map plainDigit

/-- A leading sign, and what follows it. -/
def takeSign : List Char → Bool × List Char
  | '-' :: r => (true, r)
  | '+' :: r => (false, r)
  | r => (false, r)

/-- The letters that announce a base after a leading zero. -/
def baseLetters : Nat → List Char
  | 2 => ['b', 'B']
  | 8 => ['o', 'O']
  | 16 => ['x', 'X']
  | _ => []

/-- Drops the announcement of the base, together with one underscore after it. -/
def dropAnnouncement (base : Nat) : List Char → List Char
  | '0' :: c :: r =>
    if (baseLetters base).contains c then (if r.head? = some '_' then r.tail else r)
    else '0' :: c :: r
  | r => r

/-- The longest run of digits and underscores at the front, and what follows it. -/
def spanDigits (base : Nat) (cs : List Char) : List Char × List Char :=
  cs.span fun c => c = '_' || (Text.digit? base c).isSome

/-- Underscores in a run of digits stand alone and between digits. -/
def wellSpaced : List Char → Bool
  | [] => true
  | ['_'] => false
  | '_' :: '_' :: _ => false
  | _ :: r => wellSpaced r

/-- The number that a run of digits names, underscores left out. -/
def valueOf (base : Nat) (cs : List Char) : Nat :=
  (cs.filterMap (Text.digit? base)).foldl (fun n d => n * base + d) 0

/-- Reads an integer. A run of too many digits is refused before anything after it is looked at. -/
def readInteger (base : Nat) (text : List Char) : Except Error Int :=
  let (negative, unsigned) := takeSign (normalise text)
  let (run, rest) := spanDigits base (dropAnnouncement base unsigned)
  let count := (run.filter (· ≠ '_')).length
  if run.isEmpty || run.head? = some '_' || !wellSpaced run then .error (.notInteger base text)
  else if base = 10 ∧ count > digitLimit then .error (.tooManyDigits count)
  else if !rest.isEmpty then .error (.notInteger base text)
  else
    let n : Int := valueOf base run
    .ok (if negative then -n else n)

end Conform.Numeral
