import Conform.Numeral.Integer
import Conform.Yaml.Cursor

/-!
Tags: the types of nodes. A plain scalar without a tag has the type that its text looks like.
-/
namespace Conform.Yaml

/-- The types that have values, the two that only keys of mappings have, and all others. -/
inductive Tag
  | null
  | bool
  | int
  | float
  | binary
  | timestamp
  | str
  | sequence
  | mapping
  | set
  /-- Pairs in order, with or without repeated keys. -/
  | pairs
  /-- The key of entries that are merged into a mapping. -/
  | merge
  /-- The key of the entry that stands for a whole mapping. -/
  | value
  | unknown
deriving DecidableEq, Repr

namespace Tag

/-- The beginning of the tags that every text shares. -/
def sharedStem : List Char := "tag:yaml.org,2002:".toList

def sharedNames : List (String × Tag) :=
  [("null", .null), ("bool", .bool), ("int", .int), ("float", .float), ("binary", .binary),
    ("timestamp", .timestamp), ("str", .str), ("seq", .sequence), ("map", .mapping), ("set", .set),
    ("omap", .pairs), ("pairs", .pairs), ("merge", .merge), ("value", .value)]

/-- The type that a full tag names. -/
def ofText (text : List Char) : Tag :=
  if sharedStem.isPrefixOf text then
    (sharedNames.lookup (String.ofList (text.drop sharedStem.length))).getD .unknown
  else .unknown

end Tag

namespace Implied

def isAny (words : List String) (text : List Char) : Bool := words.contains (String.ofList text)

def isBoolean : List Char → Bool :=
  isAny ["yes", "Yes", "YES", "no", "No", "NO", "true", "True", "TRUE", "false", "False", "FALSE",
    "on", "On", "ON", "off", "Off", "OFF"]

def isNull : List Char → Bool := isAny ["~", "null", "Null", "NULL", ""]

/-- Marks that have a tag of their own when they stand alone. -/
def isMark : List Char → Bool := isAny ["!", "&", "*"]

def isDigitOrLine (c : Char) : Bool := c.isDigit || c = '_'

/-- Drops colons with a number below sixty after each. -/
def dropSixties : List Char → List Char
  | ':' :: a :: b :: r =>
    if a.isDigit && a < '6' && b.isDigit then dropSixties r
    else if a.isDigit then dropSixties (b :: r)
    else ':' :: a :: b :: r
  | [':', a] => if a.isDigit then [] else [':', a]
  | r => r

def isRun (p : Char → Bool) (cs : List Char) : Bool := !cs.isEmpty && cs.all p

def isOctalDigit (c : Char) : Bool := '0' ≤ c && c ≤ '7'

def isInteger (text : List Char) : Bool :=
  match (Numeral.takeSign text).2 with
  | '0' :: 'b' :: r => isRun (fun c => c = '0' || c = '1' || c = '_') r
  | '0' :: 'x' :: r => isRun (fun c => c = '_' || (Text.digit? 16 c).isSome) r
  | '0' :: r => r.all fun c => c = '_' || isOctalDigit c
  | c :: r => c.isDigit && (dropSixties (r.dropWhile isDigitOrLine)).isEmpty
  | [] => false

/-- Whether the text is empty or an exponent, which has a sign. -/
def isExponent : List Char → Bool
  | [] => true
  | e :: sign :: r => (e = 'e' || e = 'E') && (sign = '+' || sign = '-') && isRun Char.isDigit r
  | _ => false

def isFloat (text : List Char) : Bool :=
  let (unsigned, isSigned) :=
    match text with
    | '+' :: r => (r, true)
    | '-' :: r => (r, true)
    | r => (r, false)
  match unsigned with
  | '.' :: r =>
    isAny ["inf", "Inf", "INF"] r || (!isSigned && (isAny ["nan", "NaN", "NAN"] r
      || (r.head?.any Char.isDigit && isExponent (r.dropWhile isDigitOrLine))))
  | c :: r =>
    c.isDigit &&
      match r.dropWhile isDigitOrLine with
      | '.' :: f => isExponent (f.dropWhile isDigitOrLine)
      | f =>
        match dropSixties f with
        | '.' :: f' => f'.all isDigitOrLine
        | _ => false
  | [] => false

end Implied

/-- A timestamp as written. -/
structure WrittenTimestamp where
  year : Nat
  month : Nat
  day : Nat
  /-- Whether month and day have two digits each. -/
  isPadded : Bool
  time : Option (Nat × Nat × Nat × List Char)
  /-- Seconds east of universal time. -/
  offset : Option Int
deriving DecidableEq, Repr

namespace WrittenTimestamp

def number (ds : List Char) : Nat := Numeral.valueOf 10 ds

/-- A number of `least` to `most` digits at the front, and what follows it. -/
def takeNumber? (least most : Nat) (cs : List Char) : Option (List Char × List Char) :=
  let ds := (cs.take most).takeWhile Char.isDigit
  if ds.length < least then none else some (ds, cs.drop ds.length)

/-- As `takeNumber?`, after the character `x`. -/
def takeNumberAfter? (x : Char) (least most : Nat) : List Char → Option (List Char × List Char)
  | c :: r => if c = x then takeNumber? least most r else none
  | [] => none

/-- The offset at the end: none, or, perhaps after blanks, the letter of universal time or a sign with
hours and perhaps minutes. -/
def readOffset? (cs : List Char) : Option (Option Int) :=
  match cs.dropWhile isGap with
  | [] => if cs.isEmpty then some none else none
  | ['Z'] => some (some 0)
  | sign :: r =>
    if sign = '+' || sign = '-' then do
      let (hours, r) ← takeNumber? 1 2 r
      let (minutes, r) ← if r.isEmpty then some ([], []) else takeNumberAfter? ':' 2 2 r
      if !r.isEmpty then none
      let seconds : Int := number hours * 3600 + number minutes * 60
      return some (if sign = '-' then -seconds else seconds)
    else none

/-- The fraction of a second after its point, and what follows it. -/
def takeFraction : List Char → List Char × List Char
  | '.' :: r => r.span Char.isDigit
  | r => ([], r)

/-- What separates the time from the date: the letter `t` or blanks. -/
def dropSeparator? : List Char → Option (List Char)
  | 't' :: r => some r
  | 'T' :: r => some r
  | c :: r => if isGap c then some (r.dropWhile isGap) else none
  | [] => none

/-- Reads a date, and perhaps a time with a fraction and an offset. -/
def read? (text : List Char) : Option WrittenTimestamp := do
  let (year, r) ← takeNumber? 4 4 text
  let (month, r) ← takeNumberAfter? '-' 1 2 r
  let (day, r) ← takeNumberAfter? '-' 1 2 r
  let isPadded := month.length = 2 && day.length = 2
  if r.isEmpty then
    return ⟨number year, number month, number day, isPadded, none, none⟩
  let (hour, r) ← takeNumber? 1 2 (← dropSeparator? r)
  let (minute, r) ← takeNumberAfter? ':' 2 2 r
  let (second, r) ← takeNumberAfter? ':' 2 2 r
  let (fraction, r) := takeFraction r
  let offset ← readOffset? r
  return ⟨number year, number month, number day, isPadded,
    some (number hour, number minute, number second, fraction), offset⟩

end WrittenTimestamp

/-- Timestamps without a time need two digits for month and day, so as not to be taken for other
text. -/
def Implied.isTimestamp (text : List Char) : Bool :=
  (WrittenTimestamp.read? text).any fun t => t.time.isSome || t.isPadded

/-- The text without a line feed at its end. -/
def dropLastBreak (text : List Char) : List Char :=
  if text.getLast? = some '\n' then text.dropLast else text

/-- The type that a scalar looks like. A line feed at the end does not matter, except after nothing. -/
def Tag.implied (text : List Char) : Tag :=
  let line := dropLastBreak text
  if Implied.isBoolean line then .bool
  else if Implied.isFloat line then .float
  else if Implied.isInteger line then .int
  else if Implied.isAny ["<<"] line then .merge
  else if Implied.isNull line && text ≠ ['\n'] then .null
  else if Implied.isTimestamp line then .timestamp
  else if Implied.isAny ["="] line then .value
  else if Implied.isMark line then .unknown
  else .str

end Conform.Yaml
