import Conform.Json.Basic
import Conform.Numeral.Decimal

/-!
Reading JSON text. Besides the standard values, not-a-number and the two infinities are read by name.
A text that is not JSON is refused with the place where the first fault shows. Values may be nested
only so deep.
-/
namespace Conform.Json

/-- What is wrong at a place of the text. -/
inductive Complaint
  | value
  | name
  | colon
  | comma
  | unterminated
  | control
  | escape
  | codeEscape
  | extra
  | byteOrderMark
deriving DecidableEq, Repr

def Complaint.message : Complaint → String
  | .value => "Expecting value"
  | .name => "Expecting property name enclosed in double quotes"
  | .colon => "Expecting ':' delimiter"
  | .comma => "Expecting ',' delimiter"
  | .unterminated => "Unterminated string starting at"
  | .control => "Invalid control character at"
  | .escape => "Invalid \\escape"
  | .codeEscape => "Invalid \\uXXXX escape"
  | .extra => "Extra data"
  | .byteOrderMark => "Unexpected UTF-8 BOM (decode using utf-8-sig)"

/-- Why reading stops. A fault of the text is placed by the number of characters from it to the
end. -/
inductive Fault
  | malformed (complaint : Complaint) (left : Nat)
  | numeral (e : Numeral.Error)
  | tooNested
deriving DecidableEq, Repr

/-- A place in a text, counted in characters; only a line feed ends a line. -/
structure Place where
  line : Nat
  column : Nat
  index : Nat
deriving DecidableEq, Repr

def Place.at (text : List Char) (index : Nat) : Place :=
  let before := text.take index
  ⟨(before.filter (· = '\n')).length + 1, (before.reverse.takeWhile (· ≠ '\n')).length + 1, index⟩

def Place.message (p : Place) (complaint : Complaint) : String :=
  s!"{complaint.message}: line {p.line} column {p.column} (char {p.index})"

/-- A value that was read, and the text after it. -/
abbrev Reading (α : Type) := Except Fault (α × List Char)

def complain {α : Type} (complaint : Complaint) (rest : List Char) : Except Fault α :=
  .error (.malformed complaint rest.length)

def isSpace (c : Char) : Bool := c = ' ' || c = '\t' || c = '\n' || c = '\r'

def skipSpace (cs : List Char) : List Char := cs.dropWhile isSpace

/-- The text after `word`, if it starts with it. -/
def after? (word : String) (cs : List Char) : Option (List Char) :=
  if word.toList.isPrefixOf cs then some (cs.drop word.length) else none

/-- The character that an escape of one letter stands for. -/
def letter? : Char → Option Char
  | '\x22' => some '\x22'
  | '\\' => some '\\'
  | '/' => some '/'
  | 'b' => some '\x08'
  | 'f' => some '\x0c'
  | 'n' => some '\n'
  | 'r' => some '\r'
  | 't' => some '\t'
  | _ => none

/-- The number of four hexadecimal digits. -/
def unit? (a b c d : Char) : Option Nat := do
  let a ← Text.digit? 16 a
  let b ← Text.digit? 16 b
  let c ← Text.digit? 16 c
  let d ← Text.digit? 16 d
  return ((a * 16 + b) * 16 + c) * 16 + d

def isHighSurrogate (n : Nat) : Bool := 0xd800 ≤ n && n < 0xdc00

def isLowSurrogate (n : Nat) : Bool := 0xdc00 ≤ n && n < 0xe000

def joinSurrogates (high low : Nat) : Nat := 0x10000 + (high - 0xd800) * 0x400 + (low - 0xdc00)

/-- The character of a code unit; a surrogate on its own becomes the replacement character. -/
def unitChar (n : Nat) : Char := if n.isValidChar then Char.ofNat n else '\ufffd'

def prepend (c : Char) : Reading (List Char) → Reading (List Char) :=
  Except.map fun r => (c :: r.1, r.2)

/-- The rest of a text whose opening mark is `start` characters before the end, up to its closing
mark. The four digits of an escape are read only if more text follows them. -/
def readText (start : Nat) : List Char → Reading (List Char)
  | [] => .error (.malformed .unterminated start)
  | '\x22' :: r => .ok ([], r)
  | ['\\'] => .error (.malformed .unterminated start)
  | '\\' :: 'u' :: a :: b :: c :: d :: e :: r =>
    match unit? a b c d with
    | none => complain .codeEscape ('u' :: a :: b :: c :: d :: e :: r)
    | some n =>
      let single := fun (_ : Unit) => prepend (unitChar n) (readText start (e :: r))
      if isHighSurrogate n then
        match e, r with
        | '\\', 'u' :: a' :: b' :: c' :: d' :: e' :: r' =>
          match unit? a' b' c' d' with
          | none => complain .codeEscape r
          | some m =>
            if isLowSurrogate m then
              prepend (Char.ofNat (joinSurrogates n m)) (readText start (e' :: r'))
            else single ()
        | _, _ => single ()
      else single ()
  | '\\' :: 'u' :: r => complain .codeEscape ('u' :: r)
  | '\\' :: c :: r =>
    match letter? c with
    | some l => prepend l (readText start r)
    | none => complain .escape ('\\' :: c :: r)
  | c :: r =>
    if c.toNat < 0x20 then complain .control (c :: r) else prepend c (readText start r)

/-- A text whose opening mark has been read. -/
def readString (cs : List Char) : Reading String :=
  (readText (cs.length + 1) cs).map fun r => (String.ofList r.1, r.2)

def spanDigits (cs : List Char) : List Char × List Char := cs.span Char.isDigit

/-- The digits before the point, with their sign: no zero leads other digits. -/
def whole? (cs : List Char) : Option (List Char × List Char) :=
  let (sign, r) := match cs with
    | '-' :: r => (['-'], r)
    | r => ([], r)
  match r with
  | '0' :: r => some (sign ++ ['0'], r)
  | r =>
    let (ds, r) := spanDigits r
    if ds.isEmpty then none else some (sign ++ ds, r)

/-- A point with digits after it, if they come next. -/
def fraction (cs : List Char) : List Char × List Char :=
  match cs with
  | '.' :: r =>
    let (ds, r) := spanDigits r
    if ds.isEmpty then ([], cs) else ('.' :: ds, r)
  | _ => ([], cs)

/-- An exponent with digits, if it comes next. -/
def exponent (cs : List Char) : List Char × List Char :=
  match cs with
  | c :: r =>
    if c = 'e' || c = 'E' then
      let (sign, r) := match r with
        | '-' :: r => (['-'], r)
        | '+' :: r => (['+'], r)
        | r => ([], r)
      let (ds, r) := spanDigits r
      if ds.isEmpty then ([], cs) else (c :: sign ++ ds, r)
    else ([], cs)
  | [] => ([], [])

/-- A number with a point or an exponent is a decimal one, any other a whole one. -/
def readNumber (cs : List Char) : Reading Json :=
  match whole? cs with
  | none => complain .value cs
  | some (ds, r) =>
    let (point, r) := fraction r
    let (power, r) := exponent r
    if point.isEmpty && power.isEmpty then
      match Numeral.readInteger 10 ds with
      | .ok n => .ok (.int n, r)
      | .error e => .error (.numeral e)
    else
      match Numeral.readDecimal (ds ++ point ++ power) with
      | .ok x => .ok (.float x, r)
      | .error e => .error (.numeral e)

/-- The values that are read by name. -/
def namedValues : List (String × Json) :=
  [("null", .null), ("true", .bool true), ("false", .bool false), ("NaN", .float .nan),
    ("Infinity", .float (.infinite false)), ("-Infinity", .float (.infinite true))]

/-- A value that is neither a text nor a collection. -/
def readPlain (cs : List Char) : Reading Json :=
  match namedValues.findSome? fun v => (after? v.1 cs).map fun r => (v.2, r) with
  | some r => .ok r
  | none => readNumber cs

/-! Of two calls inside one another at least one reads a character, so twice as much `fuel` as there
are characters suffices. `room` is the number of collections that may still be opened inside one
another. -/

mutual

def readValue : Nat → Nat → List Char → Reading Json
  | 0, _, cs => complain .value cs
  | fuel + 1, room, cs =>
    match cs with
    | '\x22' :: r => (readString r).map fun t => (.str t.1, t.2)
    | '[' :: r =>
      match room with
      | 0 => .error .tooNested
      | room + 1 =>
        match skipSpace r with
        | ']' :: r => .ok (.array [], r)
        | r => (readItems fuel room r).map fun t => (.array t.1, t.2)
    | '\x7b' :: r =>
      match room with
      | 0 => .error .tooNested
      | room + 1 =>
        match skipSpace r with
        | '\x7d' :: r => .ok (.object [], r)
        | r => (readFields fuel room r).map fun t => (.object t.1, t.2)
    | cs => readPlain cs

/-- The items of an array from the next one on, and its closing bracket. -/
def readItems : Nat → Nat → List Char → Reading (List Json)
  | 0, _, cs => complain .value cs
  | fuel + 1, room, cs =>
    match readValue fuel room cs with
    | .error e => .error e
    | .ok (x, r) =>
      match skipSpace r with
      | ']' :: r => .ok ([x], r)
      | ',' :: r => (readItems fuel room (skipSpace r)).map fun t => (x :: t.1, t.2)
      | r => complain .comma r

/-- The fields of an object from the next one on, and its closing brace. -/
def readFields : Nat → Nat → List Char → Reading (List (String × Json))
  | 0, _, cs => complain .name cs
  | fuel + 1, room, cs =>
    match cs with
    | '\x22' :: r =>
      match readString r with
      | .error e => .error e
      | .ok (name, r) =>
        match skipSpace r with
        | ':' :: r =>
          match readValue fuel room (skipSpace r) with
          | .error e => .error e
          | .ok (x, r) =>
            match skipSpace r with
            | '\x7d' :: r => .ok ([(name, x)], r)
            | ',' :: r => (readFields fuel room (skipSpace r)).map fun t => ((name, x) :: t.1, t.2)
            | r => complain .comma r
        | r => complain .colon r
    | cs => complain .name cs

end

/-- The collections that may be open inside one another. -/
def nestingLimit : Nat := 990

/-- Reads a text that is one value with blanks around it. -/
def readChars (cs : List Char) : Except Fault Json :=
  if cs.head? = some '\ufeff' then complain .byteOrderMark cs
  else
    match readValue (2 * cs.length + 2) nestingLimit (skipSpace cs) with
    | .error e => .error e
    | .ok (j, r) =>
      match skipSpace r with
      | [] => .ok j
      | r => complain .extra r

end Conform.Json
