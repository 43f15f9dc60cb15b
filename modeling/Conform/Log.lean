import Conform.Text.Blank

/-!
Log records and where they go. A record below the least level is dropped. Of the others those of a
certain level or above go to the error stream and the rest to the output stream, as long as they are
not below the level of debugging.
-/
namespace Conform.Log

def debugLevel : Int := 10
def infoLevel : Int := 20
def warningLevel : Int := 30
def errorLevel : Int := 40

/-- The names under which a level is asked for. The first name of a level is also the one shown. -/
def levels : List (String × Int) :=
  [("CRITICAL", 50), ("FATAL", 50), ("ERROR", errorLevel), ("WARNING", warningLevel),
    ("WARN", warningLevel), ("INFO", infoLevel), ("DEBUG", debugLevel), ("NOTSET", 0)]

def levelName (n : Int) : String :=
  ((levels.find? fun l => l.2 = n).map Prod.fst).getD s!"Level {n}"

/-- The capital of a letter that has one in ASCII: besides the small letters of ASCII, the dotless i
and the long s. -/
def capital (c : Char) : Char :=
  if c = '\u0131' then 'I' else if c = '\u017f' then 'S' else c.toUpper

/-- The level of a name in letters of either case, with blanks around it; `default` if it names
none. -/
def levelOr (default : Int) (name : String) : Int :=
  (levels.lookup (String.ofList ((Text.trim name.toList).map capital))).getD default

structure Record where
  logger : String
  level : Int
  message : String
deriving DecidableEq, Repr

/-- A part of a log line. -/
inductive Field
  | literal (c : Char)
  | logger
  | level
  | message
deriving DecidableEq, Repr

/-- The parts of a log line, in order. -/
abbrev LineFormat := List Field

namespace LineFormat

/-- Reads a format in which a percent sign and a name in parentheses stand for a field. -/
def ofChars : Nat → List Char → LineFormat
  | 0, _ => []
  | _, [] => []
  | fuel + 1, c :: r =>
    if "%(name)s".toList.isPrefixOf (c :: r) then .logger :: ofChars fuel (r.drop 7)
    else if "%(levelname)s".toList.isPrefixOf (c :: r) then .level :: ofChars fuel (r.drop 12)
    else if "%(message)s".toList.isPrefixOf (c :: r) then .message :: ofChars fuel (r.drop 10)
    else if c = '%' && r.head? = some '%' then .literal '%' :: ofChars fuel r.tail
    else .literal c :: ofChars fuel r

def ofText (text : String) : LineFormat := ofChars text.length text.toList

/-- Logger, level and message between hyphens. -/
def standard : LineFormat :=
  .logger :: " - ".toList.map .literal ++ .level :: " - ".toList.map .literal ++ [.message]

end LineFormat

def Field.text (r : Record) : Field → String
  | .literal c => c.toString
  | .logger => r.logger
  | .level => levelName r.level
  | .message => r.message

def Record.line (format : LineFormat) (r : Record) : String :=
  String.join (format.map (Field.text r)) ++ "\n"

inductive Stream
  | output
  | error
deriving DecidableEq, Repr

/-- The division of records between the two streams. -/
structure Division where
  /-- Records below this level are dropped. -/
  least : Int
  /-- Records of this level or above go to the error stream. -/
  errors : Int
deriving DecidableEq, Repr

namespace Division

/-- The error stream takes nothing below the level of debugging. -/
def make (least errors : Int) : Division := ⟨least, max errors debugLevel⟩

/-- A least level of zero drops nothing. -/
def keeps (d : Division) (r : Record) : Bool := d.least = 0 || d.least ≤ r.level

/-- The stream that a record goes to, if it goes to one. -/
def stream? (d : Division) (r : Record) : Option Stream :=
  if !d.keeps r || r.level < debugLevel then none
  else if d.errors ≤ r.level then some .error
  else some .output

/-- What the records leave in a stream. -/
def written (d : Division) (format : LineFormat) (s : Stream) (rs : List Record) : String :=
  String.join ((rs.filter fun r => d.stream? r = some s).map (Record.line format))

end Division
end Conform.Log
