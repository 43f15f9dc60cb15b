import Conform.Calendar
import Conform.Numeral.Error

/-!
Why a YAML text has no document.
-/
namespace Conform.Yaml

/-- A scalar of a known type whose text does not denote a value of the type, or a number or an escape in
the text that denotes nothing. -/
inductive ScalarError
  | numeral (e : Numeral.Error)
  | calendar (e : Calendar.Error)
  | noBoolean (text : List Char)
  | noTimestamp
  /-- A timestamp is read from a scalar, never from the entry that stands for a mapping. -/
  | timestampOfMapping
  /-- An escape with a number that no character has. -/
  | noCharacter (code : Nat)
deriving DecidableEq, Repr

inductive Fault
  /-- The text breaks the rules of the format. -/
  | malformed
  | scalar (e : ScalarError)
  | tooNested
deriving DecidableEq, Repr

def ScalarError.message : ScalarError → String
  | .numeral e => e.message
  | .calendar e => e.message
  | .noBoolean text => String.ofList (Text.quotedChars text)
  | .noTimestamp => "'NoneType' object has no attribute 'groupdict'"
  | .timestampOfMapping => "expected string or bytes-like object, got 'list'"
  | .noCharacter code =>
    if code < 0x80000000 then "chr() arg not in range(0x110000)"
    else "Python int too large to convert to C int"

end Conform.Yaml
