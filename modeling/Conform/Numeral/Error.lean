import Conform.Text.Quoted

/-!
Why a numeral is refused.
-/
namespace Conform.Numeral

inductive Error
  /-- The text is no integer in the base. -/
  | notInteger (base : Nat) (text : List Char)
  /-- The text is no decimal number. -/
  | notDecimal (text : List Char)
  /-- Decimal integers are read only up to `digitLimit` digits. -/
  | tooManyDigits (count : Nat)
  /-- A numeral has at least one character after its sign. -/
  | empty
  /-- A term exceeds the largest double-precision number. -/
  | overflow
deriving DecidableEq, Repr

/-- The most digits a decimal integer may have. -/
def digitLimit : Nat := 4300

/-- The most characters of a refused integer that a message shows, quotation marks included. -/
def shownLimit : Nat := 200

def Error.message : Error → String
  | .notInteger base text =>
    s!"invalid literal for int() with base {base}: "
      ++ String.ofList ((Text.quotedChars text).take shownLimit)
  | .notDecimal text =>
    "could not convert string to float: " ++ String.ofList (Text.quotedChars text)
  | .tooManyDigits count =>
    s!"Exceeds the limit ({digitLimit} digits) for integer string conversion: value has {count} digits; "
      ++ "use sys.set_int_max_str_digits() to increase the limit"
  | .empty => "string index out of range"
  | .overflow => "int too large to convert to float"

end Conform.Numeral
