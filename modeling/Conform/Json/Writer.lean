import Conform.Json.Basic
import Conform.Numeral.Shortest

/-!
JSON text. Arrays and objects that hold something are written over several lines, indented by two
blanks a level. A style says which characters of a text stand for themselves; the others are escaped.
-/
namespace Conform.Json

/-- Which characters of a text are written as they are. The quotation mark and the backslash are
escaped in every style. -/
structure Style where
  verbatim : Char → Bool

namespace Style

/-- Everything but control characters is written as it is. -/
def unicode : Style := ⟨fun c => 0x20 ≤ c.toNat⟩

/-- The text is printable ASCII throughout. -/
def ascii : Style := ⟨fun c => 0x20 ≤ c.toNat && c.toNat ≤ 0x7e⟩

end Style

def unitEscape (n : Nat) : List Char := '\\' :: 'u' :: Text.digitsOf 16 4 n

/-- The escape of a code point by its number, as a pair of surrogates above the sixteen-bit ones. -/
def codeEscape (n : Nat) : List Char :=
  if n < 0x10000 then unitEscape n
  else
    let m := n - 0x10000
    unitEscape (0xd800 + m / 0x400) ++ unitEscape (0xdc00 + m % 0x400)

/-- The characters with an escape of one letter, and the letter. -/
def letterEscapes : List (Char × Char) :=
  [('\x22', '\x22'), ('\\', '\\'), ('\x08', 'b'), ('\x0c', 'f'), ('\n', 'n'), ('\r', 'r'), ('\t', 't')]

def writeChar (style : Style) (c : Char) : List Char :=
  match letterEscapes.lookup c with
  | some letter => ['\\', letter]
  | none => if style.verbatim c then [c] else codeEscape c.toNat

def writeText (style : Style) (s : String) : List Char :=
  '\x22' :: s.toList.flatMap (writeChar style) ++ ['\x22']

/-- Decimal numbers in JSON text. -/
def numberLayout : Numeral.DecimalLayout :=
  { Numeral.plainLayout with nan := "NaN", infinity := "Infinity" }

def newline (level : Nat) : List Char := '\n' :: List.replicate (2 * level) ' '

/-- Written items between brackets, one a line. -/
def block (level : Nat) (opening closing : Char) (items : List (List Char)) : List Char :=
  if items.isEmpty then [opening, closing]
  else
    opening :: newline (level + 1) ++ List.intercalate (',' :: newline (level + 1)) items
      ++ newline level ++ [closing]

mutual

/-- The text of a value that stands `level` levels deep. -/
def chars (style : Style) (level : Nat) : Json → List Char
  | .null => "null".toList
  | .bool b => (if b then "true" else "false").toList
  | .int n => (toString n).toList
  | .float x => (numberLayout.text x).toList
  | .str s => writeText style s
  | .array xs => block level '[' ']' (itemChars style (level + 1) xs)
  | .object fields => block level '\x7b' '\x7d' (fieldChars style (level + 1) fields)

def itemChars (style : Style) (level : Nat) : List Json → List (List Char)
  | [] => []
  | x :: xs => chars style level x :: itemChars style level xs

def fieldChars (style : Style) (level : Nat) : List (String × Json) → List (List Char)
  | [] => []
  | (name, x) :: fields =>
    (writeText style name ++ ':' :: ' ' :: chars style level x) :: fieldChars style level fields

end

def write (style : Style) (j : Json) : String := String.ofList (chars style 0 j)

end Conform.Json
