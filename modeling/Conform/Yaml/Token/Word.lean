import Conform.Text.Utf8
import Conform.Yaml.Lexer
import Conform.Yaml.Token

/-!
The tokens that are a word after a mark: aliases, anchors, tags and directives.
-/
namespace Conform.Yaml.Token

open Lexer

/-- What may follow the name of an anchor or an alias. -/
def endsName (c : Cursor) : Bool :=
  c.atWordEnd || c.peek.any fun x => "?:,]\x7d%@\x60".toList.contains x

/-- The name after the mark of an anchor or an alias. -/
def lexName : Lexer (List Char) := do
  skip 1
  let name ← span1 isWordChar
  require endsName
  return name

def isUriChar (c : Char) : Bool := c.isAlphanum || "-;/?:@&=+$,_.!~*'()[]%".toList.contains c

/-- A run of percent escapes. Each takes three characters, so `fuel` of the number of characters
suffices. -/
def lexEscapes : Nat → Lexer (List UInt8)
  | 0 => pure []
  | fuel + 1 => do
    match (← get).rest with
    | '%' :: a :: b :: _ =>
      match Text.digit? 16 a, Text.digit? 16 b with
      | some x, some y =>
        skip 3
        return UInt8.ofNat (x * 16 + y) :: (← lexEscapes fuel)
      | _, _ => malformed
    | '%' :: _ => malformed
    | _ => pure []

/-- The characters of a tag. A run of percent escapes is text in UTF-8. -/
def lexUriPieces : Nat → Lexer (List Char)
  | 0 => pure []
  | fuel + 1 => do
    if (← get).peek = some '%' then
      match Text.Utf8.decode (← lexEscapes (← get).rest.length) with
      | .error _ => malformed
      | .ok piece => return piece ++ (← lexUriPieces fuel)
    else
      let piece ← span fun x => isUriChar x && x ≠ '%'
      if piece.isEmpty then return [] else return piece ++ (← lexUriPieces fuel)

def lexUri : Lexer (List Char) := do
  require fun c => c.peek.any isUriChar
  lexUriPieces ((← get).rest.length + 1)

/-- A handle: an exclamation mark alone before a space, or two around a word. -/
def lexHandle : Lexer (List Char) := do
  expect '!'
  if (← get).peek = some ' ' then return ['!']
  else
    let word ← span isWordChar
    expect '!'
    return '!' :: word ++ ['!']

/-- Whether an exclamation mark comes before the word ends. -/
def hasHandle (c : Cursor) : Bool :=
  (c.rest.takeWhile fun x => !(x = ' ' || isBreak x)).contains '!'

/-- The tag at an exclamation mark. -/
def lexTag : Lexer WrittenTag := do
  let c ← get
  let tag ← do
    if c.peekSecond = some '<' then
      skip 2
      let uri ← lexUri
      expect '>'
      pure ⟨none, uri⟩
    else if c.next.atWordEnd then
      skip 1
      pure ⟨none, ['!']⟩
    else
      let handle ← if hasHandle c.next then lexHandle else do
        skip 1
        pure ['!']
      pure ⟨some handle, ← lexUri⟩
  require Cursor.atFieldEnd
  return tag

/-- A number of a version. As every decimal integer, it is read only up to so many digits. -/
def lexNumber : Lexer Nat := do
  let digits ← span1 Char.isDigit
  if digits.length > Numeral.digitLimit then
    throw (.scalar (.numeral (.tooManyDigits digits.length)))
  return digits.foldl (fun n d => n * 10 + (d.toNat - 0x30)) 0

/-- The version after the name of its directive; only the major number matters. -/
def lexVersion : Lexer Token := do
  skipSpaces
  let major ← lexNumber
  expect '.'
  let _ ← lexNumber
  require Cursor.atFieldEnd
  return .versionDirective major

/-- A handle and its meaning after the name of their directive. -/
def lexMeaning : Lexer Token := do
  skipSpaces
  let handle ← lexHandle
  require fun c => c.peek = some ' '
  skipSpaces
  let meaning ← lexUri
  require Cursor.atFieldEnd
  return .tagDirective handle meaning

/-- The directive at a percent sign. -/
def lexDirective : Lexer Token := do
  skip 1
  let name ← span1 isWordChar
  require Cursor.atFieldEnd
  let token ←
    if name = "YAML".toList then lexVersion
    else if name = "TAG".toList then lexMeaning
    else do
      let _ ← span fun x => !isBreak x
      pure .otherDirective
  skipLineRest
  return token

end Conform.Yaml.Token
