import Conform.Text.Digit
import Conform.Text.Printable

/-!
Quoted text: how a string or a run of bytes is shown inside a message. The mark is an apostrophe
unless the text holds an apostrophe and no double quote. The mark, the backslash and every
character that is not printable are escaped, so the quoted form stays on one line.
-/
namespace Conform.Text

/-- The mark that needs no escape, or the apostrophe if both marks occur. -/
def quoteMark (cs : List Char) : Char :=
  if cs.contains '\x27' && !cs.contains '\x22' then '\x22' else '\x27'

/-- A hexadecimal escape of the shortest of the three forms that holds the code point. -/
def codeEscape (n : Nat) : List Char :=
  if n < 0x100 then '\\' :: 'x' :: digitsOf 16 2 n
  else if n < 0x10000 then '\\' :: 'u' :: digitsOf 16 4 n
  else '\\' :: 'U' :: digitsOf 16 8 n

/-- The escapes that quoted text and quoted bytes share. -/
def shortEscape? (mark c : Char) : Option (List Char) :=
  if c = mark || c = '\\' then some ['\\', c]
  else if c = '\n' then some ['\\', 'n']
  else if c = '\r' then some ['\\', 'r']
  else if c = '\t' then some ['\\', 't']
  else none

def quoteChar (mark c : Char) : List Char :=
  (shortEscape? mark c).getD (if isPrintable c then [c] else codeEscape c.toNat)

def quoteByte (mark : Char) (b : UInt8) : List Char :=
  (shortEscape? mark (Char.ofNat b.toNat)).getD
    (if 0x20 ≤ b && b < 0x7f then [Char.ofNat b.toNat] else codeEscape b.toNat)

def quotedChars (cs : List Char) : List Char :=
  let mark := quoteMark cs
  mark :: cs.flatMap (quoteChar mark) ++ [mark]

def quoted (s : String) : String := String.ofList (quotedChars s.toList)

/-- Bytes are quoted as text after a `b`, with everything outside printable ASCII escaped. -/
def quotedBytes (bs : List UInt8) : String :=
  let mark := quoteMark (bs.map fun b => Char.ofNat b.toNat)
  String.ofList ('b' :: mark :: bs.flatMap (quoteByte mark) ++ [mark])

end Conform.Text
