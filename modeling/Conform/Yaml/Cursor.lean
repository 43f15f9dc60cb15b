/-!
A cursor in a text: what is left of the text, and where it starts. Line feeds, carriage returns, next
lines and the two Unicode separators end a line; a carriage return and a line feed after it end it
together. A byte order mark takes up no column.
-/
namespace Conform.Yaml

/-- The characters that a text may hold. -/
def isAllowed (c : Char) : Bool :=
  let n := c.toNat
  n = 0x09 || n = 0x0a || n = 0x0d || (0x20 ≤ n && n ≤ 0x7e) || n = 0x85
    || (0xa0 ≤ n && n ≤ 0xd7ff) || (0xe000 ≤ n && n ≤ 0xfffd) || 0x10000 ≤ n

def isBreak (c : Char) : Bool :=
  c = '\r' || c = '\n' || c = '\u0085' || c = '\u2028' || c = '\u2029'

def isGap (c : Char) : Bool := c = ' ' || c = '\t'

/-- Letters, digits, hyphens and underscores of ASCII. -/
def isWordChar (c : Char) : Bool := c.isAlphanum || c = '-' || c = '_'

structure Cursor where
  rest : List Char
  index : Nat
  line : Nat
  column : Nat
deriving Repr

namespace Cursor

def start (text : List Char) : Cursor := ⟨text, 0, 0, 0⟩

/-- The next character, if there is one. -/
def peek (c : Cursor) : Option Char := c.rest.head?

/-- The character after the next. -/
def peekSecond (c : Cursor) : Option Char := c.rest.tail.head?

/-- One character further. -/
def next (c : Cursor) : Cursor :=
  match c.rest with
  | [] => c
  | x :: r =>
    if isBreak x && !(x = '\r' && r.head? = some '\n') then ⟨r, c.index + 1, c.line + 1, 0⟩
    else ⟨r, c.index + 1, c.line, if x = '\ufeff' then c.column else c.column + 1⟩

def skip (c : Cursor) : Nat → Cursor
  | 0 => c
  | n + 1 => c.next.skip n

/-- The longest run of characters of class `p`, and the cursor after it. -/
def span (p : Char → Bool) (c : Cursor) : List Char × Cursor :=
  let run := c.rest.takeWhile p
  (run, c.skip run.length)

def dropWhile (p : Char → Bool) (c : Cursor) : Cursor := (c.span p).2

def skipSpaces (c : Cursor) : Cursor := c.dropWhile (· = ' ')

/-- Drops a comment that starts here. -/
def skipComment (c : Cursor) : Cursor :=
  if c.peek = some '#' then c.dropWhile fun x => !isBreak x else c

/-- A line break that comes next: a separator stands for itself, any other break for a line feed. -/
def takeBreak? (c : Cursor) : Option (Char × Cursor) :=
  match c.rest with
  | '\r' :: '\n' :: _ => some ('\n', c.skip 2)
  | x :: _ =>
    if isBreak x then some (if x = '\u2028' || x = '\u2029' then x else '\n', c.next) else none
  | [] => none

def skipBreak (c : Cursor) : Cursor := (c.takeBreak?.map Prod.snd).getD c

/-- Whether the text ends here, or a line does. -/
def atLineEnd (c : Cursor) : Bool := c.peek.all isBreak

/-- Whether nothing of a word can follow here: the end, a blank or a line break. -/
def atWordEnd (c : Cursor) : Bool := c.peek.all fun x => isGap x || isBreak x

/-- As `atWordEnd`, where a tab still belongs to a word. -/
def atFieldEnd (c : Cursor) : Bool := c.peek.all fun x => x = ' ' || isBreak x

/-- Whether three marks that separate documents come next: hyphens or full stops. -/
def atMarks (mark : Char) (c : Cursor) : Bool :=
  c.rest.take 3 = [mark, mark, mark] && (c.skip 3).atWordEnd

def atSeparator (c : Cursor) : Bool := c.atMarks '-' || c.atMarks '.'

end Cursor
end Conform.Yaml
