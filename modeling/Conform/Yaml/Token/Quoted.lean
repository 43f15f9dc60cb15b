import Conform.Text.Digit
import Conform.Yaml.Lexer

/-!
Scalars in quotation marks. A line break inside is folded: a single one becomes a space, and of
several the first is dropped. Between double marks a backslash escapes a character or a line break;
between single marks two marks stand for one.
-/
namespace Conform.Yaml.Token

open Lexer

/-- The escapes of one character between double marks. -/
def escapes : List (Char × Char) :=
  [('0', '\x00'), ('a', '\x07'), ('b', '\x08'), ('t', '\t'), ('\t', '\t'), ('n', '\n'), ('v', '\x0b'),
    ('f', '\x0c'), ('r', '\r'), ('e', '\x1b'), (' ', ' '), ('\x22', '\x22'), ('\\', '\\'), ('/', '/'),
    ('N', '\u0085'), ('_', '\u00a0'), ('L', '\u2028'), ('P', '\u2029')]

/-- The escapes by number, and how many hexadecimal digits they take. -/
def codeEscapes : List (Char × Nat) := [('x', 2), ('u', 4), ('U', 8)]

/-- The character of a number; a surrogate becomes the replacement character. -/
def lexCode (width : Nat) : Lexer Char := do
  let ds := (← get).rest.take width
  let values := ds.filterMap (Text.digit? 16)
  if values.length < width then malformed
  else
    skip width
    let n := values.foldl (fun n d => n * 16 + d) 0
    if n > 0x10ffff then throw (.scalar (.noCharacter n))
    else return if n.isValidChar then Char.ofNat n else '\ufffd'

/-- Line breaks with the blanks before each. A line must not look like a document separator. -/
def lexFoldedBreaks : Nat → Lexer (List Char)
  | 0 => pure []
  | fuel + 1 => do
    require fun c => !c.atSeparator
    modify (·.dropWhile isGap)
    match (← get).takeBreak? with
    | some (b, c) =>
      set c
      return b :: (← lexFoldedBreaks fuel)
    | none => return []

/-- The characters that stand for a line break, given the break and those that follow it. -/
def fold (first : Char) (more : List Char) : List Char :=
  if first ≠ '\n' then first :: more else if more.isEmpty then [' '] else more

/-- Blanks, which stand for themselves unless they end a line. -/
def lexQuotedGap : Lexer (List Char) := do
  let gap ← span isGap
  let c ← get
  match c.takeBreak? with
  | some (b, c) =>
    set c
    return fold b (← lexFoldedBreaks (c.rest.length + 1))
  | none => if c.rest.isEmpty then malformed else return gap

/-- What a backslash between double marks stands for. -/
def lexEscape : Lexer (List Char) := do
  skip 1
  let c ← get
  match c.peek with
  | none => malformed
  | some x =>
    match escapes.lookup x, codeEscapes.lookup x with
    | some y, _ =>
      skip 1
      return [y]
    | none, some width =>
      skip 1
      return [← lexCode width]
    | none, none =>
      match c.takeBreak? with
      | some (_, c) =>
        set c
        lexFoldedBreaks (c.rest.length + 1)
      | none => malformed

def isQuotedChar (c : Char) : Bool :=
  !(c = '\x27' || c = '\x22' || c = '\\' || isGap c || isBreak c)

/-- Text without blanks, up to the closing mark. -/
def lexQuotedWord (double : Bool) : Nat → Lexer (List Char)
  | 0 => pure []
  | fuel + 1 => do
    let run ← span isQuotedChar
    let piece ←
      match (← get).rest with
      | '\\' :: _ =>
        if double then some <$> lexEscape
        else do
          skip 1
          pure (some ['\\'])
      | '\x27' :: r =>
        if double then do
          skip 1
          pure (some ['\x27'])
        else if r.head? = some '\x27' then do
          skip 2
          pure (some ['\x27'])
        else pure none
      | '\x22' :: _ =>
        if double then pure none
        else do
          skip 1
          pure (some ['\x22'])
      | _ => pure none
    match piece with
    | some piece => return run ++ piece ++ (← lexQuotedWord double fuel)
    | none => return run

/-- Words and gaps up to the closing mark. Each gap holds at least one character. -/
def lexQuotedRest (double : Bool) (mark : Char) : Nat → Lexer (List Char)
  | 0 => malformed
  | fuel + 1 => do
    let word ← lexQuotedWord double ((← get).rest.length + 1)
    if (← get).peek = some mark then
      skip 1
      return word
    else
      let gap ← lexQuotedGap
      return word ++ gap ++ (← lexQuotedRest double mark fuel)

/-- The scalar at a quotation mark. -/
def lexQuoted (double : Bool) : Lexer (List Char) := do
  skip 1
  lexQuotedRest double (if double then '\x22' else '\x27') ((← get).rest.length + 1)

end Conform.Yaml.Token
