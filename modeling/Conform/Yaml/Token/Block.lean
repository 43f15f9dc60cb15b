import Conform.Yaml.Lexer

/-!
Block scalars. A literal scalar keeps its line breaks; a folded one joins lines that do not start with
a blank. The header may fix the indentation and says whether the line breaks at the end are dropped,
kept, or cut down to one.
-/
namespace Conform.Yaml.Token

open Lexer

/-- What happens to the line breaks at the end. -/
inductive Chomping
  | clip
  | strip
  | keep
deriving DecidableEq, Repr

structure BlockHeader where
  chomping : Chomping
  /-- The indentation beyond that of the parent, if it is given. -/
  increment : Option Nat

def lexChomping : Lexer (Option Chomping) := do
  match (← get).peek with
  | some '+' =>
    skip 1
    return some .keep
  | some '-' =>
    skip 1
    return some .strip
  | _ => return none

def lexIncrement : Lexer (Option Nat) := do
  match (← get).peek with
  | some d =>
    if d = '0' then malformed
    else if d.isDigit then
      skip 1
      return some (d.toNat - 0x30)
    else return none
  | none => return none

/-- The two indicators in either order, then nothing but a comment. -/
def lexBlockHeader : Lexer BlockHeader := do
  skip 1
  let first ← lexChomping
  let increment ← lexIncrement
  let second ← if first.isNone && increment.isSome then lexChomping else pure none
  require Cursor.atFieldEnd
  skipLineRest
  return ⟨(first <|> second).getD .clip, increment⟩

/-- The line breaks before the first line that holds something, and the deepest column reached by the
spaces among them. -/
def lexLeadingBreaks (deepest : Nat) : Nat → Lexer (List Char × Nat)
  | 0 => pure ([], deepest)
  | fuel + 1 => do
    skipSpaces
    let c ← get
    let deepest := max deepest c.column
    match c.takeBreak? with
    | some (b, c) =>
      set c
      let (more, deepest) ← lexLeadingBreaks deepest fuel
      return (b :: more, deepest)
    | none => return ([], deepest)

/-- Moves over spaces up to a column. -/
def indentTo (indent : Nat) : Lexer Unit := do
  let c ← get
  skip ((c.rest.take (indent - c.column)).takeWhile (· = ' ')).length

/-- The line breaks before the next line that holds something at the indentation or deeper. -/
def lexIndentedBreaks (indent : Nat) : Nat → Lexer (List Char)
  | 0 => pure []
  | fuel + 1 => do
    indentTo indent
    match (← get).takeBreak? with
    | some (b, c) =>
      set c
      return b :: (← lexIndentedBreaks indent fuel)
    | none => return []

def startsWithGap (c : Cursor) : Bool := c.peek.any isGap

/-- The text between two lines: `ending` ends the first, and `breaks` follow it. -/
def joinLines (folded : Bool) (ending : Option Char) (breaks : List Char) : List Char :=
  if folded && ending = some '\n' then if breaks.isEmpty then [' '] else breaks
  else ending.toList ++ breaks

/-- The lines of a block scalar from the next one on. -/
def lexBlockLines (folded : Bool) (chomping : Chomping) (indent : Nat) : Nat → Lexer (List Char)
  | 0 => pure []
  | fuel + 1 => do
    let gapFirst ← test startsWithGap
    let line ← span fun x => !isBreak x
    let c ← get
    let ending := c.takeBreak?.map Prod.fst
    set c.skipBreak
    let breaks ← lexIndentedBreaks indent ((← get).rest.length + 1)
    let c ← get
    if c.column = indent && !c.rest.isEmpty then
      let joint := joinLines (folded && !gapFirst && !startsWithGap c) ending breaks
      return line ++ joint ++ (← lexBlockLines folded chomping indent fuel)
    else
      return line ++ (if chomping = .strip then [] else ending.toList)
        ++ (if chomping = .keep then breaks else [])

/-- The block scalar at its mark, inside a collection indented by `parent`. -/
def lexBlock (folded : Bool) (parent : Int) : Lexer (List Char) := do
  let header ← lexBlockHeader
  let least := (max (parent + 1) 1).toNat
  let fuel := (← get).rest.length + 1
  let (breaks, indent) ←
    match header.increment with
    | none => do
      let (breaks, deepest) ← lexLeadingBreaks 0 fuel
      pure (breaks, max least deepest)
    | some n => do
      let indent := least + n - 1
      pure (← lexIndentedBreaks indent fuel, indent)
  let c ← get
  if c.column = indent && !c.rest.isEmpty then
    return breaks ++ (← lexBlockLines folded header.chomping indent fuel)
  else return if header.chomping = .keep then breaks else []

end Conform.Yaml.Token
