import Conform.Yaml.Token.Quoted

/-!
Plain scalars. They have no marks and end at a comment, at a colon before a blank, inside a flow
collection also at its marks, and outside one at a line that is indented less than they ask for. Line
breaks inside are folded as in quoted scalars.
-/
namespace Conform.Yaml.Token

open Lexer

def isFlowMark (c : Char) : Bool := ",[]\x7b\x7d".toList.contains c

/-- Whether the text after a colon makes the colon end a plain scalar. -/
def endsPlain (inFlow : Bool) (r : List Char) : Bool :=
  r.head?.all fun x => isGap x || isBreak x || (inFlow && isFlowMark x)

/-- The characters of a plain scalar up to a blank. -/
def plainWord (inFlow : Bool) : List Char → List Char
  | [] => []
  | x :: r =>
    if isGap x || isBreak x || (x = ':' && endsPlain inFlow r)
        || (inFlow && (isFlowMark x || x = '?')) then []
    else x :: plainWord inFlow r

/-- The line breaks after the first one, with the spaces around them; `none` at a line that separates
documents. -/
def lexPlainBreaks : Nat → Lexer (Option (List Char))
  | 0 => pure (some [])
  | fuel + 1 => do
    skipSpaces
    match (← get).takeBreak? with
    | none => return some []
    | some (b, c) =>
      set c
      if c.atSeparator then return none
      else return (← lexPlainBreaks fuel).map (b :: ·)

/-- What stands between two words of a plain scalar. -/
structure PlainGap where
  /-- The characters that it stands for; there are none where the scalar ends. -/
  text : List Char
  /-- Whether a line ended in it. -/
  broken : Bool

def lexPlainGap : Lexer PlainGap := do
  let spaces ← span (· = ' ')
  match (← get).takeBreak? with
  | none => return ⟨spaces, false⟩
  | some (b, c) =>
    set c
    if c.atSeparator then return ⟨[], true⟩
    else
      match ← lexPlainBreaks (c.rest.length + 1) with
      | some more => return ⟨fold b more, true⟩
      | none => return ⟨[], true⟩

/-- A plain scalar from its next word on, whose further lines are indented by `indent` at least. The
answer tells whether a line ended after the last word. -/
def lexPlainFrom (inFlow : Bool) (indent : Int) (broken : Bool) (gap : List Char) :
    Nat → Lexer (List Char × Bool)
  | 0 => pure ([], broken)
  | fuel + 1 => do
    let word := plainWord inFlow (← get).rest
    if (← get).peek = some '#' || word.isEmpty then return ([], broken)
    else
      skip word.length
      let next ← lexPlainGap
      let c ← get
      if next.text.isEmpty || c.peek = some '#' || (!inFlow && c.column < indent) then
        return (gap ++ word, next.broken)
      else
        let (more, broken) ← lexPlainFrom inFlow indent next.broken next.text fuel
        return (gap ++ word ++ more, broken)

/-- The plain scalar that starts here, and whether a line ended after it. -/
def lexPlain (inFlow : Bool) (indent : Int) : Lexer (List Char × Bool) := do
  lexPlainFrom inFlow indent false [] ((← get).rest.length + 1)

end Conform.Yaml.Token
