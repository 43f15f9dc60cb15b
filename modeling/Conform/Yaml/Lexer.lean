import Conform.Yaml.Cursor
import Conform.Yaml.Fault

/-!
Lexers: steps that read from a cursor and move it, or find the text at fault.
-/
namespace Conform.Yaml

abbrev Lexer := StateT Cursor (Except Fault)

namespace Lexer

variable {α : Type}

def malformed : Lexer α := throw .malformed

/-- Goes on only if `p` holds of the cursor. -/
def require (p : Cursor → Bool) : Lexer Unit := do
  if !p (← get) then malformed

/-- Whether `p` holds of the cursor. -/
def test (p : Cursor → Bool) : Lexer Bool := return p (← get)

/-- Reads the longest run of characters of class `p`. -/
def span (p : Char → Bool) : Lexer (List Char) := modifyGet fun c => c.span p

/-- As `span`, for a run that must not be empty. -/
def span1 (p : Char → Bool) : Lexer (List Char) := do
  let run ← span p
  if run.isEmpty then malformed else return run

def skip (n : Nat) : Lexer Unit := modify fun c => c.skip n

/-- Moves over a character that must come next. -/
def expect (x : Char) : Lexer Unit := do
  require fun c => c.peek = some x
  skip 1

def skipSpaces : Lexer Unit := modify Cursor.skipSpaces

/-- Moves over the rest of a line, which may hold nothing but a comment. -/
def skipLineRest : Lexer Unit := do
  modify fun c => c.skipSpaces.skipComment
  require Cursor.atLineEnd
  modify Cursor.skipBreak

end Lexer
end Conform.Yaml
