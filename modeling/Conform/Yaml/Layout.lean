import Conform.Yaml.Token.Block
import Conform.Yaml.Token.Plain
import Conform.Yaml.Token.Word

/-!
Layout: the tokens of a whole text. Outside flow collections the indentation opens and closes the
block collections. What precedes a colon on the same line is a key, which comes to light only at the
colon: the place of everything that may turn out to be a key is kept pending, one place for each flow
collection that is open and one outside them all.
-/
namespace Conform.Yaml

/-- A place where a key may begin. -/
structure PendingKey where
  /-- The number of tokens before it. -/
  place : Nat
  start : Cursor
  /-- Whether nothing but a key can stand here. -/
  required : Bool

/-- A key ends on its line and has no more than this many characters. -/
def keyLimit : Nat := 1024

def PendingKey.isStale (c : Cursor) (k : PendingKey) : Bool :=
  k.start.line ≠ c.line || c.index - k.start.index > keyLimit

structure Layout where
  cursor : Cursor
  /-- The tokens so far, the last one first. -/
  tokens : List Token
  /-- The column of the innermost open block collection. -/
  indent : Int
  /-- The columns of those around it, the innermost first. -/
  outerIndents : List Int
  /-- The place pending in the innermost open flow collection. -/
  pending : Option PendingKey
  /-- The places pending around it, the innermost first. -/
  outerPending : List (Option PendingKey)
  /-- Whether a key may begin at the next token. -/
  allowsKey : Bool

namespace Layout

def start (text : List Char) : Layout := ⟨.start text, [], -1, [], none, [], true⟩

/-- Whether a flow collection is open. -/
def inFlow (s : Layout) : Bool := !s.outerPending.isEmpty

def add (t : Token) (s : Layout) : Layout := { s with tokens := t :: s.tokens }

/-- Puts tokens behind the first `place` ones. -/
def insert (place : Nat) (ts : List Token) (s : Layout) : Layout :=
  let later := s.tokens.length - place
  { s with tokens := s.tokens.take later ++ ts.reverse ++ s.tokens.drop later }

/-- Closes the block collections that are indented deeper than `column`. -/
def closeBlocks (column : Int) (s : Layout) : Layout :=
  if s.inFlow then s
  else
    let deeper := (s.indent :: s.outerIndents).takeWhile (· > column)
    match (s.indent :: s.outerIndents).drop deeper.length with
    | indent :: outer =>
      { s with
        indent, outerIndents := outer
        tokens := List.replicate deeper.length .blockEnd ++ s.tokens }
    | [] => s

/-- Opens a block collection at a column, unless one is open there or deeper. -/
def openBlock (column : Nat) (place : Nat) (t : Token) (s : Layout) : Layout :=
  if s.indent < column then
    { s.insert place [t] with indent := column, outerIndents := s.indent :: s.outerIndents }
  else s

/-- The tokens that no later colon can change. -/
def settled (s : Layout) : List Token :=
  let places := (s.pending :: s.outerPending).filterMap fun k =>
    k.filter fun k => !k.isStale s.cursor
  match places.getLast? with
  | some k => s.tokens.drop (s.tokens.length - k.place)
  | none => s.tokens

end Layout

abbrev Layouter := StateT Layout (Except Fault)

namespace Layouter

variable {α : Type}

def lex (read : Lexer α) : Layouter α := fun s => do
  let (a, c) ← read.run s.cursor
  return (a, { s with cursor := c })

def add (t : Token) : Layouter Unit := modify (·.add t)

def allowKey (b : Bool) : Layouter Unit := modify fun s => { s with allowsKey := b }

/-- Gives up the pending place of the innermost flow collection. -/
def dropKey : Layouter Unit := do
  if (← get).pending.any PendingKey.required then throw .malformed
  modify fun s => { s with pending := none }

/-- Makes the next token pending, if a key may begin there. -/
def expectKey : Layouter Unit := do
  if (← get).allowsKey then
    dropKey
    modify fun s =>
      { s with pending := some ⟨s.tokens.length, s.cursor, !s.inFlow && s.indent = s.cursor.column⟩ }

def dropStaleKeys : Layouter Unit := do
  let s ← get
  let stale := fun k : Option PendingKey => k.filter (PendingKey.isStale s.cursor)
  if (s.pending :: s.outerPending).any fun k => (stale k).any PendingKey.required then
    throw .malformed
  let fresh := fun k : Option PendingKey => k.filter fun k => !k.isStale s.cursor
  set { s with pending := fresh s.pending, outerPending := s.outerPending.map fresh }

/-- A token that can begin a key, and no key can begin right after it. -/
def addWord (read : Lexer Token) : Layouter Unit := do
  expectKey
  allowKey false
  add (← lex read)

/-- A token that ends everything before it: a directive or a mark between documents. -/
def addBoundary (read : Lexer Token) : Layouter Unit := do
  modify (·.closeBlocks (-1))
  dropKey
  allowKey false
  add (← lex read)

/-- A token of `n` characters. -/
def skipAs (n : Nat) (t : Token) : Lexer Token := do
  Lexer.skip n
  return t

def openFlow (t : Token) : Layouter Unit := do
  expectKey
  modify fun s => { s with pending := none, outerPending := s.pending :: s.outerPending }
  allowKey true
  add (← lex (skipAs 1 t))

def closeFlow (t : Token) : Layouter Unit := do
  dropKey
  let s ← get
  match s.outerPending with
  | [] => throw .malformed
  | k :: outer =>
    set { s with pending := k, outerPending := outer }
    allowKey false
    add (← lex (skipAs 1 t))

def addFlowEntry : Layouter Unit := do
  allowKey true
  dropKey
  add (← lex (skipAs 1 .flowEntry))

/-- Outside flow collections, makes sure that an entry may begin here and that its collection is
open. -/
def beginEntry (collection : Token) : Layouter Unit := do
  let s ← get
  if !s.inFlow then
    if !s.allowsKey then throw .malformed
    set (s.openBlock s.cursor.column s.tokens.length collection)

def addBlockEntry : Layouter Unit := do
  beginEntry .blockSequenceStart
  allowKey true
  dropKey
  add (← lex (skipAs 1 .blockEntry))

def addKey : Layouter Unit := do
  beginEntry .blockMappingStart
  allowKey (!(← get).inFlow)
  dropKey
  add (← lex (skipAs 1 .key))

/-- A colon: makes a key of the pending place, or else follows a key with a mark of its own. -/
def addValue : Layouter Unit := do
  let s ← get
  match s.pending with
  | some k =>
    let s := { s.insert k.place [.key] with pending := none }
    set (if s.inFlow then s else s.openBlock k.start.column k.place .blockMappingStart)
    allowKey false
  | none =>
    beginEntry .blockMappingStart
    allowKey (!(← get).inFlow)
    dropKey
  add (← lex (skipAs 1 .value))

def addBlockScalar (folded : Bool) : Layouter Unit := do
  allowKey true
  dropKey
  let parent := (← get).indent
  add (.scalar (← lex (Token.lexBlock folded parent)) false)

/-- A plain scalar; a key may begin after it if a line ended there. -/
def addPlain : Layouter Unit := do
  expectKey
  let s ← get
  let (text, broken) ← lex (Token.lexPlain s.inFlow (s.indent + 1))
  allowKey broken
  add (.scalar text true)

/-- The characters that begin a token of another kind. -/
def isIndicator (x : Char) : Bool := "-?:,[]\x7b\x7d#&*!|>\x27\x22%@\x60".toList.contains x

/-- Whether a plain scalar can begin with the character `x` here. -/
def beginsPlain (x : Char) (inFlow : Bool) (c : Cursor) : Bool :=
  !(isGap x || isBreak x || isIndicator x)
    || (!c.next.atWordEnd && (x = '-' || (!inFlow && (x = '?' || x = ':'))))

/-- The token that begins with the character `x` here. -/
def addTokenAt (x : Char) : Layouter Unit := do
  let s ← get
  let c := s.cursor
  let alone := s.inFlow || c.next.atWordEnd
  if c.column = 0 && x = '%' then addBoundary Token.lexDirective
  else if c.column = 0 && c.atMarks '-' then addBoundary (skipAs 3 .documentStart)
  else if c.column = 0 && c.atMarks '.' then addBoundary (skipAs 3 .documentEnd)
  else if x = '[' then openFlow .flowSequenceStart
  else if x = '\x7b' then openFlow .flowMappingStart
  else if x = ']' then closeFlow .flowSequenceEnd
  else if x = '\x7d' then closeFlow .flowMappingEnd
  else if x = ',' then addFlowEntry
  else if x = '-' && c.next.atWordEnd then addBlockEntry
  else if x = '?' && alone then addKey
  else if x = ':' && alone then addValue
  else if x = '*' then addWord (.alias <$> Token.lexName)
  else if x = '&' then addWord (.anchor <$> Token.lexName)
  else if x = '!' then addWord (.tag <$> Token.lexTag)
  else if x = '|' && !s.inFlow then addBlockScalar false
  else if x = '>' && !s.inFlow then addBlockScalar true
  else if x = '\x27' then addWord ((.scalar · false) <$> Token.lexQuoted false)
  else if x = '\x22' then addWord ((.scalar · false) <$> Token.lexQuoted true)
  else if beginsPlain x s.inFlow c then addPlain
  else throw .malformed

/-- Moves over spaces, comments and line breaks, and tells whether a line ended. -/
def skipBlankLines (c : Cursor) : Nat → Bool × Cursor
  | 0 => (false, c)
  | fuel + 1 =>
    let c := c.skipSpaces.skipComment
    match c.takeBreak? with
    | some (_, c) => (true, (skipBlankLines c fuel).2)
    | none => (false, c)

/-- Moves to the next token. A byte order mark may open the text. -/
def skipToToken : Layouter Unit := do
  let s ← get
  let c := s.cursor
  let c := if c.index = 0 && c.peek = some '\ufeff' then c.next else c
  let (broken, c) := skipBlankLines c (c.rest.length + 1)
  set { s with cursor := c, allowsKey := s.allowsKey || (broken && !s.inFlow) }

/-- The next token, together with the block tokens before it; answers whether the text goes on. -/
def step : Layouter Bool := do
  skipToToken
  dropStaleKeys
  modify fun s => s.closeBlocks s.cursor.column
  match (← get).cursor.peek with
  | some x =>
    addTokenAt x
    return true
  | none =>
    modify (·.closeBlocks (-1))
    dropKey
    add .streamEnd
    return false

end Layouter

/-- Tokens as far as a text has them, and the fault that stops them. -/
structure Tokens where
  tokens : List Token
  stop : Option Fault
deriving Repr

namespace Tokens

/-- Every step but the last moves over a character. -/
def ofLayout (s : Layout) : Nat → Tokens
  | 0 => ⟨s.tokens.reverse, some .malformed⟩
  | fuel + 1 =>
    match Layouter.step.run s with
    | .error e => ⟨s.settled.reverse, some e⟩
    | .ok (true, s) => ofLayout s fuel
    | .ok (false, s) => ⟨s.tokens.reverse, none⟩

/-- The tokens of a text. A character that no text may hold comes before every other fault. -/
def ofText (text : List Char) : Tokens :=
  if text.all isAllowed then ofLayout (.start text) (text.length + 2) else ⟨[], some .malformed⟩

end Tokens
end Conform.Yaml
