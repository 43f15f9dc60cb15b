import Conform.Yaml.Layout
import Conform.Yaml.Tag

/-!
Elements: the nodes of a YAML text, with aliases resolved. An element stands in a table and names the
elements below it by their places, so that an element may be shared and may contain itself.
-/
namespace Conform.Yaml

inductive Content
  | scalar (text : List Char)
  | sequence (items : List Nat)
  | mapping (entries : List (Nat × Nat))
deriving DecidableEq, Repr

structure Element where
  tag : Tag
  content : Content
deriving DecidableEq, Repr

/-- The elements of a text. -/
structure Elements where
  table : Array Element
  /-- The topmost element; a text without content has none. -/
  root : Option Nat
deriving Repr

/-- The most levels of collections. -/
def nestingLimit : Nat := 480

namespace Elements

/-- Tokens being read into a table. -/
structure Progress where
  rest : Tokens
  table : Array Element
  anchors : List (List Char × Nat)
  handles : List (List Char × List Char)

abbrev Builder := StateT Progress (Except Fault)

/-- The next token; a text that stops short of it has its fault there. -/
def peek : Builder Token := do
  let rest := (← get).rest
  match rest.tokens with
  | t :: _ => return t
  | [] => throw (rest.stop.getD .malformed)

def skip : Builder Unit :=
  modify fun s => { s with rest := { s.rest with tokens := s.rest.tokens.tail } }

def push (e : Element) : Builder Nat :=
  modifyGet fun s => (s.table.size, { s with table := s.table.push e })

/-- Puts an element into the table. No anchor is given twice. -/
def pushAnchored (anchor : Option (List Char)) (e : Element) : Builder Nat := do
  let i ← push e
  if let some name := anchor then
    if ((← get).anchors.lookup name).isSome then throw .malformed
    modify fun s => { s with anchors := (name, i) :: s.anchors }
  return i

/-- What stands where nothing is written. -/
def pushEmpty : Builder Nat := push ⟨.null, .scalar []⟩

def tagText (t : WrittenTag) : Builder (List Char) := do
  match t.handle with
  | none => return t.suffix
  | some h =>
    match (← get).handles.lookup h with
    | some meaning => return meaning ++ t.suffix
    | none => throw .malformed

def anchor? : Builder (Option (List Char)) := do
  match ← peek with
  | .anchor name =>
    skip
    return some name
  | _ => return none

def writtenTag? : Builder (Option WrittenTag) := do
  match ← peek with
  | .tag t =>
    skip
    return some t
  | _ => return none

/-- The anchor and the tag before an element, in either order. -/
def properties : Builder (Option (List Char) × Option (List Char)) := do
  let first ← anchor?
  let tag ← writtenTag?
  let anchor ← if first.isNone && tag.isSome then anchor? else pure first
  return (anchor, ← tag.mapM tagText)

/-- A tag that leaves the type open. -/
def isOpenTag (tag : Option (List Char)) : Bool := tag.all (· = ['!'])

/-- The type of a scalar. A plain scalar without a tag and every scalar with an open tag have the type
that their text looks like. -/
def scalarTag (tag : Option (List Char)) (plain : Bool) (text : List Char) : Tag :=
  match tag with
  | none => if plain then .implied text else .str
  | some t => if isOpenTag tag then .implied text else .ofText t

/-- Where an element stands. -/
inductive Place
  | flow
  | block
  /-- At a key or a value of a block mapping, where a sequence need not be indented. -/
  | entry
deriving DecidableEq

inductive Collection
  | blockSequence
  | unindentedSequence
  | flowSequence
  | blockMapping
  | flowMapping
deriving DecidableEq

/-- The collection that opens at a token. -/
def opening? (p : Place) : Token → Option Collection
  | .flowSequenceStart => some .flowSequence
  | .flowMappingStart => some .flowMapping
  | .blockSequenceStart => if p = .flow then none else some .blockSequence
  | .blockMappingStart => if p = .flow then none else some .blockMapping
  | .blockEntry => if p = .entry then some .unindentedSequence else none
  | _ => none

def Collection.tag : Collection → Tag
  | .blockMapping => .mapping
  | .flowMapping => .mapping
  | _ => .sequence

/-- Moves over a comma, except before the first part of a flow collection. -/
def skipComma (first : Bool) : Builder Unit := do
  if !first then
    if (← peek) ≠ .flowEntry then throw .malformed
    skip

/-- Reads an element with `read`, or an empty one before one of the tokens `ends`. -/
def elementBefore (ends : List Token) (read : Builder Nat) : Builder Nat := do
  if ends.contains (← peek) then pushEmpty else read

/-- The element after a colon; an empty one if there is no colon. -/
def valueBefore (ends : List Token) (read : Builder Nat) : Builder Nat := do
  if (← peek) = .value then
    skip
    elementBefore ends read
  else pushEmpty

/-- A key with its mark, and its value, inside a flow collection that ends with `close`. -/
def flowPair (close : Token) (read : Builder Nat) : Builder (Nat × Nat) := do
  skip
  let k ← elementBefore [.value, .flowEntry, close] read
  let v ← valueBefore [.flowEntry, close] read
  return (k, v)

mutual

/-- The element that comes next. Each step down takes a token at the latest after three calls. -/
def element (p : Place) (levels : Nat) : Nat → Builder Nat
  | 0 => throw .malformed
  | fuel + 1 => do
    if let .alias name := ← peek then
      skip
      match (← get).anchors.lookup name with
      | some i => return i
      | none => throw .malformed
    let (anchor, tag) ← properties
    let t ← peek
    match opening? p t, t with
    | some c, _ =>
      if c ≠ .unindentedSequence then skip
      let tag := if isOpenTag tag then c.tag else (tag.map Tag.ofText).getD c.tag
      let i ← pushAnchored anchor ⟨tag, .sequence []⟩
      let content ← parts c levels fuel
      modify fun s => { s with table := s.table.setIfInBounds i ⟨tag, content⟩ }
      return i
    | none, .scalar text plain =>
      skip
      pushAnchored anchor ⟨scalarTag tag plain text, .scalar text⟩
    | none, _ =>
      if anchor.isNone && tag.isNone then throw .malformed
      pushAnchored anchor ⟨scalarTag tag true [], .scalar []⟩
termination_by structural fuel => fuel

/-- The parts of a collection up to its end. -/
def parts (c : Collection) (levels : Nat) : Nat → Builder Content
  | 0 => throw .malformed
  | fuel + 1 => do
    match levels with
    | 0 => throw .tooNested
    | levels + 1 =>
      match c with
      | .blockSequence => .sequence <$> blockItems false levels fuel
      | .unindentedSequence => .sequence <$> blockItems true levels fuel
      | .flowSequence => .sequence <$> flowItems true levels fuel
      | .blockMapping => .mapping <$> blockEntries levels fuel
      | .flowMapping => .mapping <$> flowEntries true levels fuel
termination_by structural fuel => fuel

def blockItems (unindented : Bool) (levels : Nat) : Nat → Builder (List Nat)
  | 0 => throw .malformed
  | fuel + 1 => do
    let t ← peek
    if t = .blockEntry then
      skip
      let ends := [.blockEntry, .blockEnd] ++ if unindented then [.key, .value] else []
      let i ← elementBefore ends (element .block levels fuel)
      return i :: (← blockItems unindented levels fuel)
    else if unindented then return []
    else if t = .blockEnd then
      skip
      return []
    else throw .malformed
termination_by structural fuel => fuel

def blockEntries (levels : Nat) : Nat → Builder (List (Nat × Nat))
  | 0 => throw .malformed
  | fuel + 1 => do
    let t ← peek
    if t = .key then
      skip
      let k ← elementBefore [.key, .value, .blockEnd] (element .entry levels fuel)
      let v ← valueBefore [.key, .value, .blockEnd] (element .entry levels fuel)
      return (k, v) :: (← blockEntries levels fuel)
    else if t = .blockEnd then
      skip
      return []
    else throw .malformed
termination_by structural fuel => fuel

/-- The items of a flow sequence; an item with the mark of a key is a mapping of one entry. -/
def flowItems (first : Bool) (levels : Nat) : Nat → Builder (List Nat)
  | 0 => throw .malformed
  | fuel + 1 => do
    if (← peek) = .flowSequenceEnd then
      skip
      return []
    skipComma first
    let t ← peek
    if t = .flowSequenceEnd then
      skip
      return []
    else if t = .key then
      let i ← push ⟨.mapping, .mapping []⟩
      let e ← flowPair .flowSequenceEnd (element .flow levels fuel)
      modify fun s => { s with table := s.table.setIfInBounds i ⟨.mapping, .mapping [e]⟩ }
      return i :: (← flowItems false levels fuel)
    else
      let i ← element .flow levels fuel
      return i :: (← flowItems false levels fuel)
termination_by structural fuel => fuel

/-- The entries of a flow mapping; an element without the mark of a key is a key without a value. -/
def flowEntries (first : Bool) (levels : Nat) : Nat → Builder (List (Nat × Nat))
  | 0 => throw .malformed
  | fuel + 1 => do
    if (← peek) = .flowMappingEnd then
      skip
      return []
    skipComma first
    let t ← peek
    if t = .flowMappingEnd then
      skip
      return []
    else if t = .key then
      let e ← flowPair .flowMappingEnd (element .flow levels fuel)
      return e :: (← flowEntries false levels fuel)
    else
      let k ← element .flow levels fuel
      let v ← pushEmpty
      return (k, v) :: (← flowEntries false levels fuel)
termination_by structural fuel => fuel

end

/-- The handles that need no directive. -/
def sharedHandles : List (List Char × List Char) := [(['!'], ['!']), (['!', '!'], Tag.sharedStem)]

/-- The directives before a document: one version at most, of major number 1, and one meaning for a
handle. -/
def directives (versioned : Bool) (handles : List (List Char × List Char)) :
    Nat → Builder (List (List Char × List Char))
  | 0 => throw .malformed
  | fuel + 1 => do
    match ← peek with
    | .versionDirective major =>
      if versioned || major ≠ 1 then throw .malformed
      skip
      directives true handles fuel
    | .tagDirective handle meaning =>
      if (handles.lookup handle).isSome then throw .malformed
      skip
      directives versioned ((handle, meaning) :: handles) fuel
    | .otherDirective =>
      skip
      directives versioned handles fuel
    | _ => return handles

def isDirective : Token → Bool
  | .versionDirective _ => true
  | .tagDirective .. => true
  | .otherDirective => true
  | _ => false

/-- Whether a token ends the content of a document, if it does not begin another one's. -/
def isBoundary (t : Token) : Bool :=
  isDirective t || t = .documentStart || t = .documentEnd || t = .streamEnd

/-- The topmost element of the document that comes first. -/
def root? (fuel : Nat) : Builder (Option Nat) := do
  let t ← peek
  if t = .streamEnd then return none
  else if isDirective t || t = .documentStart then
    let handles ← directives false [] fuel
    modify fun s => { s with handles := handles ++ sharedHandles }
    if (← peek) ≠ .documentStart then throw .malformed
    skip
    if isBoundary (← peek) then some <$> pushEmpty
    else some <$> element .block nestingLimit fuel
  else
    some <$> element .block nestingLimit fuel

/-- Makes sure that nothing follows but the marks of a document's end. A fault that stops the text at
the start of another document comes before the complaint about that document. -/
def finish : Nat → Builder Unit
  | 0 => throw .malformed
  | fuel + 1 => do
    match ← peek with
    | .documentEnd =>
      skip
      finish fuel
    | .streamEnd => return
    | _ => do
      let _ ← directives false [] (fuel + 1)
      let _ ← peek
      throw .malformed

/-- The elements that tokens spell. There is one document at most. -/
def ofTokens (ts : Tokens) : Except Fault Elements := do
  let fuel := 4 * ts.tokens.length + 4
  let read : Builder (Option Nat) := do
    let root ← root? fuel
    finish fuel
    return root
  let (root, s) ← read.run ⟨ts, #[], [], sharedHandles⟩
  return ⟨s.table, root⟩

end Elements
end Conform.Yaml
