import Conform.Document.Basic
import Conform.Yaml.Element
import Conform.Yaml.Scalar

/-!
Denotation: the document that elements stand for. Every element becomes a cell of a graph at its own
place. A collection becomes a cell as soon as it is met, and its parts follow after everything met
before it, so collections may contain themselves. Of the entries of a mapping those with the merge key
give way to the entries of the mappings they name, which come first.
-/
namespace Conform.Yaml

namespace Denotation

/-- The elements, as merging has changed them, and the cells so far. -/
structure Progress where
  elements : Array Element
  cells : Array (Option (View Nat))
  /-- Collections whose parts are to follow, the last one first. -/
  waiting : List Nat

abbrev Denoter := StateT Progress (Except Fault)

/-- The element at a place; places outside the table hold nothing. -/
def elementAt (i : Nat) : Denoter Element :=
  return ((← get).elements[i]?).getD ⟨.null, .scalar []⟩

def setContent (i : Nat) (c : Content) : Denoter Unit :=
  modify fun s => { s with elements := s.elements.modify i fun e => { e with content := c } }

def setTag (i : Nat) (t : Tag) : Denoter Unit :=
  modify fun s => { s with elements := s.elements.modify i fun e => { e with tag := t } }

def setCell (i : Nat) (v : View Nat) : Denoter Unit :=
  modify fun s => { s with cells := s.cells.setIfInBounds i (some v) }

def tagAt (i : Nat) : Denoter Tag := return (← elementAt i).tag

/-- The entries of a mapping as they stand. -/
def entriesAt (i : Nat) : Denoter (List (Nat × Nat)) := do
  match (← elementAt i).content with
  | .mapping es => return es
  | _ => throw .malformed

/-- The first entry with the merge key: its value, and all entries but it. -/
def takeMerge? : List (Nat × Nat) → Denoter (Option (Nat × List (Nat × Nat)))
  | [] => return none
  | (k, v) :: es => do
    if (← tagAt k) = .merge then return some (v, es)
    else return (← takeMerge? es).map fun r => (r.1, (k, v) :: r.2)

/-- The mappings that the value of a merge key names, in the order in which their entries come. -/
def mergeSources (v : Nat) : Denoter (List Nat × Bool) := do
  match (← elementAt v).content with
  | .mapping _ => return ([v], false)
  | .sequence items => return (items, true)
  | .scalar _ => throw .malformed

mutual

/-- Replaces the merge keys of a mapping by what they name. Between any two calls a merge key is dropped
from some mapping, so twice the number of entries suffices for `fuel`. -/
def merge (i : Nat) : Nat → Denoter Unit
  | 0 => throw .tooNested
  | fuel + 1 => do
    let merged ← mergeAll i fuel
    let es := merged ++ (← entriesAt i)
    setContent i (.mapping es)
    for (k, _) in es do
      if (← tagAt k) = .value then setTag k .str
termination_by structural fuel => fuel

/-- Drops the merge keys of a mapping and answers the entries that they stand for. -/
def mergeAll (i : Nat) : Nat → Denoter (List (Nat × Nat))
  | 0 => throw .tooNested
  | fuel + 1 => do
    match ← takeMerge? (← entriesAt i) with
    | none => return []
    | some (v, rest) =>
      setContent i (.mapping rest)
      let (sources, isList) ← mergeSources v
      let found ← sources.mapM fun j => do
        let _ ← entriesAt j
        merge j fuel
        entriesAt j
      let found := if isList then found.reverse.flatten else found.flatten
      return found ++ (← mergeAll i fuel)
termination_by structural fuel => fuel

end

/-- The text of a scalar, or of the scalar that stands for a mapping. -/
def textAt (i : Nat) : Nat → Denoter (List Char)
  | 0 => throw .tooNested
  | fuel + 1 => do
    match (← elementAt i).content with
    | .scalar text => return text
    | .sequence _ => throw .malformed
    | .mapping es =>
      match ← es.findM? fun e => return (← tagAt e.1) = .value with
      | some (_, v) => textAt v fuel
      | none => throw .malformed

/-- The cell of a collection before its parts are known. -/
def emptyCell? : Tag → Option (View Nat)
  | .sequence => some (.sequence .list [])
  | .pairs => some (.sequence .list [])
  | .mapping => some (.mapping [])
  | .set => some (.scalar (.set []))
  | _ => none

/-- Makes sure that an element has a cell. -/
def meet (i : Nat) : Denoter Unit := do
  let s ← get
  if ((s.cells[i]?).bind id).isNone then
    let e ← elementAt i
    match emptyCell? e.tag, e.tag, e.content with
    | some cell, _, _ =>
      setCell i cell
      modify fun s => { s with waiting := i :: s.waiting }
    | none, .timestamp, .mapping _ =>
      let _ ← textAt i (s.elements.size + 1)
      throw (.scalar .timestampOfMapping)
    | none, .merge, _ => throw .malformed
    | none, .value, _ => throw .malformed
    | none, .unknown, _ => throw .malformed
    | none, tag, _ => setCell i (← Scalar.read tag (← textAt i (s.elements.size + 1)))

/-- The key that a cell is; collections are no keys. -/
def keyAt (i : Nat) : Denoter Key := do
  match ((← get).cells[i]?).bind id with
  | some .null => return .null
  | some (.scalar (.atom a)) => return .atom a
  | _ => throw .malformed

/-- The entries of a mapping after merging. -/
def entries (mergeFuel i : Nat) : Denoter (Entries Nat) := do
  let _ ← entriesAt i
  merge i mergeFuel
  let es ← (← entriesAt i).mapM fun e => do
    meet e.1
    let k ← keyAt e.1
    meet e.2
    return (k, e.2)
  return Entries.ofList es

/-- The items of a sequence. -/
def itemsAt (i : Nat) : Denoter (List Nat) := do
  match (← elementAt i).content with
  | .sequence items => return items
  | _ => throw .malformed

/-- The pair that a mapping of one entry stands for, in a cell of its own. -/
def pair (i : Nat) : Denoter Nat := do
  match ← entriesAt i with
  | [(k, v)] =>
    meet k
    meet v
    modifyGet fun s => (s.cells.size, { s with cells := s.cells.push (some (.sequence .tuple [k, v])) })
  | _ => throw .malformed

/-- Completes the cell of a collection by its parts. -/
def complete (mergeFuel i : Nat) : Denoter Unit := do
  match ← tagAt i with
  | .sequence =>
    let items ← itemsAt i
    items.forM meet
    setCell i (.sequence .list items)
  | .mapping => setCell i (.mapping (← entries mergeFuel i))
  | .set => setCell i (.scalar (.set ((← entries mergeFuel i).map Prod.fst)))
  | _ => setCell i (.sequence .list (← (← itemsAt i).mapM pair))

/-- Completes collections, and those met meanwhile after them. Each is completed once. -/
def completeAll (mergeFuel : Nat) (is : List Nat) : Nat → Denoter Unit
  | 0 => pure ()
  | fuel + 1 => do
    is.forM (complete mergeFuel)
    let next := (← get).waiting.reverse
    if !next.isEmpty then
      modify fun s => { s with waiting := [] }
      completeAll mergeFuel next fuel

/-- How many entries an element has. -/
def entryCount (e : Element) : Nat :=
  match e.content with
  | .mapping es => es.length
  | _ => 0

end Denotation

/-- The document that elements stand for; no element stands for null. -/
def Elements.document (es : Elements) : Except Fault Document := do
  match es.root with
  | none => return .tree .null
  | some root =>
    let read : Denotation.Denoter Unit := do
      Denotation.meet root
      Denotation.completeAll (2 * es.table.foldl (fun n e => n + Denotation.entryCount e) 0 + 4) []
        (es.table.size + 1)
    let (_, s) ← read.run ⟨es.table, Array.replicate es.table.size none, []⟩
    return .place ⟨s.cells.map fun c => c.getD .null⟩ root

/-- Reads a text as a document. -/
def read (text : List Char) : Except Fault Document := do
  (← Elements.ofTokens (.ofText text)).document

end Conform.Yaml
