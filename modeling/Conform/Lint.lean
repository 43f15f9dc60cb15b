import Conform.Document.View
import Conform.Marker
import Conform.Pointer

/-!
Authoring problems of shapes: two wildcards in one mapping, several elements in one sequence, an
optional marker without a name. A walk accepts such shapes, but their authors seldom mean them. The
problems are listed from the root downwards, without a subject.
-/
namespace Conform

structure ShapeIssue where
  message : String
  path : String
deriving DecidableEq, Repr

namespace ShapeIssue

def text (i : ShapeIssue) : String := s!"  - {i.message} (path={i.path})"

/-- One line for each issue. -/
def listing (issues : List ShapeIssue) : String := "\n".intercalate (issues.map text)

end ShapeIssue

namespace Lint

inductive Error
  /-- The levels run out at the place `path`. -/
  | tooDeep (limit : Int) (path : String)
  /-- The stack runs out before the limit is reached. -/
  | stackExhausted (limit : Int)
  /-- A key cannot be written as text. -/
  | unwritable
deriving DecidableEq, Repr

/-- The number of nested calls that the stack is said to hold. -/
def nominalStack : Nat := 1000

def Error.message : Error → String
  | .tooDeep limit path => s!"Shape nesting exceeds the maximum depth of {limit} at {path}"
  | .stackExhausted limit =>
    s!"Shape nesting exceeds the interpreter recursion limit ({nominalStack}) "
      ++ s!"before reaching max_depth={limit}"
  | .unwritable => Numeral.unwritableMessage

def defaultLimit : Int := 100

def rootMessage (found : Kind) : String := s!"Shape root must be a mapping/object, found {found.tag}"

def wildcardsMessage (keys : List Key) : String :=
  s!"Mapping has {keys.length} wildcard keys (" ++ ", ".intercalate (keys.map Key.quoted)
    ++ "); only one is allowed per level"

def namelessMessage (key : Key) : String :=
  s!"Optional marker {key.quoted} has no key name; it is matched as an exact key"

def elementsMessage (count : Nat) : String :=
  s!"Array shape has {count} template elements; only the first is used"

/-- The issue of a mapping with more than one wildcard. -/
def wildcardIssues (keys : List Key) (path : String) : List ShapeIssue :=
  let wildcards := keys.filter Marker.isWildcard
  if wildcards.length > 1 then [⟨wildcardsMessage wildcards, path⟩] else []

/-- The issue of an optional marker without a name. -/
def keyIssues (key : Key) (path : String) : List ShapeIssue :=
  if Marker.isMalformed key then [⟨namelessMessage key, path⟩] else []

/-- The issue of a sequence with more than one element. -/
def elementIssues (count : Nat) (path : String) : List ShapeIssue :=
  if count > 1 then [⟨elementsMessage count, path⟩] else []

variable {S : Type} [Node S]

/-- The meaning of a key. -/
def markerOf (key : Key) : Except Error Marker :=
  match Marker.ofKey? key with
  | some marker => .ok marker
  | none => .error .unwritable

/-- The issues from a node downwards, over at most `levels` levels; `stop` says why the listing ends
when they run out. -/
def issuesFrom (stop : Pointer → Error) : Nat → Pointer → S → Except Error (List ShapeIssue)
  | 0, p, _ => .error (stop p)
  | n + 1, p, node =>
    match Node.view node with
    | .null => .ok []
    | .scalar _ => .ok []
    | .sequence _ xs => do
      let below ← match xs with
        | [] => pure []
        | x :: _ => issuesFrom stop n p x
      return elementIssues xs.length p.render ++ below
    | .mapping entries => do
      let below ← entries.mapM fun e => do
        let marker ← markerOf e.1
        let issues ← issuesFrom stop n (p.push marker.name) e.2
        return keyIssues e.1 p.render ++ issues
      return wildcardIssues (entries.map Prod.fst) p.render ++ below.flatten

/-- The issues of a shape, whose root must be a mapping. -/
def issuesWithin (stop : Pointer → Error) (levels : Nat) (shape : S) :
    Except Error (List ShapeIssue) :=
  match Node.kind shape with
  | .mapping => issuesFrom stop levels .root shape
  | kind => .ok [⟨rootMessage kind, Pointer.root.render⟩]

/-- The levels of a listing with the deepest at depth `limit`. -/
def levels (limit : Int) : Nat := (limit + 1).toNat

/-- The issues of a shape that is no deeper than `limit`. -/
def issues (limit : Int) (shape : S) : Except Error (List ShapeIssue) :=
  issuesWithin (fun p => .tooDeep limit p.render) (levels limit) shape

/-- As `issues`, on a stack that holds only so many levels, or any number of them. -/
def issuesOn (stack : Option Nat) (limit : Int) (shape : S) : Except Error (List ShapeIssue) :=
  match stack with
  | none => issues limit shape
  | some held =>
    if levels limit ≤ held then issues limit shape
    else issuesWithin (fun _ => .stackExhausted limit) held shape

/-- The levels of a listing that the stack holds. -/
def stackLevels : Nat := 960

/-- As `issues`, on a stack that holds `stackLevels` levels. -/
def issuesOnStack (limit : Int) (shape : S) : Except Error (List ShapeIssue) :=
  issuesOn (some stackLevels) limit shape

end Lint
end Conform
