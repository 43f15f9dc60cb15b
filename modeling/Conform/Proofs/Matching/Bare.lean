import Conform.Matching.Verify
import Conform.Proofs.Document.Writable
import Conform.Proofs.Matching.Run

/-!
# A walk by bare operations

Most operations of a walk have something that they are not made for: a key without a text, a mapping
without the entry that is looked up, a sequence without a first element, a value without members, a
pointer without a last segment. Here the walk, the listing of authoring problems and the verification are
written with operations that fault in such a case. Whether a key is there is asked apart from looking it
up, and nothing but the tests of the walk itself stands between an operation and its fault.
-/
namespace Conform

/-- What an operation is applied to although it is not made for it. -/
inductive Fault
  /-- A key that cannot be written as text. -/
  | noText (key : Key)
  /-- A mapping that is asked for an entry with another key. -/
  | noEntry (key : Key)
  /-- A value that is asked for an entry and is no mapping. -/
  | noMapping
  /-- A sequence that is asked for its first element and has none. -/
  | noElement
  /-- A value that is asked for its members and is no collection. -/
  | noMembers
deriving Repr

namespace Bare

/-! ## Operations -/

/-- The text form of a key, which an integer of too many digits does not have. -/
def text (key : Key) : Except Fault String :=
  if key.isWritable then .ok key.text else .error (.noText key)

/-- The meaning of a key. Only a key that is no marker is written as text for it. -/
def marker (key : Key) : Except Fault Marker :=
  if Marker.isWildcard key then .ok ⟨.wildcard, key.text⟩
  else
    match Marker.optionalNameOf? key with
    | some name => .ok ⟨.optional, name⟩
    | none => (text key).map fun name => ⟨.exact, name⟩

section Operations

variable {S X : Type} [Node X]

/-- Whether there is an entry for a key: by the name, or by the key itself if that is no text. -/
def hasEntry (marker : Marker) (key : Key) (subject : X) : Bool :=
  match Node.view subject with
  | .mapping es => es.has (.str marker.name) || (!key.string?.isSome && es.has key)
  | _ => false

def entry (key : Key) (es : Entries X) : Except Fault X :=
  match es.get? key with
  | some value => .ok value
  | none => .error (.noEntry key)

/-- The entry by the name if there is one, or else by the key itself. -/
def lookup (marker : Marker) (key : Key) (subject : X) : Except Fault X :=
  match Node.view subject with
  | .mapping es => if es.has (.str marker.name) then entry (.str marker.name) es else entry key es
  | _ => .error .noMapping

def first : List S → Except Fault S
  | x :: _ => .ok x
  | [] => .error .noElement

/-- The members of a collection. Their names are not written before they are needed. -/
def members (subject : X) : Except Fault (List (Except Fault String × X)) :=
  match Node.view subject with
  | .mapping es => .ok (es.map fun e => (text e.1, e.2))
  | .sequence _ xs => .ok (xs.zipIdx.map fun x => (.ok (toString x.2), x.1))
  | _ => .error .noMembers

end Operations

/-! ## The walk -/

/-- A walk whose operations may fault. -/
abbrev Attempt := ExceptT (WalkError ⊕ Fault) (StateM Trail)

namespace Attempt

variable {α : Type}

/-- A step of a walk that needs no operation of its own. -/
def lift (w : Walk α) : Attempt α :=
  ExceptT.mk fun t => ((w.run t).1.mapError .inl, (w.run t).2)

def operation (x : Except Fault α) : Attempt α := ExceptT.mk (pure (x.mapError .inr))

/-- Runs `body` one segment further down. However it ends, the pointer is cut to its former length. -/
def descend (segment : String) (body : Attempt α) : Attempt α :=
  ExceptT.mk fun t =>
    let (result, t') := body.run { t with pointer := t.pointer.push segment }
    (result, { t' with pointer := t'.pointer.cut t.pointer.length })

end Attempt

open Attempt (lift operation)

section Level

variable {S X : Type} [Node S] [Node X]

def checkArray (below : S → X → Attempt Unit) (shape : List S) (subject : X) : Attempt Unit :=
  match Node.view subject with
  | .sequence _ xs =>
    if shape.isEmpty then pure ()
    else do
      if shape.length > 1 then lift (Walk.remark (Matching.onlyFirstElement shape.length))
      if xs.isEmpty then lift (Walk.add .emptyArray Matching.nothingInArray)
      else
        let template ← operation (first shape)
        xs.forM fun x => below template x
  | v => lift (Walk.add .arrayTypeMismatch (Matching.notAnArray v.kind))

def checkObject (below : S → X → Attempt Unit) (shape : S) (entries : Entries S) (subject : X) :
    Attempt Unit :=
  match Node.view subject with
  | .mapping _ => if entries.isEmpty then pure () else below shape subject
  | v => lift (Walk.add .objectTypeMismatch (Matching.notAnObject v.kind))

def checkValue (below : S → X → Attempt Unit) (shape : S) (subject : X) : Attempt Unit :=
  match Node.view shape with
  | .null => pure ()
  | .scalar _ => pure ()
  | .sequence _ elements => checkArray below elements subject
  | .mapping entries => checkObject below shape entries subject

/-- The members of the subject, each under its own name. -/
def eachMember (subject : X) (check : X → Attempt Unit) : Attempt Unit := do
  (← operation (members subject)).forM fun m => do
    lift (Walk.rename (← operation m.1))
    check m.2

def checkMembers (below : S → X → Attempt Unit) (shape : S) (subject : X) : Attempt Unit :=
  match Node.view shape with
  | .null => pure ()
  | .scalar _ => pure ()
  | .sequence _ elements => eachMember subject (checkArray below elements)
  | .mapping _ => eachMember subject (below shape)

def checkEntry (below : S → X → Attempt Unit) (subject : X) (e : Key × S) : Attempt Unit := do
  let marker ← operation (marker e.1)
  let satisfied :=
    if marker.kind = .wildcard then Matching.acceptsWildcard subject else hasEntry marker e.1 subject
  if !satisfied then
    if marker.kind = .optional then pure ()
    else lift (Walk.add .missingRequiredKey (Matching.missingKey marker.name))
  else Attempt.descend marker.name do
    if marker.kind = .wildcard then checkMembers below e.2 subject
    else checkValue below e.2 (← operation (lookup marker e.1 subject))

def level (below : S → X → Attempt Unit) (shape : S) (subject : X) : Attempt Unit :=
  match Node.view shape with
  | .mapping entries => entries.forM (checkEntry below subject)
  | _ => checkValue below shape subject

def walk (stop : Pointer → WalkError) : Nat → S → X → Attempt Unit
  | 0, _, _ => lift do throw (stop (← get).pointer)
  | n + 1, shape, subject => level (walk stop n) shape subject

/-- The walk from depth `depth` on, which enters no level deeper than `limit`. -/
def walkFrom (limit depth : Int) (shape : S) (subject : X) : Attempt Unit :=
  walk (fun p => .tooDeep limit p.render) (Matching.levels limit depth) shape subject

/-- As `walkFrom`, on a stack that holds only so many levels, or any number of them. -/
def walkOn (stack : Option Nat) (limit depth : Int) (shape : S) (subject : X) : Attempt Unit :=
  match stack with
  | none => walkFrom limit depth shape subject
  | some held =>
    if Matching.levels limit depth ≤ held then walkFrom limit depth shape subject
    else walk (fun _ => .stackExhausted) held shape subject

end Level

/-! ## The listing and the verification -/

section Verify

variable {S X : Type} [Node S] [Node X]

def issuesFrom (stop : Pointer → Lint.Error) :
    Nat → Pointer → S → Except (Lint.Error ⊕ Fault) (List ShapeIssue)
  | 0, p, _ => .error (.inl (stop p))
  | n + 1, p, node =>
    match Node.view node with
    | .null => .ok []
    | .scalar _ => .ok []
    | .sequence _ xs => do
      let below ←
        if xs.isEmpty then pure []
        else do issuesFrom stop n p (← (first xs).mapError .inr)
      return Lint.elementIssues xs.length p.render ++ below
    | .mapping entries => do
      let below ← entries.mapM fun e => do
        let marker ← (marker e.1).mapError .inr
        let issues ← issuesFrom stop n (p.push marker.name) e.2
        return Lint.keyIssues e.1 p.render ++ issues
      return Lint.wildcardIssues (entries.map Prod.fst) p.render ++ below.flatten

/-- The issues of a shape whose root is a mapping. -/
def issuesOn (stack : Option Nat) (limit : Int) (shape : S) :
    Except (Lint.Error ⊕ Fault) (List ShapeIssue) :=
  let within := issuesFrom (fun p => .tooDeep limit p.render) (Lint.levels limit) .root shape
  match stack with
  | none => within
  | some held =>
    if Lint.levels limit ≤ held then within
    else issuesFrom (fun _ => .stackExhausted limit) held .root shape

def refuse (stack : Stack) (m : Matcher) (shape : S) : Except (VerifyError ⊕ Fault) Unit :=
  if m.strict then
    match issuesOn stack.listing m.maxDepth shape with
    | .ok [] => .ok ()
    | .ok issues => .error (.inl (.ambiguous issues))
    | .error (.inl e) => .error (.inl (.lint e))
    | .error (.inr fault) => .error (.inr fault)
  else .ok ()

def verifyOn (stack : Stack) (m : Matcher) (shape : S) (subject : X) :
    Except (VerifyError ⊕ Fault) Report :=
  match Node.view shape with
  | .mapping _ =>
    match refuse stack m shape with
    | .error e => .error e
    | .ok () =>
      match (walkOn stack.walk m.maxDepth 0 shape subject).run (.start .root) with
      | (.ok (), t) => .ok t.report
      | (.error (.inl e), _) => .error (.inl (.walk m.maxDepth e))
      | (.error (.inr fault), _) => .error (.inr fault)
  | v => .error (.inl (.root v.kind))

end Verify

end Bare
end Conform
