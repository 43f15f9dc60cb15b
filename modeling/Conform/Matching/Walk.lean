import Conform.Document.View
import Conform.Marker
import Conform.Pointer
import Conform.Report

/-!
The walk of a shape over a subject. The walk follows the shape: for every key of a shape mapping the
subject is asked for the entry, and the entry is checked against the shape below the key. A sequence
in the shape asks for a sequence whose elements follow the first one of the shape; a mapping asks for
a mapping; a null or a scalar asks for nothing more than presence. What does not fit is added to the
report, and the walk goes on.

Every step to a lower level is counted, and only so many levels may be entered: the walk ends on
documents that lead back to themselves as well.
-/
namespace Conform

/-- What a walk carries along. -/
structure Trail where
  report : Report
  pointer : Pointer
  /-- Remarks on the shape, for a log of details. -/
  remarks : List String

namespace Trail

def start (pointer : Pointer) : Trail := ⟨.empty, pointer, []⟩

end Trail

/-- Why a walk stops before its end. -/
inductive WalkError
  /-- The levels run out at the place `path`. -/
  | tooDeep (limit : Int) (path : String)
  /-- The stack runs out first. -/
  | stackExhausted
  /-- A key cannot be written as text. -/
  | unwritable
  | pointer (e : Pointer.Error)
deriving DecidableEq, Repr

/-- A step of a walk: what it carries along is kept when it stops with an error. -/
abbrev Walk := ExceptT WalkError (StateM Trail)

namespace Walk

variable {α : Type}

def add (kind : IssueKind) (message : String → String) : Walk Unit :=
  modify fun t =>
    let path := t.pointer.render
    { t with report := t.report.add ⟨kind, message path, path⟩ }

def remark (message : String → String) : Walk Unit :=
  modify fun t => { t with remarks := t.remarks ++ [message t.pointer.render] }

/-- Runs `body` one segment further down. However it ends, the pointer is cut to its former length. -/
def descend (segment : String) (body : Walk α) : Walk α :=
  ExceptT.mk fun t =>
    let (result, t') := body.run { t with pointer := t.pointer.push segment }
    (result, { t' with pointer := t'.pointer.cut t.pointer.length })

/-- Gives the last segment of the pointer another name. -/
def rename (segment : String) : Walk Unit := do
  match (← get).pointer.replaceTop segment with
  | .ok p => modify fun t => { t with pointer := p }
  | .error e => throw (.pointer e)

/-- What is known by a text, unless there is no such text. -/
def written (known : Option α) : Walk α :=
  match known with
  | some a => pure a
  | none => throw .unwritable

variable {β : Type} (t : Trail)

theorem written_bind (a : α) (f : α → Walk β) : written (some a) >>= f = f a := rfl

@[simp] theorem run_pure (a : α) : (pure a : Walk α).run t = (.ok a, t) := rfl

theorem run_bind (w : Walk α) (f : α → Walk β) :
    (w >>= f).run t =
      match w.run t with
      | (.ok a, t') => (f a).run t'
      | (.error e, t') => (.error e, t') := by
  change ExceptT.bindCont f (w.run t).1 (w.run t).2 = _
  rcases w.run t with ⟨_ | _, _⟩ <;> rfl

@[simp] theorem run_add (kind : IssueKind) (message : String → String) :
    (add kind message).run t = (.ok (), { t with
      report := t.report.add ⟨kind, message t.pointer.render, t.pointer.render⟩ }) := rfl

@[simp] theorem run_remark (message : String → String) :
    (remark message).run t = (.ok (), { t with
      remarks := t.remarks ++ [message t.pointer.render] }) := rfl

theorem run_descend (segment : String) (body : Walk α) :
    (descend segment body).run t =
      match body.run { t with pointer := t.pointer.push segment } with
      | (r, t') => (r, { t' with pointer := t'.pointer.cut t.pointer.length }) := rfl

/-- Below the root the last segment can always be renamed. -/
theorem run_rename {p : Pointer} {former : String} (segment : String)
    (h : t.pointer = p.push former) :
    (rename segment).run t = (.ok (), { t with pointer := p.push segment }) := by
  have hp : t.pointer.replaceTop segment = .ok (p.push segment) := by
    rw [h]
    simp [Pointer.replaceTop, Pointer.push]
  have hrun : (rename segment).run t =
      (match t.pointer.replaceTop segment with
        | .ok q => modify fun t => { t with pointer := q }
        | .error e => throw (.pointer e) : Walk Unit).run t := rfl
  rw [hrun, hp]
  rfl

end Walk

namespace Matching

def missingKey (name path : String) : String := s!"Missing required key '{name}' at {path}"

def notAnArray (found : Kind) (path : String) : String :=
  s!"Value at {path} should be array (expected: array, found: {found.tag})"

def notAnObject (found : Kind) (path : String) : String :=
  s!"Value at {path} should be object (expected: object, found: {found.tag})"

def nothingInArray (path : String) : String := s!"Expected data in array at {path}; found nothing"

def onlyFirstElement (count : Nat) (path : String) : String :=
  s!"Array shape at {path} has {count} elements; only the first is used as template"

section Subject

variable {X : Type} [Node X]

/-- The entry of the subject that a key names: by the name, or by the key itself if that is no
text. -/
def entry? (marker : Marker) (key : Key) (subject : X) : Option X :=
  match Node.view subject with
  | .mapping es => es.get? (.str marker.name) <|> (if key.string?.isSome then none else es.get? key)
  | _ => none

/-- Whether a wildcard finds something to stand for: any sequence, or a mapping with entries. -/
def acceptsWildcard (subject : X) : Bool :=
  match Node.view subject with
  | .mapping es => !es.isEmpty
  | .sequence .. => true
  | _ => false

/-- The members of a collection under their keys. Elements of a sequence are known by their places. -/
def members (subject : X) : Entries X :=
  match Node.view subject with
  | .mapping es => es
  | .sequence _ xs => xs.zipIdx.map fun x => (.str (toString x.2), x.1)
  | _ => []

/-- The entry that a text names does not depend on how the text is marked. -/
theorem entry?_of_name_eq {marker marker' : Marker} (h : marker.name = marker'.name)
    (s s' : String) (subject : X) :
    entry? marker (.str s) subject = entry? marker' (.str s') subject := by
  unfold entry?
  rw [h]
  rfl

/-- A key that is no marker is looked up as it is. -/
theorem entry?_of_isPlain {key : Key} (h : Marker.isPlain key = true) {subject : X} {es : Entries X}
    (hx : Node.view subject = .mapping es) :
    entry? (Marker.ofKey key) key subject = es.get? key := by
  obtain ⟨name, rfl, hmarker⟩ := Marker.isPlain_iff.mp h
  unfold entry?
  simp [hx, hmarker, Key.string?]

/-- In a mapping without a key twice, a key that is no marker finds its own entry. -/
theorem entry?_of_mem {key : Key} (h : Marker.isPlain key = true) {subject value : X}
    {es : Entries X} (hd : es.Distinct) (hx : Node.view subject = .mapping es)
    (hm : (key, value) ∈ es) : entry? (Marker.ofKey key) key subject = some value := by
  rw [entry?_of_isPlain h hx]
  obtain ⟨name, rfl, -⟩ := Marker.isPlain_iff.mp h
  exact Entries.get?_of_mem hd (by simp) hm

end Subject

section Level

variable {S X : Type} [Node S] [Node X]

/-! One level of the walk, given the walk `below` it. -/

/-- The subject must be a sequence and, if the shape has an element, its elements follow it. -/
def checkArray (below : S → X → Walk Unit) (shape : List S) (subject : X) : Walk Unit :=
  match Node.view subject with
  | .sequence _ xs =>
    match shape with
    | [] => pure ()
    | template :: more => do
      if !more.isEmpty then Walk.remark (onlyFirstElement shape.length)
      if xs.isEmpty then Walk.add .emptyArray nothingInArray
      else xs.forM fun x => below template x
  | v => Walk.add .arrayTypeMismatch (notAnArray v.kind)

/-- The subject must be a mapping and, if the shape has entries, follow them. -/
def checkObject (below : S → X → Walk Unit) (shape : S) (entries : Entries S) (subject : X) :
    Walk Unit :=
  match Node.view subject with
  | .mapping _ => if entries.isEmpty then pure () else below shape subject
  | v => Walk.add .objectTypeMismatch (notAnObject v.kind)

def checkValue (below : S → X → Walk Unit) (shape : S) (subject : X) : Walk Unit :=
  match Node.view shape with
  | .null => pure ()
  | .scalar _ => pure ()
  | .sequence _ elements => checkArray below elements subject
  | .mapping entries => checkObject below shape entries subject

/-- Every member is checked under its own name. A mapping is followed without asking first whether
the member is one. -/
def checkMembers (below : S → X → Walk Unit) (shape : S) (subject : X) : Walk Unit :=
  match Node.view shape with
  | .null => pure ()
  | .scalar _ => pure ()
  | .sequence _ elements => (members subject).forM fun m => do
    Walk.rename (← Walk.written m.1.text?)
    checkArray below elements m.2
  | .mapping _ => (members subject).forM fun m => do
    Walk.rename (← Walk.written m.1.text?)
    below shape m.2

/-- An entry whose key means `marker`. -/
def checkMarked (below : S → X → Walk Unit) (subject : X) (entry : Key × S) (marker : Marker) :
    Walk Unit :=
  match marker.kind with
  | .wildcard =>
    if acceptsWildcard subject then
      Walk.descend marker.name (checkMembers below entry.2 subject)
    else Walk.add .missingRequiredKey (missingKey marker.name)
  | .optional =>
    match entry? marker entry.1 subject with
    | some value => Walk.descend marker.name (checkValue below entry.2 value)
    | none => pure ()
  | .exact =>
    match entry? marker entry.1 subject with
    | some value => Walk.descend marker.name (checkValue below entry.2 value)
    | none => Walk.add .missingRequiredKey (missingKey marker.name)

def checkEntry (below : S → X → Walk Unit) (subject : X) (entry : Key × S) : Walk Unit := do
  checkMarked below subject entry (← Walk.written (Marker.ofKey? entry.1))

/-- A mapping is followed entry by entry; any other shape is checked as a value. -/
def level (below : S → X → Walk Unit) (shape : S) (subject : X) : Walk Unit :=
  match Node.view shape with
  | .mapping entries => entries.forM (checkEntry below subject)
  | _ => checkValue below shape subject

/-- The walk over at most `levels` levels; `stop` says why it ends when they run out. -/
def walk (stop : Pointer → WalkError) : Nat → S → X → Walk Unit
  | 0, _, _ => do throw (stop (← get).pointer)
  | n + 1, shape, subject => level (walk stop n) shape subject

end Level

variable {S X : Type} [Node S] [Node X]

/-- The levels that may be entered from depth `depth` on. -/
def levels (limit depth : Int) : Nat := (limit - depth + 1).toNat

/-- The walk from depth `depth` on, which enters no level deeper than `limit`. -/
def walkFrom (limit depth : Int) (shape : S) (subject : X) : Walk Unit :=
  walk (fun p => .tooDeep limit p.render) (levels limit depth) shape subject

/-- As `walkFrom`, on a stack that holds only so many levels, or any number of them. -/
def walkOn (stack : Option Nat) (limit depth : Int) (shape : S) (subject : X) : Walk Unit :=
  match stack with
  | none => walkFrom limit depth shape subject
  | some held =>
    if levels limit depth ≤ held then walkFrom limit depth shape subject
    else walk (fun _ => .stackExhausted) held shape subject

/-- The levels of a walk that the stack holds. -/
def stackLevels : Nat := 320

/-- As `walkFrom`, on a stack that holds `stackLevels` levels. -/
def walkOnStack (limit depth : Int) (shape : S) (subject : X) : Walk Unit :=
  walkOn (some stackLevels) limit depth shape subject

end Matching
end Conform
