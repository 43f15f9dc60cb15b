/-!
Pointers: the names passed on the way from the root of a document to a value. A pointer is written as
its segments, each after a slash, with the slashes and tildes of a segment escaped; the root is
written as a single slash.
-/
namespace Conform

structure Pointer where
  segments : List String
deriving DecidableEq, Repr

namespace Pointer

/-- Why an operation on a pointer fails. -/
inductive Error
  | popEmpty
  | replaceEmpty
deriving DecidableEq, Repr

def Error.message : Error → String
  | .popEmpty => "pop from empty list"
  | .replaceEmpty => "replace_top on an empty path"

def root : Pointer := ⟨[]⟩

def length (p : Pointer) : Nat := p.segments.length

def push (segment : String) (p : Pointer) : Pointer := ⟨p.segments ++ [segment]⟩

/-- The last segment, and the pointer without it. -/
def pop (p : Pointer) : Except Error (String × Pointer) :=
  match p.segments.getLast? with
  | some s => .ok (s, ⟨p.segments.dropLast⟩)
  | none => .error .popEmpty

def replaceTop (segment : String) (p : Pointer) : Except Error Pointer :=
  if p.segments.isEmpty then .error .replaceEmpty else .ok ⟨p.segments.dropLast ++ [segment]⟩

/-- The first `n` segments, or all of them if there are fewer. -/
def cut (n : Nat) (p : Pointer) : Pointer := ⟨p.segments.take n⟩

/-- Tildes are escaped before slashes, so an escaped slash stays readable. -/
def escapeChar : Char → List Char
  | '~' => ['~', '0']
  | '/' => ['~', '1']
  | c => [c]

def escape (segment : String) : List Char := segment.toList.flatMap escapeChar

def render (p : Pointer) : String :=
  if p.segments.isEmpty then "/"
  else String.ofList (p.segments.flatMap fun s => '/' :: escape s)

@[simp] theorem segments_push (s : String) (p : Pointer) :
    (p.push s).segments = p.segments ++ [s] := rfl

@[simp] theorem cut_push (s : String) (p : Pointer) : (p.push s).cut p.length = p := by
  simp [cut, push, length]

/-- A pointer together with the blocks that are open on it. A block remembers the length that the
pointer had when it was entered, and leaving it cuts the pointer to that length. -/
structure Blocks where
  pointer : Pointer
  starts : List Nat
deriving DecidableEq, Repr

namespace Blocks

def enter (segment : String) (b : Blocks) : Blocks :=
  ⟨b.pointer.push segment, b.pointer.length :: b.starts⟩

/-- Leaves the innermost block, whether it ended normally or by an error. -/
def leave (b : Blocks) : Except Error Blocks :=
  match b.starts with
  | n :: starts => .ok ⟨b.pointer.cut n, starts⟩
  | [] => .error .popEmpty

end Blocks
end Pointer
end Conform
