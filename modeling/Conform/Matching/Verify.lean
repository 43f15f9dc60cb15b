import Conform.Lint
import Conform.Matching.Walk

/-!
Verification of a subject against a shape. The shape must be a mapping; a strict matcher also refuses
a shape with authoring problems. What is found goes into a report, and a report without issues is a
pass.
-/
namespace Conform

/-- The settings of a verification. -/
structure Matcher where
  /-- The depth of the deepest level that is entered; the root is at depth zero. -/
  maxDepth : Int
  strict : Bool
  positive : 1 ≤ maxDepth

inductive VerifyError
  /-- The root of the shape is not a mapping. -/
  | root (found : Kind)
  | ambiguous (issues : List ShapeIssue)
  | lint (e : Lint.Error)
  | walk (maxDepth : Int) (e : WalkError)
deriving Repr

def WalkError.message (maxDepth : Int) : WalkError → String
  | .tooDeep limit path => s!"Nesting exceeds the maximum depth of {limit} at {path}"
  | .stackExhausted =>
    s!"Nesting exceeds the interpreter recursion limit ({Lint.nominalStack}) "
      ++ s!"before reaching max_depth={maxDepth}"
  | .unwritable => Numeral.unwritableMessage
  | .pointer e => e.message

def VerifyError.message : VerifyError → String
  | .root found => Lint.rootMessage found
  | .ambiguous issues => "Shape definition is ambiguous:\n" ++ ShapeIssue.listing issues
  | .lint e => e.message
  | .walk maxDepth e => e.message maxDepth

/-- Whether a verification is refused for the shape or for the depth, rather than broken off for a key
that cannot be written. -/
def VerifyError.isRefusal : VerifyError → Bool
  | .lint .unwritable => false
  | .walk _ .unwritable => false
  | _ => true

/-- The levels that a stack holds, of a listing of shape problems and of a walk; where no number is
given, it holds any number. -/
structure Stack where
  listing : Option Nat
  walk : Option Nat

namespace Stack

def usual : Stack := ⟨some Lint.stackLevels, some Matching.stackLevels⟩

def unbounded : Stack := ⟨none, none⟩

end Stack

namespace Matcher

def defaultDepth : Int := 100

/-- The depth that was refused. -/
structure DepthError where
  depth : Int
deriving DecidableEq, Repr

def DepthError.message (e : DepthError) : String := s!"max_depth must be positive, got {e.depth}"

def make (maxDepth : Int) (strict : Bool) : Except DepthError Matcher :=
  if h : 1 ≤ maxDepth then .ok ⟨maxDepth, strict, h⟩ else .error ⟨maxDepth⟩

variable {S X : Type} [Node S] [Node X]

/-- What a strict matcher refuses before the walk. -/
def refuse (stack : Stack) (m : Matcher) (shape : S) : Except VerifyError Unit :=
  if m.strict then
    match Lint.issuesOn stack.listing m.maxDepth shape with
    | .ok [] => .ok ()
    | .ok issues => .error (.ambiguous issues)
    | .error e => .error (.lint e)
  else .ok ()

def openingRemark (entries : Nat) (subject : Kind) : String :=
  s!"Verifying subject of kind '{subject.tag}' against shape with {entries} key(s)"

def closingRemark (r : Report) : String :=
  s!"Verification finished: {r.status.name} ({r.messages.length} error(s))"

/-- The outcome of a verification on a stack, with the remarks made on the way to it. -/
def outcomeOn (stack : Stack) (m : Matcher) (shape : S) (subject : X) :
    Except VerifyError Report × List String :=
  match Node.view shape with
  | .mapping entries =>
    match m.refuse stack shape with
    | .error e => (.error e, [])
    | .ok () =>
      let opening := openingRemark entries.length (Node.kind subject)
      match (Matching.walkOn stack.walk m.maxDepth 0 shape subject).run (.start .root) with
      | (.ok (), t) => (.ok t.report, opening :: t.remarks ++ [closingRemark t.report])
      | (.error e, t) => (.error (.walk m.maxDepth e), opening :: t.remarks)
  | v => (.error (.root v.kind), [])

/-- The verification on a stack. -/
def verifyOn (stack : Stack) (m : Matcher) (shape : S) (subject : X) :
    Except VerifyError Report :=
  (m.outcomeOn stack shape subject).1

/-- The outcome of a verification, with the remarks made on the way to it. -/
def verifyWithRemarks (m : Matcher) (shape : S) (subject : X) :
    Except VerifyError Report × List String :=
  m.outcomeOn .usual shape subject

def verify (m : Matcher) (shape : S) (subject : X) : Except VerifyError Report :=
  m.verifyOn .usual shape subject

variable {stack : Stack} {m : Matcher} {shape : S} {subject : X}

/-- A verification that returns a report has walked to its end. -/
theorem exists_run_of_verifyOn {r : Report} (h : m.verifyOn stack shape subject = .ok r) :
    ∃ t, (Matching.walkOn stack.walk m.maxDepth 0 shape subject).run (.start .root) = (.ok (), t) ∧
      t.report = r := by
  unfold verifyOn outcomeOn at h
  split at h
  · split at h
    · cases h
    · dsimp only at h
      split at h
      · rename_i t hrun
        exact ⟨t, hrun, Except.ok.inj h⟩
      · cases h
  · cases h

/-- A lenient matcher refuses nothing: what comes of a mapping is what the walk comes to. -/
theorem verifyOn_lenient {entries : Entries S} (hm : m.strict = false)
    (hs : Node.view shape = .mapping entries) :
    m.verifyOn stack shape subject =
      match (Matching.walkOn stack.walk m.maxDepth 0 shape subject).run (.start .root) with
      | (.ok (), t) => .ok t.report
      | (.error e, _) => .error (.walk m.maxDepth e) := by
  unfold verifyOn outcomeOn
  have hrefuse : m.refuse stack shape = .ok () := by simp [refuse, hm]
  rw [hs, hrefuse]
  dsimp only
  split <;> rfl

end Matcher
end Conform
