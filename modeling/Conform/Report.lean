import Conform.Text.Quoted

/-!
Reports: what one verification found. A report only grows; its status follows from what it holds, and
two reports are equal when they hold the same issues in the same order.
-/
namespace Conform

inductive IssueKind
  | missingRequiredKey
  | arrayTypeMismatch
  | objectTypeMismatch
  | emptyArray
deriving DecidableEq, Repr

namespace IssueKind

def name : IssueKind → String
  | .missingRequiredKey => "missing_required_key"
  | .arrayTypeMismatch => "array_type_mismatch"
  | .objectTypeMismatch => "object_type_mismatch"
  | .emptyArray => "empty_array"

def all : List IssueKind :=
  [.missingRequiredKey, .arrayTypeMismatch, .objectTypeMismatch, .emptyArray]

def ofName? (s : String) : Option IssueKind := all.find? fun k => k.name = s

theorem ofName?_name (k : IssueKind) : ofName? k.name = some k := by cases k <;> rfl

end IssueKind

structure Issue where
  kind : IssueKind
  message : String
  /-- The written form of the pointer to the value. -/
  path : String
deriving DecidableEq, Repr

inductive Status
  | ok
  | failed
deriving DecidableEq, Repr

def Status.name : Status → String
  | .ok => "ok"
  | .failed => "failed"

structure Report where
  messages : List String
  issues : List Issue
deriving Repr

namespace Report

def empty : Report := ⟨[], []⟩

def status (r : Report) : Status := if r.messages.isEmpty then .ok else .failed

def isOk (r : Report) : Bool := r.status = .ok

def add (issue : Issue) (r : Report) : Report :=
  ⟨r.messages ++ [issue.message], r.issues ++ [issue]⟩

/-- The report with further issues in order. -/
def addAll (issues : List Issue) (r : Report) : Report := issues.foldl (fun r i => r.add i) r

def ofIssues (issues : List Issue) : Report := empty.addAll issues

instance : BEq Report := ⟨fun a b => a.issues = b.issues⟩

@[simp] theorem addAll_nil (r : Report) : r.addAll [] = r := rfl

theorem addAll_cons (i : Issue) (issues : List Issue) (r : Report) :
    r.addAll (i :: issues) = (r.add i).addAll issues := rfl

@[simp] theorem issues_addAll (issues : List Issue) (r : Report) :
    (r.addAll issues).issues = r.issues ++ issues := by
  induction issues generalizing r with
  | nil => simp
  | cons i issues ih => rw [addAll_cons, ih]; simp [add]

@[simp] theorem messages_addAll (issues : List Issue) (r : Report) :
    (r.addAll issues).messages = r.messages ++ issues.map Issue.message := by
  induction issues generalizing r with
  | nil => simp
  | cons i issues ih => rw [addAll_cons, ih]; simp [add]

@[simp] theorem issues_ofIssues (issues : List Issue) : (ofIssues issues).issues = issues :=
  issues_addAll issues empty

@[simp] theorem messages_ofIssues (issues : List Issue) :
    (ofIssues issues).messages = issues.map Issue.message :=
  messages_addAll issues empty

/-- A report passes exactly if it holds no issue. -/
theorem status_ofIssues_eq_ok_iff (issues : List Issue) :
    (ofIssues issues).status = .ok ↔ issues = [] := by
  cases issues <;> simp [status]

/-- A report on one line: its status and its messages. -/
def summary (r : Report) : String :=
  "Report(status=" ++ r.status.name ++ ", messages=["
    ++ ", ".intercalate (r.messages.map Text.quoted) ++ "])"

end Report
end Conform
