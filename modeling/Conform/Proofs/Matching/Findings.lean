import Conform.Document.Value
import Conform.Proofs.Matching.Run

/-!
# The findings of a walk

The issues of a shape against a subject, computed in pre-order with a pointer that is handed down
and never changed. A walk that returns has added exactly these to its report, whatever stood in the
report before and however many more levels it might have entered.
-/
namespace Conform.Matching

variable {S X : Type} [Node S] [Node X]

/-- The issues over so many levels, at a pointer and below it. -/
def findings : Nat → Pointer → S → X → List Issue
  | 0, _, _, _ => []
  | n + 1, p, shape, subject => (acts p shape subject).flatMap fun
    | .issue i => [i]
    | .remark _ => []
    | .fault => []
    | .enter q shape' subject' => findings n q shape' subject'

theorem issuesOf_unfolding (n : Nat) (p : Pointer) (shape : S) (subject : X) :
    issuesOf (unfolding n p shape subject) = findings n p shape subject := by
  induction n generalizing p shape subject with
  | zero => rfl
  | succ n ih =>
    rw [unfolding, findings, issuesOf, List.filterMap_flatMap]
    refine List.flatMap_congr fun a _ => ?_
    cases a with
    | issue i => rfl
    | remark text => rfl
    | enter q shape' subject' => exact ih q shape' subject'
    | fault => rfl

/-- **A walk that returns has added its findings.** Levels beyond those that the limit allows find
nothing more. -/
theorem report_of_return (stack : Option Nat) (limit depth : Int) (shape : S) (subject : X)
    (t t' : Trail) (h : (walkOn stack limit depth shape subject).run t = (.ok (), t'))
    (n : Nat) (hn : levels limit depth ≤ n) :
    t'.report.issues = t.report.issues ++ findings n t.pointer shape subject ∧
      t'.report.messages =
        t.report.messages ++ (findings n t.pointer shape subject).map Issue.message := by
  obtain ⟨stop, k, hk, hrun⟩ := exists_run_walkOn stack limit depth shape subject t.pointer
  rw [hrun t rfl] at h
  have hfin : Finished (unfolding k t.pointer shape subject) :=
    (play_ok_iff stop _ t).mp (congrArg Prod.fst h)
  have hreport := report_play stop (unfolding k t.pointer shape subject) t
  rw [h, reached_of_finished hfin, ← unfolding_of_complete hfin.complete (hk.trans hn),
    issuesOf_unfolding] at hreport
  rw [hreport]
  exact ⟨Report.issues_addAll _ _, Report.messages_addAll _ _⟩

/-- Every member is a sequence of records, and the one under `k` also a mapping. -/
def mixedShape : Value :=
  .record [("[*:key]", .list [.record [("x", .null)]]), ("k", .record [("y", .null)])]

def mixed : Value := .record [("m", .list [.record []]), ("k", .int 1)]

/-- A trail somewhere in a document, with an issue found before. -/
def midway : Trail := ⟨Report.empty.add ⟨.emptyArray, "former", "/"⟩, ⟨["a/b"]⟩, []⟩

theorem report_of_return_mixed :
    ((walkOn none 1 (-1) mixedShape mixed).run midway).1 = .ok () ∧ levels 1 (-1) ≤ 5 ∧
      ((walkOn none 1 (-1) mixedShape mixed).run midway).2.report.messages =
        ["former", "Missing required key 'x' at /a~1b/m",
          "Value at /a~1b/k should be array (expected: array, found: scalar)",
          "Value at /a~1b/k should be object (expected: object, found: scalar)"] := by
  have h := report_of_return none 1 (-1) mixedShape mixed midway
    ((walkOn none 1 (-1) mixedShape mixed).run midway).2 rfl 5 (by decide)
  exact ⟨rfl, by decide, h.2.trans rfl⟩

end Conform.Matching
