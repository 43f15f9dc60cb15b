import Conform.Matching.Verify
import Conform.Proofs.Matching.Run

/-!
# Calls that share a report and a pointer

Several walks may use one trail, one after the other, and some of them may stop with an error. No
call leaves a segment behind, none takes back what is in the report, and what a call adds does not
depend on the calls before it.
-/
namespace Conform.Matching

variable {S X : Type} [Node S] [Node X]

/-- A call of a walk at some depth. -/
structure Call (S X : Type) where
  shape : S
  subject : X
  depth : Int

def Call.run (stack : Option Nat) (m : Matcher) (c : Call S X) (t : Trail) :
    Except WalkError Unit × Trail :=
  (walkOn stack m.maxDepth c.depth c.shape c.subject).run t

/-- The trail after some calls, whether they returned or not. -/
def after (stack : Option Nat) (m : Matcher) (calls : List (Call S X)) (t : Trail) : Trail :=
  calls.foldl (fun t c => (c.run stack m t).2) t

variable (stack : Option Nat) (m : Matcher)

/-- A call restores the pointer. It ends as it ends alone, and adds to the report what it finds
alone. -/
theorem run_call (c : Call S X) (t : Trail) :
    (c.run stack m t).2.pointer = t.pointer ∧
      (c.run stack m t).1 = (c.run stack m (.start t.pointer)).1 ∧
      (c.run stack m t).2.report =
        t.report.addAll (c.run stack m (.start t.pointer)).2.report.issues := by
  obtain ⟨stop, n, -, hrun⟩ :=
    exists_run_walkOn stack m.maxDepth c.depth c.shape c.subject t.pointer
  unfold Call.run
  rw [hrun t rfl, hrun (.start t.pointer) rfl]
  refine ⟨pointer_play stop _ t, result_play stop _ _ _, ?_⟩
  rw [report_play, report_play, Report.issues_addAll]
  rfl

theorem messages_run_start (c : Call S X) (p : Pointer) :
    (c.run stack m (.start p)).2.report.messages =
      (c.run stack m (.start p)).2.report.issues.map Issue.message := by
  have h := (run_call stack m c (.start p)).2.2
  have hmessages := congrArg Report.messages h
  rw [Report.messages_addAll] at hmessages
  exact hmessages

theorem pointer_after (calls : List (Call S X)) (t : Trail) :
    (after stack m calls t).pointer = t.pointer := by
  induction calls generalizing t with
  | nil => rfl
  | cons c calls ih => exact (ih (c.run stack m t).2).trans (run_call stack m c t).1

/-- **Calls do not disturb each other.** After any calls, a further one leaves the pointer where it
was at first, keeps the report as a beginning, and ends and adds as it does alone. -/
theorem run_call_after (calls : List (Call S X)) (c : Call S X) (t : Trail) :
    let former := after stack m calls t
    let now := c.run stack m former
    let alone := c.run stack m (.start t.pointer)
    now.2.pointer = t.pointer ∧
      former.report.issues <+: now.2.report.issues ∧
      former.report.messages <+: now.2.report.messages ∧
      now.2.report.issues = former.report.issues ++ alone.2.report.issues ∧
      now.2.report.messages = former.report.messages ++ alone.2.report.messages ∧
      now.1 = alone.1 := by
  intro former now alone
  have hp : former.pointer = t.pointer := pointer_after stack m calls t
  obtain ⟨hpointer, hresult, hreport⟩ := run_call stack m c former
  rw [hp] at hpointer hresult hreport
  have hissues : now.2.report.issues = former.report.issues ++ alone.2.report.issues :=
    (congrArg Report.issues hreport).trans (Report.issues_addAll _ _)
  have hmessages : now.2.report.messages = former.report.messages ++ alone.2.report.messages := by
    rw [messages_run_start]
    exact (congrArg Report.messages hreport).trans (Report.messages_addAll _ _)
  refine ⟨hpointer, ?_, ?_, hissues, hmessages, hresult⟩
  · rw [hissues]
    exact List.prefix_append _ _
  · rw [hmessages]
    exact List.prefix_append _ _

end Conform.Matching
