import Conform.Proofs.Matching.Session
import Conform.Result

/-!
# Reports that are built up

A report comes of an empty one by adding issues and by walks, some of which may stop with an error. All
that it ever holds is the record of what was added, in order: its messages are those of the record, its
status is that of a failure once the record has begun, and the record can be told from the report written
out. So whatever is counted, listed or compared from one of these is the same as from another.
-/
namespace Conform

theorem IssueKind.name_injective : Function.Injective IssueKind.name := by
  intro k l h
  have hk := IssueKind.ofName?_name k
  rw [h, IssueKind.ofName?_name l] at hk
  exact (Option.some.inj hk).symm

theorem Status.name_injective : Function.Injective Status.name := by
  intro s t h
  cases s <;> cases t <;> first | rfl | exact absurd h (by decide)

theorem Issue.toJson_injective : Function.Injective Issue.toJson := by
  rintro ⟨kind, message, path⟩ ⟨kind', message', path'⟩ h
  simp only [Issue.toJson, Json.object.injEq, List.cons.injEq, Prod.mk.injEq, Json.str.injEq] at h
  obtain ⟨⟨-, hkind⟩, ⟨-, rfl⟩, ⟨-, rfl⟩, -⟩ := h
  rw [IssueKind.name_injective hkind]

namespace Report

open Matching (Call capped levels unfolding reached issuesOf)

variable {r : Report}

theorem isOk_iff : r.isOk = true ↔ r.messages = [] := by
  unfold isOk status
  cases r.messages <;> simp

theorem status_name_eq_ok_iff : r.status.name = "ok" ↔ r.messages = [] := by
  unfold status
  cases r.messages <;> simp [Status.name]

theorem status_name_eq_failed_iff : r.status.name = "failed" ↔ r.messages ≠ [] := by
  unfold status
  cases r.messages <;> simp [Status.name]

theorem addAll_append (issues more : List Issue) (r : Report) :
    r.addAll (issues ++ more) = (r.addAll issues).addAll more := List.foldl_append

theorem status_ofIssues_eq_failed_iff (issues : List Issue) :
    (ofIssues issues).status = .failed ↔ issues ≠ [] := by
  cases issues <;> simp [status]

theorem beq_iff {r s : Report} : (r == s) = true ↔ r.issues = s.issues := decide_eq_true_iff

/-- What is written out about a report tells all that it holds. -/
theorem fields_eq_iff {r s : Report} :
    r.fields = s.fields ↔ r.status = s.status ∧ r.messages = s.messages ∧ r.issues = s.issues := by
  have hmessages : r.messages.map Json.str = s.messages.map .str ↔ r.messages = s.messages :=
    (List.map_injective_iff.mpr fun _ _ => Json.str.inj).eq_iff
  have hissues : r.issues.map Issue.toJson = s.issues.map Issue.toJson ↔ r.issues = s.issues :=
    (List.map_injective_iff.mpr Issue.toJson_injective).eq_iff
  simp only [fields, List.cons.injEq, Prod.mk.injEq, Json.str.injEq, Json.array.injEq, true_and,
    and_true, Status.name_injective.eq_iff, hmessages, hissues]

/-! ## Histories -/

/-- What may happen to a report: an issue is added, or a walk is called somewhere, whether it returns or
stops with an error. -/
inductive Event : Type 1
  | add (issue : Issue)
  | call {S X : Type} [Node S] [Node X] (stack : Option Nat) (m : Matcher) (c : Call S X)
      (p : Pointer)

namespace Event

def apply (r : Report) : Event → Report
  | .add issue => r.add issue
  | @call _ _ _ _ stack m c p => (c.run stack m ⟨r, p, []⟩).2.report

/-- The issues that are added in an event, in order. Those of a walk come from its acts before the first
level that may not be entered any more, if there is one. -/
def recorded : Event → List Issue
  | .add issue => [issue]
  | @call _ _ _ _ stack m c p =>
    issuesOf (reached (unfolding (capped stack (levels m.maxDepth c.depth)) p c.shape c.subject))

theorem apply_eq (r : Report) (e : Event) : e.apply r = r.addAll e.recorded := by
  cases e with
  | add issue => rfl
  | call stack m c p =>
    obtain ⟨stop, hrun⟩ := Matching.runs_walkOn stack m.maxDepth c.depth c.shape c.subject p
    have hplay := congrArg (fun outcome => outcome.2.report) (hrun ⟨r, p, []⟩ rfl)
    exact hplay.trans (Matching.report_play stop _ _)

end Event

/-- The report after some events. -/
def after (r : Report) (history : List Event) : Report := history.foldl Event.apply r

/-- Everything that was recorded, in order. -/
def record (history : List Event) : List Issue := history.flatMap Event.recorded

theorem after_append (r : Report) (history later : List Event) :
    r.after (history ++ later) = (r.after history).after later := List.foldl_append

/-- A report holds what it held before and what was recorded since. -/
theorem after_eq (r : Report) (history : List Event) :
    r.after history = r.addAll (record history) := by
  induction history generalizing r with
  | nil => rfl
  | cons e history ih =>
    show (e.apply r).after history = _
    rw [ih, Event.apply_eq, ← addAll_append]
    rfl

theorem empty_after (history : List Event) :
    empty.after history = ofIssues (record history) := after_eq empty history

/-- The reports that come of an empty one. -/
inductive Built : Report → Prop
  | empty : Built .empty
  | add (issue : Issue) {r : Report} (h : Built r) : Built (r.add issue)
  /-- A walk is called on a report, whether it returns or not. -/
  | call {S X : Type} [Node S] [Node X] (stack : Option Nat) (m : Matcher) (c : Matching.Call S X)
      {t : Trail} (h : Built t.report) : Built (c.run stack m t).2.report

theorem built_of_verifyOn {S X : Type} [Node S] [Node X] {stack : Stack} {m : Matcher} {shape : S}
    {subject : X} (h : m.verifyOn stack shape subject = .ok r) : Built r := by
  obtain ⟨t, hrun, rfl⟩ := Matcher.exists_run_of_verifyOn h
  let c : Matching.Call S X := ⟨shape, subject, 0⟩
  have hcall : Built (c.run stack.walk m (.start .root)).2.report := .call stack.walk m c .empty
  rw [Matching.Call.run, hrun] at hcall
  exact hcall

theorem Built.after (h : Built r) (history : List Event) : Built (r.after history) := by
  induction history generalizing r with
  | nil => exact h
  | cons e history ih =>
    refine ih (r := e.apply r) ?_
    cases e with
    | add issue => exact .add issue h
    | call stack m c p => exact .call stack m c (t := ⟨r, p, []⟩) h

/-- The reports that come of an empty one are those that have a history. -/
theorem built_iff : Built r ↔ ∃ history, Report.empty.after history = r := by
  refine ⟨fun h => ?_, fun ⟨history, hr⟩ => hr ▸ Built.empty.after history⟩
  induction h with
  | empty => exact ⟨[], rfl⟩
  | add issue _ ih =>
    obtain ⟨history, rfl⟩ := ih
    exact ⟨history ++ [.add issue], after_append _ _ _⟩
  | @call S X _ _ stack m c t _ ih =>
    obtain ⟨history, hr⟩ := ih
    refine ⟨history ++ [.call stack m c t.pointer], ?_⟩
    -- What a walk adds does not depend on the remarks before it.
    rw [after_append, hr, (Matching.run_call stack m c t).2.2]
    exact (Matching.run_call stack m c ⟨t.report, t.pointer, []⟩).2.2

theorem Built.messages_eq (h : Built r) : r.messages = r.issues.map Issue.message := by
  obtain ⟨history, rfl⟩ := built_iff.mp h
  rw [empty_after, messages_ofIssues, issues_ofIssues]

/-- **A report shows its record, in every view.** Let a report be empty at first, and then let issues be
added and walks be called in any order, whether they return or stop. The issues are those recorded, and
the messages are theirs. The status is that of a failure exactly if something was recorded, and it stays
so whatever happens later. Two such reports are equal exactly if the same is written out about them, and
that is if the same kinds, messages and paths were recorded in the same order. -/
theorem views_of_history (history other : List Event) :
    let r := empty.after history
    let s := empty.after other
    r.issues = record history ∧ r.messages = r.issues.map Issue.message ∧
      (r.status = .failed ↔ record history ≠ []) ∧
      (∀ later, r.status = .failed → (r.after later).status = .failed) ∧
      ((r == s) = true ↔ r.fields = s.fields) ∧
      (r.fields = s.fields ↔ record history = record other) := by
  intro r s
  have hr : r = ofIssues (record history) := empty_after history
  have hs : s = ofIssues (record other) := empty_after other
  have hissues : r.issues = record history := by rw [hr, issues_ofIssues]
  have hfailed : r.status = .failed ↔ record history ≠ [] := by
    rw [hr, status_ofIssues_eq_failed_iff]
  have hwritten : r.fields = s.fields ↔ record history = record other := by
    rw [fields_eq_iff, hr, hs]
    simp only [messages_ofIssues, issues_ofIssues]
    exact ⟨fun h => h.2.2, fun h => by simp only [h, and_self]⟩
  have hbuilt : Built r := built_iff.mpr ⟨history, rfl⟩
  refine ⟨hissues, hbuilt.messages_eq, hfailed, fun later h => ?_, ?_, hwritten⟩
  · have hlater : r.after later = ofIssues (record (history ++ later)) := by
      rw [← empty_after, after_append]
    rw [hlater, status_ofIssues_eq_failed_iff, record, List.flatMap_append]
    exact List.append_ne_nil_of_left_ne_nil (hfailed.mp h) _
  · rw [beq_iff, hwritten, hissues, hs, issues_ofIssues]

def houseShape : Value :=
  .record [("name", .null), ("rooms", .record [("hall", .record [("door", .null)])])]

def house : Value := .record [("rooms", .record [("hall", .record [])])]

def noKeys : Issue := ⟨.emptyArray, "Expected data in array at /keys; found nothing", "/keys"⟩

/-- A walk, which stops before the hall if that is too deep, and an issue that is added after it. -/
def walked (m : Matcher) : List Event :=
  [.call none m (⟨houseShape, house, 0⟩ : Call Value Value) .root, .add noKeys]

/-- The same issues, added one by one. -/
def added : List Event :=
  [.add ⟨.missingRequiredKey, "Missing required key 'name' at /", "/"⟩, .add noKeys]

theorem views_of_history_walked :
    let m : Matcher := ⟨1, false, by decide⟩
    ((⟨houseShape, house, 0⟩ : Call Value Value).run none m (.start .root)).1 =
        .error (.tooDeep 1 "/rooms/hall") ∧
      record (walked m) = record added ∧ (empty.after (walked m) == empty.after added) = true ∧
      (empty.after (walked m)).status = .failed ∧
      ∀ later, ((empty.after (walked m)).after later).status = .failed := by
  intro m
  obtain ⟨-, -, hfailed, hstays, hequal, hwritten⟩ := views_of_history (walked m) added
  have hsame : record (walked m) = record added := rfl
  have hnow : (empty.after (walked m)).status = .failed :=
    hfailed.mpr (hsame ▸ List.cons_ne_nil _ _)
  exact ⟨rfl, hsame, hequal.mpr (hwritten.mpr hsame), hnow, fun later => hstays later hnow⟩

end Report
end Conform
