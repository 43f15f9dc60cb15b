import Conform.Document.Value
import Conform.Proofs.Matching.Run

/-!
# Walks that are cut short

A limit ends a walk at the first level that lies too deep, unless a fault ended it before. Up to there
the walk does what it does with any greater limit: what it leaves in the report is a beginning of what
the walk with the greater limit leaves there, and nothing is reported for the reason that the walk is
about to end.
-/
namespace Conform.Matching

section Unfolding

variable {S X : Type}

/-- What is reached before the first stop stays as it is when the entries are expanded. -/
theorem reached_prefix_flatMap (as : List (Act S X)) (f : Pointer → S → X → List (Act S X)) :
    reached as <+: reached (as.flatMap (Act.expand f)) := by
  induction as with
  | nil => exact List.prefix_refl _
  | cons a as ih =>
    cases a with
    | issue i => exact (List.prefix_cons_inj _).mpr ih
    | remark text => exact (List.prefix_cons_inj _).mpr ih
    | enter p shape subject => exact List.nil_prefix
    | fault => exact List.nil_prefix

variable [Node S] [Node X]

theorem reached_unfolding_mono {m n : Nat} (h : m ≤ n) (p : Pointer) (shape : S) (subject : X) :
    reached (unfolding m p shape subject) <+: reached (unfolding n p shape subject) := by
  obtain ⟨k, rfl⟩ := Nat.exists_eq_add_of_le h
  rw [unfolding_add]
  exact reached_prefix_flatMap _ _

end Unfolding

variable {S X : Type} [Node S] [Node X]

/-- **A lower limit loses only a suffix.** Whether the walk with the lower limit stops or returns, it
adds a beginning of the issues that the walk with the greater limit adds, and all of them if it
returns. -/
theorem lower_limit_loses_suffix (stack : Option Nat) (shape : S) (subject : X)
    (depth limit limit' : Int) (hle : limit ≤ limit') (t : Trail) :
    let lower := (walkOn stack limit depth shape subject).run t
    let greater := (walkOn stack limit' depth shape subject).run t
    ∃ found rest : List Issue,
      lower.2.report.issues = t.report.issues ++ found ∧
      greater.2.report.issues = t.report.issues ++ (found ++ rest) ∧
      lower.2.report.messages = t.report.messages ++ found.map Issue.message ∧
      greater.2.report.messages = t.report.messages ++ (found ++ rest).map Issue.message ∧
      (lower.1 = .ok () → rest = [] ∧ greater.1 = .ok ()) := by
  intro lower greater
  -- Both walks play an unfolding up to where it stops them, and the one continues the other.
  let few := unfolding (capped stack (levels limit depth)) t.pointer shape subject
  let many := unfolding (capped stack (levels limit' depth)) t.pointer shape subject
  have hlevels : capped stack (levels limit depth) ≤ capped stack (levels limit' depth) :=
    capped_mono stack (levels_mono depth hle)
  obtain ⟨stop, hlower⟩ := runs_walkOn stack limit depth shape subject t.pointer
  obtain ⟨stop', hgreater⟩ := runs_walkOn stack limit' depth shape subject t.pointer
  have hl : lower = play stop few t := hlower t rfl
  have hg : greater = play stop' many t := hgreater t rfl
  obtain ⟨rest, hrest⟩ : issuesOf (reached few) <+: issuesOf (reached many) :=
    (reached_unfolding_mono hlevels t.pointer shape subject).filterMap Act.issue?
  refine ⟨issuesOf (reached few), rest, ?_⟩
  rw [hrest, hl, hg, report_play, report_play]
  refine ⟨Report.issues_addAll _ _, Report.issues_addAll _ _, Report.messages_addAll _ _,
    Report.messages_addAll _ _, fun hok => ?_⟩
  have hfin : Finished few := (play_ok_iff stop few t).mp hok
  have hsame : many = few := unfolding_of_complete hfin.complete hlevels
  rw [hsame] at hrest ⊢
  exact ⟨List.append_right_eq_self.mp hrest, (play_ok_iff stop' few t).mpr hfin⟩

/-- A key is missing before the level that lies too deep for a limit of one, and another one in it. -/
def rooms : Value :=
  .record [("name", .null), ("rooms", .record [("hall", .record [("door", .null)])])]

def emptyRooms : Value := .record [("rooms", .record [("hall", .record [])])]

theorem lower_limit_loses_suffix_rooms :
    (1 : Int) ≤ 2 ∧
      ((walkOn none 1 0 rooms emptyRooms).run (.start .root)).1 =
        .error (.tooDeep 1 "/rooms/hall") ∧
      ∃ found rest : List Issue,
        found.map Issue.message = ["Missing required key 'name' at /"] ∧
        rest.map Issue.message = ["Missing required key 'door' at /rooms/hall"] ∧
        ((walkOn none 1 0 rooms emptyRooms).run (.start .root)).2.report.issues = found ∧
        ((walkOn none 2 0 rooms emptyRooms).run (.start .root)).2.report.issues = found ++ rest := by
  obtain ⟨found, rest, hlower, hgreater, -, -, -⟩ :=
    lower_limit_loses_suffix none rooms emptyRooms 0 1 2 (by decide) (.start .root)
  have hfound : found.map Issue.message = ["Missing required key 'name' at /"] :=
    congrArg (List.map Issue.message) hlower.symm
  refine ⟨by decide, rfl, found, rest, hfound, ?_, hlower, hgreater⟩
  have hall := congrArg (List.map Issue.message) hgreater.symm
  rw [List.map_append, List.map_append, hfound] at hall
  exact (List.append_right_inj ["Missing required key 'name' at /"]).mp hall

end Conform.Matching
