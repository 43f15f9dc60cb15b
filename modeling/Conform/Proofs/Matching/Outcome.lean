import Conform.Matching.Verify
import Conform.Proofs.Matching.Run

/-!
# The outcome of a verification

What a lenient verification comes to can be read off the acts of its walk. If none of them stops it, it
returns the report of their issues; otherwise it stops at the first one that does. The
stack and the limit decide how far the walk is unfolded and for which reason it stops, and have no
other part in it: two verifications are compared by comparing their acts.
-/
namespace Conform.Matching

variable {S X : Type}

/-- What an act stops a walk for, if `stop` says why no level is left to be entered. -/
def Act.error? (stop : Pointer → WalkError) : Act S X → Option WalkError
  | .enter p _ _ => some (stop p)
  | .fault => some .unwritable
  | _ => none

/-- What there is to stop a walk, in order. -/
def pending (stop : Pointer → WalkError) (as : List (Act S X)) : List WalkError :=
  as.filterMap (Act.error? stop)

theorem pending_eq_nil_iff (stop : Pointer → WalkError) (as : List (Act S X)) :
    pending stop as = [] ↔ Finished as := by
  rw [pending, List.filterMap_eq_nil_iff]
  refine forall₂_congr fun a _ => ?_
  cases a <;> simp [Act.error?]

theorem mem_pending {stop : Pointer → WalkError} {as : List (Act S X)} {e : WalkError}
    (h : e ∈ pending stop as) :
    (∃ p, e = stop p) ∧ ¬ Complete as ∨ e = .unwritable ∧ .fault ∈ as := by
  obtain ⟨a, ha, he⟩ := List.mem_filterMap.mp h
  cases a with
  | issue i => cases he
  | remark text => cases he
  | enter p shape subject =>
    exact .inl ⟨⟨p, (Option.some.inj he).symm⟩, fun hcomplete => nomatch hcomplete _ ha⟩
  | fault => exact .inr ⟨(Option.some.inj he).symm, ha⟩

/-- Acts stop a walk at the first of them that there is to stop it. -/
theorem result_play_eq (stop : Pointer → WalkError) (as : List (Act S X)) (t : Trail) :
    (play stop as t).1 =
      match pending stop as with
      | [] => .ok ()
      | e :: _ => .error e := by
  induction as generalizing t with
  | nil => rfl
  | cons a as ih =>
    cases a with
    | issue i => exact ih _
    | remark text => exact ih _
    | enter p shape subject => rfl
    | fault => rfl

end Conform.Matching

namespace Conform

/-! A verification may stop because its documents are nested too deeply, for the limit or for the
stack, in the listing or in the walk. -/

def WalkError.isDepth : WalkError → Bool
  | .tooDeep .. => true
  | .stackExhausted => true
  | .unwritable => false
  | .pointer _ => false

def Lint.Error.isDepth : Lint.Error → Bool
  | .tooDeep .. => true
  | .stackExhausted _ => true
  | .unwritable => false

def VerifyError.isDepth : VerifyError → Bool
  | .root _ => false
  | .ambiguous _ => false
  | .lint e => e.isDepth
  | .walk _ e => e.isDepth

theorem Matching.isDepth_stopOn (stack : Option Nat) (limit depth : Int) (p : Pointer) :
    (stopOn stack limit depth p).isDepth = true := by
  unfold stopOn
  cases stack with
  | none => rfl
  | some held =>
    dsimp only
    split <;> rfl

end Conform

namespace Conform.Matcher

open Matching

variable {S X : Type}

/-- What a verification comes to whose walk consists of these acts. -/
def settle (stop : Pointer → WalkError) (maxDepth : Int) (as : List (Act S X)) :
    Except VerifyError Report :=
  match pending stop as with
  | [] => .ok (.ofIssues (issuesOf as))
  | e :: _ => .error (.walk maxDepth e)

theorem settle_eq_ok_iff {stop : Pointer → WalkError} {maxDepth : Int} {as : List (Act S X)}
    {r : Report} :
    settle stop maxDepth as = .ok r ↔ Finished as ∧ r = .ofIssues (issuesOf as) := by
  rw [← pending_eq_nil_iff stop]
  unfold settle
  cases pending stop as with
  | nil => simp [eq_comm]
  | cons e es => simp

/-- A walk is settled in one of three ways: with a report, for want of levels, or at a fault. -/
theorem settle_cases (stop : Pointer → WalkError) (maxDepth : Int) (as : List (Act S X)) :
    (Finished as ∧ settle stop maxDepth as = .ok (.ofIssues (issuesOf as))) ∨
      (¬ Complete as ∧ ∃ p, settle stop maxDepth as = .error (.walk maxDepth (stop p))) ∨
      (.fault ∈ as ∧ settle stop maxDepth as = .error (.walk maxDepth .unwritable)) := by
  rw [← pending_eq_nil_iff stop]
  unfold settle
  cases hp : pending stop as with
  | nil => exact .inl ⟨rfl, rfl⟩
  | cons e es =>
    rcases mem_pending (hp ▸ List.mem_cons_self) with ⟨⟨p, rfl⟩, hleft⟩ | ⟨rfl, hfault⟩
    · exact .inr (.inl ⟨hleft, p, rfl⟩)
    · exact .inr (.inr ⟨hfault, rfl⟩)

/-- Acts with the same to stop a walk stop it for the same. -/
theorem settle_eq_error_iff_of_pending {T Y : Type} {stop : Pointer → WalkError} {maxDepth : Int}
    {as : List (Act S X)} {bs : List (Act T Y)} (h : pending stop as = pending stop bs)
    (e : VerifyError) : settle stop maxDepth as = .error e ↔ settle stop maxDepth bs = .error e := by
  unfold settle
  rw [h]
  cases pending stop bs with
  | nil => simp
  | cons e es => rfl

theorem settle_play (stop : Pointer → WalkError) (maxDepth : Int) (as : List (Act S X)) :
    (match play stop as (.start .root) with
      | (.ok (), t) => .ok t.report
      | (.error e, _) => .error (.walk maxDepth e)) = settle stop maxDepth as := by
  have hresult := result_play_eq stop as (.start .root)
  have hreport := report_play stop as (.start .root)
  unfold settle
  rcases hplay : play stop as (.start .root) with ⟨result, t⟩
  rw [hplay] at hresult hreport
  cases hp : pending stop as with
  | nil =>
    obtain rfl : result = .ok () := by rw [hp] at hresult; exact hresult
    rw [reached_of_finished ((pending_eq_nil_iff stop as).mp hp)] at hreport
    exact congrArg Except.ok hreport
  | cons e es =>
    obtain rfl : result = .error e := by rw [hp] at hresult; exact hresult
    rfl

variable [Node S] [Node X]

/-- The acts of a verification: those from the root, over as many levels as the limit and the stack
allow. -/
def unfolded (stack : Stack) (m : Matcher) (shape : S) (subject : X) : List (Act S X) :=
  unfolding (capped stack.walk (levels m.maxDepth 0)) .root shape subject

/-- A lenient verification settles what its acts say. -/
theorem verifyOn_eq_settle (stack : Stack) {m : Matcher} (hm : m.strict = false) {shape : S}
    (hs : Node.kind shape = .mapping) (subject : X) :
    m.verifyOn stack shape subject =
      settle (stopOn stack.walk m.maxDepth 0) m.maxDepth (m.unfolded stack shape subject) := by
  obtain ⟨entries, hv⟩ := Node.exists_view_mapping hs
  rw [verifyOn_lenient hm hv, runs_stopOn stack.walk m.maxDepth 0 shape subject .root _ rfl]
  exact settle_play _ m.maxDepth _

/-- All lenient verifications by one matcher stop for the same reason. -/
theorem exists_settle (stack : Stack) {m : Matcher} (hm : m.strict = false) :
    ∃ stop, ∀ {S X : Type} [Node S] [Node X] {shape : S} (_ : Node.kind shape = .mapping)
      (subject : X),
      m.verifyOn stack shape subject = settle stop m.maxDepth (m.unfolded stack shape subject) :=
  ⟨_, fun hs subject => verifyOn_eq_settle stack hm hs subject⟩

variable {stack : Stack} {m : Matcher} {shape : S} {subject : X} {r : Report}

/-- Only a mapping is verified against. -/
theorem kind_of_verifyOn (h : m.verifyOn stack shape subject = .ok r) :
    Node.kind shape = .mapping := by
  unfold verifyOn outcomeOn at h
  split at h
  · rename_i entries hs
    exact Node.kind_of_mapping hs
  · cases h

/-- A lenient verification returns a report, or it stops for want of levels, or at a fault. -/
theorem verifyOn_cases (stack : Stack) {m : Matcher} (hm : m.strict = false) {shape : S}
    (hs : Node.kind shape = .mapping) (subject : X) :
    (Finished (m.unfolded stack shape subject) ∧
      m.verifyOn stack shape subject = .ok (.ofIssues (issuesOf (m.unfolded stack shape subject)))) ∨
    (¬ Complete (m.unfolded stack shape subject) ∧ ∃ p,
      m.verifyOn stack shape subject =
        .error (.walk m.maxDepth (stopOn stack.walk m.maxDepth 0 p))) ∨
    (.fault ∈ m.unfolded stack shape subject ∧
      m.verifyOn stack shape subject = .error (.walk m.maxDepth .unwritable)) := by
  rw [verifyOn_eq_settle stack hm hs]
  exact settle_cases _ m.maxDepth _

theorem verifyOn_eq_ok_iff (hm : m.strict = false) (hs : Node.kind shape = .mapping) :
    m.verifyOn stack shape subject = .ok r ↔
      Finished (m.unfolded stack shape subject) ∧
        r = .ofIssues (issuesOf (m.unfolded stack shape subject)) := by
  obtain ⟨stop, hsettle⟩ := exists_settle stack hm
  rw [hsettle hs subject]
  exact settle_eq_ok_iff

end Conform.Matcher
