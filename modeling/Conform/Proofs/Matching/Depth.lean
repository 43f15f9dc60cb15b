import Mathlib.Order.Bounds.Basic
import Mathlib.Order.Lattice.Nat
import Conform.Proofs.Matching.Keys
import Conform.Proofs.Matching.Outcome

/-!
# The depth of a walk

Which levels a walk would enter, if nothing bounded it, follows from the shape and the subject alone.
Unless a key has no text, a limit stops a walk exactly if one of these levels lies below it, and
otherwise has no part in what is found. Under a shape that is a tree there is a deepest level, so a limit
from there on gives one and the same report.
-/
namespace Conform.Matching

variable {S X : Type} [Node S] [Node X]

/-- A walk from the shape and the subject on, that nothing bounds, enters a level so much deeper. -/
inductive Enters : S → X → Nat → Prop
  | here (shape : S) (subject : X) : Enters shape subject 0
  | lower {shape : S} {subject : X} {next : S × X} {d : Nat} (h : next ∈ lower shape subject)
      (hd : Enters next.1 next.2 d) : Enters shape subject (d + 1)

theorem not_complete_unfolding_succ (n : Nat) (p : Pointer) (shape : S) (subject : X) :
    ¬ Complete (unfolding (n + 1) p shape subject) ↔
      ∃ q s x, .enter q s x ∈ acts p shape subject ∧ ¬ Complete (unfolding n q s x) := by
  simp only [Complete, unfolding, List.forall_mem_flatMap, not_forall]
  constructor
  · rintro ⟨a, ha, b, hb, hn⟩
    cases a with
    | issue i =>
      rw [List.mem_singleton.mp hb] at hn
      exact absurd rfl hn
    | remark text =>
      rw [List.mem_singleton.mp hb] at hn
      exact absurd rfl hn
    | enter q s x => exact ⟨q, s, x, ha, b, hb, hn⟩
    | fault =>
      rw [List.mem_singleton.mp hb] at hn
      exact absurd rfl hn
  · rintro ⟨q, s, x, hq, b, hb, hn⟩
    exact ⟨_, hq, b, hb, hn⟩

/-- What is left to enter of an unfolding over `n` levels is what lies `n` levels deeper. -/
theorem enters_iff (n : Nat) (p : Pointer) (shape : S) (subject : X) :
    Enters shape subject n ↔ ¬ Complete (unfolding n p shape subject) := by
  induction n generalizing p shape subject with
  | zero => simpa [unfolding, Complete] using Enters.here shape subject
  | succ n ih =>
    rw [not_complete_unfolding_succ]
    constructor
    · rintro (_ | ⟨h, hd⟩)
      obtain ⟨q, hq⟩ := (mem_lower_iff p _).mp h
      exact ⟨q, _, _, hq, (ih q _ _).mp hd⟩
    · rintro ⟨q, s, x, hq, hn⟩
      exact .lower ((mem_lower_iff p (s, x)).mpr ⟨q, hq⟩) ((ih q s x).mpr hn)

/-- A level that is entered lies below one that is entered. -/
theorem Enters.pred {shape : S} {subject : X} {d : Nat} (h : Enters shape subject (d + 1)) :
    Enters shape subject d := by
  rw [enters_iff _ .root] at h ⊢
  intro hf
  rw [unfolding_of_complete hf (Nat.le_succ d)] at h
  exact h hf

theorem Enters.of_le {shape : S} {subject : X} {c d : Nat} (h : Enters shape subject d)
    (hle : c ≤ d) : Enters shape subject c := by
  induction hle with
  | refl => exact h
  | step _ ih => exact ih h.pred

section Trees

theorem sizeOf_lt_of_part {shape part : Value} (h : Part shape part) :
    sizeOf part < sizeOf shape := by
  rcases h with ⟨hs, hp⟩ | ⟨hs, he⟩
  · cases shape <;> cases hs
    have hlt := List.sizeOf_lt_of_mem (List.mem_of_mem_head? hp)
    simp only [Value.sequence.sizeOf_spec]
    omega
  · cases shape <;> cases hs
    have hlt := List.sizeOf_lt_of_mem he
    simp only [Prod.mk.sizeOf_spec] at hlt
    simp only [Value.mapping.sizeOf_spec]
    omega

theorem sizeOf_lt_of_parts {shape part : Value} (h : Relation.TransGen Part shape part) :
    sizeOf part < sizeOf shape := by
  induction h with
  | single hp => exact sizeOf_lt_of_part hp
  | tail _ hp ih => exact (sizeOf_lt_of_part hp).trans ih

/-- The levels of a walk under a tree are no more than the tree has parts. -/
theorem Enters.le_sizeOf {shape : Value} {subject : X} {d : Nat} (h : Enters shape subject d) :
    d ≤ sizeOf shape := by
  induction h with
  | here shape subject => exact Nat.zero_le _
  | lower h _ ih =>
    have hlt := sizeOf_lt_of_parts (below_of_mem_lower h).1
    omega

theorem exists_deepest (shape : Value) (subject : X) :
    ∃ deepest, IsGreatest {d | Enters shape subject d} deepest := by
  have hbound : BddAbove {d | Enters shape subject d} := ⟨sizeOf shape, fun d h => h.le_sizeOf⟩
  have hmem := Nat.sSup_mem ⟨0, Enters.here shape subject⟩ hbound
  exact ⟨_, hmem, fun d h => le_csSup hbound h⟩

end Trees

/-- So many levels leave none to be entered exactly if they go beyond the deepest one. -/
theorem complete_iff_of_deepest {shape : S} {subject : X} {deepest : Nat}
    (hd : IsGreatest {d | Enters shape subject d} deepest) (n : Nat) (p : Pointer) :
    Complete (unfolding n p shape subject) ↔ deepest < n := by
  have hn : Enters shape subject n ↔ n ≤ deepest := ⟨fun h => hd.2 h, fun h => hd.1.of_le h⟩
  rw [enters_iff n p] at hn
  rw [← not_iff_not, hn, not_lt]

theorem lt_levels_iff {limit : Int} (h : 1 ≤ limit) (deepest : Nat) :
    deepest < levels limit 0 ↔ deepest ≤ limit := by
  unfold levels
  omega

end Conform.Matching

namespace Conform.Matcher

open Matching

variable {S X : Type} [Node S] [Node X] {m : Matcher} {shape : S} {subject : X}

section Unbounded

variable (hm : m.strict = false) (hs : Node.kind shape = .mapping)
include hm hs

/-! A lenient matcher on a stack without bound. -/

/-- A limit that lies below no level of the walk does not stop it. -/
theorem verifyOn_of_enters_le (h : ∀ d, Enters shape subject d → d ≤ m.maxDepth) :
    (∃ r, m.verifyOn .unbounded shape subject = .ok r) ∨
      ¬ (PartsWritable shape ∧ KeysWritable subject) ∧
        m.verifyOn .unbounded shape subject = .error (.walk m.maxDepth .unwritable) := by
  rcases verifyOn_cases .unbounded hm hs subject with ⟨-, hok⟩ | ⟨hleft, -⟩ | ⟨hfault, herror⟩
  · exact .inl ⟨_, hok⟩
  · have hle := h _ ((enters_iff _ .root shape subject).mpr hleft)
    have hpositive := m.positive
    simp only [capped, Stack.unbounded, levels] at hle
    omega
  · exact .inr ⟨not_writable_of_fault hfault, herror⟩

/-- A limit stops a walk with a deeper level, unless a key stops it. -/
theorem verifyOn_of_enters_gt {d : Nat} (h : Enters shape subject d) (hlt : m.maxDepth < d) :
    (∃ path, m.verifyOn .unbounded shape subject =
      .error (.walk m.maxDepth (.tooDeep m.maxDepth path))) ∨
      ¬ (PartsWritable shape ∧ KeysWritable subject) ∧
        m.verifyOn .unbounded shape subject = .error (.walk m.maxDepth .unwritable) := by
  have hle : levels m.maxDepth 0 ≤ d := by
    unfold levels
    omega
  have hleft := (enters_iff _ .root shape subject).mp (h.of_le hle)
  rcases verifyOn_cases .unbounded hm hs subject with ⟨hfinished, -⟩ | ⟨-, p, hp⟩ | ⟨hfault, herror⟩
  · exact absurd hfinished.complete hleft
  · exact .inl ⟨p.render, hp⟩
  · exact .inr ⟨not_writable_of_fault hfault, herror⟩

omit hs in
/-- The first key of a shape stops every walk if it has no text. -/
theorem verifyOn_of_first_key {key : Key} {value : S} {entries : Entries S}
    (hs : Node.view shape = .mapping ((key, value) :: entries)) (hkey : key.isWritable = false) :
    m.verifyOn .unbounded shape subject = .error (.walk m.maxDepth .unwritable) := by
  have hpositive := m.positive
  obtain ⟨n, hn⟩ : ∃ n, levels m.maxDepth 0 = n + 1 := ⟨m.maxDepth.toNat, by unfold levels; omega⟩
  have hfirst : ∃ as, m.unfolded .unbounded shape subject = .fault :: as := by
    simp [unfolded, Stack.unbounded, capped, hn, unfolding, acts, hs, entryActs, textActs, hkey,
      Act.expand]
  obtain ⟨as, has⟩ := hfirst
  rw [verifyOn_eq_settle .unbounded hm (Node.kind_of_mapping hs), has]
  rfl

end Unbounded

/-- **A limit only decides whether a walk ends.** Under a shape that is a tree there is a deepest
level, counted from the root. A lenient matcher with a lower limit stops for it, and with every other limit
it returns one and the same report, unless a key that has no text stops it before. A greater limit keeps
every report that was returned. -/
theorem limit_decides_end (entries : Entries Value) (subject : X) :
    ∃ (deepest : Nat) (r : Report),
      IsGreatest {d | Enters (Value.mapping entries) subject d} deepest ∧
      (∀ m : Matcher, m.strict = false →
        (m.maxDepth < deepest ∧ ∃ path, m.verifyOn .unbounded (Value.mapping entries) subject =
          .error (.walk m.maxDepth (.tooDeep m.maxDepth path))) ∨
        (deepest ≤ m.maxDepth ∧ m.verifyOn .unbounded (Value.mapping entries) subject = .ok r) ∨
        (¬ (PartsWritable (Value.mapping entries) ∧ KeysWritable subject) ∧
          m.verifyOn .unbounded (Value.mapping entries) subject =
            .error (.walk m.maxDepth .unwritable))) ∧
      ∀ m m' : Matcher, m.strict = false → m'.strict = false → m.maxDepth ≤ m'.maxDepth →
        ∀ s, m.verifyOn .unbounded (Value.mapping entries) subject = .ok s →
          m'.verifyOn .unbounded (Value.mapping entries) subject = .ok s := by
  obtain ⟨deepest, hd⟩ := exists_deepest (Value.mapping entries) subject
  let whole := unfolding (deepest + 1) .root (Value.mapping entries) subject
  have hwhole : Complete whole := (complete_iff_of_deepest hd _ _).mpr (Nat.lt_succ_self deepest)
  have hwithin : ∀ m : Matcher,
      Complete (m.unfolded .unbounded (Value.mapping entries) subject) ↔ deepest ≤ m.maxDepth :=
    fun m => (complete_iff_of_deepest hd _ _).trans (lt_levels_iff m.positive deepest)
  have hsame : ∀ m : Matcher, deepest ≤ m.maxDepth →
      m.unfolded .unbounded (Value.mapping entries) subject = whole :=
    fun m hle => unfolding_of_complete hwhole ((lt_levels_iff m.positive deepest).mpr hle)
  refine ⟨deepest, .ofIssues (issuesOf whole), hd, fun m hm => ?_, fun m m' hm hm' hle s hok => ?_⟩
  · rcases verifyOn_cases .unbounded hm (rfl : Node.kind (Value.mapping entries) = _) subject with
      ⟨hfinished, hok⟩ | ⟨hleft, p, hp⟩ | ⟨hfault, herror⟩
    · have hle := (hwithin m).mp hfinished.complete
      rw [hsame m hle] at hok
      exact .inr (.inl ⟨hle, hok⟩)
    · exact .inl ⟨not_le.mp (mt (hwithin m).mpr hleft), p.render, hp⟩
    · exact .inr (.inr ⟨not_writable_of_fault hfault, herror⟩)
  · obtain ⟨hfinished, rfl⟩ := (verifyOn_eq_ok_iff hm rfl).mp hok
    have hdeep := (hwithin m).mp hfinished.complete
    rw [verifyOn_eq_ok_iff hm' rfl, hsame m' (hdeep.trans hle), ← hsame m hdeep]
    exact ⟨hfinished, rfl⟩

/-- Two levels below the root: an element of a sequence, and a mapping in it. -/
def nested : Entries Value := [(.str "n", .list [.record [("b", .record [("c", .null)])]])]

def narrow : Matcher := ⟨1, false, by decide⟩

def wide : Matcher := ⟨2, false, by decide⟩

theorem limit_decides_end_nested :
    ∃ (deepest : Nat) (r : Report),
      IsGreatest {d | Enters (Value.mapping nested) (Value.mapping nested) d} deepest ∧
      narrow.maxDepth < deepest ∧ deepest ≤ wide.maxDepth ∧
      (∃ path, narrow.verifyOn .unbounded (Value.mapping nested) (Value.mapping nested) =
        .error (.walk 1 (.tooDeep 1 path))) ∧
      wide.verifyOn .unbounded (Value.mapping nested) (Value.mapping nested) = .ok r := by
  obtain ⟨deepest, r, hd, hlimit, -⟩ := limit_decides_end nested (Value.mapping nested)
  have herror : narrow.verifyOn .unbounded (Value.mapping nested) (Value.mapping nested) =
      .error (.walk 1 (.tooDeep 1 "/n/b")) := rfl
  have hok : wide.verifyOn .unbounded (Value.mapping nested) (Value.mapping nested) =
      .ok ⟨[], []⟩ := rfl
  have hnarrow : narrow.maxDepth < deepest := by
    rcases hlimit narrow rfl with ⟨hlt, -⟩ | ⟨-, h⟩ | ⟨-, h⟩
    · exact hlt
    · cases herror.symm.trans h
    · cases herror.symm.trans h
  rcases hlimit wide rfl with ⟨-, path, h⟩ | ⟨hwide, h⟩ | ⟨-, h⟩
  · cases hok.symm.trans h
  · exact ⟨deepest, r, hd, hnarrow, hwide, ⟨_, herror⟩, h⟩
  · cases hok.symm.trans h

/-- No level lies below the root, so no limit is too low; but the key of the shape has no text. -/
theorem no_report_within_limit :
    IsGreatest {d | Enters (Value.mapping [(longKey, .null)]) (Value.mapping []) d} 0 ∧
      narrow.verifyOn .unbounded (Value.mapping [(longKey, .null)]) (Value.mapping []) =
        .error (.walk 1 .unwritable) := by
  refine ⟨⟨.here _ _, fun d hd => ?_⟩, verifyOn_of_first_key rfl rfl longKey_not_writable⟩
  cases hd with
  | here => exact Nat.le_refl 0
  | lower h => exact absurd h (not_mem_lower_of_no_parts rfl)

end Conform.Matcher
