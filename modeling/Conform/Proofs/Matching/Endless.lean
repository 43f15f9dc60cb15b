import Mathlib.Logic.Function.Iterate
import Conform.Proofs.Matching.Nesting

/-!
# Walks that could go on for ever

Documents may lead back to themselves, and then nothing in them bounds a walk; only the limit does. A
walk follows its own recursion, in which every level that is entered lies one deeper than the level
that enters it and a level beyond the limit is refused. This recursion has one solution, and what it
would do below the level that is refused has no part in it.

A walk that could go on for ever is stopped by every limit; any other is stopped by none from some
limit on. In particular a shape that leads back to itself can be matched with a subject that ends.
-/
namespace Conform.Matching

variable {S X : Type} [Node S] [Node X]

section Recursion

variable {limit : Int}

/-- A level at some depth: beyond the limit it is refused, and otherwise it is walked with what lies
`below` it. -/
def enterAt (limit depth : Int) (below : S → X → Walk Unit) (shape : S) (subject : X) : Walk Unit :=
  if limit < depth then do throw (.tooDeep limit (← get).pointer.render)
  else level below shape subject

theorem walkFrom_eq_enterAt (limit depth : Int) :
    (walkFrom limit depth : S → X → Walk Unit) =
      enterAt limit depth (walkFrom limit (depth + 1)) := by
  funext shape subject
  unfold enterAt
  by_cases h : limit < depth
  · have hlevels : levels limit depth = 0 := by
      unfold levels
      omega
    rw [if_pos h, walkFrom, hlevels]
    rfl
  · have hlevels : levels limit depth = levels limit (depth + 1) + 1 := by
      unfold levels
      omega
    rw [if_neg h, walkFrom, hlevels]
    rfl

/-- The recursion of a walk has only one solution. It need not be followed any further than to the
level that is refused, one beyond the limit: no level is entered below that. -/
theorem eq_walkFrom_of_enterAt {w : Int → S → X → Walk Unit}
    (hw : ∀ depth ≤ limit + 1, w depth = enterAt limit depth (w (depth + 1))) {depth : Int}
    (hle : depth ≤ limit + 1) : w depth = walkFrom limit depth := by
  obtain ⟨n, hn⟩ : ∃ n : Nat, depth + n = limit + 1 := ⟨(limit + 1 - depth).toNat, by omega⟩
  induction n generalizing depth with
  | zero =>
    have hlt : limit < depth := by omega
    rw [hw depth hle, walkFrom_eq_enterAt]
    funext shape subject
    rw [enterAt, enterAt, if_pos hlt, if_pos hlt]
  | succ n ih =>
    have hbelow : w (depth + 1) = walkFrom limit (depth + 1) := ih (by omega) (by omega)
    rw [hw depth hle, walkFrom_eq_enterAt, hbelow]

end Recursion

section Endless

variable {shape : S} {subject : X}

/-- From the shape and the subject on there is a walk without end, each level of which is entered by
the one before. -/
def Endless (shape : S) (subject : X) : Prop :=
  ∃ walk : Nat → S × X, walk 0 = (shape, subject) ∧
    ∀ i, walk (i + 1) ∈ lower (walk i).1 (walk i).2

theorem Endless.enters (h : Endless shape subject) (d : Nat) : Enters shape subject d := by
  obtain ⟨walk, hstart, hnext⟩ := h
  have hfrom : ∀ i, Enters (walk i).1 (walk i).2 d := by
    induction d with
    | zero => exact fun i => .here _ _
    | succ d ih => exact fun i => .lower (hnext i) (ih (i + 1))
  have hzero := hfrom 0
  rwa [hstart] at hzero

/-- Finitely many walks that end do so before some depth. -/
theorem exists_not_enters (nexts : List (S × X)) (h : ∀ n ∈ nexts, ∃ d, ¬ Enters n.1 n.2 d) :
    ∃ d, ∀ n ∈ nexts, ¬ Enters n.1 n.2 d := by
  induction nexts with
  | nil => exact ⟨0, fun n hn => absurd hn List.not_mem_nil⟩
  | cons next nexts ih =>
    obtain ⟨hhead, htail⟩ := List.forall_mem_cons.mp h
    obtain ⟨c, hc⟩ := hhead
    obtain ⟨d, hd⟩ := ih htail
    refine ⟨max c d, List.forall_mem_cons.mpr ⟨fun he => ?_, fun n hn he => ?_⟩⟩
    · exact hc (he.of_le (le_max_left c d))
    · exact hd n hn (he.of_le (le_max_right c d))

/-- A walk of any depth has a first step after which it still has any depth. -/
theorem exists_next_enters (h : ∀ d, Enters shape subject d) :
    ∃ next ∈ lower shape subject, ∀ d, Enters next.1 next.2 d := by
  by_contra hnone
  push Not at hnone
  obtain ⟨d, hd⟩ := exists_not_enters _ hnone
  obtain _ | ⟨hnext, hlower⟩ := h (d + 1)
  exact hd _ hnext hlower

/-- As a level enters finitely many others, a walk that nothing bounds goes on for ever. -/
theorem endless_of_enters (h : ∀ d, Enters shape subject d) : Endless shape subject := by
  -- Each level is carried along with the fact that any depth lies below it.
  have hnext : ∀ here : {n : S × X // ∀ d, Enters n.1 n.2 d},
      ∃ next : {n : S × X // ∀ d, Enters n.1 n.2 d}, next.1 ∈ lower here.1.1 here.1.2 := by
    intro here
    obtain ⟨next, hmem, henters⟩ := exists_next_enters here.2
    exact ⟨⟨next, henters⟩, hmem⟩
  choose step hstep using hnext
  refine ⟨fun i => (step^[i] ⟨(shape, subject), h⟩).1, rfl, fun i => ?_⟩
  dsimp only
  rw [Function.iterate_succ_apply']
  exact hstep _

end Endless

end Conform.Matching

namespace Conform.Matcher

open Matching

variable {S X : Type} [Node S] [Node X]

/-- **The limit ends every walk, and only walks that could go on.** A walk is the one solution of its
recursion, followed to the first level beyond the limit. It returns a report if no level lies deeper than
the limit, and stops with the limit if one does, unless a key that has no text stops it before. Where
all keys have a text, it stops if shape and subject allow a walk without end; it returns if they allow no
walk deeper than the limit, as they do if the subject is nested no deeper; and if they allow no walk
without end, it returns from some limit on. -/
theorem limit_ends_walk (m : Matcher) (hm : m.strict = false) (shape : S)
    (hs : Node.kind shape = .mapping) (subject : X) :
    (∀ w : Int → S → X → Walk Unit,
      (∀ depth ≤ m.maxDepth + 1, w depth = enterAt m.maxDepth depth (w (depth + 1))) →
        w 0 shape subject = walkOn Stack.unbounded.walk m.maxDepth 0 shape subject) ∧
    (((∀ d, Enters shape subject d → d ≤ m.maxDepth) ∧
        ∃ r, m.verifyOn .unbounded shape subject = .ok r) ∨
      ((∃ d, Enters shape subject d ∧ m.maxDepth < d) ∧ ∃ path,
        m.verifyOn .unbounded shape subject = .error (.walk m.maxDepth (.tooDeep m.maxDepth path))) ∨
      (¬ (PartsWritable shape ∧ KeysWritable subject) ∧
        m.verifyOn .unbounded shape subject = .error (.walk m.maxDepth .unwritable))) ∧
    (PartsWritable shape → KeysWritable subject →
      (Endless shape subject → ∃ path, m.verifyOn .unbounded shape subject =
        .error (.walk m.maxDepth (.tooDeep m.maxDepth path))) ∧
      ((∀ d, Enters shape subject d → d ≤ m.maxDepth) →
        ∃ r, m.verifyOn .unbounded shape subject = .ok r) ∧
      ((∀ d, Leads Member subject d → d ≤ m.maxDepth) →
        ∃ r, m.verifyOn .unbounded shape subject = .ok r) ∧
      (¬ Endless shape subject → ∃ limit : Int, ∀ m' : Matcher, m'.strict = false →
        limit ≤ m'.maxDepth → ∃ r, m'.verifyOn .unbounded shape subject = .ok r)) := by
  have hpositive := m.positive
  refine ⟨fun w hw => ?_, ?_, fun hkeys hkeys' => ?_⟩
  · rw [eq_walkFrom_of_enterAt hw (by omega)]
    rfl
  · by_cases h : ∀ d, Enters shape subject d → d ≤ m.maxDepth
    · exact (verifyOn_of_enters_le hm hs h).imp (fun hok => ⟨h, hok⟩) .inr
    · push Not at h
      obtain ⟨d, hd, hlt⟩ := h
      exact .inr ((verifyOn_of_enters_gt hm hs hd hlt).imp_left fun hdeep => ⟨⟨d, hd, hlt⟩, hdeep⟩)
  · have hreturns : ∀ m' : Matcher, m'.strict = false → (∀ d, Enters shape subject d → d ≤ m'.maxDepth) →
        ∃ r, m'.verifyOn .unbounded shape subject = .ok r := fun m' hm' h =>
      (verifyOn_of_enters_le hm' hs h).resolve_right fun hfault => hfault.1 ⟨hkeys, hkeys'⟩
    refine ⟨fun h => ?_, hreturns m hm, fun h => ?_, fun h => ?_⟩
    · have hdeeper : m.maxDepth < (m.maxDepth.toNat + 1 : Nat) := by omega
      exact (verifyOn_of_enters_gt hm hs (h.enters _) hdeeper).resolve_right fun hfault =>
        hfault.1 ⟨hkeys, hkeys'⟩
    · exact hreturns m hm fun d hd => h d hd.leads_subject
    · obtain ⟨d, hd⟩ : ∃ d, ¬ Enters shape subject d := by
        by_contra hall
        push Not at hall
        exact h (endless_of_enters hall)
      refine ⟨d, fun m' hm' hle => hreturns m' hm' fun c hc => ?_⟩
      by_contra hlt
      exact hd (hc.of_le (by omega))

/-- As a walk with a limit of three, but for a remark at each level below the one that is refused. -/
def strayed (depth : Int) (shape : S) (subject : X) : Walk Unit :=
  if depth ≤ 4 then walkFrom 3 depth shape subject else Walk.remark fun _ => "entered"

theorem strayed_eq_enterAt {depth : Int} (h : depth ≤ 3 + 1) :
    (strayed depth : S → X → Walk Unit) = enterAt 3 depth (strayed (depth + 1)) := by
  have hwalk : (strayed depth : S → X → Walk Unit) = walkFrom 3 depth := by
    funext shape subject
    exact if_pos h
  rw [hwalk, walkFrom_eq_enterAt]
  funext shape subject
  unfold enterAt
  by_cases hlt : 3 < depth
  · rw [if_pos hlt, if_pos hlt]
  · have hbelow : (strayed (depth + 1) : S → X → Walk Unit) = walkFrom 3 (depth + 1) := by
      funext shape subject
      exact if_pos (by omega)
    rw [if_neg hlt, if_neg hlt, hbelow]

theorem limit_ends_walk_loop :
    Node.kind loop = .mapping ∧
      strayed 0 loop loop = walkOn Stack.unbounded.walk 3 0 loop loop ∧
      Endless loop loop ∧
      (∃ path, (⟨3, false, by decide⟩ : Matcher).verifyOn .unbounded loop loop =
        .error (.walk 3 (.tooDeep 3 path))) ∧
      ∃ r, (⟨3, false, by decide⟩ : Matcher).verifyOn .unbounded loop (Value.mapping []) =
        .ok r := by
  have hendless : Endless loop loop := ⟨fun _ => (loop, loop), rfl, fun _ => .head _⟩
  have hends : ∀ d, Leads Member (Value.mapping []) d → d < 1 := by
    refine Leads.forall_lt_succ_iff.mpr fun member h => ?_
    obtain ⟨h, -⟩ | ⟨h, hmem⟩ := h
    · cases h
    · cases h
      cases hmem
  have hloop := limit_ends_walk ⟨3, false, by decide⟩ rfl loop rfl loop
  have hend := limit_ends_walk ⟨3, false, by decide⟩ rfl loop rfl (Value.mapping [])
  have hkeys : KeysWritable loop := keysWritable_of_isWritable rfl
  have hparts : PartsWritable loop := partsWritable_of_keysWritable hkeys
  have hnone : KeysWritable (Value.mapping []) := by
    intro part hpart es hes e he
    obtain rfl | ⟨member, hmember, -⟩ := Relation.ReflTransGen.cases_head hpart
    · cases hes
      cases he
    · cases member_iff.mp hmember
  refine ⟨rfl, hloop.1 strayed fun _ h => strayed_eq_enterAt h, hendless,
    (hloop.2.2 hparts hkeys).1 hendless, (hend.2.2 hparts hnone).2.2.1 fun d hd => ?_⟩
  have hlt := hends d hd
  change (d : Int) ≤ 3
  omega

/-- A shape without any level below its root, under which no verification returns and none is stopped by
the limit. -/
theorem key_ends_walk :
    ¬ Endless (Value.mapping [(longKey, .null)]) (Value.mapping []) ∧
      wide.verifyOn .unbounded (Value.mapping [(longKey, .null)]) (Value.mapping []) =
        .error (.walk 2 .unwritable) := by
  refine ⟨fun h => ?_, verifyOn_of_first_key rfl rfl longKey_not_writable⟩
  obtain _ | ⟨hnext, -⟩ := h.enters 1
  exact not_mem_lower_of_no_parts rfl hnext

end Conform.Matcher
