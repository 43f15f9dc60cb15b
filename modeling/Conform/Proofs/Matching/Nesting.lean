import Mathlib.Logic.Relation
import Conform.Document.Basic
import Conform.Proofs.Matching.Depth

/-!
# The nesting of the documents below a walk

Every step of a walk to a lower level is a step, or two, down the shape, and a step, or two, down the
subject. So a walk is never deeper than either of the two is nested, and one that goes on for ever
does so through documents that both lead back to themselves.
-/
namespace Conform.Matching

/-- A way of so many steps along a relation starts here. -/
inductive Leads {α : Type} (R : α → α → Prop) : α → Nat → Prop
  | here (a : α) : Leads R a 0
  | step {a b : α} {d : Nat} (h : R a b) (hd : Leads R b d) : Leads R a (d + 1)

namespace Leads

variable {α : Type} {R : α → α → Prop} {a b : α} {c d : Nat}

theorem of_le (h : Leads R a d) (hle : c ≤ d) : Leads R a c := by
  induction h generalizing c with
  | here a =>
    obtain rfl : c = 0 := by omega
    exact .here a
  | @step a b d hab _ ih =>
    cases c with
    | zero => exact .here a
    | succ c => exact .step hab (ih (by omega))

/-- To come to `b` in one step or more is to be at least one step ahead of it. -/
theorem of_transGen (h : Relation.TransGen R a b) (hd : Leads R b d) : Leads R a (d + 1) := by
  induction h using Relation.TransGen.head_induction_on with
  | single hab => exact .step hab hd
  | head hac _ ih => exact (Leads.step hac ih).of_le (Nat.le_succ _)

/-- The ways from `a` are shorter by one after a step. -/
theorem forall_lt_succ_iff {n : Nat} :
    (∀ d, Leads R a d → d < n + 1) ↔ ∀ b, R a b → ∀ d, Leads R b d → d < n := by
  constructor
  · intro h b hab d hd
    have hlt := h (d + 1) (.step hab hd)
    omega
  · rintro h _ (_ | ⟨hab, hd⟩)
    · exact Nat.succ_pos n
    · exact Nat.succ_lt_succ (h _ hab _ hd)

end Leads

variable {S X : Type} [Node S] [Node X] {shape : S} {subject : X} {d : Nat}

/-- If every step of a walk is a step or more along a relation, a walk is no deeper than the ways
along the relation are long. -/
theorem Enters.leads {α : Type} {R : α → α → Prop} (f : S × X → α)
    (hstep : ∀ here : S × X, ∀ next ∈ Matching.lower here.1 here.2,
      Relation.TransGen R (f here) (f next))
    (h : Enters shape subject d) : Leads R (f (shape, subject)) d := by
  induction h with
  | here shape subject => exact .here _
  | lower hnext _ ih => exact .of_transGen (hstep (_, _) _ hnext) ih

theorem Enters.leads_shape (h : Enters shape subject d) : Leads Part shape d :=
  h.leads Prod.fst fun _ _ hnext => (below_of_mem_lower hnext).1

theorem Enters.leads_subject (h : Enters shape subject d) : Leads Member subject d :=
  h.leads Prod.snd fun _ _ hnext => (below_of_mem_lower hnext).2

/-- A mapping that holds itself. -/
def loop : Document := .place ⟨#[.mapping [(.str "next", 0)]]⟩ 0

end Conform.Matching
