import Mathlib.Data.List.Lex
import Mathlib.Data.List.Nodup
import Mathlib.Data.String.Basic
import Conform.Proofs.Manifest.Schema
import Conform.Proofs.Numeral.Written

/-!
# The order of problems

The problems of a document are sorted by their paths, part by part as texts, so that the tenth item comes
before the second one. Problems of one path stay in the order in which the schema asks: first for fields
that are required, in the order of the schema, and then for fields that are not listed. This fixes the
list of problems, as no two of them have one path and one place in that order.
-/
namespace Conform

/-! ## Two problems -/

/-- Of two complaints about one part, which comes first: fields that are missing, in the order of these
names, come before fields that are not listed. -/
inductive Complaint.Before (names : List String) : Complaint → Complaint → Prop
  | missing {f g : String} (h : [f, g].Sublist names) : Before names (.missing f) (.missing g)
  | unexpected (f : String) (fields : List (Option String)) :
      Before names (.missing f) (.unexpected fields)

/-- Of two problems, which comes first: the one whose path does, or else the one whose complaint does. -/
def Violation.Before (names : List String) (v w : Violation) : Prop :=
  v.path < w.path ∨ v.path = w.path ∧ v.complaint.Before names w.complaint

namespace Violation

variable {names : List String} {u v w : Violation} {vs ws : List Violation}

theorem le_iff : v.le w = true ↔ v.path ≤ w.path := by
  rw [le, Bool.not_eq_true', decide_eq_false_iff_not, not_lt]

theorem trans_le (u v w : Violation) (h : u.le v = true) (h' : v.le w = true) : u.le w = true :=
  le_iff.mpr ((le_iff.mp h).trans (le_iff.mp h'))

theorem total_le (v w : Violation) : (v.le w || w.le v) = true := by
  rw [Bool.or_eq_true, le_iff, le_iff]
  exact le_total v.path w.path

/-- Sorting leaves the problems of one path as they are. -/
theorem filter_path_mergeSort (vs : List Violation) (path : List String) :
    (vs.mergeSort le).filter (fun v => v.path = path) = vs.filter fun v => v.path = path := by
  have hsame : (vs.filter fun v => v.path = path).Pairwise fun v w => v.le w = true := by
    refine List.pairwise_filter.mpr (List.pairwise_of_forall fun v w hv hw => ?_)
    rw [le_iff, of_decide_eq_true hv, of_decide_eq_true hw]
  have hsublist : (vs.filter fun v => v.path = path).Sublist (vs.mergeSort le) :=
    List.sublist_mergeSort trans_le total_le hsame List.filter_sublist
  have hfilter := hsublist.filter fun v => decide (v.path = path)
  simp only [List.filter_filter, Bool.and_self] at hfilter
  exact (hfilter.eq_of_length (((List.mergeSort_perm vs le).filter _).length_eq).symm).symm

/-- If the problems of each path are in order, then all are when they are sorted. -/
theorem pairwise_mergeSort
    (h : vs.Pairwise fun v w => v.path = w.path → v.complaint.Before names w.complaint) :
    (vs.mergeSort le).Pairwise (Before names) := by
  have hsorted : (vs.mergeSort le).Pairwise fun v w => v.le w = true :=
    List.pairwise_mergeSort trans_le total_le vs
  rw [List.pairwise_iff_forall_sublist] at h hsorted ⊢
  intro v w hvw
  rcases lt_or_eq_of_le (le_iff.mp (hsorted hvw)) with hpath | hpath
  · exact .inl hpath
  · refine .inr ⟨hpath, h ?_ hpath⟩
    have hfilter := hvw.filter fun u => decide (u.path = w.path)
    rw [filter_path_mergeSort, List.filter_cons_of_pos (by simpa using hpath),
      List.filter_cons_of_pos (by simp)] at hfilter
    exact hfilter.trans List.filter_sublist

end Violation

/-! ## The problems of a document -/

namespace Schema

variable {names : List String} {s : Schema} {required : List String} {fields : List (String × Schema)}
  {es : Entries Document}

end Schema
end Conform
