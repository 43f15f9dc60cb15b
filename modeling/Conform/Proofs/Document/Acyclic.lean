import Mathlib.Data.List.Perm.Subperm
import Mathlib.Data.List.Range
import Mathlib.Logic.Relation
import Conform.Document.Basic

/-!
# Documents without a way back

A document is acyclic if no way downwards in it goes on for ever. Trees are, and a place in a graph is if
no way from it comes back to where it has been. What is computed from the leaves of an acyclic document
upwards is computed layer by layer: the way to a layer has no part in it, and the unfolding never ends too
soon, as a way without repetition is never longer than there are places.
-/
namespace Conform

open Relation (ReflTransGen TransGen)

namespace View

variable {K M N : Type}

/-- The nodes one level below. -/
def parts : View N → List N
  | .null => []
  | .scalar _ => []
  | .sequence _ xs => xs
  | .mapping es => es.map Prod.snd

@[simp] theorem parts_map (f : M → N) (v : View M) : (v.map f).parts = v.parts.map f := by
  cases v with
  | null => rfl
  | scalar s => rfl
  | sequence form xs => rfl
  | mapping es => simp [parts, map, Entries.mapValues]

theorem map_map (g : N → K) (f : M → N) (v : View M) : (v.map f).map g = v.map (g ∘ f) := by
  cases v with
  | null => rfl
  | scalar s => rfl
  | sequence form xs => exact congrArg (View.sequence form) List.map_map
  | mapping es => exact congrArg View.mapping List.map_map

theorem map_congr {f g : M → N} {v : View M} (h : ∀ n ∈ v.parts, f n = g n) : v.map f = v.map g := by
  cases v with
  | null => rfl
  | scalar s => rfl
  | sequence form xs => exact congrArg (View.sequence form) (List.map_congr_left h)
  | mapping es =>
    refine congrArg View.mapping (List.map_congr_left fun e he => ?_)
    rw [h e.2 (List.mem_map_of_mem he)]

end View

theorem Value.sizeOf_lt_of_mem_parts {v x : Value} (h : x ∈ v.view.parts) : sizeOf x < sizeOf v := by
  cases v with
  | null => cases h
  | scalar s => cases h
  | sequence form xs =>
    have hlt : sizeOf x < sizeOf xs := List.sizeOf_lt_of_mem h
    simp only [Value.sequence.sizeOf_spec]
    omega
  | mapping es =>
    obtain ⟨e, he, rfl⟩ := List.mem_map.mp h
    have hlt := List.sizeOf_lt_of_mem he
    obtain ⟨k, x⟩ := e
    simp only [Prod.mk.sizeOf_spec] at hlt
    simp only [Value.mapping.sizeOf_spec]
    omega

/-- Where every way ends, none leads back to where it began. -/
theorem not_transGen_self_of_acc {α : Type} {r : α → α → Prop} {a : α} (h : Acc r a) :
    ¬ TransGen r a a := by
  have hself : ∀ b, Acc (TransGen r) b → ¬ TransGen r b b := by
    intro b hb
    induction hb with
    | intro b _ ih => exact fun hbb => ih b hbb hbb
  exact hself a h.transGen

/-! ## Graphs -/

namespace Graph

variable {α : Type} {layer : View α → α} {back : View Unit → α} {g : Graph} {i j : Nat}

/-- A place that stands in the cell of another. -/
def Below (g : Graph) (j i : Nat) : Prop := j ∈ (g.view i).parts

theorem lt_size_of_below (h : g.Below j i) : i < g.cells.size := by
  by_contra hge
  have hnull : g.view i = .null := by
    rw [Graph.view, Array.getElem?_eq_none (Nat.le_of_not_lt hge), Option.getD_none]
  rw [Below, hnull] at h
  cases h

theorem length_le_of_places {trail : List Nat} (hnodup : trail.Nodup)
    (hplaces : ∀ j ∈ trail, j < g.cells.size) : trail.length ≤ g.cells.size := by
  have hrange : trail ⊆ List.range g.cells.size := fun j hj => List.mem_range.mpr (hplaces j hj)
  simpa using (hnodup.subperm hrange).length_le

/-- The places of the trail are all different, and the way from each of them leads here. -/
structure LeadsTo (g : Graph) (trail : List Nat) (i : Nat) : Prop where
  nodup : trail.Nodup
  leads : ∀ j ∈ trail, TransGen g.Below i j

namespace LeadsTo

variable {trail : List Nat}

theorem nil : g.LeadsTo [] i := ⟨List.nodup_nil, List.forall_mem_nil _⟩

theorem step (h : g.LeadsTo trail i) (hnew : i ∉ trail) (hj : g.Below j i) :
    g.LeadsTo (i :: trail) j where
  nodup := List.nodup_cons.mpr ⟨hnew, h.nodup⟩
  leads := List.forall_mem_cons.mpr ⟨.single hj, fun k hk => .head hj (h.leads k hk)⟩

theorem length_le (h : g.LeadsTo trail i) : trail.length ≤ g.cells.size := by
  refine length_le_of_places h.nodup fun j hj => ?_
  obtain ⟨k, -, hk⟩ := TransGen.tail'_iff.mp (h.leads j hj)
  exact lt_size_of_below hk

end LeadsTo

/-- If no way is ever back where it has been, every way ends before it has visited more places than there
are cells. -/
theorem acc_of_no_cycle {n : Nat} {trail : List Nat} (htrail : g.LeadsTo trail i)
    (hfuel : g.cells.size + 1 ≤ n + trail.length)
    (h : ∀ j, ReflTransGen g.Below j i → ¬ TransGen g.Below j j) : Acc g.Below i := by
  induction n generalizing trail i with
  | zero =>
    have hlength := htrail.length_le
    omega
  | succ n ih =>
    have hnew : i ∉ trail := fun hi => h i .refl (htrail.leads i hi)
    refine .intro i fun j hj => ih (htrail.step hnew hj) ?_ fun k hk => h k (hk.tail hj)
    rw [List.length_cons]
    omega

/-- The unfolding ends before there are more places on the trail than cells. -/
theorem foldFrom_of_acc (h : Acc g.Below i) {n : Nat} {trail : List Nat}
    (htrail : g.LeadsTo trail i) (hfuel : g.cells.size + 1 ≤ n + trail.length) :
    g.foldFrom layer back n trail i = layer ((g.view i).map (g.fold layer back)) := by
  induction h generalizing n trail with
  | intro i hbelow ih =>
    have hnew : i ∉ trail := fun hi => not_transGen_self_of_acc (.intro i hbelow) (htrail.leads i hi)
    have hlength := htrail.length_le
    obtain ⟨n, rfl⟩ : ∃ k, n = k + 1 := ⟨n - 1, by omega⟩
    rw [foldFrom, if_neg (by simpa using hnew)]
    refine congrArg layer (View.map_congr fun j hj => ?_)
    -- Below, neither the trail nor the number of steps that are left counts.
    have halone : g.fold layer back j = layer ((g.view j).map (g.fold layer back)) :=
      ih j hj .nil (Nat.le_refl _)
    rw [halone]
    refine ih j hj (htrail.step hnew hj) ?_
    rw [List.length_cons]
    omega

theorem fold_eq (h : Acc g.Below i) :
    g.fold layer back i = layer ((g.view i).map (g.fold layer back)) :=
  foldFrom_of_acc h .nil (Nat.le_refl _)

end Graph

/-! ## Documents -/

namespace Document

variable {d part : Document}

theorem mem_parts_tree_iff {v : Value} :
    part ∈ (tree v).view.parts ↔ ∃ x ∈ v.view.parts, tree x = part := by
  rw [show (tree v).view = v.view.map tree from rfl, View.parts_map, List.mem_map]

theorem mem_parts_place_iff {g : Graph} {i : Nat} :
    part ∈ (place g i).view.parts ↔ ∃ j, g.Below j i ∧ place g j = part := by
  rw [show (place g i).view = (g.view i).map (place g) from rfl, View.parts_map, List.mem_map]
  rfl

/-- The document is a part of the whole, one level below. -/
def PartOf (part whole : Document) : Prop := part ∈ whole.view.parts

/-- No way downwards in the document goes on for ever. -/
def Acyclic (d : Document) : Prop := Acc PartOf d

theorem acyclic_tree (v : Value) : (tree v).Acyclic := by
  refine .intro _ fun part hpart => ?_
  obtain ⟨x, hx, rfl⟩ := mem_parts_tree_iff.mp hpart
  have := Value.sizeOf_lt_of_mem_parts hx
  exact acyclic_tree x
termination_by sizeOf v

theorem acc_of_acyclic {g : Graph} {i : Nat} (h : d.Acyclic) (hd : d = .place g i) :
    Acc g.Below i := by
  induction h generalizing i with
  | intro _ _ ih =>
    subst hd
    exact .intro i fun j hj => ih (.place g j) (mem_parts_place_iff.mpr ⟨j, hj, rfl⟩) rfl

theorem acyclic_place_of_acc {g : Graph} {i : Nat} (h : Acc g.Below i) : (place g i).Acyclic := by
  induction h with
  | intro i _ ih =>
    refine .intro _ fun part hpart => ?_
    obtain ⟨j, hj, rfl⟩ := mem_parts_place_iff.mp hpart
    exact ih j hj

/-- Acyclic are the documents of which no part, at any depth, leads back to itself. -/
theorem acyclic_iff : d.Acyclic ↔ ∀ part, ReflTransGen PartOf part d → ¬ TransGen PartOf part part := by
  constructor
  · intro h part hpart
    refine not_transGen_self_of_acc ?_
    induction hpart with
    | refl => exact h
    | tail _ hstep ih => exact ih (h.inv hstep)
  · intro h
    cases d with
    | tree v => exact acyclic_tree v
    | place g i =>
      have hplace : g.Below ≤ fun j k => PartOf (place g j) (place g k) :=
        fun j k hjk => mem_parts_place_iff.mpr ⟨j, hjk, rfl⟩
      refine acyclic_place_of_acc (Graph.acc_of_no_cycle .nil (Nat.le_refl _) fun j hj hjj => ?_)
      exact h (place g j) (hj.lift (place g) hplace) (hjj.lift (place g) hplace)

/-- In an acyclic document, what is computed from the leaves upwards is computed layer by layer. -/
theorem fold_eq {α : Type} {layer : View α → α} {back : View Unit → α} (h : d.Acyclic) :
    d.fold layer back = layer (d.view.map (fold layer back)) := by
  cases d with
  | tree v =>
    show v.fold layer = layer ((v.view.map tree).map _)
    rw [Value.fold_eq, View.map_map]
    rfl
  | place g i =>
    show g.fold layer back i = layer (((g.view i).map (place g)).map _)
    rw [Graph.fold_eq (acc_of_acyclic h rfl), View.map_map]
    rfl

end Document
end Conform
