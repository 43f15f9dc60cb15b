import Conform.Document.Writable
import Conform.Proofs.Document.Acyclic

/-!
# Documents whose integers can be written

A document can be shown if no layer of it has an integer of too many digits. A place that leads back to
itself is not unfolded again, and yet no layer is missed: the way to a layer can be cut down to one that
visits no place twice.
-/
namespace Conform

open Relation (ReflTransGen)

namespace View

variable {M N : Type}

/-- Whether the integers of a layer itself can be written: an atom, the elements of a set, and keys. -/
def IntegersWritable : View N → Prop
  | .null => True
  | .scalar s => s.isWritable = true
  | .sequence .. => True
  | .mapping es => ∀ e ∈ es, e.1.isWritable = true

theorem integersWritable_map_iff (f : M → N) (v : View M) :
    (v.map f).IntegersWritable ↔ v.IntegersWritable := by
  cases v with
  | mapping es => simp only [IntegersWritable, map, Entries.mapValues, List.forall_mem_map]
  | _ => rfl

theorem isWritable_map_iff (f : N → Bool) (v : View N) :
    (v.map f).isWritable = true ↔ v.IntegersWritable ∧ ∀ n ∈ v.parts, f n = true := by
  cases v with
  | mapping es =>
    simp only [isWritable, map, IntegersWritable, parts, Entries.mapValues, List.all_map,
      List.all_eq_true, Function.comp_apply, Bool.and_eq_true, List.forall_mem_map]
    exact forall₂_and
  | _ => simp [isWritable, map, IntegersWritable, parts]

end View

namespace Document

/-- All layers of a document, at every depth, have integers that can be written. -/
def IntegersWritable (d : Document) : Prop :=
  ∀ part, ReflTransGen (fun a b : Document => b ∈ a.view.parts) d part → part.view.IntegersWritable

theorem integersWritable_iff {d : Document} :
    d.IntegersWritable ↔ d.view.IntegersWritable ∧ ∀ part ∈ d.view.parts, part.IntegersWritable := by
  constructor
  · exact fun h => ⟨h d .refl, fun part hpart other hother => h other (.head hpart hother)⟩
  · rintro ⟨hlayer, hparts⟩ other hother
    rcases hother.cases_head with rfl | ⟨part, hpart, hother⟩
    · exact hlayer
    · exact hparts part hpart other hother

theorem integersWritable_tree_iff {v : Value} :
    (tree v).IntegersWritable ↔
      v.view.IntegersWritable ∧ ∀ x ∈ v.view.parts, (tree x).IntegersWritable := by
  have hview : (tree v).view = v.view.map tree := rfl
  rw [integersWritable_iff, hview, View.integersWritable_map_iff, View.parts_map,
    List.forall_mem_map]

theorem integersWritable_place_iff {g : Graph} {i : Nat} :
    (place g i).IntegersWritable ↔
      (g.view i).IntegersWritable ∧ ∀ j, g.Below j i → (place g j).IntegersWritable := by
  have hview : (place g i).view = (g.view i).map (place g) := rfl
  rw [integersWritable_iff, hview, View.integersWritable_map_iff, View.parts_map,
    List.forall_mem_map]
  rfl

end Document

theorem Value.fold_isWritable_iff (v : Value) :
    v.fold View.isWritable = true ↔ (Document.tree v).IntegersWritable := by
  rw [Value.fold_eq, View.isWritable_map_iff, Document.integersWritable_tree_iff]
  exact and_congr_right fun _ => forall₂_congr fun x hx =>
    have := Value.sizeOf_lt_of_mem_parts hx
    Value.fold_isWritable_iff x
termination_by sizeOf v

/-- A way to another place goes on from the last time that it is where it began. -/
theorem cases_last_visit {α : Type} {R : α → α → Prop} {i j : α} (h : ReflTransGen R i j) :
    j = i ∨ ∃ k, R i k ∧ k ≠ i ∧ ReflTransGen (fun a b => R a b ∧ b ≠ i) k j := by
  induction h with
  | refl => exact .inl rfl
  | @tail a b ha hab ih =>
    by_cases hb : b = i
    · exact .inl hb
    · rcases ih with rfl | ⟨k, hk, hne, hway⟩
      · exact .inr ⟨b, hab, hb, .refl⟩
      · exact .inr ⟨k, hk, hne, hway.tail ⟨hab, hb⟩⟩

namespace Graph

variable {g : Graph} {i j n : Nat} {trail : List Nat}

/-- The way from a place that keeps off the trail. -/
def Off (g : Graph) (trail : List Nat) (i j : Nat) : Prop :=
  ReflTransGen (fun a b => g.Below b a ∧ b ∉ trail) i j

theorem Off.cases (h : g.Off trail i j) :
    j = i ∨ ∃ k, g.Below k i ∧ k ∉ i :: trail ∧ g.Off (i :: trail) k j := by
  rcases cases_last_visit h with rfl | ⟨k, ⟨hbelow, hnew⟩, hne, hway⟩
  · exact .inl rfl
  · refine .inr ⟨k, hbelow, List.not_mem_cons_of_ne_of_not_mem hne hnew, ?_⟩
    refine ReflTransGen.mono ?_ _ _ hway
    rintro a b ⟨⟨hab, hb⟩, hbi⟩
    exact ⟨hab, List.not_mem_cons_of_ne_of_not_mem hbi hb⟩

theorem foldFrom_of_integersWritable (h : (Document.place g i).IntegersWritable) :
    g.foldFrom View.isWritable (fun _ => true) n trail i = true := by
  induction n generalizing trail i with
  | zero => rfl
  | succ n ih =>
    unfold foldFrom
    split
    · rfl
    · obtain ⟨hlayer, hbelow⟩ := Document.integersWritable_place_iff.mp h
      exact (View.isWritable_map_iff _ _).mpr ⟨hlayer, fun j hj => ih (hbelow j hj)⟩

/-- The unfolding does not end too soon, and what it leaves out for being on the trail is on no way that
keeps off the trail. -/
theorem layer_of_foldFrom (htrail : g.LeadsTo trail i) (hfuel : g.cells.size + 1 ≤ n + trail.length)
    (hnew : i ∉ trail) (h : g.foldFrom View.isWritable (fun _ => true) n trail i = true)
    (hj : g.Off trail i j) : (g.view j).IntegersWritable := by
  induction n generalizing trail i with
  | zero =>
    have hlength := htrail.length_le
    omega
  | succ n ih =>
    rw [foldFrom, if_neg (by simpa using hnew), View.isWritable_map_iff] at h
    rcases hj.cases with rfl | ⟨k, hk, hknew, hway⟩
    · exact h.1
    · refine ih (htrail.step hnew hk) ?_ hknew (h.2 k hk) hway
      rw [List.length_cons]
      omega

theorem integersWritable_of_layers (h : ∀ j, g.Off [] i j → (g.view j).IntegersWritable) :
    (Document.place g i).IntegersWritable := by
  have hplaces : ∀ part, ReflTransGen (fun a b : Document => b ∈ a.view.parts) (.place g i) part →
      ∃ j, part = .place g j ∧ g.Off [] i j := by
    intro part hpart
    induction hpart with
    | refl => exact ⟨i, rfl, .refl⟩
    | tail _ hstep ih =>
      obtain ⟨j, rfl, hj⟩ := ih
      obtain ⟨k, hk, rfl⟩ := Document.mem_parts_place_iff.mp hstep
      exact ⟨k, rfl, hj.tail ⟨hk, List.not_mem_nil⟩⟩
  intro part hpart
  obtain ⟨j, rfl, hj⟩ := hplaces part hpart
  exact (View.integersWritable_map_iff _ _).mpr (h j hj)

theorem fold_isWritable_iff (g : Graph) (i : Nat) :
    g.fold View.isWritable (fun _ => true) i = true ↔ (Document.place g i).IntegersWritable :=
  ⟨fun h => integersWritable_of_layers fun _ hj =>
      layer_of_foldFrom .nil (Nat.le_refl _) List.not_mem_nil h hj,
    foldFrom_of_integersWritable⟩

end Graph

/-- Exactly those documents can be shown that have no integer of too many digits at any depth. -/
theorem Document.isWritable_iff (d : Document) : d.isWritable = true ↔ d.IntegersWritable := by
  cases d with
  | tree v => exact v.fold_isWritable_iff
  | place g i => exact g.fold_isWritable_iff i

end Conform
