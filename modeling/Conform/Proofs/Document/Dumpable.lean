import Conform.Proofs.Document.Acyclic
import Conform.Proofs.Document.Sorted

/-!
# Documents that can be dumped

A dump exists exactly if the document unfolds to a tree, every mapping in it has keys with names in an
order, and no integer in it has too many digits. A part that leads back to itself is found however the
unfolding goes.
-/
namespace Conform

namespace View

variable {M N : Type}

/-- Whether a layer can be written once the nodes below it are: the keys of a mapping have names and
an order, and integers are not too long. -/
def Writable : View N → Prop
  | .null => True
  | .scalar s => s.isWritable = true
  | .sequence .. => True
  | .mapping es => Entries.Sortable es ∧ ∀ e ∈ es, e.1.IsNamed ∧ e.1.isWritable = true

theorem writable_map_iff (f : M → N) (v : View M) : (v.map f).Writable ↔ v.Writable := by
  cases v with
  | null => rfl
  | scalar s => rfl
  | sequence form xs => rfl
  | mapping es =>
    simp only [Writable, map, Entries.mapValues, Entries.Sortable, Entries.OfType, List.length_map,
      List.forall_mem_map]

end View

/-- A document that unfolds to a tree of layers that can be written. -/
inductive Dumpable {N : Type} [Node N] : N → Prop
  | intro {n : N} (layer : (Node.view n).Writable) (parts : ∀ m ∈ (Node.view n).parts, Dumpable m) :
      Dumpable n

theorem dumpable_iff {N : Type} [Node N] {n : N} :
    Dumpable n ↔ (Node.view n).Writable ∧ ∀ m ∈ (Node.view n).parts, Dumpable m :=
  ⟨fun ⟨hlayer, hparts⟩ => ⟨hlayer, hparts⟩, fun ⟨hlayer, hparts⟩ => ⟨hlayer, hparts⟩⟩

namespace Dump

/-! ## One layer -/

theorem returns_fieldName_iff {k : Key} :
    Returns (fieldName k) ↔ k.IsNamed ∧ k.isWritable = true := by
  rcases k with _ | a | ks
  · exact iff_of_true (.ok _) ⟨.inl rfl, rfl⟩
  · cases a with
    | int n =>
      by_cases h : Numeral.isWritable n = true
      · simp [fieldName, h, Key.IsNamed, Key.type?, Atom.isNumber, Key.isWritable, Atom.isWritable]
      · simp [fieldName, h, Key.isWritable, Atom.isWritable]
    | _ => simp [fieldName, Key.IsNamed, Key.type?, Atom.isNumber, Key.isWritable, Atom.isWritable]
  · simp [fieldName, Key.IsNamed, Key.type?]

theorem returns_field_iff {e : Key × Except DumpError Json} :
    Returns (do let name ← fieldName e.1; return (name, ← e.2)) ↔
      (e.1.IsNamed ∧ e.1.isWritable = true) ∧ Returns e.2 := by
  rw [← returns_fieldName_iff, returns_bind_iff]
  constructor
  · rintro ⟨name, hname, h⟩
    obtain ⟨j, hj, -⟩ := returns_bind_iff.mp h
    exact ⟨⟨name, hname⟩, j, hj⟩
  · rintro ⟨⟨name, hname⟩, j, hj⟩
    exact ⟨name, hname, returns_bind_iff.mpr ⟨j, hj, .pure _⟩⟩

/-- A layer is written if it can be and everything below it is. -/
theorem returns_layer_iff {v : View (Except DumpError Json)} :
    Returns (layer v) ↔ v.Writable ∧ ∀ x ∈ v.parts, Returns x := by
  cases v with
  | null => simp [layer, View.Writable, View.parts]
  | scalar s =>
    by_cases h : s.isWritable = true <;> simp [layer, View.Writable, View.parts, h]
  | sequence form xs => simp [layer, View.Writable, View.parts, returns_mapM_iff]
  | mapping es =>
    have hfields : ∀ {fs : Entries (Except DumpError Json)}, es.sorted = .ok fs →
        (Returns (fs.mapM fun e => do let name ← fieldName e.1; return (name, ← e.2)) ↔
          ∀ e ∈ es, (e.1.IsNamed ∧ e.1.isWritable = true) ∧ Returns e.2) := by
      intro fs hfs
      simp only [returns_mapM_iff, returns_field_iff, (Entries.perm_of_sorted hfs).mem_iff]
    simp only [layer, View.Writable, View.parts, List.forall_mem_map]
    constructor
    · intro h
      obtain ⟨fs, hfs, h⟩ := returns_bind_iff.mp h
      replace hfs := mapError_eq_ok_iff.mp hfs
      obtain ⟨fields, hmapM, -⟩ := returns_bind_iff.mp h
      have hall := (hfields hfs).mp ⟨fields, hmapM⟩
      have hnamed : Entries.Named es := fun e he => (hall e he).1.1
      exact ⟨⟨(Entries.returns_sorted_iff hnamed).mp ⟨fs, hfs⟩, fun e he => (hall e he).1⟩,
        fun e he => (hall e he).2⟩
    · rintro ⟨⟨hsortable, hnames⟩, hparts⟩
      have hnamed : Entries.Named es := fun e he => (hnames e he).1
      obtain ⟨fs, hfs⟩ := (Entries.returns_sorted_iff hnamed).mpr hsortable
      obtain ⟨fields, hmapM⟩ := (hfields hfs).mpr fun e he => ⟨hnames e he, hparts e he⟩
      exact returns_bind_iff.mpr ⟨fs, mapError_eq_ok_iff.mpr hfs,
        returns_bind_iff.mpr ⟨fields, hmapM, .pure _⟩⟩

end Dump

/-! ## Documents -/

namespace Document

variable {d : Document} {g : Graph} {i : Nat}

theorem dumpable_tree_iff {v : Value} :
    Dumpable (tree v) ↔ v.view.Writable ∧ ∀ x ∈ v.view.parts, Dumpable (tree x) := by
  have hview : Node.view (tree v) = v.view.map tree := rfl
  rw [dumpable_iff, hview, View.writable_map_iff, View.parts_map, List.forall_mem_map]

theorem dumpable_place_iff :
    Dumpable (place g i) ↔ (g.view i).Writable ∧ ∀ j, g.Below j i → Dumpable (place g j) := by
  have hview : Node.view (place g i) = (g.view i).map (place g) := rfl
  rw [dumpable_iff, hview, View.writable_map_iff, View.parts_map, List.forall_mem_map]
  rfl

theorem acyclic_of_dumpable (h : Dumpable d) : d.Acyclic := by
  induction h with
  | intro _ _ ih => exact .intro _ ih

/-- What becomes of an acyclic document is a matter of its layers. -/
theorem returns_fold_dump_iff (h : d.Acyclic) :
    Returns (d.fold Dump.layer Dump.back) ↔ Dumpable d := by
  induction h with
  | intro d hbelow ih =>
    rw [fold_eq (.intro d hbelow), Dump.returns_layer_iff, View.writable_map_iff, View.parts_map,
      List.forall_mem_map, dumpable_iff]
    exact and_congr_right fun _ => forall₂_congr ih

theorem dumpable_of_returns {n : Nat} {trail : List Nat}
    (h : Returns (g.foldFrom Dump.layer Dump.back n trail i)) : Dumpable (place g i) := by
  induction n generalizing trail i with
  | zero => exact absurd h (Returns.not_error _)
  | succ n ih =>
    unfold Graph.foldFrom at h
    split at h
    · exact absurd h (Returns.not_error _)
    · rw [Dump.returns_layer_iff, View.writable_map_iff, View.parts_map, List.forall_mem_map] at h
      exact dumpable_place_iff.mpr ⟨h.1, fun j hj => ih (h.2 j hj)⟩

/-- There is a dump of exactly those documents that unfold to trees of layers that can be written. -/
theorem returns_dump_iff (d : Document) : Returns d.dump ↔ Dumpable d := by
  rw [dump, returns_map_iff]
  cases d with
  | tree v => exact returns_fold_dump_iff (acyclic_tree v)
  | place g i =>
    exact ⟨dumpable_of_returns, fun h => (returns_fold_dump_iff (acyclic_of_dumpable h)).mpr h⟩

end Document

instance (d : Document) : Decidable (Dumpable d) := decidable_of_iff _ d.returns_dump_iff

end Conform
