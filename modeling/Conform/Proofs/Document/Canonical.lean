import Mathlib
import Conform.Proofs.Document.Dumpable
import Conform.Proofs.Document.Writable
import Conform.Proofs.Matching.Order
import Conform.Proofs.Matching.Preorder

/-!
# Dumps in canonical form

If the keys of a document are texts, its dump does not tell in which order the entries of its mappings
came: they are sorted at every depth, and as no key is there twice, there is one sorted order. A document
with such keys has a dump unless it leads back to itself or has an integer of too many digits.
-/
namespace Conform

open Matching (Everywhere member_iff Reordered reordered_of_views Shuffled shuffled_of_layer)

/-- The fields of every object are in ascending order of their names, and no name is there twice. -/
inductive Json.Ascending : Json → Prop
  | null : Ascending .null
  | bool (b : Bool) : Ascending (.bool b)
  | int (n : Int) : Ascending (.int n)
  | float (x : Numeral.Binary64) : Ascending (.float x)
  | str (s : String) : Ascending (.str s)
  | array {xs : List Json} (each : ∀ x ∈ xs, Ascending x) : Ascending (.array xs)
  | object {fields : List (String × Json)} (names : fields.Pairwise fun f g => f.1 < g.1)
      (each : ∀ f ∈ fields, Ascending f.2) : Ascending (.object fields)

namespace View

variable {M N : Type}

/-- The keys of a mapping are texts, and a scalar is no set: a set comes in no order. -/
def Textual : View N → Prop
  | .null => True
  | .scalar s => ∃ a, s = .atom a
  | .sequence .. => True
  | .mapping es => ∀ e ∈ es, ∃ s : String, e.1 = .str s

theorem Textual.ofType {es : Entries N} (h : (View.mapping es).Textual) (f : N → M) :
    Entries.OfType .text (es.mapValues f) :=
  List.forall_mem_map.mpr fun e he => Key.type?_eq_text_iff.mpr (h e he)

theorem textual_map_iff (f : M → N) (v : View M) : (v.map f).Textual ↔ v.Textual := by
  cases v with
  | mapping es => simp only [Textual, map, Entries.mapValues, List.forall_mem_map]
  | _ => rfl

/-- Only integers keep a layer of texts from being written. -/
theorem Textual.writable_iff {v : View N} (h : v.Textual) : v.Writable ↔ v.IntegersWritable := by
  cases v with
  | mapping es =>
    have hkeys : ∀ e ∈ es, e.1.IsNamed ∧ e.1.isWritable = true := by
      intro e he
      obtain ⟨s, hs⟩ := h e he
      rw [hs]
      exact ⟨.inr rfl, rfl⟩
    have hsortable : Entries.Sortable es :=
      .inr ⟨.text, fun e he => Key.type?_eq_text_iff.mpr (h e he)⟩
    exact iff_of_true ⟨hsortable, hkeys⟩ fun e he => (hkeys e he).2
  | _ => rfl

end View

/-! ## Layers in another order -/

section Layers

variable {M N : Type} {R : M → N → Prop} {v : View M} {w : View N}

theorem shuffled_parts (h : SparseLayer (fun _ => True) R v w) : Shuffled R v.parts w.parts := by
  cases h with
  | null => exact .of_forall₂ .nil
  | scalar s => exact .of_forall₂ .nil
  | sequence form each => exact .of_forall₂ each
  | mapping distinct order skipped each =>
    obtain ⟨kept, hperm, heach⟩ := shuffled_of_layer (.mapping distinct order skipped each)
    refine ⟨kept.map Prod.snd, hperm.map _, ?_⟩
    rw [List.forall₂_map_left_iff]
    exact List.forall₂_map_right_iff.mpr (heach.imp fun _ _ hef => hef.2)

theorem Entries.Distinct.mapValues {K : Type} {es : Entries N} (h : es.Distinct) (f : N → K) :
    (es.mapValues f).Distinct := List.pairwise_map.mpr h

theorem map_eq_of_forall₂ {K : Type} {f : M → K} {g : N → K} {xs : List M} {ys : List N}
    (h : List.Forall₂ R xs ys) (hfg : ∀ x ∈ xs, ∀ y, R x y → g y = f x) : ys.map g = xs.map f := by
  induction h with
  | nil => rfl
  | cons hxy _ ih =>
    obtain ⟨hx, hxs⟩ := List.forall_mem_cons.mp hfg
    rw [List.map_cons, List.map_cons, hx _ hxy, ih hxs]

end Layers

namespace Dump

/-- With texts as keys, nothing but a value can keep a field from being written. -/
theorem layer_of_texts {es : Entries (Except DumpError Json)} (h : Entries.OfType .text es) :
    layer (.mapping es) =
      .object <$> (es.mergeSort Entries.textLe).mapM fun e => (e.1.text, ·) <$> e.2 := by
  have hfields : ((es.mergeSort Entries.textLe).mapM fun e => do
      let name ← fieldName e.1
      return (name, ← e.2)) = (es.mergeSort Entries.textLe).mapM fun e => (e.1.text, ·) <$> e.2 := by
    refine mapM_eq_of_forall₂ (List.forall₂_same.mpr fun e he => ?_)
    obtain ⟨s, hs⟩ := Key.type?_eq_text_iff.mp (h e (List.mem_mergeSort.mp he))
    rw [hs]
    cases e.2 <;> rfl
  rw [layer, Entries.sorted_of_texts h, ← hfields]
  rfl

/-- Fields in ascending order, or an integer of too many digits: no other fault is left if keys are
texts. -/
inductive Ordered : Except DumpError Json → Prop
  | ok {j : Json} (h : j.Ascending) : Ordered (.ok j)
  | tooManyDigits : Ordered (.error .tooManyDigits)

namespace Ordered

variable {x : Except DumpError Json}

theorem ascending {j : Json} (h : Ordered x) (hx : x = .ok j) : j.Ascending := by
  subst hx
  cases h
  assumption

theorem eq_tooManyDigits {e : DumpError} (h : Ordered x) (hx : x = .error e) :
    e = .tooManyDigits := by
  subst hx
  cases h
  rfl

theorem of_mapM {α β : Type} {f : α → Except DumpError β} {xs : List α} {whole : List β → Json}
    (herror : ∀ x ∈ xs, ∀ e, f x = .error e → e = .tooManyDigits)
    (hok : ∀ ys, xs.mapM f = .ok ys → (whole ys).Ascending) : Ordered (whole <$> xs.mapM f) := by
  cases hxs : xs.mapM f with
  | ok ys => exact .ok (hok ys hxs)
  | error e =>
    obtain ⟨x, hx, he⟩ := exists_mem_of_mapM_error hxs
    rw [herror x hx e he]
    exact .tooManyDigits

end Ordered

theorem ascending_atomJson (a : Atom) : (atomJson a).Ascending := by
  cases a with
  | bool b => exact .bool b
  | int n => exact .int n
  | float x => exact .float x
  | _ => exact .str _

variable {M N : Type} {R : M → N → Prop} {v : View M} {w : View N} {f : M → Except DumpError Json}
  {g : N → Except DumpError Json}

/-- If what is below comes to the same, a layer with texts as keys does in any order. -/
theorem layer_map_of_reordered (hkeys : v.Textual) (h : SparseLayer (fun _ => True) R v w)
    (hfg : ∀ m ∈ v.parts, ∀ n, R m n → g n = f m) : layer (w.map g) = layer (v.map f) := by
  cases h with
  | null => rfl
  | scalar s => rfl
  | sequence form each => rw [View.map, View.map, map_eq_of_forall₂ each hfg]
  | @mapping es _ _ fs distinct order skipped each =>
    obtain ⟨kept, hperm, heach⟩ := shuffled_of_layer (.mapping distinct order skipped each)
    have hfs : Entries.mapValues g fs = Entries.mapValues f kept := by
      refine map_eq_of_forall₂ heach fun e he e' hee' => ?_
      rw [hee'.1, hfg e.2 (List.mem_map_of_mem (hperm.mem_iff.mpr he)) e'.2 hee'.2]
    have htexts := hkeys.ofType f
    have hkept : Entries.OfType .text (Entries.mapValues f kept) :=
      fun e he => htexts e ((hperm.map _).mem_iff.mpr he)
    have hsorted := Entries.mergeSort_textLe_of_perm (distinct.mapValues f) htexts (hperm.map _)
    rw [View.map, View.map, hfs, layer_of_texts hkept, layer_of_texts htexts, hsorted]
    rfl

theorem ordered_layer (hkeys : v.Textual) (h : SparseLayer (fun _ => True) R v w)
    (hf : ∀ m ∈ v.parts, Ordered (f m)) : Ordered (layer (v.map f)) := by
  have hparts : ∀ x ∈ (v.map f).parts, Ordered x := by
    rw [View.parts_map]
    exact List.forall_mem_map.mpr hf
  cases h with
  | null => exact .ok .null
  | scalar s =>
    obtain ⟨a, rfl⟩ := hkeys
    rw [View.map, layer]
    split
    · exact .ok (ascending_atomJson a)
    · exact .tooManyDigits
  | sequence form each =>
    refine .of_mapM (fun x hx e he => (hparts x hx).eq_tooManyDigits he) fun js hjs => .array ?_
    exact forall_mem_of_mapM (fun x hx j hj => (hparts x hx).ascending hj) hjs
  | @mapping es _ _ fs distinct order skipped each =>
    have htexts := hkeys.ofType f
    have hvalues : ∀ e ∈ (Entries.mapValues f es).mergeSort Entries.textLe, Ordered e.2 :=
      fun e he => hparts e.2 (List.mem_map_of_mem (List.mem_mergeSort.mp he))
    rw [View.map, layer_of_texts htexts]
    refine .of_mapM (fun e he x hx => (hvalues e he).eq_tooManyDigits (map_eq_error_iff.mp hx))
      fun fields hfields => .object ?_ ?_
    · -- The names are the texts of the keys, and these are in order.
      have hnames : fields.map Prod.fst
          = ((Entries.mapValues f es).mergeSort Entries.textLe).map fun e => e.1.text := by
        refine map_eq_of_mapM (fun e field hfield => ?_) hfields
        obtain ⟨j, -, rfl⟩ := map_eq_ok_iff.mp hfield
        rfl
      have hkeys := Entries.pairwise_mergeSort_textLe (distinct.mapValues f) htexts
      exact List.pairwise_map.mp (hnames ▸ List.pairwise_map.mpr hkeys)
    · refine forall_mem_of_mapM (fun e he field hfield => ?_) hfields
      obtain ⟨j, hj, rfl⟩ := map_eq_ok_iff.mp hfield
      exact (hvalues e he).ascending hj

end Dump

namespace Document

variable {d d' : Document}

theorem acyclic_of_reordered (h : d.Acyclic) (hd : Reordered d d') : d'.Acyclic := by
  induction h generalizing d' with
  | intro d _ ih =>
    refine .intro d' fun n hn => ?_
    obtain ⟨m, hm, hmn⟩ := (shuffled_parts hd.layer).exists_left hn
    exact ih m hm hmn

theorem fold_dump_of_reordered (h : d.Acyclic) (hkeys : Everywhere View.Textual d)
    (hd : Reordered d d') : d'.fold Dump.layer Dump.back = d.fold Dump.layer Dump.back := by
  have h' := acyclic_of_reordered h hd
  induction h generalizing d' with
  | intro d hbelow ih =>
    rw [fold_eq h', fold_eq (.intro d hbelow)]
    refine Dump.layer_map_of_reordered (hkeys d .refl) hd.layer fun m hm n hmn => ?_
    exact ih m hm (hkeys.member (member_iff.mpr hm)) hmn (acyclic_of_reordered (hbelow m hm) hmn)

theorem ordered_fold_dump (h : d.Acyclic) (hkeys : Everywhere View.Textual d)
    (hd : Reordered d d') : Dump.Ordered (d.fold Dump.layer Dump.back) := by
  induction h generalizing d' with
  | intro d hbelow ih =>
    rw [fold_eq (.intro d hbelow)]
    refine Dump.ordered_layer (hkeys d .refl) hd.layer fun m hm => ?_
    obtain ⟨n, -, hmn⟩ := (shuffled_parts hd.layer).exists_right hm
    exact ih m hm (hkeys.member (member_iff.mpr hm)) hmn

theorem dumpable_iff_integersWritable (h : d.Acyclic) (hkeys : Everywhere View.Textual d) :
    Dumpable d ↔ d.IntegersWritable := by
  induction h with
  | intro d _ ih =>
    rw [dumpable_iff, integersWritable_iff]
    exact and_congr (hkeys d .refl).writable_iff
      (forall₂_congr fun m hm => ih m hm (hkeys.member (member_iff.mpr hm)))

/-- A way through a graph leads to places of the graph. -/
theorem everywhere_place {P : View Document → Prop} {g : Graph}
    (h : ∀ j, P ((g.view j).map (place g))) (i : Nat) : Everywhere P (place g i) := by
  intro part hpart
  obtain ⟨j, rfl⟩ : ∃ j, part = place g j := by
    induction hpart with
    | refl => exact ⟨i, rfl⟩
    | tail _ hm ih =>
      obtain ⟨j, rfl⟩ := ih
      obtain ⟨k, -, rfl⟩ := mem_parts_place_iff.mp (member_iff.mp hm)
      exact ⟨k, rfl⟩
  exact h j

theorem everywhere_textual_of_cells {g : Graph} (h : ∀ v ∈ g.cells, v.Textual) (i : Nat) :
    Everywhere View.Textual (place g i) := by
  refine everywhere_place (fun j => (View.textual_map_iff _ _).mpr ?_) i
  unfold Graph.view
  cases hj : g.cells[j]? with
  | none => trivial
  | some v => exact h v (Array.mem_of_getElem? hj)

/-- **Dumps are canonical.** If the keys of an acyclic document are texts and no leaf of it is a set,
then with its entries in another order, at any depth, it has the same dump. The dump has the fields of
all objects in ascending order, and there is one unless an integer has too many digits. -/
theorem dump_canonical (h : d.Acyclic) (hkeys : Everywhere View.Textual d) (hd : Reordered d d') :
    d'.dump = d.dump ∧
      (d.IntegersWritable → ∃ j : Json, j.Ascending ∧ d.dump = .ok (j.write .unicode)) ∧
      (¬ d.IntegersWritable → d.dump = .error .tooManyDigits) := by
  have hordered := ordered_fold_dump h hkeys hd
  rw [← dumpable_iff_integersWritable h hkeys, ← returns_fold_dump_iff h]
  unfold dump
  rw [fold_dump_of_reordered h hkeys hd]
  refine ⟨rfl, ?_, ?_⟩
  · rintro ⟨j, hj⟩
    exact ⟨j, hordered.ascending hj, by rw [hj]; rfl⟩
  · intro hnone
    obtain ⟨e, he⟩ := not_returns_iff.mp hnone
    rw [he, hordered.eq_tooManyDigits he]
    rfl

/-- A room on two storeys, in the cells once. -/
def cottage : Graph := ⟨#[
  .mapping [(.str "upper", 1), (.str "lower", 2)],
  .sequence .list [3],
  .sequence .tuple [3, 4],
  .mapping [(.str "lamp", 5), (.str "door", 4)],
  .null,
  .scalar (.atom (.date ⟨2024, 5, 1⟩))]⟩

def room : Value := .record [("door", .null), ("lamp", .scalar (.atom (.date ⟨2024, 5, 1⟩)))]

def cottageApart : Value :=
  .record [("lower", .sequence .tuple [room, .null]), ("upper", .list [room])]

theorem reordered_cottage : Reordered (place cottage 0) (tree cottageApart) := by
  have hnull : Reordered (place cottage 4) (tree .null) := .of_layer .null
  have hdate : Reordered (place cottage 5) (tree (.scalar (.atom (.date ⟨2024, 5, 1⟩)))) :=
    .of_layer (.scalar _)
  have hroom : Reordered (place cottage 3) (tree room) :=
    reordered_of_views rfl rfl (by decide) (.swap _ _ [])
      (.cons ⟨rfl, hnull⟩ (.cons ⟨rfl, hdate⟩ .nil))
  have hupper : Reordered (place cottage 1) (tree (.list [room])) :=
    .of_layer (.sequence .list (.cons hroom .nil))
  have hlower : Reordered (place cottage 2) (tree (.sequence .tuple [room, .null])) :=
    .of_layer (.sequence .tuple (.cons hroom (.cons hnull .nil)))
  exact reordered_of_views rfl rfl (by decide) (.swap _ _ [])
    (.cons ⟨rfl, hlower⟩ (.cons ⟨rfl, hupper⟩ .nil))

def cottageText : String :=
  "\x7b\n  \"lower\": [\n    \x7b\n      \"door\": null,\n      \"lamp\": \"2024-05-01\"\n    \x7d,\n" ++
  "    null\n  ],\n" ++
  "  \"upper\": [\n    \x7b\n      \"door\": null,\n      \"lamp\": \"2024-05-01\"\n    \x7d\n  ]\n\x7d"

theorem dump_canonical_cottage :
    (place cottage 0).Acyclic ∧ Everywhere View.Textual (place cottage 0) ∧
      Reordered (place cottage 0) (tree cottageApart) ∧
      (tree cottageApart).dump = (place cottage 0).dump ∧
      (place cottage 0).dump = .ok cottageText ∧
      ∃ j : Json, j.Ascending ∧ (place cottage 0).dump = .ok (j.write .unicode) := by
  have hdump : (place cottage 0).dump = .ok cottageText := by cbv
  have hdumpable := ((place cottage 0).returns_dump_iff).mp ⟨_, hdump⟩
  have hacyclic := acyclic_of_dumpable hdumpable
  have hkeys : Everywhere View.Textual (place cottage 0) :=
    everywhere_textual_of_cells (by simp [cottage, View.Textual, or_imp, forall_and]) 0
  obtain ⟨hsame, hsome, -⟩ := dump_canonical hacyclic hkeys reordered_cottage
  exact ⟨hacyclic, hkeys, reordered_cottage, hsame, hdump,
    hsome ((dumpable_iff_integersWritable hacyclic hkeys).mp hdumpable)⟩

end Document

end Conform
