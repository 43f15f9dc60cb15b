import Conform.Document.Format
import Conform.Proofs.Document.Dumpable
import Conform.Proofs.Json.Reading
import Conform.Proofs.Yaml.Denoting

/-!
# What decoding a text can come to

A text that has no document is refused, or it fails for one of a few other reasons: too many digits or
too many open collections in JSON; in YAML too deep a nesting, an escape that names no character, a
version of too many digits, or an element whose text its type cannot read. A document that is decoded
from JSON can always be dumped.
-/
namespace Conform

open Numeral (Digits digitLimit)

namespace Document

variable {text : List Char} {e : DecodeError}

end Document

/-! ## Documents from JSON -/

namespace Entries

variable {α : Type}

theorem forall_mem_put {P : Key → Prop} {Q : α → Prop} {k : Key} {v : α} {es : Entries α} (hk : P k)
    (hv : Q v) (h : ∀ e ∈ es, P e.1 ∧ Q e.2) : ∀ e ∈ es.put k v, P e.1 ∧ Q e.2 := by
  induction es with
  | nil => exact List.forall_mem_singleton.mpr ⟨hk, hv⟩
  | cons e es ih =>
    obtain ⟨he, hes⟩ := List.forall_mem_cons.mp h
    unfold put
    split
    · exact List.forall_mem_cons.mpr ⟨⟨he.1, hv⟩, hes⟩
    · exact List.forall_mem_cons.mpr ⟨he, ih hes⟩

/-- The keys and the values of a mapping come from the list that it is made of. -/
theorem forall_mem_ofList {P : Key → Prop} {Q : α → Prop} {es : List (Key × α)}
    (h : ∀ e ∈ es, P e.1 ∧ Q e.2) : ∀ e ∈ ofList es, P e.1 ∧ Q e.2 := by
  have hfold : ∀ acc : Entries α, (∀ e ∈ acc, P e.1 ∧ Q e.2) →
      ∀ e ∈ es.foldl (fun acc e => acc.put e.1 e.2) acc, P e.1 ∧ Q e.2 := by
    induction es with
    | nil => exact fun acc hacc => hacc
    | cons e es ih =>
      obtain ⟨he, hes⟩ := List.forall_mem_cons.mp h
      exact fun acc hacc => ih hes _ (forall_mem_put he.1 he.2 hacc)
  exact hfold [] (List.forall_mem_nil _)

end Entries

namespace Json

open Document (dumpable_tree_iff)

theorem Short.item {xs : List Json} (h : Short (.array xs)) : ∀ x ∈ xs, Short x :=
  fun _ hx n hn => h n (.item hx hn)

theorem Short.field {fields : List (String × Json)} (h : Short (.object fields)) :
    ∀ f ∈ fields, Short f.2 := fun _ hf n hn => h n (.field hf hn)

theorem dumpable_toValue : ∀ j : Json, Short j → Dumpable (Document.tree j.toValue)
  | .null, _ => dumpable_tree_iff.mpr ⟨trivial, List.forall_mem_nil _⟩
  | .bool _, _ => dumpable_tree_iff.mpr ⟨rfl, List.forall_mem_nil _⟩
  | .int n, h => dumpable_tree_iff.mpr ⟨h n .here, List.forall_mem_nil _⟩
  | .float _, _ => dumpable_tree_iff.mpr ⟨rfl, List.forall_mem_nil _⟩
  | .str _, _ => dumpable_tree_iff.mpr ⟨rfl, List.forall_mem_nil _⟩
  | .array xs, h => by
    rw [toValue, toValues_eq_map]
    exact dumpable_tree_iff.mpr ⟨trivial, List.forall_mem_map.mpr fun x hx =>
      dumpable_toValue x (h.item x hx)⟩
  | .object fields, h => by
    have hvalues : ∀ f ∈ fields, Dumpable (Document.tree f.2.toValue) := by
      rintro ⟨name, x⟩ hf
      have hlt : sizeOf x < sizeOf fields := by
        have hmem := List.sizeOf_lt_of_mem hf
        simp only [Prod.mk.sizeOf_spec] at hmem
        omega
      exact dumpable_toValue x (h.field _ hf)
    -- A name is a text, so the keys have names and an order.
    have hentries : ∀ e ∈ Entries.ofList (toEntries fields),
        e.1.type? = some .text ∧ Dumpable (Document.tree e.2) :=
      Entries.forall_mem_ofList (P := fun k => k.type? = some .text)
        (Q := fun v => Dumpable (Document.tree v)) <| by
          rw [toEntries_eq_map]
          exact List.forall_mem_map.mpr fun f hf => ⟨rfl, hvalues f hf⟩
    have hwritable : ∀ k : Key, k.type? = some .text → k.IsNamed ∧ k.isWritable = true := by
      intro k hk
      obtain ⟨s, rfl⟩ := Key.type?_eq_text_iff.mp hk
      exact ⟨.inr rfl, rfl⟩
    rw [toValue]
    exact dumpable_tree_iff.mpr ⟨⟨.inr ⟨.text, fun e he => (hentries e he).1⟩,
      fun e he => hwritable e.1 (hentries e he).1⟩,
      List.forall_mem_map.mpr fun e he => (hentries e he).2⟩

end Json

/-- A document that is decoded from JSON can be dumped. -/
theorem Document.dumpable_of_json {text : List Char} {d : Document} (h : decode .json text = .ok d) :
    Dumpable d := by
  have hread := Json.readChars_outcome text
  unfold decode at h
  dsimp only at h
  cases hj : Json.readChars text with
  | ok j =>
    rw [hj] at h hread
    cases h
    exact Json.dumpable_toValue j hread
  | error f =>
    rw [hj] at h
    cases h

end Conform
