import Conform.Proofs.Document.Writable
import Conform.Proofs.Matching.Lower

/-!
# Walks without faults

A key is written as text when its entry is reached, and the key of a member when the member is asked for
something. So a walk cannot be at fault if every key in the subject has a text and every key of the shape
that it can come to, and that is handed down to whatever it enters.
-/
namespace Conform

/-- All keys at every depth have a text. -/
def KeysWritable {N : Type} [Node N] (n : N) : Prop :=
  ∀ part, Relation.ReflTransGen Matching.Member n part → ∀ es, Node.view part = .mapping es →
    ∀ e ∈ es, e.1.isWritable = true

section KeysWritable

variable {N : Type} [Node N] {n part : N} {es : Entries N} {e : Key × N}

/-- A key with more digits than are written. -/
def longKey : Key := .atom (.int (Nat.pow 16 3600))

theorem longKey_not_writable : longKey.isWritable = false := by decide +kernel

theorem KeysWritable.members (h : KeysWritable n) (hp : Relation.ReflTransGen Matching.Member n part) :
    KeysWritable part :=
  fun other hother => h other (hp.trans hother)

theorem KeysWritable.member (h : KeysWritable n) (hp : Matching.Member n part) : KeysWritable part :=
  h.members (.single hp)

theorem KeysWritable.key (h : KeysWritable n) (hn : Node.view n = .mapping es) (he : e ∈ es) :
    e.1.isWritable = true :=
  h n .refl es hn e he

theorem KeysWritable.value (h : KeysWritable n) (hn : Node.view n = .mapping es) (he : e ∈ es) :
    KeysWritable e.2 :=
  h.member (.value hn (show (e.1, e.2) ∈ es from he))

/-- A document that can be shown has no other keys. -/
theorem keysWritable_of_isWritable {d : Document} (h : d.isWritable = true) : KeysWritable d := by
  have hintegers := d.isWritable_iff.mp h
  intro part hpart es hes
  have hparts : Relation.ReflTransGen (fun a b : Document => b ∈ a.view.parts) d part :=
    Relation.ReflTransGen.mono (fun _ _ => Matching.member_iff.mp) _ _ hpart
  have hlayer := hintegers part hparts
  rw [show part.view = _ from hes] at hlayer
  exact hlayer

end KeysWritable

namespace Matching

section Parts

variable {S : Type} [Node S] {shape part : S}

/-- Some key of the node has no text. -/
def LacksText (node : S) : Prop :=
  ∃ entries, Node.view node = .mapping entries ∧ ∃ e ∈ entries, e.1.isWritable = false

theorem not_lacksText_of_mapping {entries : Entries S} (hs : Node.view shape = .mapping entries) :
    ¬ LacksText shape ↔ ∀ e ∈ entries, e.1.isWritable = true := by
  simp [LacksText, hs]

/-- What holds of whatever can be reached holds here and of whatever can be reached after a step. -/
theorem forall_reached_iff {P : S → Prop} :
    (∀ part, Relation.ReflTransGen Part shape part → P part) ↔
      P shape ∧ ∀ part, Part shape part → ∀ other, Relation.ReflTransGen Part part other → P other := by
  constructor
  · exact fun h => ⟨h shape .refl, fun part hp other ho => h other (.head hp ho)⟩
  · rintro ⟨hshape, hparts⟩ other ho
    obtain rfl | ⟨part, hp, hrest⟩ := Relation.ReflTransGen.cases_head ho
    · exact hshape
    · exact hparts part hp other hrest

/-- All keys that a walk comes to in a shape have a text. Elements of a sequence beyond the first are
never followed. -/
def PartsWritable (shape : S) : Prop :=
  ∀ part, Relation.ReflTransGen Part shape part → ¬ LacksText part

/-- The parts of a shape are members of it. -/
theorem Part.member (h : Part shape part) : Member shape part := by
  rcases h with ⟨hs, hp⟩ | ⟨hs, he⟩
  · exact .element hs (List.mem_of_mem_head? hp)
  · exact .value hs he

theorem partsWritable_of_keysWritable (h : KeysWritable shape) : PartsWritable shape := by
  rintro part hpart ⟨entries, hs, e, he, hkey⟩
  have hmembers := Relation.ReflTransGen.mono (fun _ _ => Part.member) _ _ hpart
  rw [(h.members hmembers).key hs he] at hkey
  cases hkey

theorem PartsWritable.parts (h : PartsWritable shape) (hp : Relation.ReflTransGen Part shape part) :
    PartsWritable part :=
  fun other hother => h other (hp.trans hother)

end Parts

section Acts

variable {S X : Type} [Node S] [Node X] {p : Pointer} {shape : S} {subject : X}

omit [Node S] in
theorem fault_not_mem_arrayActs {elements : List S} : .fault ∉ arrayActs p elements subject := by
  unfold arrayActs
  cases Node.view subject with
  | sequence form xs =>
    cases elements with
    | nil => simp
    | cons template more => cases more <;> cases xs <;> simp [Act.found]
  | _ => simp [Act.found]

theorem fault_not_mem_valueActs : .fault ∉ valueActs p shape subject := by
  unfold valueActs
  cases Node.view shape with
  | null => exact List.not_mem_nil
  | scalar s => exact List.not_mem_nil
  | sequence form elements => exact fault_not_mem_arrayActs
  | mapping entries =>
    unfold objectActs
    cases Node.view subject <;> cases entries <;> simp [Act.found]

theorem fault_not_mem_memberActs : .fault ∉ memberActs p shape subject := by
  unfold memberActs
  cases Node.view shape with
  | null => exact List.not_mem_nil
  | scalar s => exact List.not_mem_nil
  | sequence form elements => exact fault_not_mem_arrayActs
  | mapping entries => simp

/-- Members are known by their places in a sequence, and by their keys in a mapping. -/
theorem isWritable_of_mem_members (hx : KeysWritable subject) {m : Key × X} (hm : m ∈ members subject) :
    m.1.isWritable = true := by
  unfold members at hm
  cases hv : Node.view subject with
  | null => simp [hv] at hm
  | scalar s => simp [hv] at hm
  | sequence form xs =>
    rw [hv] at hm
    obtain ⟨x, -, rfl⟩ := List.mem_map.mp hm
    rfl
  | mapping es =>
    rw [hv] at hm
    exact hx.key hv hm

theorem fault_not_mem_entryActs {entry : Key × S} (hkey : entry.1.isWritable = true)
    (hx : KeysWritable subject) : .fault ∉ entryActs p subject entry := by
  rw [entryActs, textActs_of_isWritable hkey, List.nil_append]
  unfold markedActs
  dsimp only
  cases (Marker.ofKey entry.1).kind with
  | wildcard =>
    cases acceptsWildcard subject with
    | true =>
      simp only [if_true, List.mem_flatMap, not_exists, not_and]
      intro m hm
      rw [nameActs_of_isWritable (isWritable_of_mem_members hx hm), List.nil_append]
      exact fault_not_mem_memberActs
    | false => simp [Act.found]
  | optional =>
    cases entry? (Marker.ofKey entry.1) entry.1 subject with
    | some value => exact fault_not_mem_valueActs
    | none => simp
  | exact =>
    cases entry? (Marker.ofKey entry.1) entry.1 subject with
    | some value => exact fault_not_mem_valueActs
    | none => simp [Act.found]

theorem fault_not_mem_acts (hs : PartsWritable shape) (hx : KeysWritable subject) :
    .fault ∉ acts p shape subject := by
  cases hv : Node.view shape with
  | mapping entries =>
    have hkeys := (not_lacksText_of_mapping hv).mp (hs shape .refl)
    simp only [acts, hv, List.mem_flatMap, not_exists, not_and]
    exact fun e he => fault_not_mem_entryActs (hkeys e he) hx
  | _ =>
    rw [acts_of_not_mapping (by simp [Node.kind, hv, View.kind])]
    exact fault_not_mem_valueActs

end Acts

variable {S X : Type} [Node S] [Node X] {shape : S} {subject : X}

/-- What is entered has no keys without a text either. -/
theorem writable_of_mem_lower (hs : PartsWritable shape) (hx : KeysWritable subject) {next : S × X}
    (h : next ∈ lower shape subject) : PartsWritable next.1 ∧ KeysWritable next.2 := by
  obtain ⟨hpart, hmember⟩ := below_of_mem_lower h
  exact ⟨hs.parts hpart.to_reflTransGen, hx.members hmember.to_reflTransGen⟩

/-- Levels without faults that enter only such levels have no fault below them. -/
theorem fault_not_mem_unfolding_of_closed {P : S → X → Prop}
    (hacts : ∀ {s x} p, P s x → .fault ∉ acts p s x)
    (hlower : ∀ {s x} {next : S × X}, P s x → next ∈ lower s x → P next.1 next.2) (n : Nat) (p : Pointer)
    (h : P shape subject) : .fault ∉ unfolding n p shape subject := by
  induction n generalizing p shape subject with
  | zero => simp [unfolding]
  | succ n ih =>
    simp only [unfolding, List.mem_flatMap, not_exists, not_and]
    intro a ha
    cases a with
    | issue i => simp [Act.expand]
    | remark text => simp [Act.expand]
    | enter q part member => exact ih q (hlower h ((mem_lower_iff p (part, member)).mpr ⟨q, ha⟩))
    | fault => exact absurd ha (hacts p h)

/-- If all keys have a text, an unfolding has no fault, over any number of levels. -/
theorem fault_not_mem_unfolding (hs : PartsWritable shape) (hx : KeysWritable subject) (n : Nat)
    (p : Pointer) : .fault ∉ unfolding n p shape subject :=
  fault_not_mem_unfolding_of_closed (P := fun s x => PartsWritable s ∧ KeysWritable x)
    (fun _ h => fault_not_mem_acts h.1 h.2) (fun h hn => writable_of_mem_lower h.1 h.2 hn) n p ⟨hs, hx⟩

theorem not_writable_of_fault {n : Nat} {p : Pointer} (h : .fault ∈ unfolding n p shape subject) :
    ¬ (PartsWritable shape ∧ KeysWritable subject) :=
  fun ⟨hs, hx⟩ => fault_not_mem_unfolding hs hx n p h

end Matching
end Conform
