import Conform.Document.Value
import Conform.Proofs.Document.Layerwise
import Conform.Proofs.Matching.Lower
import Conform.Proofs.Matching.Parallel

/-!
# Entries that no key asks for

A shape without wildcards looks at a mapping by looking its own keys up in it. Entries under other keys
may be left out of the subject, at any depth, and the rest of the entries may come in any order: the
walk finds the same values, or none, and comes to the same report or the same error.

A key is looked up as a text first and, if it is no text, by itself after that. Keys of several forms
may be the same key, so an entry counts if its key is the same as either of the two.
-/
namespace Conform.Matching

variable {S X Y : Type}

section Keys

variable [Node S]

/-- A key of a shape, at any depth. Elements of a sequence beyond the first are never followed. -/
inductive KeyOf : S → Key → Prop
  | here {shape : S} {entries : Entries S} {key : Key} {value : S}
      (hs : Node.view shape = .mapping entries) (he : (key, value) ∈ entries) : KeyOf shape key
  | part {shape part : S} {key : Key} (hp : Part shape part) (h : KeyOf part key) : KeyOf shape key

/-- Some key of the shape is looked up as this key. -/
def Asks (shape : S) (l : Key) : Prop :=
  ∃ key, KeyOf shape key ∧
    (l.same (.str (Marker.ofKey key).name) = true ∨ l.same key = true)

end Keys

section Trees

variable {key : Key}

/-! In a tree the keys are found from the root downwards. -/

theorem keyOf_null : ¬ KeyOf Value.null key := by
  rintro (⟨hs, -⟩ | ⟨hp, -⟩)
  · cases hs
  · rcases hp.kind with h | h <;> cases h

theorem keyOf_sequence {form : Form} {xs : List Value} :
    KeyOf (Value.sequence form xs) key ↔ ∃ x ∈ xs.head?, KeyOf x key := by
  constructor
  · rintro (⟨hs, -⟩ | ⟨hp, h⟩)
    · cases hs
    · exact ⟨_, (part_iff_of_sequence rfl).mp hp, h⟩
  · rintro ⟨x, hx, h⟩
    exact .part ((part_iff_of_sequence rfl).mpr hx) h

theorem keyOf_mapping {es : Entries Value} :
    KeyOf (Value.mapping es) key ↔ ∃ e ∈ es, e.1 = key ∨ KeyOf e.2 key := by
  constructor
  · rintro (⟨hs, he⟩ | ⟨hp, h⟩)
    · cases hs
      exact ⟨_, he, .inl rfl⟩
    · obtain ⟨k, hk⟩ := (part_iff_of_mapping rfl).mp hp
      exact ⟨_, hk, .inr h⟩
  · rintro ⟨e, he, rfl | h⟩
    · exact .here rfl he
    · exact .part ((part_iff_of_mapping rfl).mpr ⟨e.1, he⟩) h

end Trees

section Subjects

variable {counts : Key → Prop} {Q : X → Y → Prop}

theorem outline_of_sparse {v : View X} {w : View Y} (h : SparseLayer counts Q v w) : Outline Q v w := by
  cases h with
  | null => exact .null
  | scalar s => exact .scalar s s
  | sequence form each => exact .sequence form form each
  | mapping => exact .mapping _ _

variable [Node X] [Node Y] {subject : X} {subject' : Y}

/-- A key finds related values, or none, if its two forms count. -/
theorem rel_entry?_of_sparse (h : SparseLayer counts Q (Node.view subject) (Node.view subject'))
    {marker : Marker} {key : Key} (hname : ∀ l : Key, l.same (.str marker.name) = true → counts l)
    (hkey : ∀ l : Key, l.same key = true → counts l) :
    Option.Rel Q ( entry? marker key subject) ( entry? marker key subject') := by
  generalize hv : Node.view subject = v at h
  generalize hv' : Node.view subject' = w at h
  cases h with
  | null => simpa only [ entry?, hv, hv'] using Option.Rel.none
  | scalar s => simpa only [ entry?, hv, hv'] using Option.Rel.none
  | sequence form each => simpa only [ entry?, hv, hv'] using Option.Rel.none
  | mapping distinct order skipped each =>
    refine rel_entry?_of_mapping hv hv' ?_ ?_
    · exact Entries.rel_get?_of_sparse distinct order skipped each hname
    · exact Entries.rel_get?_of_sparse distinct order skipped each hkey

end Subjects

section Asked

variable [Node S] [Node X] [Node Y] {shape : S}

theorem Demands.refl {R : S → S → Prop} {value : S} (hself : R value value)
    (hpart : ∀ part, Part value part → R part part) : Demands R value value := by
  cases hv : Node.view value with
  | null => exact .leaf (.inl (Node.kind_of_view hv)) (.inl (Node.kind_of_view hv))
  | scalar s => exact .leaf (.inr (Node.kind_of_view hv)) (.inr (Node.kind_of_view hv))
  | mapping es => exact .mapping hv hv rfl hself
  | sequence form xs =>
    refine .sequence hv hv rfl fun t ht t' ht' => ?_
    obtain rfl : t = t' := Option.some.inj (ht.symm.trans ht')
    exact hpart t ((part_iff_of_sequence hv).mpr ht)

/-- Without wildcards, a walk on what the keys of the shape ask for is in step with the walk on all. -/
theorem inStep_of_sparse (hw : ∀ key, KeyOf shape key → (Marker.ofKey key).kind ≠ .wildcard) :
    let R : S → S → Prop := fun s t => t = s ∧ ∀ key, KeyOf s key → KeyOf shape key
    let Q : X → Y → Prop := Sparse (Asks shape)
    InStep (List.Forall₂ (Act.Alike R Q)) R Q := by
  intro R Q
  have hpart : ∀ {s part : S}, R s s → Part s part → R part part :=
    fun hs hp => ⟨rfl, fun key hk => hs.2 key (.part hp hk)⟩
  refine ⟨fun x y hxy => outline_of_sparse hxy.layer, ?_, ?_⟩
  · rintro s _ ⟨rfl, hs⟩
    exact .refl ⟨rfl, hs⟩ fun part hp => hpart ⟨rfl, hs⟩ hp
  · rintro s _ x y es fs ⟨rfl, hs⟩ hxy hv hv'
    obtain rfl : es = fs := View.mapping.inj (hv.symm.trans hv')
    have heach : ∀ e ∈ es, R e.2 e.2 ∧ Agree (List.Forall₂ (Act.Alike R Q)) Q e.1 x y := by
      intro e he
      have hkey : KeyOf shape e.1 := hs e.1 (.here hv he)
      refine ⟨hpart ⟨rfl, hs⟩ ((part_iff_of_mapping hv).mpr ⟨e.1, he⟩), ?_, ?_, ?_⟩
      · exact rel_entry?_of_sparse hxy.layer (fun l hl => ⟨e.1, hkey, .inl hl⟩)
          (fun l hl => ⟨e.1, hkey, .inr hl⟩)
      · exact fun hkind => absurd hkind (hw e.1 hkey)
      · exact fun hkind => absurd hkind (hw e.1 hkey)
    have hsame : List.Forall₂ (fun e f => e ∈ es ∧ f = e) es es :=
      (List.forall₂_and_left _ _).mpr ⟨fun e he => he, List.forall₂_same.mpr fun e _ => rfl⟩
    refine composes_alike.spans (hsame.imp ?_)
    rintro e _ ⟨he, rfl⟩
    exact ⟨rfl, heach _ he⟩

end Asked

end Conform.Matching

namespace Conform.Matcher

open Matching

variable {S X Y : Type} [Node S] [Node X] [Node Y]

/-- **Entries that no key asks for do not matter.** Let no key of the shape be a wildcard. If entries are
left out of the mappings of a subject, at any depth, whose keys are neither the name nor the raw form
of any key of the shape, and the other entries are put in any order, then a lenient matcher comes to
the same: the same issues in the same order, or the same error. -/
theorem verifyOn_eq_of_sparse (stack : Stack) (m : Matcher) (hm : m.strict = false) (shape : S)
    (hs : Node.kind shape = .mapping)
    (hw : ∀ key, KeyOf shape key → (Marker.ofKey key).kind ≠ .wildcard) {subject : X} {subject' : Y}
    (h : Sparse (Asks shape) subject subject') :
    m.verifyOn stack shape subject' = m.verifyOn stack shape subject :=
  verifyOn_eq_of_inStep (inStep_of_sparse hw) stack hm hs ⟨rfl, fun _ hk => hk⟩ h

/-- A floor, known by its number, and its rooms. -/
def floorShape : Value :=
  .mapping [(.atom (.int 1), .record [("lift", .null), ("stairs", .null)]),
    (.str "[opt:key:rooms]", .list [.record [("door", .null)]])]

/-- The floor is found under a truth value, which is the same key as the number. -/
def floor : Value :=
  .mapping [(.str "colour", .str "grey"),
    (.atom (.bool true), .record [("height", .int 3), ("lift", .null)]),
    (.str "rooms", .list [.record [("wall", .null)]])]

/-- The floor without what the shape does not ask for. -/
def bareFloor : Value :=
  .mapping [(.str "rooms", .list [.record []]), (.atom (.bool true), .record [("lift", .null)])]

def floorKeys : List Key :=
  [.atom (.int 1), .str "lift", .str "stairs", .str "[opt:key:rooms]", .str "door"]

theorem mem_floorKeys {key : Key} (h : KeyOf floorShape key) : key ∈ floorKeys := by
  have hkeys : key = .atom (.int 1) ∨ (key = .str "lift" ∨ key = .str "stairs") ∨
      key = .str "[opt:key:rooms]" ∨ key = .str "door" := by
    simpa [floorShape, Value.record, keyOf_mapping, keyOf_sequence, keyOf_null, or_assoc, eq_comm]
      using h
  simpa [floorKeys, or_assoc] using hkeys

theorem not_asks_floorShape {l : Key}
    (h : ∀ key ∈ floorKeys, l.same (.str (Marker.ofKey key).name) = false ∧ l.same key = false) :
    ¬ Asks floorShape l := by
  rintro ⟨key, hkey, hsame⟩
  obtain ⟨hname, hraw⟩ := h key (mem_floorKeys hkey)
  simp [hname, hraw] at hsame

theorem sparse_floor : Sparse (Asks floorShape) floor bareFloor := by
  have hheight : ¬ Asks floorShape (.str "height") := not_asks_floorShape (by decide)
  have hwall : ¬ Asks floorShape (.str "wall") := not_asks_floorShape (by decide)
  have hcolour : ¬ Asks floorShape (.str "colour") := not_asks_floorShape (by decide)
  have hlift : Sparse (Asks floorShape) (Value.record [("height", .int 3), ("lift", .null)])
      (Value.record [("lift", .null)]) := by
    have horder : [(Key.str "height", Value.int 3), (.str "lift", .null)].Perm
        ([(.str "lift", .null)] ++ [(.str "height", .int 3)]) := .swap _ _ _
    have hnull : Sparse (Asks floorShape) Value.null Value.null := .of_layer .null
    exact .of_layer (.mapping (by decide) horder (by simpa using hheight) (.cons ⟨rfl, hnull⟩ .nil))
  have hroom : Sparse (Asks floorShape) (Value.record [("wall", .null)]) (Value.record []) := by
    have horder : [(Key.str "wall", Value.null)].Perm ([] ++ [(.str "wall", .null)]) := .refl _
    exact .of_layer (.mapping (by decide) horder (by simpa using hwall) .nil)
  have hrooms : Sparse (Asks floorShape) (Value.list [.record [("wall", .null)]])
      (Value.list [.record []]) := .of_layer (.sequence .list (.cons hroom .nil))
  have horder : ∀ colour lift rooms : Key × Value,
      [colour, lift, rooms].Perm ([rooms, lift] ++ [colour]) :=
    fun colour lift rooms => List.reverse_perm [rooms, lift, colour]
  exact .of_layer (.mapping (by decide) (horder _ _ _) (by simpa using hcolour)
    (.cons ⟨rfl, hrooms⟩ (.cons ⟨rfl, hlift⟩ .nil)))

theorem verifyOn_eq_of_sparse_floor :
    Node.kind floorShape = .mapping ∧
      (∀ key, KeyOf floorShape key → (Marker.ofKey key).kind ≠ .wildcard) ∧
      Sparse (Asks floorShape) floor bareFloor ∧
      ∃ r, (⟨9, false, by decide⟩ : Matcher).verify floorShape floor = .ok r ∧
        (⟨9, false, by decide⟩ : Matcher).verify floorShape bareFloor = .ok r ∧
        r.messages = ["Missing required key 'stairs' at /1",
          "Missing required key 'door' at /rooms"] := by
  have hwild : ∀ key, KeyOf floorShape key → (Marker.ofKey key).kind ≠ .wildcard := by
    intro key hkey
    have hnone : ∀ key ∈ floorKeys, (Marker.ofKey key).kind ≠ .wildcard := by decide
    exact hnone key (mem_floorKeys hkey)
  have hsame : (⟨9, false, by decide⟩ : Matcher).verify floorShape bareFloor =
      (⟨9, false, by decide⟩ : Matcher).verify floorShape floor :=
    verifyOn_eq_of_sparse .usual ⟨9, false, by decide⟩ rfl floorShape rfl hwild sparse_floor
  have hfound : ((⟨9, false, by decide⟩ : Matcher).verify floorShape floor).toOption.map Report.messages =
      some ["Missing required key 'stairs' at /1", "Missing required key 'door' at /rooms"] := by
    decide +kernel
  cases hverify : (⟨9, false, by decide⟩ : Matcher).verify floorShape floor with
  | error e =>
    rw [hverify] at hfound
    cases hfound
  | ok r =>
    rw [hverify] at hfound
    exact ⟨rfl, hwild, sparse_floor, r, rfl, hsame.trans hverify, Option.some.inj hfound⟩

end Conform.Matcher
