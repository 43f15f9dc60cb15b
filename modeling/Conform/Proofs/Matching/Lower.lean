import Mathlib.Logic.Relation
import Conform.Proofs.Matching.Acts
import Conform.Proofs.Matching.Conformance

/-!
# The levels below a level

What a level enters follows from the shape and the subject, whatever the pointer. It always lies
further down both of them: a walk never enters a shape or a subject that it comes from, unless that
leads back to itself.
-/
namespace Conform.Matching

variable {S X : Type} [Node X]

section Array

theorem entered_arrayActs (p q : Pointer) (elements : List S) (subject : X) :
    (arrayActs p elements subject).filterMap Act.entered? =
      (arrayActs q elements subject).filterMap Act.entered? := by
  unfold arrayActs
  cases Node.view subject with
  | null => rfl
  | scalar s => rfl
  | mapping es => rfl
  | sequence form xs =>
    cases elements with
    | nil => rfl
    | cons template more =>
      cases more <;> cases xs <;>
        simp [List.filterMap_cons, List.filterMap_map, Function.comp_def]

/-- What is entered in a sequence is one of its elements, under the first element of the shape. -/
theorem of_enter_arrayActs {p q : Pointer} {elements : List S} {part : S} {subject member : X}
    (h : .enter q part member ∈ arrayActs p elements subject) :
    elements.head? = some part ∧
      ∃ form xs, Node.view subject = .sequence form xs ∧ member ∈ xs := by
  unfold arrayActs at h
  cases hx : Node.view subject with
  | null => simp [hx, Act.found] at h
  | scalar s => simp [hx, Act.found] at h
  | mapping es => simp [hx, Act.found] at h
  | sequence form xs =>
    cases elements with
    | nil => simp [hx] at h
    | cons template more =>
      cases xs with
      | nil => cases more <;> simp [hx, Act.found] at h
      | cons x xs =>
        have hmem : .enter q part member ∈ (x :: xs).map fun y => Act.enter p template y := by
          cases more <;> simpa [hx] using h
        obtain ⟨y, hy, heq⟩ := List.mem_map.mp hmem
        cases heq
        exact ⟨rfl, form, _, rfl, hy⟩

/-- Every element is entered, if the shape has a first one. -/
theorem enter_mem_arrayActs {form : Form} {elements : List S} {part : S} {subject member : X}
    {xs : List X} (p : Pointer) (hx : Node.view subject = .sequence form xs)
    (hpart : elements.head? = some part) (hm : member ∈ xs) :
    .enter p part member ∈ arrayActs p elements subject := by
  obtain ⟨rest, rfl⟩ := List.head?_eq_some_iff.mp hpart
  have hne : xs.isEmpty = false := List.isEmpty_eq_false_iff.mpr (List.ne_nil_of_mem hm)
  simp only [arrayActs, hx, hne, Bool.false_eq_true, if_false]
  exact List.mem_append_right _ (List.mem_map.mpr ⟨member, hm, rfl⟩)

end Array

variable [Node S]

/-- What is matched at the levels that a level enters, in order. -/
def lower (shape : S) (subject : X) : List (S × X) :=
  (acts .root shape subject).filterMap Act.entered?

section Pointers

variable (p q : Pointer)

/-! What is entered does not depend on the pointer. -/

theorem entered_valueActs (shape : S) (subject : X) :
    (valueActs p shape subject).filterMap Act.entered? =
      (valueActs q shape subject).filterMap Act.entered? := by
  unfold valueActs objectActs
  cases Node.view shape with
  | null => rfl
  | scalar s => rfl
  | sequence form elements => exact entered_arrayActs p q elements subject
  | mapping entries =>
    cases Node.view subject <;> cases entries <;> rfl

theorem entered_memberActs (shape : S) (member : X) :
    (memberActs p shape member).filterMap Act.entered? =
      (memberActs q shape member).filterMap Act.entered? := by
  unfold memberActs
  cases Node.view shape with
  | null => rfl
  | scalar s => rfl
  | sequence form elements => exact entered_arrayActs p q elements member
  | mapping entries => rfl

theorem entered_markedActs (subject : X) (entry : Key × S) :
    (markedActs p subject entry).filterMap Act.entered? =
      (markedActs q subject entry).filterMap Act.entered? := by
  unfold markedActs
  dsimp only
  cases (Marker.ofKey entry.1).kind with
  | wildcard =>
    cases acceptsWildcard subject with
    | true =>
      simp only [if_true, List.filterMap_flatMap, List.filterMap_append]
      exact List.flatMap_congr fun m _ => congrArg _ (entered_memberActs _ _ entry.2 m.2)
    | false => rfl
  | optional =>
    cases entry? (Marker.ofKey entry.1) entry.1 subject with
    | some value => exact entered_valueActs _ _ entry.2 value
    | none => rfl
  | exact =>
    cases entry? (Marker.ofKey entry.1) entry.1 subject with
    | some value => exact entered_valueActs _ _ entry.2 value
    | none => rfl

theorem entered_entryActs (subject : X) (entry : Key × S) :
    (entryActs p subject entry).filterMap Act.entered? =
      (entryActs q subject entry).filterMap Act.entered? := by
  rw [entryActs, entryActs, List.filterMap_append, List.filterMap_append, entered_textActs,
    entered_markedActs p q]

theorem entered_acts (shape : S) (subject : X) :
    (acts p shape subject).filterMap Act.entered? = lower shape subject := by
  have hvalue := entered_valueActs p .root shape subject
  unfold lower acts
  cases Node.view shape with
  | null => exact hvalue
  | scalar s => exact hvalue
  | sequence form elements => exact hvalue
  | mapping entries =>
    simp only [List.filterMap_flatMap]
    exact List.flatMap_congr fun e _ => entered_entryActs p .root subject e

end Pointers

theorem mem_lower_iff (p : Pointer) {shape : S} {subject : X} (next : S × X) :
    next ∈ lower shape subject ↔ ∃ q, .enter q next.1 next.2 ∈ acts p shape subject := by
  rw [← entered_acts p, List.mem_filterMap]
  constructor
  · rintro ⟨a, ha, hn⟩
    cases a with
    | issue i => cases hn
    | remark text => cases hn
    | enter q shape' subject' =>
      obtain rfl := Option.some.inj hn
      exact ⟨q, ha⟩
    | fault => cases hn
  · rintro ⟨q, hq⟩
    exact ⟨_, hq, rfl⟩

section Parts

/-- A part of a shape right below it: the first element of a sequence, a value of a mapping. -/
inductive Part (shape : S) : S → Prop
  | template {form : Form} {elements : List S} {part : S}
      (hs : Node.view shape = .sequence form elements) (hp : elements.head? = some part) :
      Part shape part
  | value {entries : Entries S} {key : Key} {part : S} (hs : Node.view shape = .mapping entries)
      (he : (key, part) ∈ entries) : Part shape part

variable {p q : Pointer} {shape part : S} {subject member : X}

theorem part_iff_of_sequence {form : Form} {elements : List S}
    (hs : Node.view shape = .sequence form elements) :
    Part shape part ↔ elements.head? = some part := by
  constructor
  · rintro (⟨h, hp⟩ | ⟨h, -⟩) <;> rw [hs] at h <;> cases h
    exact hp
  · exact .template hs

theorem part_iff_of_mapping {entries : Entries S} (hs : Node.view shape = .mapping entries) :
    Part shape part ↔ ∃ key, (key, part) ∈ entries := by
  constructor
  · rintro (⟨h, -⟩ | ⟨h, he⟩) <;> rw [hs] at h <;> cases h
    exact ⟨_, he⟩
  · rintro ⟨key, he⟩
    exact .value hs he

/-- Only a sequence and a mapping have parts. -/
theorem Part.kind (h : Part shape part) :
    Node.kind shape = .sequence ∨ Node.kind shape = .mapping := by
  rcases h with ⟨hs, -⟩ | ⟨hs, -⟩
  · exact .inl (by rw [Node.kind, hs]; rfl)
  · exact .inr (by rw [Node.kind, hs]; rfl)

theorem member_of_entry_eq_some {marker : Marker} {key : Key} {value : X}
    (h : entry? marker key subject = some value) : Member subject value := by
  unfold entry? at h
  cases hx : Node.view subject with
  | null => simp [hx] at h
  | scalar s => simp [hx] at h
  | sequence form xs => simp [hx] at h
  | mapping es =>
    simp only [hx, Option.orElse_eq_orElse, Option.orElse_eq_or, Option.or_eq_some_iff] at h
    obtain ⟨k, hk⟩ : ∃ k, es.get? k = some value := by
      rcases h with h | ⟨-, h⟩
      · exact ⟨_, h⟩
      · cases hs : key.string?.isSome with
        | true => simp [hs] at h
        | false => exact ⟨key, by simpa [hs] using h⟩
    obtain ⟨l, hl⟩ := Entries.exists_mem_of_get? hk
    exact .value hx hl

theorem below_of_enter_arrayActs {form : Form} {elements : List S}
    (hs : Node.view shape = .sequence form elements)
    (h : .enter q part member ∈ arrayActs p elements subject) :
    Part shape part ∧ Member subject member := by
  obtain ⟨hpart, form', xs, hx, hmem⟩ := of_enter_arrayActs h
  exact ⟨.template hs hpart, .element hx hmem⟩

/-- A value is entered itself, or one of its elements is. -/
theorem below_of_enter_valueActs (h : .enter q part member ∈ valueActs p shape subject) :
    Relation.ReflTransGen Part shape part ∧ Relation.ReflTransGen Member subject member := by
  unfold valueActs at h
  cases hs : Node.view shape with
  | null => simp [hs] at h
  | scalar s => simp [hs] at h
  | sequence form elements =>
    rw [hs] at h
    obtain ⟨hpart, hmember⟩ := below_of_enter_arrayActs hs h
    exact ⟨.single hpart, .single hmember⟩
  | mapping entries =>
    obtain ⟨rfl, rfl⟩ : part = shape ∧ member = subject := by
      unfold objectActs at h
      cases hx : Node.view subject <;> cases entries <;> simp_all [Act.found]
    exact ⟨.refl, .refl⟩

theorem below_of_enter_memberActs (h : .enter q part member ∈ memberActs p shape subject) :
    Relation.ReflTransGen Part shape part ∧ Relation.ReflTransGen Member subject member := by
  unfold memberActs at h
  cases hs : Node.view shape with
  | null => simp [hs] at h
  | scalar s => simp [hs] at h
  | sequence form elements =>
    rw [hs] at h
    obtain ⟨hpart, hmember⟩ := below_of_enter_arrayActs hs h
    exact ⟨.single hpart, .single hmember⟩
  | mapping entries =>
    rw [hs] at h
    cases List.mem_singleton.mp h
    exact ⟨.refl, .refl⟩

/-- An entry enters a value of its own under a member of the subject, or what lies below the two. -/
theorem below_of_enter_entryActs {entry : Key × S}
    (h : .enter q part member ∈ entryActs p subject entry) :
    Relation.ReflTransGen Part entry.2 part ∧ Relation.TransGen Member subject member := by
  replace h := (List.mem_append.mp h).resolve_left enter_not_mem_textActs
  unfold markedActs at h
  dsimp only at h
  -- An optional key and an exact one come to what they enter in the same way.
  have hvalue : ∀ {p value}, entry? (Marker.ofKey entry.1) entry.1 subject = some value →
      .enter q part member ∈ valueActs p entry.2 value →
      Relation.ReflTransGen Part entry.2 part ∧ Relation.TransGen Member subject member := by
    intro p value hv h
    obtain ⟨hpart, hmember⟩ := below_of_enter_valueActs h
    exact ⟨hpart, .head' (member_of_entry_eq_some hv) hmember⟩
  cases hk : (Marker.ofKey entry.1).kind with
  | wildcard =>
    cases hx : acceptsWildcard subject with
    | true =>
      simp only [hk, hx, if_true, List.mem_flatMap] at h
      obtain ⟨m, hm, hacts⟩ := h
      replace hacts := (List.mem_append.mp hacts).resolve_left fun hname =>
        enter_not_mem_textActs (mem_textActs_of_mem_nameActs hname)
      obtain ⟨hpart, hmember⟩ := below_of_enter_memberActs hacts
      exact ⟨hpart, .head' (exists_mem_members_iff.mp ⟨m.1, hm⟩) hmember⟩
    | false => simp [hk, hx, Act.found] at h
  | optional =>
    cases hv : entry? (Marker.ofKey entry.1) entry.1 subject with
    | some value => rw [hk, hv] at h; exact hvalue hv h
    | none => simp [hk, hv] at h
  | exact =>
    cases hv : entry? (Marker.ofKey entry.1) entry.1 subject with
    | some value => rw [hk, hv] at h; exact hvalue hv h
    | none => simp [hk, hv, Act.found] at h

/-- What a level enters lies below its shape and below its subject. -/
theorem below_of_mem_lower {next : S × X} (h : next ∈ lower shape subject) :
    Relation.TransGen Part shape next.1 ∧ Relation.TransGen Member subject next.2 := by
  obtain ⟨q, hq⟩ := (mem_lower_iff .root _).mp h
  cases hs : Node.view shape with
  | null => simp [acts, valueActs, hs] at hq
  | scalar s => simp [acts, valueActs, hs] at hq
  | sequence form elements =>
    simp only [acts, valueActs, hs] at hq
    obtain ⟨hpart, hmember⟩ := below_of_enter_arrayActs hs hq
    exact ⟨.single hpart, .single hmember⟩
  | mapping entries =>
    simp only [acts, hs, List.mem_flatMap] at hq
    obtain ⟨e, he, hentry⟩ := hq
    obtain ⟨hpart, hmember⟩ := below_of_enter_entryActs hentry
    exact ⟨.head' (.value hs he) hpart, hmember⟩

/-- A subject without members leads nowhere. -/
theorem not_mem_lower_of_no_parts (hx : (Node.view subject).parts = []) {next : S × X} :
    next ∉ lower shape subject := by
  intro h
  obtain ⟨member, hmember, -⟩ := Relation.TransGen.head'_iff.mp (below_of_mem_lower h).2
  rw [member_iff, hx] at hmember
  cases hmember

end Parts

end Conform.Matching
