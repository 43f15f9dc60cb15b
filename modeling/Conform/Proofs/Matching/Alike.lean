import Mathlib.Data.List.Forall2
import Conform.Proofs.Matching.Outcome

/-!
# Walks side by side

Two walks are compared act by act. Acts are alike if they find the same issue, enter a level at the
same place or are both at fault; what is matched at a level may differ as far as two relations allow, one
between the shapes and one between the subjects. The acts of an entry are composed of those for its
value, so whatever goes with composition has to be shown of values only.
-/
namespace Conform.Matching

variable {S T X Y : Type} {R : S → T → Prop} {Q : X → Y → Prop}

/-- The same issue, a remark or a fault each, or entries at the same place to what the relations
relate. -/
inductive Act.Alike (R : S → T → Prop) (Q : X → Y → Prop) : Act S X → Act T Y → Prop
  | issue (i : Issue) : Alike R Q (.issue i) (.issue i)
  | remark (text text' : String) : Alike R Q (.remark text) (.remark text')
  | enter (p : Pointer) {shape : S} {shape' : T} {subject : X} {subject' : Y}
      (hs : R shape shape') (hx : Q subject subject') :
      Alike R Q (.enter p shape subject) (.enter p shape' subject')
  | fault : Alike R Q .fault .fault

namespace Act.Alike

variable {a : Act S X} {b : Act T Y}

theorem issue?_eq (h : Alike R Q a b) : a.issue? = b.issue? := by cases h <;> rfl

theorem error?_eq (h : Alike R Q a b) (stop : Pointer → WalkError) : a.error? stop = b.error? stop := by
  cases h <;> rfl

end Act.Alike

/-- What is read off related elements in the same way is the same list. -/
theorem filterMap_eq_of_forall₂ {α β γ : Type} {f : α → Option γ} {g : β → Option γ} {as : List α}
    {bs : List β} (h : List.Forall₂ (fun a b => f a = g b) as bs) :
    as.filterMap f = bs.filterMap g := by
  induction h with
  | nil => rfl
  | cons hab _ ih => rw [List.filterMap_cons, List.filterMap_cons, hab, ih]

section Subjects

/-- What can be seen of two values without asking for an entry: they are of one kind, and if they are
sequences, their elements are related one by one. -/
inductive Outline (Q : X → Y → Prop) : View X → View Y → Prop
  | null : Outline Q .null .null
  | scalar (s s' : Scalar) : Outline Q (.scalar s) (.scalar s')
  | sequence (form form' : Form) {xs : List X} {ys : List Y} (each : List.Forall₂ Q xs ys) :
      Outline Q (.sequence form xs) (.sequence form' ys)
  | mapping (es : Entries X) (fs : Entries Y) : Outline Q (.mapping es) (.mapping fs)

variable [Node X] [Node Y]

/-- Related subjects have the same outline. -/
def Outlines (Q : X → Y → Prop) : Prop := ∀ x y, Q x y → Outline Q (Node.view x) (Node.view y)

theorem outlines_eq : Outlines (Eq : X → X → Prop) := by
  rintro x _ rfl
  cases Node.view x with
  | null => exact .null
  | scalar s => exact .scalar s s
  | sequence form xs => exact .sequence form form (List.forall₂_same.mpr fun _ _ => rfl)
  | mapping es => exact .mapping es es

variable {subject : X} {subject' : Y}

/-- Two sequences of a shape with as many elements lead to the same acts, up to their first ones. -/
theorem alike_arrayActs (p : Pointer) {elements : List S} {elements' : List T}
    (hlength : elements.length = elements'.length)
    (hhead : ∀ t ∈ elements.head?, ∀ t' ∈ elements'.head?, R t t') (hQ : Outlines Q)
    (hx : Q subject subject') :
    List.Forall₂ (Act.Alike R Q) (arrayActs p elements subject) (arrayActs p elements' subject') := by
  have houtline := hQ subject subject' hx
  unfold arrayActs
  generalize Node.view subject = v at houtline ⊢
  generalize Node.view subject' = w at houtline ⊢
  cases houtline with
  | null => exact .cons (.issue _) .nil
  | scalar s s' => exact .cons (.issue _) .nil
  | mapping es fs => exact .cons (.issue _) .nil
  | @sequence form form' xs ys each =>
    cases elements with
    | nil =>
      obtain rfl : elements' = [] := List.eq_nil_of_length_eq_zero hlength.symm
      exact .nil
    | cons t more =>
      obtain ⟨t', more', rfl⟩ : ∃ t' more', elements' = t' :: more' :=
        List.exists_cons_of_length_eq_add_one hlength.symm
      have ht : R t t' := hhead t rfl t' rfl
      have hmore : more.isEmpty = more'.isEmpty := by
        cases more <;> cases more' <;> simp_all
      have hbelow : List.Forall₂ (Act.Alike R Q)
          (if xs.isEmpty then [.found .emptyArray nothingInArray p]
            else xs.map fun x => .enter p t x)
          (if ys.isEmpty then [.found .emptyArray nothingInArray p]
            else ys.map fun y => .enter p t' y) := by
        cases each with
        | nil => exact .cons (.issue _) .nil
        | cons hfirst hrest =>
          simp only [List.isEmpty_cons, Bool.false_eq_true, if_false]
          rw [List.forall₂_map_left_iff, List.forall₂_map_right_iff]
          exact (List.Forall₂.cons hfirst hrest).imp fun _ _ hxy => .enter p ht hxy
      dsimp only
      rw [hmore]
      cases more'.isEmpty with
      | true => exact hbelow
      | false => exact .cons (.remark _ _) hbelow

/-- Two mappings of a shape lead to the same acts if either both have entries or none has. -/
theorem alike_objectActs (p : Pointer) {shape : S} {shape' : T} {entries : Entries S}
    {entries' : Entries T} (hs : R shape shape') (hempty : entries.isEmpty = entries'.isEmpty)
    (hQ : Outlines Q) (hx : Q subject subject') :
    List.Forall₂ (Act.Alike R Q) (objectActs p shape entries subject)
      (objectActs p shape' entries' subject') := by
  have houtline := hQ subject subject' hx
  unfold objectActs
  rw [hempty]
  generalize Node.view subject = v at houtline ⊢
  generalize Node.view subject' = w at houtline ⊢
  cases houtline with
  | null => exact .cons (.issue _) .nil
  | scalar s s' => exact .cons (.issue _) .nil
  | sequence form form' each => exact .cons (.issue _) .nil
  | mapping es fs =>
    cases entries'.isEmpty with
    | true => exact .nil
    | false => exact .cons (.enter p hs hx) .nil

end Subjects

section Values

variable [Node S] [Node T] [Node X] [Node Y] {value : S} {value' : T} {subject : X} {subject' : Y}

/-- Two values of shapes ask for the same, apart from what is matched at the levels below. -/
inductive Demands (R : S → T → Prop) (value : S) (value' : T) : Prop
  | leaf (hs : Node.kind value = .null ∨ Node.kind value = .scalar)
      (hs' : Node.kind value' = .null ∨ Node.kind value' = .scalar)
  | sequence {form form' : Form} {xs : List S} {ys : List T}
      (hs : Node.view value = .sequence form xs) (hs' : Node.view value' = .sequence form' ys)
      (hlength : xs.length = ys.length) (hhead : ∀ t ∈ xs.head?, ∀ t' ∈ ys.head?, R t t')
  | mapping {es : Entries S} {fs : Entries T} (hs : Node.view value = .mapping es)
      (hs' : Node.view value' = .mapping fs) (hempty : es.isEmpty = fs.isEmpty)
      (hR : R value value')

namespace Demands

theorem of_forall₂ {form form' : Form} {xs : List S} {ys : List T}
    (hs : Node.view value = .sequence form xs) (hs' : Node.view value' = .sequence form' ys)
    (each : List.Forall₂ R xs ys) : Demands R value value' := by
  refine .sequence hs hs' each.length_eq fun t ht t' ht' => ?_
  cases each with
  | nil => cases ht
  | cons hfirst _ =>
    obtain rfl := Option.some.inj ht
    obtain rfl := Option.some.inj ht'
    exact hfirst

theorem mapping_iff (h : Demands R value value') :
    Node.kind value = .mapping ↔ Node.kind value' = .mapping := by
  cases h with
  | leaf hs hs' => rcases hs with hs | hs <;> rcases hs' with hs' | hs' <;> simp [hs, hs']
  | sequence hs hs' => rw [Node.kind_of_view hs, Node.kind_of_view hs', View.kind, View.kind]
  | mapping hs hs' => rw [Node.kind_of_view hs, Node.kind_of_view hs', View.kind, View.kind]

theorem valueActs (h : Demands R value value') (hQ : Outlines Q) (p : Pointer)
    (hx : Q subject subject') :
    List.Forall₂ (Act.Alike R Q) (valueActs p value subject) (valueActs p value' subject') := by
  cases h with
  | leaf hs hs' =>
    rw [valueActs_of_leaf hs, valueActs_of_leaf hs']
    exact .nil
  | sequence hs hs' hlength hhead =>
    simp only [Matching.valueActs, hs, hs']
    exact alike_arrayActs p hlength hhead hQ hx
  | mapping hs hs' hempty hR =>
    simp only [Matching.valueActs, hs, hs']
    exact alike_objectActs p hR hempty hQ hx

theorem memberActs (h : Demands R value value') (hQ : Outlines Q) (p : Pointer)
    (hx : Q subject subject') :
    List.Forall₂ (Act.Alike R Q) (memberActs p value subject) (memberActs p value' subject') := by
  by_cases hkind : Node.kind value = .mapping
  · cases h with
    | leaf hs => rcases hs with hs | hs <;> rw [hs] at hkind <;> cases hkind
    | sequence hs =>
      rw [Node.kind_of_view hs] at hkind
      cases hkind
    | mapping hs hs' _ hR =>
      rw [memberActs_of_mapping hkind, memberActs_of_mapping (Node.kind_of_mapping hs')]
      exact .cons (.enter p hR hx) .nil
  · rw [memberActs_of_not_mapping hkind, memberActs_of_not_mapping (mt h.mapping_iff.mpr hkind)]
    exact h.valueActs hQ p hx

end Demands

end Values

/-- A relation between lists of acts that goes with their composition. -/
structure Composes (L : List (Act S X) → List (Act T Y) → Prop) : Prop where
  nil : L [] []
  issue (i : Issue) : L [.issue i] [.issue i]
  fault : L [.fault] [.fault]
  append {as cs : List (Act S X)} {bs ds : List (Act T Y)} (h : L as bs) (h' : L cs ds) :
    L (as ++ cs) (bs ++ ds)

theorem Composes.textActs {L : List (Act S X) → List (Act T Y) → Prop} (hL : Composes L) (key : Key) :
    L (textActs key) (textActs key) := by
  unfold Matching.textActs
  cases key.isWritable with
  | true => exact hL.nil
  | false => exact hL.fault

/-- To go through the first list comes to what going through the second one comes to, as long as this
is so for elements that correspond. -/
def Spans (L : List (Act S X) → List (Act T Y) → Prop) {α β : Type} (P : α → β → Prop) (as : List α)
    (bs : List β) : Prop :=
  ∀ f g, (∀ a b, P a b → L (f a) (g b)) → L (as.flatMap f) (bs.flatMap g)

theorem Composes.spans {L : List (Act S X) → List (Act T Y) → Prop} (hL : Composes L) {α β : Type}
    {P : α → β → Prop} {as : List α} {bs : List β} (h : List.Forall₂ P as bs) : Spans L P as bs := by
  intro f g hfg
  induction h with
  | nil => exact hL.nil
  | cons hab _ ih => exact hL.append (hfg _ _ hab) ih

theorem composes_alike : Composes (List.Forall₂ (Act.Alike R Q)) where
  nil := .nil
  issue i := .cons (.issue i) .nil
  fault := .cons .fault .nil
  append h h' := List.rel_append h h'

/-- The key of a member is needed under both values, or under none. -/
theorem Demands.nameActs [Node S] [Node T] {value : S} {value' : T} (h : Demands R value value')
    (key : Key) : List.Forall₂ (Act.Alike R Q) (nameActs value key) (nameActs value' key) := by
  have htext : List.Forall₂ (Act.Alike R Q) (textActs key) (textActs key) := composes_alike.textActs key
  cases h with
  | leaf hs hs' =>
    rw [nameActs_of_leaf hs, nameActs_of_leaf hs']
    exact .nil
  | sequence hs hs' => simpa only [Matching.nameActs, hs, hs'] using htext
  | mapping hs hs' => simpa only [Matching.nameActs, hs, hs'] using htext

variable [Node X] [Node Y]

/-- Two subjects have related values where a key leads, and a wildcard goes through both of them. -/
structure Agree (L : List (Act S X) → List (Act T Y) → Prop) (Q : X → Y → Prop) (key : Key)
    (subject : X) (subject' : Y) : Prop where
  entry : Option.Rel Q ( entry? (Marker.ofKey key) key subject)
    ( entry? (Marker.ofKey key) key subject')
  accepts : (Marker.ofKey key).kind = .wildcard → acceptsWildcard subject = acceptsWildcard subject'
  members : (Marker.ofKey key).kind = .wildcard →
    Spans L (fun m m' => m'.1 = m.1 ∧ Q m.2 m'.2) (members subject) (members subject')

theorem Agree.refl {L : List (Act S X) → List (Act T X) → Prop} (hL : Composes L) (key : Key)
    (subject : X) : Agree L Eq key subject subject where
  entry := by
    cases entry? (Marker.ofKey key) key subject with
    | none => exact .none
    | some value => exact .some rfl
  accepts _ := rfl
  members _ := hL.spans (List.forall₂_same.mpr fun _ _ => ⟨rfl, rfl⟩)

variable [Node S] [Node T]

/-- What relates the acts for two values relates the acts for two entries that have them under the
same key, if the subjects answer to the key. -/
theorem Composes.entryActs {L : List (Act S X) → List (Act T Y) → Prop} (hL : Composes L)
    {value : S} {value' : T}
    (hvalue : ∀ p x y, Q x y → L (valueActs p value x) (valueActs p value' y))
    (hmember : ∀ p x y, Q x y → L (memberActs p value x) (memberActs p value' y))
    (hname : ∀ name, L (nameActs value name) (nameActs value' name)) {key : Key} (p : Pointer)
    {subject : X} {subject' : Y} (hx : Agree L Q key subject subject') :
    L (entryActs p subject (key, value)) (entryActs p subject' (key, value')) := by
  have hentry := hx.entry
  refine hL.append (hL.textActs key) ?_
  unfold markedActs
  dsimp only
  generalize entry? (Marker.ofKey key) key subject = found at hentry ⊢
  generalize entry? (Marker.ofKey key) key subject' = found' at hentry ⊢
  cases hkind : (Marker.ofKey key).kind with
  | wildcard =>
    rw [← hx.accepts hkind]
    cases acceptsWildcard subject with
    | true =>
      refine hx.members hkind _ _ ?_
      rintro ⟨name, x⟩ ⟨_, y⟩ ⟨rfl, hxy⟩
      exact hL.append (hname _) (hmember _ x y hxy)
    | false => exact hL.issue _
  | optional =>
    cases hentry with
    | some hxy => exact hvalue _ _ _ hxy
    | none => exact hL.nil
  | exact =>
    cases hentry with
    | some hxy => exact hvalue _ _ _ hxy
    | none => exact hL.issue _

end Conform.Matching
