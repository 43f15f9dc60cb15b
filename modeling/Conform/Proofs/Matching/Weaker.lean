import Mathlib.Logic.Relation
import Conform.Document.Value
import Conform.Proofs.Matching.Parallel

/-!
# Weaker shapes

A shape asks for less if entries are deleted, if values and first elements of sequences become nulls
or scalars, or if mappings and sequences are emptied. None of these steps adds a diagnostic, wherever
it is made: the acts of the walk become fewer, and those that are left are the same at the same
places. So no level is entered that was not entered before, and the issues are a sublist of the former
ones.

What the steps lead to is described layer by layer, so that it makes no difference whether a shape is a
tree or leads back to itself.
-/
namespace Conform.Matching

variable {S T U X : Type}

section Sublists

variable {α β γ : Type} {R : α → β → Prop} {R' : β → γ → Prop}

theorem sublistForall₂_of_forall₂ {as : List α} {bs : List β} (h : List.Forall₂ R as bs) :
    List.SublistForall₂ R as bs :=
  List.sublistForall₂_iff.mpr ⟨bs, h, List.Sublist.refl bs⟩

theorem sublistForall₂_imp {P : α → β → Prop} {as : List α} {bs : List β}
    (h : List.SublistForall₂ R as bs) (hR : ∀ a b, R a b → P a b) : List.SublistForall₂ P as bs := by
  obtain ⟨l, hl, hsub⟩ := List.sublistForall₂_iff.mp h
  exact List.sublistForall₂_iff.mpr ⟨l, hl.imp hR, hsub⟩

theorem sublistForall₂_append {as cs : List α} {bs ds : List β} (h : List.SublistForall₂ R as bs)
    (h' : List.SublistForall₂ R cs ds) : List.SublistForall₂ R (as ++ cs) (bs ++ ds) := by
  obtain ⟨l, hl, hsub⟩ := List.sublistForall₂_iff.mp h
  obtain ⟨l', hl', hsub'⟩ := List.sublistForall₂_iff.mp h'
  exact List.sublistForall₂_iff.mpr ⟨l ++ l', List.rel_append hl hl', hsub.append hsub'⟩

theorem sublistForall₂_flatMap {δ ε : Type} {P : δ → ε → Prop} {f : α → List δ} {g : β → List ε}
    {as : List α} {bs : List β} (h : List.SublistForall₂ R as bs)
    (hfg : ∀ a b, R a b → List.SublistForall₂ P (f a) (g b)) :
    List.SublistForall₂ P (as.flatMap f) (bs.flatMap g) := by
  induction h with
  | nil => exact .nil
  | cons hab _ ih => exact sublistForall₂_append (hfg _ _ hab) ih
  | cons_right _ ih => exact sublistForall₂_append .nil ih

theorem sublistForall₂_comp {as : List α} {bs : List β} {cs : List γ}
    (h : List.SublistForall₂ R as bs) (h' : List.SublistForall₂ R' bs cs) :
    List.SublistForall₂ (Relation.Comp R R') as cs := by
  induction h' generalizing as with
  | nil =>
    cases h
    exact .nil
  | cons hbc _ ih =>
    cases h with
    | nil => exact .nil
    | cons hab h => exact .cons ⟨_, hab, hbc⟩ (ih h)
    | cons_right h => exact .cons_right (ih h)
  | cons_right _ ih => exact .cons_right (ih h)

end Sublists

/-- The first layer asks for no more than the second one, if this is so one level below. -/
inductive WeakerLayer (R : T → S → Prop) : View T → View S → Prop
  | null (v : View S) : WeakerLayer R .null v
  | scalar (s : Scalar) (v : View S) : WeakerLayer R (.scalar s) v
  | emptied (form form' : Form) (xs : List S) :
      WeakerLayer R (.sequence form []) (.sequence form' xs)
  | sequence (form form' : Form) {ys : List T} {xs : List S} (hlength : ys.length = xs.length)
      (hhead : ∀ y ∈ ys.head?, ∀ x ∈ xs.head?, R y x) :
      WeakerLayer R (.sequence form ys) (.sequence form' xs)
  | mapping {fs : Entries T} {es : Entries S}
      (each : List.SublistForall₂ (fun f e => f.1 = e.1 ∧ R f.2 e.2) fs es) :
      WeakerLayer R (.mapping fs) (.mapping es)

namespace WeakerLayer

variable {R : T → S → Prop} {R' : S → U → Prop}

theorem mono {P : T → S → Prop} {v : View T} {w : View S} (h : WeakerLayer R v w)
    (hR : ∀ t s, R t s → P t s) : WeakerLayer P v w := by
  cases h with
  | null => exact .null w
  | scalar s => exact .scalar s w
  | emptied form form' xs => exact .emptied form form' xs
  | sequence form form' hlength hhead =>
    exact .sequence form form' hlength fun y hy x hx => hR y x (hhead y hy x hx)
  | mapping each => exact .mapping (sublistForall₂_imp each fun _ _ hfe => ⟨hfe.1, hR _ _ hfe.2⟩)

theorem refl (v : View S) : WeakerLayer Eq v v := by
  cases v with
  | null => exact .null _
  | scalar s => exact .scalar s _
  | sequence form xs =>
    exact .sequence form form rfl fun y hy x hx => Option.some.inj (hy.symm.trans hx)
  | mapping es =>
    exact .mapping (sublistForall₂_of_forall₂ (List.forall₂_same.mpr fun _ _ => ⟨rfl, rfl⟩))

theorem comp {u : View T} {v : View S} {w : View U} (h : WeakerLayer R u v)
    (h' : WeakerLayer R' v w) : WeakerLayer (Relation.Comp R R') u w := by
  cases h with
  | null => exact .null w
  | scalar s => exact .scalar s w
  | emptied form form' xs => cases h' <;> exact .emptied form _ _
  | @sequence form form' ys xs hlength hhead =>
    cases h' with
    | emptied _ form'' zs =>
      obtain rfl : ys = [] := List.eq_nil_of_length_eq_zero hlength
      exact .emptied form form'' zs
    | @sequence _ form'' _ zs hlength' hhead' =>
      refine .sequence form form'' (hlength.trans hlength') fun y hy z hz => ?_
      cases xs with
      | nil =>
        rw [List.eq_nil_of_length_eq_zero hlength] at hy
        cases hy
      | cons x xs => exact ⟨x, hhead y hy x rfl, hhead' x rfl z hz⟩
  | mapping each =>
    cases h' with
    | mapping each' =>
      refine .mapping (sublistForall₂_imp (sublistForall₂_comp each each') ?_)
      rintro f g ⟨e, ⟨hfe, hR⟩, heg, hR'⟩
      exact ⟨hfe.trans heg, e.2, hR, hR'⟩

end WeakerLayer

variable [Node S] [Node T] [Node U]

/-- The shape `weak` asks for no more than `shape`, all the way down. -/
def Weaker (weak : T) (shape : S) : Prop :=
  ∃ R : T → S → Prop, R weak shape ∧ ∀ t s, R t s → WeakerLayer R (Node.view t) (Node.view s)

namespace Weaker

variable {weak : T} {shape : S} {strong : U}

theorem layer (h : Weaker weak shape) : WeakerLayer Weaker (Node.view weak) (Node.view shape) := by
  obtain ⟨R, hroot, hR⟩ := h
  exact (hR weak shape hroot).mono fun t s hts => ⟨R, hts, hR⟩

theorem of_layer (h : WeakerLayer Weaker (Node.view weak) (Node.view shape)) :
    Weaker weak shape := by
  refine ⟨fun t s => Weaker t s ∨ (t = weak ∧ s = shape), .inr ⟨rfl, rfl⟩, ?_⟩
  rintro t s (hts | ⟨rfl, rfl⟩)
  · exact hts.layer.mono fun _ _ => .inl
  · exact h.mono fun _ _ => .inl

theorem refl (shape : S) : Weaker shape shape :=
  ⟨Eq, rfl, fun _ s hs => hs ▸ WeakerLayer.refl (Node.view s)⟩

theorem trans (h : Weaker weak shape) (h' : Weaker shape strong) : Weaker weak strong := by
  refine ⟨Relation.Comp Weaker Weaker, ⟨shape, h, h'⟩, ?_⟩
  rintro t u ⟨s, hts, hsu⟩
  exact hts.layer.comp hsu.layer

/-- A shape that asks for less is of the same kind, or asks for nothing. -/
theorem kind_eq_or (h : Weaker weak shape) :
    Node.kind weak = Node.kind shape ∨ Node.kind weak = .null ∨ Node.kind weak = .scalar := by
  have hlayer := h.layer
  unfold Node.kind
  generalize Node.view weak = v at hlayer ⊢
  generalize Node.view shape = w at hlayer ⊢
  cases hlayer with
  | null => exact .inr (.inl rfl)
  | scalar s => exact .inr (.inr rfl)
  | emptied form form' xs => exact .inl rfl
  | sequence form form' hlength hhead => exact .inl rfl
  | mapping each => exact .inl rfl

end Weaker

section Steps

/-- The value is a null or a scalar. -/
def Leaf (v : Value) : Prop := Node.kind v = .null ∨ Node.kind v = .scalar

/-- One step by which a shape asks for less: at its root, or at a part of it. -/
inductive Weakening : Value → Value → Prop
  | deleteEntry (es fs : Entries Value) (e : Key × Value) :
      Weakening (.mapping (es ++ e :: fs)) (.mapping (es ++ fs))
  | replaceValue (es fs : Entries Value) (k : Key) (v : Value) {leaf : Value} (h : Leaf leaf) :
      Weakening (.mapping (es ++ (k, v) :: fs)) (.mapping (es ++ (k, leaf) :: fs))
  | replaceFirst (form : Form) (x : Value) (xs : List Value) {leaf : Value} (h : Leaf leaf) :
      Weakening (.sequence form (x :: xs)) (.sequence form (leaf :: xs))
  | emptyMapping (es : Entries Value) : Weakening (.mapping es) (.mapping [])
  | emptySequence (form : Form) (xs : List Value) :
      Weakening (.sequence form xs) (.sequence form [])
  | inValue (es fs : Entries Value) (k : Key) {v v' : Value} (h : Weakening v v') :
      Weakening (.mapping (es ++ (k, v) :: fs)) (.mapping (es ++ (k, v') :: fs))
  | inElement (form : Form) (xs ys : List Value) {x x' : Value} (h : Weakening x x') :
      Weakening (.sequence form (xs ++ x :: ys)) (.sequence form (xs ++ x' :: ys))

theorem weaker_of_leaf {leaf : Value} (h : Leaf leaf) (shape : S) : Weaker leaf shape := by
  refine .of_layer ?_
  cases leaf with
  | null => exact .null _
  | scalar s => exact .scalar s _
  | sequence form xs => rcases h with h | h <;> cases h
  | mapping es => rcases h with h | h <;> cases h

/-- Entries ask for no more than themselves. -/
theorem weakerEntries_refl (es : Entries Value) :
    List.SublistForall₂ (fun f e : Key × Value => f.1 = e.1 ∧ Weaker f.2 e.2) es es :=
  sublistForall₂_of_forall₂ (List.forall₂_same.mpr fun e _ => ⟨rfl, .refl e.2⟩)

/-- A mapping in which one value asks for less. -/
theorem weaker_of_value (es fs : Entries Value) (k : Key) {v v' : Value} (h : Weaker v' v) :
    Weaker (Value.mapping (es ++ (k, v') :: fs)) (Value.mapping (es ++ (k, v) :: fs)) :=
  .of_layer (.mapping (sublistForall₂_append (weakerEntries_refl es)
    (.cons ⟨rfl, h⟩ (weakerEntries_refl fs))))

theorem weaker_of_weakening {shape weak : Value} (h : Weakening shape weak) : Weaker weak shape := by
  induction h with
  | deleteEntry es fs e =>
    exact .of_layer (.mapping (sublistForall₂_append (weakerEntries_refl es)
      (.cons_right (weakerEntries_refl fs))))
  | replaceValue es fs k v h => exact weaker_of_value es fs k (weaker_of_leaf h v)
  | replaceFirst form x xs h =>
    refine .of_layer (.sequence form form rfl fun y hy z hz => ?_)
    cases hy
    exact weaker_of_leaf h z
  | emptyMapping es => exact .of_layer (.mapping .nil)
  | emptySequence form xs => exact .of_layer (.emptied form form xs)
  | inValue es fs k _ ih => exact weaker_of_value es fs k ih
  | inElement form xs ys h ih =>
    refine .of_layer (.sequence form form (by simp) fun y hy z hz => ?_)
    cases xs with
    | nil =>
      cases hy
      cases hz
      exact ih
    | cons x xs =>
      cases hy
      cases hz
      exact .refl _

theorem weaker_of_weakenings {shape weak : Value}
    (h : Relation.ReflTransGen Weakening shape weak) : Weaker weak shape := by
  induction h with
  | refl => exact .refl shape
  | tail _ hstep ih => exact (weaker_of_weakening hstep).trans ih

end Steps

section Level

variable {weak : T} {shape : S}

/-- The acts of the first list are acts of the second one, in order, for a shape that asks for less. -/
def Thins (as : List (Act T X)) (bs : List (Act S X)) : Prop :=
  List.SublistForall₂ (Act.Alike Weaker Eq) as bs

theorem composes_thins : Composes (Thins (S := S) (T := T) (X := X)) where
  nil := .nil
  issue i := .cons (.issue i) .nil
  fault := .cons .fault .nil
  append h h' := sublistForall₂_append h h'

theorem unfolds_thins : Unfolds (Thins (S := S) (T := T) (X := X)) Weaker Eq where
  toComposes := composes_thins
  alike h := sublistForall₂_of_forall₂ h
  flatMap h hfg := sublistForall₂_flatMap h hfg

/-- A key is needed under the weaker value only if it was needed. -/
theorem thins_nameActs (h : Weaker weak shape) (key : Key) :
    Thins (X := X) (nameActs weak key) (nameActs shape key) := by
  by_cases hleaf : Node.kind weak = .null ∨ Node.kind weak = .scalar
  · rw [nameActs_of_leaf hleaf]
    exact .nil
  · have hkind := h.kind_eq_or.resolve_right hleaf
    rw [nameActs_of_not_leaf hleaf, nameActs_of_not_leaf (hkind ▸ hleaf)]
    exact composes_thins.textActs key

variable [Node X]

theorem thins_arrayActs_nil (p : Pointer) (elements : List S) (subject : X) :
    Thins (arrayActs p ([] : List T) subject) (arrayActs p elements subject) := by
  unfold arrayActs
  cases Node.view subject with
  | sequence form xs => exact .nil
  | null => exact .cons (.issue _) .nil
  | scalar s => exact .cons (.issue _) .nil
  | mapping es => exact .cons (.issue _) .nil

theorem thins_objectActs (p : Pointer) {fs : Entries T} {es : Entries S} (h : Weaker weak shape)
    (hempty : es = [] → fs = []) (subject : X) :
    Thins (objectActs p weak fs subject) (objectActs p shape es subject) := by
  by_cases hfs : fs = []
  · subst hfs
    unfold objectActs
    cases Node.view subject with
    | mapping xs => exact .nil
    | null => exact .cons (.issue _) .nil
    | scalar s => exact .cons (.issue _) .nil
    | sequence form xs => exact .cons (.issue _) .nil
  · have hes : es ≠ [] := fun he => hfs (hempty he)
    have hboth : fs.isEmpty = es.isEmpty := by
      cases fs <;> cases es <;> simp_all
    exact sublistForall₂_of_forall₂ (alike_objectActs p h hboth outlines_eq rfl)

theorem thins_valueActs (h : Weaker weak shape) (p : Pointer) (subject : X) :
    Thins (valueActs p weak subject) (valueActs p shape subject) := by
  have hlayer := h.layer
  unfold valueActs
  generalize Node.view weak = v at hlayer ⊢
  generalize Node.view shape = w at hlayer ⊢
  cases hlayer with
  | null => exact .nil
  | scalar s => exact .nil
  | emptied form form' xs => exact thins_arrayActs_nil p xs subject
  | sequence form form' hlength hhead =>
    exact sublistForall₂_of_forall₂ (alike_arrayActs p hlength hhead outlines_eq rfl)
  | mapping each =>
    refine thins_objectActs p h (fun hes => ?_) subject
    subst hes
    cases each
    rfl

theorem thins_memberActs (h : Weaker weak shape) (p : Pointer) (member : X) :
    Thins (memberActs p weak member) (memberActs p shape member) := by
  rcases h.kind_eq_or with hkind | hleaf
  · by_cases hmapping : Node.kind shape = .mapping
    · rw [memberActs_of_mapping (hkind.trans hmapping), memberActs_of_mapping hmapping]
      exact .cons (.enter p h rfl) .nil
    · rw [memberActs_of_not_mapping (hkind ▸ hmapping), memberActs_of_not_mapping hmapping]
      exact thins_valueActs h p member
  · have hnot : Node.kind weak ≠ .mapping := by
      rcases hleaf with hk | hk <;> simp [hk]
    rw [memberActs_of_not_mapping hnot, valueActs_of_leaf hleaf]
    exact .nil

/-- One level: a shape that asks for less has fewer acts. -/
theorem thins_acts (h : Weaker weak shape) (p : Pointer) (subject : X) :
    Thins (acts p weak subject) (acts p shape subject) := by
  by_cases hmapping : Node.kind weak = .mapping
  · obtain ⟨fs, hw⟩ := Node.exists_view_mapping hmapping
    have hlayer := h.layer
    rw [hw] at hlayer
    generalize hs : Node.view shape = v at hlayer
    cases hlayer with
    | mapping each =>
      simp only [acts, hw, hs]
      refine sublistForall₂_flatMap each ?_
      rintro ⟨key, value'⟩ ⟨_, value⟩ ⟨rfl, hvalue⟩
      refine composes_thins.entryActs ?_ ?_ (thins_nameActs hvalue) p (.refl composes_thins key subject)
      · rintro p x _ rfl
        exact thins_valueActs hvalue p x
      · rintro p x _ rfl
        exact thins_memberActs hvalue p x
  · rw [acts_of_not_mapping hmapping]
    rcases h.kind_eq_or with hkind | hleaf
    · rw [acts_of_not_mapping (hkind ▸ hmapping)]
      exact thins_valueActs h p subject
    · rw [valueActs_of_leaf hleaf]
      exact .nil

/-- A walk over any number of levels. -/
theorem thins_unfolding (n : Nat) (h : Weaker weak shape) (p : Pointer) (subject : X) :
    Thins (unfolding n p weak subject) (unfolding n p shape subject) := by
  refine unfolds_thins.unfolding ?_ n p h rfl
  rintro p weak shape x _ hweak rfl
  exact thins_acts hweak p x

end Level

section Fewer

variable {as : List (Act T X)} {bs : List (Act S X)}

/-- Whatever is read off acts in the same way is fewer where the acts are fewer. -/
theorem Thins.filterMap {α : Type} (h : Thins as bs) {f : Act T X → Option α} {g : Act S X → Option α}
    (hfg : ∀ a b, a.Alike (Weaker (T := T) (S := S)) Eq b → f a = g b) :
    (as.filterMap f).Sublist (bs.filterMap g) := by
  obtain ⟨l, hl, hsub⟩ := List.sublistForall₂_iff.mp h
  rw [filterMap_eq_of_forall₂ (hl.imp hfg)]
  exact hsub.filterMap g

theorem Thins.issuesOf (h : Thins as bs) : (Matching.issuesOf as).Sublist (Matching.issuesOf bs) :=
  h.filterMap fun _ _ => Act.Alike.issue?_eq

theorem Thins.finished (h : Thins as bs) (hfin : Finished bs) : Finished as := by
  let stop : Pointer → WalkError := fun _ => .stackExhausted
  have hpending : (pending stop as).Sublist (pending stop bs) :=
    h.filterMap fun _ _ hab => hab.error?_eq stop
  rw [(pending_eq_nil_iff stop bs).mpr hfin, List.sublist_nil] at hpending
  exact (pending_eq_nil_iff stop as).mp hpending

end Fewer

end Conform.Matching

namespace Conform.Matcher

open Matching

variable {S T X : Type} [Node S] [Node T] [Node X]

/-- **Asking for less finds less.** If entries of a shape are deleted, values and first elements
replaced by nulls and scalars, mappings and sequences emptied, any number of times and at any depth,
then a lenient matcher still returns a report, and every issue in it was there before, in the same
order. -/
theorem weaker_finds_less (stack : Stack) (m : Matcher) (hm : m.strict = false) :
    (∀ shape weak : Value, Relation.ReflTransGen Weakening shape weak → Weaker weak shape) ∧
    ∀ (shape : S) (weak : T), Weaker weak shape → Node.kind weak = .mapping → ∀ (subject : X) r,
      m.verifyOn stack shape subject = .ok r →
      ∃ r', m.verifyOn stack weak subject = .ok r' ∧
        r'.issues.Sublist r.issues ∧ r'.messages.Sublist r.messages := by
  refine ⟨fun shape weak => weaker_of_weakenings, fun shape weak h hw subject r hr => ?_⟩
  have hs : Node.kind shape = .mapping := kind_of_verifyOn hr
  obtain ⟨hfin, rfl⟩ := (verifyOn_eq_ok_iff hm hs).mp hr
  have hthins : Thins (m.unfolded stack weak subject) (m.unfolded stack shape subject) :=
    thins_unfolding _ h .root subject
  refine ⟨_, (verifyOn_eq_ok_iff hm hw).mpr ⟨hthins.finished hfin, rfl⟩, ?_, ?_⟩
  · rw [Report.issues_ofIssues, Report.issues_ofIssues]
    exact hthins.issuesOf
  · rw [Report.messages_ofIssues, Report.messages_ofIssues]
    exact hthins.issuesOf.map Issue.message

/-- Rooms with a door each, and a name. -/
def office : Value :=
  .record [("rooms", .list [.record [("door", .record [("key", .null)])]]), ("name", .null)]

/-- The office without its name and with doors of any kind. -/
def anyOffice : Value := .record [("rooms", .list [.record [("door", .record [])]])]

def offices : Value := .record [("rooms", .list [.record [], .record [("door", .record [])]])]

theorem weakening_office : Relation.ReflTransGen Weakening office anyOffice := by
  have hname : Weakening office _ := .deleteEntry [(.str "rooms", _)] [] (.str "name", .null)
  have hdoor : Weakening (Value.record [("door", .record [("key", .null)])])
      (Value.record [("door", .record [])]) := .inValue [] [] (.str "door") (.emptyMapping _)
  exact .tail (.single hname) (.inValue [] [] (.str "rooms") (.inElement .list [] [] hdoor))

theorem weaker_finds_less_office :
    Relation.ReflTransGen Weakening office anyOffice ∧ Node.kind anyOffice = .mapping ∧
      ∃ r, (⟨9, false, by decide⟩ : Matcher).verify office offices = .ok r ∧
        r.messages = ["Missing required key 'door' at /rooms",
          "Missing required key 'key' at /rooms/door", "Missing required key 'name' at /"] ∧
        ∃ r', (⟨9, false, by decide⟩ : Matcher).verify anyOffice offices = .ok r' ∧
          r'.messages = ["Missing required key 'door' at /rooms"] ∧
          r'.messages.Sublist r.messages := by
  obtain ⟨hweaker, hless⟩ :=
    weaker_finds_less (S := Value) (T := Value) (X := Value) .usual ⟨9, false, by decide⟩ rfl
  have hweak : Weaker anyOffice office := hweaker office anyOffice weakening_office
  obtain ⟨r', hr', -, hmessages⟩ := hless office anyOffice hweak rfl offices _ rfl
  obtain rfl := Except.ok.inj hr'
  exact ⟨weakening_office, rfl, _, rfl, rfl, _, rfl, rfl, hmessages⟩

end Conform.Matcher
