import Mathlib.Logic.Relation
import Conform.Proofs.Matching.Depth
import Conform.Proofs.Matching.Outcome

/-!
# Conformance of plain documents

A document without markers can be a shape as well as a subject. Between such documents conformance is
a preorder: what conforms to a document conforms to everything that the document itself conforms to,
and no deeper level is entered on the way. A document conforms to itself if its sequences have no
element beyond the first, the only one that counts when the document is the shape.

The two conditions on a document are conditions on each of its layers. A walk that ends without
issues has a derivation of `Conforms` behind it, and it is on the derivation for the lower pair of
documents that transitivity is an induction: the document in the middle is followed as a subject there,
and as a shape by the derivation for the upper pair.
-/
namespace Conform.Matching

variable {S T X : Type} [Node S] [Node T] [Node X]

section Layers

/-- All layers of a document, at every depth, are of a kind. -/
def Everywhere (P : View X → Prop) (doc : X) : Prop :=
  ∀ part, Relation.ReflTransGen Member doc part → P (Node.view part)

variable {P : View X → Prop} {doc part : X}

theorem Everywhere.below (h : Everywhere P doc) (hp : Relation.ReflTransGen Member doc part) :
    Everywhere P part := fun other ho => h other (hp.trans ho)

theorem Everywhere.member (h : Everywhere P doc) (hm : Member doc part) : Everywhere P part :=
  h.below (.single hm)

theorem everywhere_iff :
    Everywhere P doc ↔ P (Node.view doc) ∧ ∀ part, Member doc part → Everywhere P part := by
  constructor
  · exact fun h => ⟨h doc .refl, fun part hm => h.member hm⟩
  · rintro ⟨hdoc, hparts⟩ other ho
    rcases ho.cases_head with rfl | ⟨part, hm, hpart⟩
    · exact hdoc
    · exact hparts part hm other hpart

section Trees

variable {P : View Value → Prop}

/-! In a tree the layers are found from the root downwards. -/

@[simp] theorem everywhere_null : Everywhere P .null ↔ P .null := by
  rw [everywhere_iff]
  refine and_iff_left ?_
  rintro part (⟨hx, -⟩ | ⟨hx, -⟩) <;> cases hx

@[simp] theorem everywhere_scalar (s : Scalar) : Everywhere P (.scalar s) ↔ P (.scalar s) := by
  rw [everywhere_iff]
  refine and_iff_left ?_
  rintro part (⟨hx, -⟩ | ⟨hx, -⟩) <;> cases hx

@[simp] theorem everywhere_sequence (form : Form) (xs : List Value) :
    Everywhere P (.sequence form xs) ↔ P (.sequence form xs) ∧ ∀ x ∈ xs, Everywhere P x := by
  rw [everywhere_iff]
  refine and_congr_right fun _ => ⟨fun h x hx => h x (.element rfl hx), ?_⟩
  rintro h part (⟨hx, hm⟩ | ⟨hx, -⟩) <;> cases hx
  exact h part hm

@[simp] theorem everywhere_mapping (es : Entries Value) :
    Everywhere P (.mapping es) ↔ P (.mapping es) ∧ ∀ e ∈ es, Everywhere P e.2 := by
  rw [everywhere_iff]
  refine and_congr_right fun _ => ⟨fun h e he => h e.2 (.value rfl he), ?_⟩
  rintro h part (⟨hx, -⟩ | ⟨hx, hm⟩) <;> cases hx
  exact h _ hm

end Trees

end Layers

/-- The keys of the layer are texts and no markers. -/
def PlainKeys : View X → Prop
  | .mapping es => ∀ e ∈ es, Marker.isPlain e.1 = true
  | _ => True

/-- A sequence of the layer has one element at most, and a mapping no key twice. -/
def Lone : View X → Prop
  | .sequence _ xs => xs.length ≤ 1
  | .mapping es => es.Distinct
  | _ => True

/-- A document without markers. -/
def Plain (doc : X) : Prop := Everywhere PlainKeys doc

namespace Plain

variable {doc : X}

theorem keys {es : Entries X} (h : Plain doc) (hv : Node.view doc = .mapping es) :
    ∀ e ∈ es, Marker.isPlain e.1 = true := by
  have hdoc := h doc .refl
  rwa [hv] at hdoc

theorem element {form : Form} {xs : List X} (h : Plain doc) (hv : Node.view doc = .sequence form xs)
    {x : X} (hx : x ∈ xs) : Plain x := h.member (.element hv hx)

theorem value {es : Entries X} (h : Plain doc) (hv : Node.view doc = .mapping es)
    {e : Key × X} (he : e ∈ es) : Plain e.2 := h.member (.value hv he)

end Plain

section Lookup

variable {key : Key}

/-- Only a mapping has something under a key. -/
theorem exists_view_of_entry_eq_some {marker : Marker} {subject value : X}
    (h : entry? marker key subject = some value) : ∃ es, Node.view subject = .mapping es := by
  unfold entry? at h
  cases hx : Node.view subject with
  | mapping es => exact ⟨es, rfl⟩
  | _ => simp [hx] at h

theorem satisfies_iff_of_isPlain (hk : Marker.isPlain key = true) (shape : S) (subject : X) :
    Satisfies subject key shape ↔
      ∃ value, entry? (Marker.ofKey key) key subject = some value ∧ Meets shape value := by
  have hkind := Marker.kind_of_isPlain hk
  have hlookup := entry?_exact hkind subject
  constructor
  · rintro (⟨h, _⟩ | ⟨h, _⟩ | ⟨_, answer, hm⟩)
    · rw [h] at hkind; cases hkind
    · rw [h] at hkind; cases hkind
    · exact ⟨_, (hlookup _).mpr answer, hm⟩
  · rintro ⟨value, hvalue, hm⟩
    exact .exact hkind ((hlookup value).mp hvalue) hm

/-- What a plain document has under a key is met by what a subject that conforms to it has there. -/
theorem exists_meets_of_conforms {doc value : T} {subject : X} (hdoc : Plain doc)
    (hk : Marker.isPlain key = true) (hv : entry? (Marker.ofKey key) key doc = some value)
    (h : Conforms doc subject) :
    ∃ x, entry? (Marker.ofKey key) key subject = some x ∧ Meets value x := by
  obtain ⟨es, hs⟩ := exists_view_of_entry_eq_some hv
  rw [entry?_of_isPlain hk hs] at hv
  obtain ⟨l, hmem, hsame⟩ := Entries.exists_same_of_get? hv
  obtain rfl : l = key := Marker.eq_of_same_of_isPlain (hdoc.keys hs _ hmem) hk hsame
  exact (satisfies_iff_of_isPlain hk value subject).mp (h.satisfies hs _ hmem)

end Lookup

section Transitivity

/-- To a plain mapping with entries only a mapping with entries conforms. -/
theorem ne_nil_of_conforms {shape : S} {subject : X} {entries : Entries S} {es : Entries X}
    (hshape : Plain shape) (hs : Node.view shape = .mapping entries) (hne : entries ≠ [])
    (hx : Node.view subject = .mapping es) (h : Conforms shape subject) : es ≠ [] := by
  obtain ⟨e, he⟩ := List.exists_mem_of_ne_nil entries hne
  have hk := hshape.keys hs e he
  obtain ⟨value, hvalue, -⟩ :=
    (satisfies_iff_of_isPlain hk e.2 subject).mp (h.satisfies hs e he)
  rw [entry?_of_isPlain hk hx] at hvalue
  rintro rfl
  cases hvalue

mutual

theorem Meets.trans {shape : S} {doc : T} {subject : X} :
    Meets shape doc → Plain shape → Plain doc → Meets doc subject → Meets shape subject
  | .null hs, _, _, _ => .null hs
  | .scalar hs, _, _, _ => .scalar hs
  | .sequence hs hx data each, hshape, hdoc, h' => by
    obtain ⟨form, xs, hx', data', each'⟩ := h'.exists_of_sequence hx
    refine .sequence hs hx' (fun hne => data' (data hne)) fun template ht z hz => ?_
    have hmem := List.mem_of_mem_head? ht
    have hne := data (List.ne_nil_of_mem hmem)
    -- The first element of the document in the middle is the one that counts as its template.
    have hfirst := List.head_mem hne
    exact Conforms.trans (each template ht _ hfirst) (hshape.element hs hmem)
      (hdoc.element hx hfirst) (each' _ (List.head_mem_head? hne) z hz)
  | .mapping hs hx below, hshape, hdoc, h' => by
    obtain ⟨es, hx', below'⟩ := h'.exists_of_mapping hx
    refine .mapping hs hx' fun hne => ?_
    have hes := ne_nil_of_conforms hshape hs hne hx (below hne)
    exact Conforms.trans (below hne) hshape hdoc (below' hes)

/-- **Conformance of plain documents is transitive.** -/
theorem Conforms.trans {shape : S} {doc : T} {subject : X} :
    Conforms shape doc → Plain shape → Plain doc → Conforms doc subject → Conforms shape subject
  | .value hs h, hshape, hdoc, h' => by
    rcases h' with ⟨_, hm⟩ | ⟨hs', _⟩
    · exact .value hs (Meets.trans h hshape hdoc hm)
    · rcases h with hn | hn | ⟨_, hx, _, _⟩ | ⟨hn, _, _⟩
      · exact .value hs (.null hn)
      · exact .value hs (.scalar hn)
      · rw [hx] at hs'; cases hs'
      · exact absurd (Node.kind_of_mapping hn) hs
  | .entries hs each, hshape, hdoc, h' =>
    .entries hs fun e he =>
      Satisfies.trans (each e he) (hshape.keys hs e he) (hshape.value hs he) hdoc h'

theorem Satisfies.trans {key : Key} {shape : S} {doc : T} {subject : X} :
    Satisfies doc key shape → Marker.isPlain key = true → Plain shape → Plain doc →
      Conforms doc subject → Satisfies subject key shape
  | .wildcard hk _ _ _, hkey, _, _, _ => by
    rw [Marker.kind_of_isPlain hkey] at hk
    cases hk
  | .optional hk _, hkey, _, _, _ => by
    have hkind := Marker.kind_of_isPlain hkey
    rw [hk] at hkind
    cases hkind
  | .exact hk answer h, hkey, hshape, hdoc, h' => by
    have hlookup := entry?_exact hk doc
    obtain ⟨x, hx, hm⟩ := exists_meets_of_conforms hdoc hkey ((hlookup _).mpr answer) h'
    have hplain := hdoc.member (member_of_entry_eq_some ((hlookup _).mpr answer))
    have hanswer := entry?_exact hk subject
    exact .exact hk ((hanswer x).mp hx) (Meets.trans h hshape hplain hm)

end

end Transitivity

section Levels

/-- What a level is entered for where a value stands: an element of a sequence, under the first
element of the shape, or the value itself. -/
inductive Opens (shape : S) (subject : X) : S → X → Prop
  | element {form form' : Form} {elements : List S} {xs : List X} {template : S} {x : X}
      (hs : Node.view shape = .sequence form elements)
      (hx : Node.view subject = .sequence form' xs)
      (ht : template ∈ elements.head?) (hm : x ∈ xs) : Opens shape subject template x
  | itself {entries : Entries S} {es : Entries X} (hs : Node.view shape = .mapping entries)
      (hx : Node.view subject = .mapping es) (hne : entries ≠ []) :
      Opens shape subject shape subject

variable {shape part : S} {subject member : X}

theorem opens_iff (p : Pointer) :
    Opens shape subject part member ↔ ∃ q, .enter q part member ∈ valueActs p shape subject := by
  constructor
  · rintro (⟨hs, hx, ht, hm⟩ | ⟨hs, hx, hne⟩)
    · exact ⟨p, by simpa only [valueActs, hs] using enter_mem_arrayActs p hx ht hm⟩
    · exact ⟨p, by simp [valueActs, objectActs, hs, hx, hne]⟩
  · rintro ⟨q, hq⟩
    unfold valueActs at hq
    cases hs : Node.view shape with
    | null => simp [hs] at hq
    | scalar s => simp [hs] at hq
    | sequence form elements =>
      rw [hs] at hq
      obtain ⟨ht, form', xs, hx, hm⟩ := of_enter_arrayActs hq
      exact .element hs hx ht hm
    | mapping entries =>
      simp only [hs, objectActs] at hq
      cases hx : Node.view subject with
      | mapping es =>
        rw [hx] at hq
        cases entries with
        | nil => simp at hq
        | cons e entries =>
          cases List.mem_singleton.mp hq
          exact .itself hs hx (List.cons_ne_nil _ _)
      | _ => simp [hx, Act.found] at hq

/-- A plain shape has no fault with any subject: names are texts, and no member is asked for its key. -/
theorem fault_not_mem_acts_of_plain (hshape : Plain shape) (p : Pointer) :
    .fault ∉ acts p shape subject := by
  by_cases hkind : Node.kind shape = .mapping
  · obtain ⟨entries, hs⟩ := Node.exists_view_mapping hkind
    simp only [acts, hs, List.mem_flatMap, not_exists, not_and]
    intro e he
    rw [entryActs_of_isPlain (hshape.keys hs e he) p e.2]
    cases entry? (Marker.ofKey e.1) e.1 subject with
    | none => simp [Act.found]
    | some value => exact fault_not_mem_valueActs
  · rw [acts_of_not_mapping hkind]
    exact fault_not_mem_valueActs

theorem finished_iff_complete_of_plain (hshape : Plain shape) (n : Nat) (p : Pointer) :
    Finished (unfolding n p shape subject) ↔ Complete (unfolding n p shape subject) := by
  rw [finished_iff, and_iff_left]
  refine fault_not_mem_unfolding_of_closed (P := fun s _ => Plain s)
    (fun p h => fault_not_mem_acts_of_plain h p) (fun h hn => h.below ?_) n p hshape
  exact Relation.ReflTransGen.mono (fun _ _ => Part.member) _ _
    (below_of_mem_lower hn).1.to_reflTransGen

/-- Below a plain mapping the levels that are entered are those that its values open. -/
theorem mem_lower_iff_of_plain {entries : Entries S} (hshape : Plain shape)
    (hs : Node.view shape = .mapping entries) (next : S × X) :
    next ∈ lower shape subject ↔ ∃ e ∈ entries, ∃ value,
      entry? (Marker.ofKey e.1) e.1 subject = some value ∧ Opens e.2 value next.1 next.2 := by
  simp only [mem_lower_iff .root, acts, hs, List.mem_flatMap]
  rw [exists_comm]
  simp only [exists_and_left]
  refine exists_congr fun e => and_congr_right fun he => ?_
  rw [entryActs_of_isPlain (hshape.keys hs e he) .root e.2]
  cases hv : entry? (Marker.ofKey e.1) e.1 subject with
  | none => simp [Act.found]
  | some value => simp [opens_iff (Pointer.root.push (Marker.ofKey e.1).name)]

theorem mem_lower_iff_of_not_mapping (h : Node.kind shape ≠ .mapping) (next : S × X) :
    next ∈ lower shape subject ↔ Opens shape subject next.1 next.2 := by
  rw [mem_lower_iff .root, acts_of_not_mapping h, ← opens_iff .root]

/-- What conforms to a plain document that itself conforms to a plain shape. -/
structure Between (shape : S) (doc : T) (subject : X) : Prop where
  plainShape : Plain shape
  plain : Plain doc
  below : Conforms shape doc
  above : Conforms doc subject

variable {doc : T}

/-- Where the subject opens a level, the document in the middle opens one too, and lies between the
shape and the subject there. -/
theorem exists_between_of_opens (hshape : Plain shape) (hdoc : Plain doc) (h : Meets shape doc)
    (h' : Meets doc subject) (ho : Opens shape subject part member) :
    ∃ x, Opens shape doc part x ∧ Between part x member := by
  rcases ho with ⟨hs, hx, ht, hm⟩ | ⟨hs, hx, hne⟩
  · obtain ⟨_, ys, hd, data, each⟩ := h.exists_of_sequence hs
    obtain ⟨_, zs, hx', -, each'⟩ := h'.exists_of_sequence hd
    rw [hx] at hx'
    cases hx'
    have hmem := List.mem_of_mem_head? ht
    have hne := data (List.ne_nil_of_mem hmem)
    have hfirst := List.head_mem hne
    exact ⟨_, .element hs hd ht hfirst, hshape.element hs hmem, hdoc.element hd hfirst,
      each _ ht _ hfirst, each' _ (List.head_mem_head? hne) _ hm⟩
  · obtain ⟨es, hd, below⟩ := h.exists_of_mapping hs
    obtain ⟨_, -, above⟩ := h'.exists_of_mapping hd
    have hes := ne_nil_of_conforms hshape hs hne hd (below hne)
    exact ⟨doc, .itself hs hd hne, hshape, hdoc, below hne, above hes⟩

/-- One level: what is entered in the subject is entered in the document in the middle. -/
theorem Between.exists_of_mem_lower (h : Between shape doc subject) {next : S × X}
    (hn : next ∈ lower shape subject) :
    ∃ x, (next.1, x) ∈ lower shape doc ∧ Between next.1 x next.2 := by
  obtain ⟨hshape, hdoc, below, above⟩ := h
  rcases below with ⟨hkind, hmeets⟩ | ⟨hs, each⟩
  · have ho := (mem_lower_iff_of_not_mapping hkind next).mp hn
    have hd : Node.kind doc ≠ .mapping := by
      rcases ho with ⟨hs, -, -, -⟩ | ⟨hs, -, -⟩
      · obtain ⟨form, xs, hd, -⟩ := hmeets.exists_of_sequence hs
        simp [Node.kind, hd, View.kind]
      · exact absurd (Node.kind_of_mapping hs) hkind
    obtain ⟨x, hx, hbetween⟩ := exists_between_of_opens hshape hdoc hmeets (above.meets hd) ho
    exact ⟨x, (mem_lower_iff_of_not_mapping hkind _).mpr hx, hbetween⟩
  · obtain ⟨e, he, z, hz, ho⟩ := (mem_lower_iff_of_plain hshape hs next).mp hn
    have hk := hshape.keys hs e he
    obtain ⟨y, hy, hmeets⟩ := (satisfies_iff_of_isPlain hk e.2 doc).mp (each e he)
    obtain ⟨z', hz', hmeets'⟩ := exists_meets_of_conforms hdoc hk hy above
    obtain rfl : z = z' := Option.some.inj (hz.symm.trans hz')
    have hplain := hdoc.member (member_of_entry_eq_some hy)
    obtain ⟨x, hx, hbetween⟩ :=
      exists_between_of_opens (hshape.value hs he) hplain hmeets hmeets' ho
    exact ⟨x, (mem_lower_iff_of_plain hshape hs _).mpr ⟨e, he, y, hy, hx⟩, hbetween⟩

/-- A walk over the subject is no deeper than one over the document in the middle. -/
theorem Between.enters {d : Nat} (hd : Enters shape subject d) (h : Between shape doc subject) :
    Enters shape doc d := by
  induction hd generalizing doc with
  | here shape subject => exact .here shape doc
  | lower hn _ ih =>
    obtain ⟨x, hx, hbetween⟩ := h.exists_of_mem_lower hn
    exact .lower hx (ih hbetween)

end Levels

section Reflexivity

variable {doc : X}

/-- A document is entered together with itself. -/
theorem exists_enter_of_mem_valueActs (hlone : Everywhere Lone doc) {p : Pointer} {a : Act X X}
    (ha : a ∈ valueActs p doc doc) :
    ∃ q part, a = .enter q part part ∧ Relation.ReflTransGen Member doc part := by
  have hdoc := hlone doc .refl
  unfold valueActs at ha
  cases hs : Node.view doc with
  | null => simp [hs] at ha
  | scalar s => simp [hs] at ha
  | sequence form xs =>
    rw [hs] at hdoc
    match xs, hdoc with
    | [], _ => simp [hs, arrayActs] at ha
    | [x], _ =>
      obtain rfl : a = .enter p x x := by simpa [hs, arrayActs] using ha
      exact ⟨p, x, rfl, .single (.element hs List.mem_cons_self)⟩
  | mapping es =>
    obtain rfl : a = .enter p doc doc := by
      cases es <;> simp_all [objectActs]
    exact ⟨p, doc, rfl, .refl⟩

theorem exists_enter_of_mem_acts (hplain : Plain doc) (hlone : Everywhere Lone doc) {p : Pointer}
    {a : Act X X} (ha : a ∈ acts p doc doc) :
    ∃ q part, a = .enter q part part ∧ Relation.ReflTransGen Member doc part := by
  by_cases hkind : Node.kind doc = .mapping
  · obtain ⟨es, hs⟩ := Node.exists_view_mapping hkind
    have hdistinct := hlone doc .refl
    rw [hs] at hdistinct
    simp only [acts, hs, List.mem_flatMap] at ha
    obtain ⟨e, he, ha⟩ := ha
    have hk := hplain.keys hs e he
    rw [entryActs_of_isPlain hk p e.2, entry?_of_mem hk hdistinct hs he] at ha
    have hm : Member doc e.2 := .value hs he
    obtain ⟨q, part, rfl, hpart⟩ := exists_enter_of_mem_valueActs (hlone.member hm) ha
    exact ⟨q, part, rfl, .head hm hpart⟩
  · rw [acts_of_not_mapping hkind] at ha
    exact exists_enter_of_mem_valueActs hlone ha

/-- Of a document against itself there is nothing to find, however far the walk is unfolded. -/
theorem issuesOf_self (n : Nat) (p : Pointer) (hplain : Plain doc) (hlone : Everywhere Lone doc) :
    issuesOf (unfolding n p doc doc) = [] := by
  induction n generalizing p doc with
  | zero => rfl
  | succ n ih =>
    rw [issuesOf, unfolding, List.filterMap_flatMap, List.flatMap_eq_nil_iff]
    intro a ha
    obtain ⟨q, part, rfl, hpart⟩ := exists_enter_of_mem_acts hplain hlone ha
    exact ih q (hplain.below hpart) (hlone.below hpart)

end Reflexivity

end Conform.Matching

namespace Conform.Matcher

open Matching

variable {S T X : Type} [Node S] [Node T] [Node X] {stack : Stack} {m : Matcher}

/-- A lenient verification passes exactly if its walk ends and the subject conforms. -/
theorem passes_iff (hm : m.strict = false) {shape : S} (hs : Node.kind shape = .mapping)
    (subject : X) :
    (∃ r, m.verifyOn stack shape subject = .ok r ∧ r.status = .ok) ↔
      Finished (m.unfolded stack shape subject) ∧ Conforms shape subject := by
  simp only [verifyOn_eq_ok_iff hm hs]
  constructor
  · rintro ⟨r, ⟨hf, rfl⟩, hr⟩
    rw [Report.status_ofIssues_eq_ok_iff, ← passes_iff_of_finished hf] at hr
    exact ⟨hf, (passes_unfolding_iff _ .root shape subject).mp hr⟩
  · rintro ⟨hf, hc⟩
    refine ⟨_, ⟨hf, rfl⟩, ?_⟩
    rw [Report.status_ofIssues_eq_ok_iff, ← passes_iff_of_finished hf]
    exact (passes_unfolding_iff _ .root shape subject).mpr hc

/-- A walk ends if the limit and the stack hold all its levels. -/
theorem finished_unfolded_of_enters {shape : S} {subject : X} (hshape : Plain shape)
    (h : ∀ d, Enters shape subject d → d ≤ m.maxDepth ∧ ∀ held ∈ stack.walk, d < held) :
    Finished (m.unfolded stack shape subject) := by
  refine (finished_iff_complete_of_plain hshape _ _).mpr ?_
  by_contra hn
  obtain ⟨hle, hheld⟩ := h _ ((enters_iff _ .root shape subject).mpr hn)
  have hlimit := (lt_levels_iff m.positive _).mpr hle
  exact lt_irrefl _ (lt_capped_iff.mpr ⟨hlimit, hheld⟩)

/-- **Conformance of plain documents is a preorder.** With one limit and one stack for all of them, if
a lenient matcher passes a plain document against a plain shape, and a subject against that document,
it passes the subject against the shape. And it passes every plain mapping against itself whose
sequences have one element at most, if the limit and the stack hold the walk. (No mapping in it may
have a key twice, which none has that is put together from its entries.) -/
theorem plain_conformance_preorder (stack : Stack) (m : Matcher) (hm : m.strict = false) :
    (∀ (shape : S) (doc : T) (subject : X), Plain shape → Plain doc →
      (∃ r, m.verifyOn stack shape doc = .ok r ∧ r.status = .ok) →
      (∃ r, m.verifyOn stack doc subject = .ok r ∧ r.status = .ok) →
      ∃ r, m.verifyOn stack shape subject = .ok r ∧ r.status = .ok) ∧
    ∀ doc : S, Node.kind doc = .mapping → Plain doc → Everywhere Lone doc →
      (∀ d, Enters doc doc d → d ≤ m.maxDepth ∧ ∀ held ∈ stack.walk, d < held) →
      ∃ r, m.verifyOn stack doc doc = .ok r ∧ r.status = .ok := by
  refine ⟨fun shape doc subject hshape hdoc h h' => ?_, fun doc hs hplain hlone hheld => ?_⟩
  · have hs : Node.kind shape = .mapping := by
      obtain ⟨r, hr, -⟩ := h
      exact kind_of_verifyOn hr
    have hd : Node.kind doc = .mapping := by
      obtain ⟨r, hr, -⟩ := h'
      exact kind_of_verifyOn hr
    obtain ⟨hf, below⟩ := (passes_iff hm hs doc).mp h
    obtain ⟨-, above⟩ := (passes_iff hm hd subject).mp h'
    refine (passes_iff hm hs subject).mpr ⟨?_, below.trans hshape hdoc above⟩
    refine (finished_iff_complete_of_plain hshape _ _).mpr ?_
    by_contra hn
    have hbetween : Between shape doc subject := ⟨hshape, hdoc, below, above⟩
    have henters := hbetween.enters ((enters_iff _ .root shape subject).mpr hn)
    exact (enters_iff _ .root shape doc).mp henters hf.complete
  · have hf := finished_unfolded_of_enters hplain hheld
    refine ⟨_, (verifyOn_eq_ok_iff hm hs).mpr ⟨hf, rfl⟩, ?_⟩
    exact (Report.status_ofIssues_eq_ok_iff _).mpr (issuesOf_self _ .root hplain hlone)

/-- Every book has a title. -/
def shelf : Value := .record [("books", .list [.record [("title", .null)]])]

/-- The first book has a year as well, and the second one does without. -/
def library : Value :=
  .record [("books", .list [.record [("title", .str "Emma"), ("year", .int 1815)],
    .record [("title", .str "Beowulf")]]), ("owner", .null)]

def archive : Value :=
  .record [("owner", .str "town"), ("books", .list [.record [("year", .null), ("title", .list [])]])]

theorem plain_conformance_preorder_books :
    (∃ r, (⟨2, false, by decide⟩ : Matcher).verify shelf archive = .ok r ∧ r.status = .ok) ∧
      ∃ r, (⟨2, false, by decide⟩ : Matcher).verify shelf shelf = .ok r ∧ r.status = .ok := by
  obtain ⟨trans, refl⟩ := plain_conformance_preorder (S := Value) (T := Value) (X := Value) .usual
    ⟨2, false, by decide⟩ rfl
  have hkeys : ∀ name ∈ ["books", "title", "year", "owner"], Marker.isPlain (.str name) = true := by
    decide
  have hshelf : Plain shelf := by simp [Plain, shelf, Value.record, PlainKeys, hkeys]
  have hlibrary : Plain library := by simp [Plain, library, Value.record, PlainKeys, hkeys]
  have hlone : Everywhere Lone shelf := by simp [shelf, Value.record, Lone, Entries.Distinct]
  have hfinished : Finished (unfolding 2 .root shelf shelf) := by
    unfold Finished
    decide
  have hheld : ∀ d, Enters shelf shelf d →
      d ≤ (2 : Int) ∧ ∀ held ∈ Stack.usual.walk, d < held := by
    intro d hd
    have hlt : d < 2 := by
      by_contra hge
      exact (enters_iff 2 .root shelf shelf).mp (hd.of_le (by omega)) hfinished.complete
    refine ⟨by omega, ?_⟩
    rintro _ ⟨⟩
    exact hlt.trans (by decide)
  exact ⟨trans shelf library archive hshelf hlibrary ⟨_, rfl, rfl⟩ ⟨_, rfl, rfl⟩,
    refl shelf rfl hshelf hlone hheld⟩

end Conform.Matcher
