import Mathlib.Data.List.Basic
import Conform.Proofs.Document.Writable
import Conform.Schema

/-!
# What a schema accepts, and what it has no message for

A schema finds nothing wrong with exactly the documents that it accepts. A violation has a message unless
it shows an integer of too many digits, in a part of another type or in a key that is not listed.
-/
namespace Conform

theorem Atom.ofFinite_ne_text (negative : Bool) (m : Nat) (e : Int) (s : String) :
    ofFinite negative m e ≠ .text s := by
  unfold ofFinite
  dsimp only
  split
  · nofun
  · split <;> nofun

theorem Atom.eq_str_of_denotation? {a : Atom} {s : String} (h : a.denotation? = some (.text s)) :
    a = .str s := by
  cases a with
  | str t =>
    cases h
    rfl
  | float x =>
    cases x with
    | finite negative m e => exact absurd (Option.some.inj h) (ofFinite_ne_text negative m e s)
    | _ => cases h
  | timestamp t =>
    unfold denotation? at h
    cases hinstant : t.instant? <;> simp [hinstant] at h
  | _ => cases h

/-- A text is the same key as no other. -/
theorem Key.same_str_iff {k : Key} {s : String} : k.same (.str s) = true ↔ k = .str s := by
  constructor
  · intro h
    cases k with
    | atom a =>
      obtain ⟨d, ha, hs⟩ := (Atom.same_iff a (.str s)).mp h
      cases hs
      rw [Atom.eq_str_of_denotation? ha]
    | _ => cases h
  · rintro rfl
    rw [Key.same_str]
    exact decide_eq_true rfl

theorem mapM_eq_none_iff {α β : Type} {f : α → Option β} {xs : List α} :
    xs.mapM f = none ↔ ∃ x ∈ xs, f x = none := by
  induction xs with
  | nil => simp
  | cons x xs ih =>
    rw [List.mapM_cons, List.exists_mem_cons_iff, ← ih]
    cases f x <;> cases xs.mapM f <;> simp

theorem Document.shown?_eq_none_iff {d : Document} : d.shown? = none ↔ ¬ d.IntegersWritable := by
  rw [shown?, ← isWritable_iff]
  cases d.isWritable <;> simp

theorem Key.shown?_eq_none_iff {k : Key} : k.shown? = none ↔ k.isWritable = false := by
  unfold shown?
  cases k.isWritable <;> simp

/-- A violation that has no message. -/
def Violation.Untold (v : Violation) : Prop := v.message? = none

theorem Violation.untold_iff {v : Violation} : v.Untold ↔ v.complaint.message? = none :=
  Option.map_eq_none_iff

theorem Violation.untold_under_iff {name : String} {v : Violation} :
    (v.under name).Untold ↔ v.Untold := by
  rw [untold_iff, untold_iff]
  rfl

theorem Complaint.message?_unexpected_eq_none_iff {fields : List (Option String)} :
    (unexpected fields).message? = none ↔ none ∈ fields := by
  have hmapM : fields.mapM id = none ↔ none ∈ fields := by
    rw [mapM_eq_none_iff]
    exact exists_eq_right
  rw [← hmapM, message?]
  cases fields.mapM id <;> simp

namespace Schema

variable {s item : Schema} {d x : Document} {es : Entries Document} {xs : List Document}
  {required listed : List String} {fields : List (String × Schema)}

/-! ## Documents with no violations, and violations with no messages -/

/-- What a schema asks of a document. -/
inductive Accepts : Schema → Document → Prop
  | record {required : List String} {fields : List (String × Schema)} {d : Document}
      {es : Entries Document} (hd : d.view = .mapping es)
      (hrequired : ∀ name ∈ required, es.has (.str name) = true)
      (hfields : ∀ f ∈ fields, ∀ x, es.get? (.str f.1) = some x → Accepts f.2 x)
      (hkeys : ∀ e ∈ es, ∃ f ∈ fields, e.1 = .str f.1) : Accepts (.record required fields) d
  | list {item : Schema} {d : Document} {xs : List Document} (hd : d.view = .sequence .list xs)
      (hne : xs ≠ []) (hitems : ∀ x ∈ xs, Accepts item x) : Accepts (.list item) d
  | text {d : Document} {t : String} (hd : d.view = .scalar (.atom (.str t))) (hne : t ≠ "") :
      Accepts .text d
  | truth {d : Document} {b : Bool} (hd : d.view = .scalar (.atom (.bool b))) : Accepts .truth d

/-- The type that a schema asks for. -/
def OfType : Schema → View Document → Prop
  | .record .., v => ∃ es, v = .mapping es
  | .list _, v => ∃ xs, v = .sequence .list xs
  | .text, v => ∃ t, v = .scalar (.atom (.str t))
  | .truth, v => ∃ b, v = .scalar (.atom (.bool b))

/-- An integer of too many digits is where the schema finds fault: in a part of another type, or in a
key that is not listed. -/
inductive Conceals : Schema → Document → Prop
  | mistyped {s : Schema} {d : Document} (htype : ¬ s.OfType d.view) (hd : ¬ d.IntegersWritable) :
      Conceals s d
  | unlisted {required : List String} {fields : List (String × Schema)} {d : Document}
      {es : Entries Document} {e : Key × Document} (hd : d.view = .mapping es) (he : e ∈ es)
      (hkey : ∀ f ∈ fields, e.1 ≠ .str f.1) (hwritable : e.1.isWritable = false) :
      Conceals (.record required fields) d
  | field {required : List String} {fields : List (String × Schema)} {d x : Document}
      {es : Entries Document} {f : String × Schema} (hd : d.view = .mapping es) (hf : f ∈ fields)
      (hx : es.get? (.str f.1) = some x) (h : Conceals f.2 x) : Conceals (.record required fields) d
  | item {item : Schema} {d x : Document} {xs : List Document} (hd : d.view = .sequence .list xs)
      (hx : x ∈ xs) (h : Conceals item x) : Conceals (.list item) d

theorem Accepts.ofType (h : s.Accepts d) : s.OfType d.view := by
  cases h with
  | record hd => exact ⟨_, hd⟩
  | list hd => exact ⟨_, hd⟩
  | text hd => exact ⟨_, hd⟩
  | truth hd => exact ⟨_, hd⟩

theorem violations_of_not_ofType (h : ¬ s.OfType d.view) :
    s.violations d = [⟨[], .type d.shown? s.typeName⟩] := by
  cases s with
  | record required fields =>
    unfold violations
    split
    · rename_i es hd
      exact absurd ⟨es, hd⟩ h
    · rfl
  | list item =>
    unfold violations
    split
    · rename_i xs hd
      exact absurd ⟨xs, hd⟩ h
    · rfl
  | text =>
    unfold violations
    split
    · rename_i t hd
      exact absurd ⟨t, hd⟩ h
    · rfl
  | truth =>
    unfold violations
    split
    · rename_i b hd
      exact absurd ⟨b, hd⟩ h
    · rfl

theorem violations_record (hd : d.view = .mapping es) :
    (Schema.record required fields).violations d =
      missing required es ++ fieldViolations fields es ++ unexpected (fields.map Prod.fst) es := by
  simp only [violations, hd]

theorem violations_list (hd : d.view = .sequence .list xs) :
    (Schema.list item).violations d =
      if xs.isEmpty then [⟨[], .empty d.quoted⟩]
      else (xs.mapIdx fun i x => (item.violations x).map (Violation.under (toString i))).flatten := by
  simp only [violations, hd, complain]

theorem violations_text {t : String} (hd : d.view = .scalar (.atom (.str t))) :
    Schema.text.violations d = if t.isEmpty then [⟨[], .empty d.quoted⟩] else [] := by
  simp only [violations, hd, complain]

theorem violations_truth {b : Bool} (hd : d.view = .scalar (.atom (.bool b))) :
    Schema.truth.violations d = [] := by
  simp only [violations, hd]

theorem mem_fieldViolations {v : Violation} : v ∈ fieldViolations fields es ↔
    ∃ f ∈ fields, ∃ x, es.get? (.str f.1) = some x ∧ ∃ w ∈ f.2.violations x, w.under f.1 = v := by
  induction fields with
  | nil => simp [fieldViolations]
  | cons f fields ih =>
    obtain ⟨name, s⟩ := f
    rw [fieldViolations, List.mem_append, ih, List.exists_mem_cons_iff]
    refine or_congr_left ?_
    simp [List.mem_flatMap]

theorem mem_itemViolations {v : Violation} :
    v ∈ (xs.mapIdx fun i x => (item.violations x).map (Violation.under (toString i))).flatten ↔
      ∃ i, ∃ h : i < xs.length, ∃ w ∈ item.violations xs[i], w.under (toString i) = v := by
  simp [List.mem_flatten, List.mem_mapIdx]

/-- The keys that are not listed. -/
def unlisted (listed : List String) (es : Entries Document) : List Key :=
  (es.map Prod.fst).filter fun k => !listed.any fun name => k.same (.str name)

theorem mem_unlisted {k : Key} : k ∈ unlisted listed es ↔
    (∃ e ∈ es, e.1 = k) ∧ ∀ name ∈ listed, k ≠ .str name := by
  simp [unlisted, List.mem_filter, ← Key.same_str_iff]

theorem unexpected_eq_nil (h : unlisted listed es = []) : unexpected listed es = [] :=
  if_pos (List.isEmpty_iff.mpr h)

theorem unexpected_eq (h : unlisted listed es ≠ []) :
    unexpected listed es = [⟨[], .unexpected
      (((unlisted listed es).mergeSort fun k l => k.text ≤ l.text).map Key.shown?)⟩] :=
  if_neg (mt List.isEmpty_iff.mp h)

/-! ## No violations -/

theorem missing_eq_nil_iff :
    missing required es = [] ↔ ∀ name ∈ required, es.has (.str name) = true := by
  simp [missing, complain]

theorem unexpected_eq_nil_iff :
    unexpected (fields.map Prod.fst) es = [] ↔ ∀ e ∈ es, ∃ f ∈ fields, e.1 = .str f.1 := by
  have hunlisted : unlisted (fields.map Prod.fst) es = [] ↔ ∀ e ∈ es, ∃ f ∈ fields, e.1 = .str f.1 := by
    rw [List.eq_nil_iff_forall_not_mem]
    simp [mem_unlisted]
  rw [← hunlisted]
  refine ⟨fun h => ?_, unexpected_eq_nil⟩
  by_contra hne
  rw [unexpected_eq hne] at h
  cases h

theorem fieldViolations_eq_nil_iff :
    fieldViolations fields es = [] ↔
      ∀ f ∈ fields, ∀ x, es.get? (.str f.1) = some x → f.2.violations x = [] := by
  simp only [List.eq_nil_iff_forall_not_mem, mem_fieldViolations]
  exact ⟨fun h f hf x hx w hw => h _ ⟨f, hf, x, hx, w, hw, rfl⟩,
    fun h _ ⟨f, hf, x, hx, w, hw, _⟩ => h f hf x hx w hw⟩

theorem violations_list_eq_nil_iff (hd : d.view = .sequence .list xs) :
    (Schema.list item).violations d = [] ↔ xs ≠ [] ∧ ∀ x ∈ xs, item.violations x = [] := by
  rw [violations_list hd]
  by_cases h : xs = []
  · simp [h]
  · rw [if_neg (mt List.isEmpty_iff.mp h), List.flatten_eq_nil_iff, List.forall_mem_iff_getElem]
    simp [h, List.forall_mem_iff_getElem]

theorem sizeOf_lt_of_mem {f : String × Schema} (h : f ∈ fields) : sizeOf f.2 < sizeOf fields := by
  obtain ⟨name, s⟩ := f
  have hlt := List.sizeOf_lt_of_mem h
  simp only [Prod.mk.sizeOf_spec] at hlt
  show sizeOf s < sizeOf fields
  omega

/-- A schema finds nothing wrong with a document iff it accepts it. -/
theorem violations_eq_nil_iff (s : Schema) (d : Document) : s.violations d = [] ↔ s.Accepts d := by
  -- The recursion is on the schema, since a document may lead back to itself.
  by_cases htype : s.OfType d.view
  · cases s with
    | record required fields =>
      obtain ⟨es, hd⟩ := htype
      have hfields : fieldViolations fields es = [] ↔
          ∀ f ∈ fields, ∀ x, es.get? (.str f.1) = some x → f.2.Accepts x :=
        fieldViolations_eq_nil_iff.trans <| forall₂_congr fun f hf =>
          have := sizeOf_lt_of_mem hf
          forall₂_congr fun x _ => violations_eq_nil_iff f.2 x
      rw [violations_record hd, List.append_eq_nil_iff, List.append_eq_nil_iff, missing_eq_nil_iff,
        hfields, unexpected_eq_nil_iff]
      constructor
      · rintro ⟨⟨hrequired, hfields⟩, hkeys⟩
        exact .record hd hrequired hfields hkeys
      · intro h
        cases h with
        | record hd' hrequired hfields hkeys =>
          cases hd.symm.trans hd'
          exact ⟨⟨hrequired, hfields⟩, hkeys⟩
    | list item =>
      obtain ⟨xs, hd⟩ := htype
      rw [violations_list_eq_nil_iff hd]
      constructor
      · rintro ⟨hne, hitems⟩
        exact .list hd hne fun x hx => (violations_eq_nil_iff item x).mp (hitems x hx)
      · intro h
        cases h with
        | list hd' hne hitems =>
          cases hd.symm.trans hd'
          exact ⟨hne, fun x hx => (violations_eq_nil_iff item x).mpr (hitems x hx)⟩
    | text =>
      obtain ⟨t, hd⟩ := htype
      rw [violations_text hd]
      constructor
      · intro h
        refine .text hd fun ht => ?_
        simp [ht] at h
      · intro h
        cases h with
        | text hd' hne =>
          cases hd.symm.trans hd'
          exact if_neg (by simpa using hne)
    | truth =>
      obtain ⟨b, hd⟩ := htype
      exact iff_of_true (violations_truth hd) (.truth hd)
  · rw [violations_of_not_ofType htype]
    exact iff_of_false (List.cons_ne_nil _ _) fun h => htype h.ofType
termination_by sizeOf s

/-! ## Violations without a message -/

theorem not_untold_missing {v : Violation} (h : v ∈ missing required es) : ¬ v.Untold := by
  simp only [missing, complain, List.mem_flatMap, List.mem_singleton] at h
  obtain ⟨name, -, rfl⟩ := h
  nofun

theorem exists_untold_unexpected_iff :
    (∃ v ∈ unexpected listed es, v.Untold) ↔ ∃ k ∈ unlisted listed es, k.isWritable = false := by
  by_cases h : unlisted listed es = []
  · simp [unexpected_eq_nil h, h]
  · rw [unexpected_eq h]
    simp [Violation.untold_iff, Complaint.message?_unexpected_eq_none_iff, Key.shown?_eq_none_iff]

theorem exists_untold_fieldViolations_iff :
    (∃ v ∈ fieldViolations fields es, v.Untold) ↔
      ∃ f ∈ fields, ∃ x, es.get? (.str f.1) = some x ∧ ∃ v ∈ f.2.violations x, v.Untold := by
  simp only [mem_fieldViolations]
  constructor
  · rintro ⟨_, ⟨f, hf, x, hx, w, hw, rfl⟩, h⟩
    exact ⟨f, hf, x, hx, w, hw, Violation.untold_under_iff.mp h⟩
  · rintro ⟨f, hf, x, hx, w, hw, h⟩
    exact ⟨_, ⟨f, hf, x, hx, w, hw, rfl⟩, Violation.untold_under_iff.mpr h⟩

theorem exists_untold_list_iff (hd : d.view = .sequence .list xs) :
    (∃ v ∈ (Schema.list item).violations d, v.Untold) ↔
      ∃ x ∈ xs, ∃ v ∈ item.violations x, v.Untold := by
  rw [violations_list hd]
  by_cases h : xs = []
  · simp [h, Violation.untold_iff, Complaint.message?]
  · rw [if_neg (mt List.isEmpty_iff.mp h)]
    simp only [mem_itemViolations]
    constructor
    · rintro ⟨_, ⟨i, hi, w, hw, rfl⟩, hv⟩
      exact ⟨_, List.getElem_mem hi, w, hw, Violation.untold_under_iff.mp hv⟩
    · rintro ⟨x, hx, w, hw, hv⟩
      obtain ⟨i, hi, rfl⟩ := List.getElem_of_mem hx
      exact ⟨_, ⟨i, hi, w, hw, rfl⟩, Violation.untold_under_iff.mpr hv⟩

theorem exists_untold_record_iff (hd : d.view = .mapping es) :
    (∃ v ∈ (Schema.record required fields).violations d, v.Untold) ↔
      (∃ f ∈ fields, ∃ x, es.get? (.str f.1) = some x ∧ ∃ v ∈ f.2.violations x, v.Untold) ∨
      ∃ k ∈ unlisted (fields.map Prod.fst) es, k.isWritable = false := by
  rw [violations_record hd, ← exists_untold_fieldViolations_iff, ← exists_untold_unexpected_iff]
  constructor
  · rintro ⟨v, hv, huntold⟩
    rcases List.mem_append.mp hv with hv | hv
    · rcases List.mem_append.mp hv with hv | hv
      · exact absurd huntold (not_untold_missing hv)
      · exact .inl ⟨v, hv, huntold⟩
    · exact .inr ⟨v, hv, huntold⟩
  · rintro (⟨v, hv, huntold⟩ | ⟨v, hv, huntold⟩)
    · exact ⟨v, List.mem_append_left _ (List.mem_append_right _ hv), huntold⟩
    · exact ⟨v, List.mem_append_right _ hv, huntold⟩

theorem exists_untold_mismatch_iff (h : ¬ s.OfType d.view) :
    (∃ v ∈ s.violations d, v.Untold) ↔ ¬ d.IntegersWritable := by
  rw [violations_of_not_ofType h, List.exists_mem_cons_iff, Violation.untold_iff,
    Complaint.message?, Option.map_eq_none_iff, Document.shown?_eq_none_iff]
  exact or_iff_left nofun

/-- The violations of a document have messages unless one of them conceals an integer. -/
theorem exists_untold_iff (s : Schema) (d : Document) :
    (∃ v ∈ s.violations d, v.Untold) ↔ s.Conceals d := by
  by_cases htype : s.OfType d.view
  · cases s with
    | record required fields =>
      obtain ⟨es, hd⟩ := htype
      rw [exists_untold_record_iff hd]
      constructor
      · rintro (⟨f, hf, x, hx, h⟩ | ⟨k, hk, hwritable⟩)
        · have := sizeOf_lt_of_mem hf
          exact .field hd hf hx ((exists_untold_iff f.2 x).mp h)
        · obtain ⟨⟨e, he, rfl⟩, hkey⟩ := mem_unlisted.mp hk
          exact .unlisted hd he (fun f hf => hkey f.1 (List.mem_map_of_mem hf)) hwritable
      · intro h
        cases h with
        | mistyped htype => exact absurd ⟨es, hd⟩ htype
        | unlisted hd' he hkey hwritable =>
          cases hd.symm.trans hd'
          exact .inr ⟨_, mem_unlisted.mpr ⟨⟨_, he, rfl⟩, List.forall_mem_map.mpr hkey⟩, hwritable⟩
        | @field _ _ _ x _ f hd' hf hx h =>
          cases hd.symm.trans hd'
          have := sizeOf_lt_of_mem hf
          exact .inl ⟨f, hf, x, hx, (exists_untold_iff f.2 x).mpr h⟩
    | list item =>
      obtain ⟨xs, hd⟩ := htype
      rw [exists_untold_list_iff hd]
      constructor
      · rintro ⟨x, hx, h⟩
        exact .item hd hx ((exists_untold_iff item x).mp h)
      · intro h
        cases h with
        | mistyped htype => exact absurd ⟨xs, hd⟩ htype
        | @item _ _ x _ hd' hx h =>
          cases hd.symm.trans hd'
          exact ⟨x, hx, (exists_untold_iff item x).mpr h⟩
    | text =>
      obtain ⟨t, hd⟩ := htype
      refine iff_of_false ?_ ?_
      · rw [violations_text hd]
        split <;> simp [Violation.untold_iff, Complaint.message?]
      · rintro ⟨htype, -⟩
        exact htype ⟨t, hd⟩
    | truth =>
      obtain ⟨b, hd⟩ := htype
      refine iff_of_false ?_ ?_
      · simp [violations_truth hd]
      · rintro ⟨htype, -⟩
        exact htype ⟨b, hd⟩
  · rw [exists_untold_mismatch_iff htype]
    constructor
    · exact .mistyped htype
    · intro h
      cases h with
      | mistyped _ h => exact h
      | unlisted hd => exact absurd ⟨_, hd⟩ htype
      | field hd => exact absurd ⟨_, hd⟩ htype
      | item hd => exact absurd ⟨_, hd⟩ htype
termination_by sizeOf s

end Schema
end Conform
