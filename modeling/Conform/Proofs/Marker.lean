import Mathlib.Data.List.TakeWhile
import Conform.Marker

/-!
# The forms of a key

A key that is text is the wildcard marker, an optional marker around a name, the beginning of an optional
marker without a usable name, or neither. What it is depends only on the text between the blanks at its
ends, and everything that is asked about a key agrees on it.
-/
namespace Conform

/-! ## Blanks at the ends -/

namespace Text

variable {p : Char → Bool} {cs right t : List Char}

/-- What is left of a text when the blanks at its two ends are gone. -/
structure Stripped (cs t : List Char) : Prop where
  around : ∃ left right, (∀ c ∈ left, isBlank c = true) ∧ (∀ c ∈ right, isBlank c = true) ∧
    cs = left ++ t ++ right
  head : ∀ c ∈ t.head?, isBlank c = false
  last : ∀ c ∈ t.getLast?, isBlank c = false

theorem dropTrailing_append (h : ∀ c ∈ right, p c = true) (cs : List Char) :
    dropTrailing p (cs ++ right) = dropTrailing p cs := by
  have hreverse : ∀ c ∈ right.reverse, p c = true := fun c hc => h c (List.mem_reverse.mp hc)
  rw [dropTrailing, List.reverse_append, List.dropWhile_append_of_pos hreverse, dropTrailing]

theorem exists_dropTrailing (p : Char → Bool) (cs : List Char) :
    ∃ right, (∀ c ∈ right, p c = true) ∧ cs = dropTrailing p cs ++ right := by
  refine ⟨(cs.reverse.takeWhile p).reverse, fun c hc => ?_, ?_⟩
  · exact List.mem_takeWhile_imp (List.mem_reverse.mp hc)
  · rw [dropTrailing, ← List.reverse_append, List.takeWhile_append_dropWhile, List.reverse_reverse]

theorem getLast?_dropTrailing (p : Char → Bool) (cs : List Char) :
    ∀ c ∈ (dropTrailing p cs).getLast?, p c = false := by
  intro c hc
  rw [dropTrailing, List.getLast?_reverse] at hc
  have h := List.head?_dropWhile_not p cs.reverse
  rw [hc] at h
  exact h

theorem dropTrailing_eq_self (h : ∀ c ∈ cs.getLast?, p c = false) : dropTrailing p cs = cs := by
  rw [dropTrailing, List.reverse_eq_iff]
  rw [← List.head?_reverse] at h
  cases hreverse : cs.reverse with
  | nil => rfl
  | cons c r =>
    rw [hreverse] at h
    have hc : ¬ p c = true := by
      rw [h c rfl]
      exact Bool.false_ne_true
    exact List.dropWhile_cons_of_neg hc

theorem stripped_trim (cs : List Char) : Stripped cs (trim cs) := by
  obtain ⟨right, hright, hrest⟩ := exists_dropTrailing isBlank (cs.dropWhile isBlank)
  refine ⟨⟨cs.takeWhile isBlank, right, fun c hc => List.mem_takeWhile_imp hc, hright, ?_⟩, ?_,
    getLast?_dropTrailing _ _⟩
  · rw [List.append_assoc, trim, ← hrest, List.takeWhile_append_dropWhile]
  · intro c hc
    have hhead : (cs.dropWhile isBlank).head? = some c := by
      rw [hrest, List.head?_append]
      exact Option.or_eq_some_iff.mpr (.inl hc)
    have h := List.head?_dropWhile_not isBlank cs
    rw [hhead] at h
    exact h

theorem Stripped.trim_eq (h : Stripped cs t) : trim cs = t := by
  obtain ⟨left, right, hleft, hright, rfl⟩ := h.around
  have hdrop : (left ++ t ++ right).dropWhile isBlank = (t ++ right).dropWhile isBlank := by
    rw [List.append_assoc, List.dropWhile_append_of_pos hleft]
  rw [trim, hdrop]
  cases t with
  | nil => rw [List.nil_append, List.dropWhile_eq_nil_iff.mpr hright]; rfl
  | cons c t =>
    have hc : ¬ isBlank c = true := by
      rw [h.head c rfl]
      exact Bool.false_ne_true
    rw [List.cons_append, List.dropWhile_cons_of_neg hc, ← List.cons_append,
      dropTrailing_append hright, dropTrailing_eq_self h.last]

end Text

/-! ## Forms -/

namespace Marker

variable {cs ds t name : List Char}

/-- The forms of a key that is text. -/
inductive KeyForm
  | wildcard
  | optional (name : String)
  /-- Begins as an optional marker does, without a usable name. -/
  | malformed
  | plain
deriving DecidableEq

/-- Which texts have a form, when the blanks at their ends are gone. -/
def KeyForm.Spells (t : List Char) : KeyForm → Prop
  | .wildcard => t = wildcardText
  | .optional name => name ≠ "" ∧ t = optionalOpening ++ name.toList ++ optionalClosing
  | .malformed => optionalOpening <+: t ∧
      ∀ name ≠ "", t ≠ optionalOpening ++ name.toList ++ optionalClosing
  | .plain => t ≠ wildcardText ∧ ¬ optionalOpening <+: t

/-- The name that is verbatim between the opening and the closing. -/
def KeyForm.name? : KeyForm → Option String
  | .optional name => some name
  | _ => none

/-- The marker of a key of a form. -/
def KeyForm.marker (key : String) : KeyForm → Marker
  | .wildcard => ⟨.wildcard, key⟩
  | .optional name => ⟨.optional, name⟩
  | .malformed => ⟨.exact, key⟩
  | .plain => ⟨.exact, key⟩

theorem optionalName?_congr (h : Text.trim cs = Text.trim ds) : optionalName? cs = optionalName? ds := by
  simp only [optionalName?, h]

/-- The opening and the closing do not overlap: what is left between them is not empty. -/
theorem optionalName?_eq_some_iff :
    optionalName? cs = some name ↔
      name ≠ [] ∧ Text.trim cs = optionalOpening ++ name ++ optionalClosing := by
  constructor
  · intro h
    unfold optionalName? at h
    dsimp only at h
    split at h
    · rename_i hends
      rw [Bool.and_eq_true, List.isPrefixOf_iff_prefix, List.isSuffixOf_iff_suffix] at hends
      obtain ⟨hopening, before, hclosing⟩ := hends
      rw [← hclosing] at h hopening
      rw [List.length_append, Nat.add_sub_cancel, List.take_left'] at h
      split at h
      · cases h
      · rename_i hne
        obtain rfl := Option.some.inj h
        have hlong : optionalOpening.length ≤ before.length := by
          by_contra hshort
          rw [List.drop_eq_nil_of_le (by omega)] at hne
          exact hne rfl
        obtain ⟨inner, rfl⟩ :=
          List.prefix_of_prefix_length_le hopening (List.prefix_append before _) hlong
        rw [List.drop_left] at hne ⊢
        exact ⟨by simpa using hne, hclosing.symm⟩
      · rfl
    · cases h
  · rintro ⟨hne, htrim⟩
    rw [optionalName?_congr (htrim.trans (trim_optional name).symm)]
    exact optionalName?_optional hne

theorem prefix_optional (name : List Char) :
    optionalOpening <+: optionalOpening ++ name ++ optionalClosing := by
  rw [List.append_assoc]
  exact List.prefix_append _ _

theorem not_opening_prefix_wildcard : ¬ optionalOpening <+: wildcardText := by decide

theorem optionalName?_eq_none_iff :
    optionalName? cs = none ↔
      ∀ name : String, name ≠ "" → Text.trim cs ≠ optionalOpening ++ name.toList ++ optionalClosing := by
  rw [Option.eq_none_iff_forall_ne_some]
  constructor
  · intro h name hne htrim
    exact h _ (optionalName?_eq_some_iff.mpr ⟨by simpa using hne, htrim⟩)
  · intro h name hname
    obtain ⟨hne, htrim⟩ := optionalName?_eq_some_iff.mp hname
    apply h (String.ofList name)
    · simpa using hne
    · rw [String.toList_ofList]
      exact htrim

theorem optionalName?_of_not_opening (h : ¬ optionalOpening <+: Text.trim cs) :
    optionalName? cs = none := by
  rw [optionalName?_eq_none_iff]
  intro name _ htrim
  rw [htrim] at h
  exact h (prefix_optional _)

/-- Every text has a form. -/
theorem exists_spells (t : List Char) : ∃ form : KeyForm, form.Spells t := by
  by_cases hwild : t = wildcardText
  · exact ⟨.wildcard, hwild⟩
  by_cases hopening : optionalOpening <+: t
  · by_cases hname : ∃ name : String,
        name ≠ "" ∧ t = optionalOpening ++ name.toList ++ optionalClosing
    · obtain ⟨name, hname⟩ := hname
      exact ⟨.optional name, hname⟩
    · exact ⟨.malformed, hopening, fun name hne ht => hname ⟨name, hne, ht⟩⟩
  · exact ⟨.plain, hwild, hopening⟩

/-- Everything that is asked about a key, if its text has this form. -/
structure KeyForm.Answers (form : KeyForm) (key : String) : Prop where
  marker : ofKey (.str key) = form.marker key
  isWildcard : isWildcard (.str key) = decide (form = .wildcard)
  name : optionalNameOf? (.str key) = form.name?
  isMalformed : isMalformed (.str key) = decide (form = .malformed)

variable {form form' : KeyForm} {key : String}

theorem KeyForm.Spells.isWildcardText_eq (h : form.Spells (Text.trim cs)) :
    isWildcardText cs = decide (form = .wildcard) := by
  rw [isWildcardText, decide_eq_decide]
  cases form with
  | wildcard => exact iff_of_true h rfl
  | optional name =>
    refine iff_of_false (fun hwild => not_opening_prefix_wildcard ?_) (by rintro ⟨⟩)
    rw [← hwild, h.2]
    exact prefix_optional _
  | malformed =>
    refine iff_of_false (fun hwild => not_opening_prefix_wildcard ?_) (by rintro ⟨⟩)
    rw [← hwild]
    exact h.1
  | plain => exact iff_of_false h.1 (by rintro ⟨⟩)

theorem KeyForm.Spells.map_optionalName? (h : form.Spells (Text.trim cs)) :
    (optionalName? cs).map String.ofList = form.name? := by
  cases form with
  | wildcard =>
    have hwild : Text.trim cs = wildcardText := h
    rw [optionalName?_of_not_opening (hwild ▸ not_opening_prefix_wildcard)]
    rfl
  | optional name =>
    rw [optionalName?_eq_some_iff.mpr ⟨by simpa using h.1, h.2⟩, Option.map_some, String.ofList_toList]
    rfl
  | malformed =>
    rw [optionalName?_eq_none_iff.mpr h.2]
    rfl
  | plain =>
    rw [optionalName?_of_not_opening h.2]
    rfl

theorem KeyForm.Spells.opensOptional_eq (h : form.Spells (Text.trim cs)) :
    opensOptional cs = decide (form ≠ .wildcard ∧ form ≠ .plain) := by
  rw [opensOptional, Bool.eq_iff_iff, List.isPrefixOf_iff_prefix, decide_eq_true_iff]
  cases form with
  | wildcard =>
    have hwild : Text.trim cs = wildcardText := h
    exact iff_of_false (hwild ▸ not_opening_prefix_wildcard) (fun hne => hne.1 rfl)
  | optional name => exact iff_of_true (h.2 ▸ prefix_optional _) ⟨nofun, nofun⟩
  | malformed => exact iff_of_true h.1 ⟨nofun, nofun⟩
  | plain => exact iff_of_false h.2 (fun hne => hne.2 rfl)

theorem KeyForm.Spells.answers (h : form.Spells (Text.trim key.toList)) : form.Answers key := by
  have hwild : isWildcard (.str key) = decide (form = .wildcard) := h.isWildcardText_eq
  have hname : optionalNameOf? (.str key) = form.name? := h.map_optionalName?
  have hmalformed : isMalformed (.str key) = decide (form = .malformed) := by
    have hnone : (optionalName? key.toList).isNone = form.name?.isNone := by
      rw [← h.map_optionalName?, Option.isNone_map]
    show (opensOptional key.toList && (optionalName? key.toList).isNone) = _
    rw [h.opensOptional_eq, hnone]
    cases form <;> rfl
  refine ⟨?_, hwild, hname, hmalformed⟩
  rw [ofKey, hwild, hname]
  cases form <;> rfl

/-- The answers tell the form. -/
theorem KeyForm.Answers.unique (h : form.Answers key) (h' : form'.Answers key) : form = form' := by
  have hwild := h.isWildcard.symm.trans h'.isWildcard
  have hname := h.name.symm.trans h'.name
  have hmalformed := h.isMalformed.symm.trans h'.isMalformed
  cases form <;> cases form' <;> simp_all [KeyForm.name?]

/-- **A key that is text has exactly one form**, which is spelled between the blanks at its ends, and
everything that is asked about the key agrees on it: a wildcard, a malformed and a plain marker are called
by the whole key, and an optional one by the name in it. A marker around a name is read as optional with
this very name, whatever characters it has and whatever blanks are around it. -/
theorem form_of_key (key : String) :
    Text.Stripped key.toList (Text.trim key.toList) ∧
    (∃! form : KeyForm, form.Spells (Text.trim key.toList)) ∧
    (∀ form : KeyForm, form.Spells (Text.trim key.toList) → form.Answers key) ∧
    ∀ left name right : String, name ≠ "" → (∀ c ∈ left.toList, Text.isBlank c = true) →
      (∀ c ∈ right.toList, Text.isBlank c = true) →
      ofKey (.str (left ++ optionalText name ++ right)) = ⟨.optional, name⟩ := by
  refine ⟨Text.stripped_trim _, ?_, fun form h => h.answers, ?_⟩
  · obtain ⟨form, h⟩ := exists_spells (Text.trim key.toList)
    exact ⟨form, h, fun form' h' => h'.answers.unique h.answers⟩
  · intro left name right hne hleft hright
    have hstripped : Text.Stripped (left ++ optionalText name ++ right).toList
        (optionalOpening ++ name.toList ++ optionalClosing) := by
      refine ⟨⟨left.toList, right.toList, hleft, hright, ?_⟩, ?_, ?_⟩
      · rw [String.toList_append, String.toList_append, optionalText, String.toList_ofList]
      · rintro _ ⟨⟩
        rfl
      · intro c hc
        rw [show optionalClosing = [']'] from rfl, List.getLast?_concat] at hc
        cases hc
        rfl
    have hspells : (KeyForm.optional name).Spells (Text.trim (left ++ optionalText name ++ right).toList) :=
      ⟨hne, hstripped.trim_eq⟩
    exact hspells.answers.marker

/-- An optional marker may be put around a wildcard marker; one without a name is a key like others. -/
theorem form_of_key_nested :
    ofKey (.str ("\u2003" ++ optionalText " [*:key]" ++ "\n")) = ⟨.optional, " [*:key]"⟩ ∧
    KeyForm.malformed.Answers " [opt:key:]" := by
  have hleft : ∀ c ∈ "\u2003".toList, Text.isBlank c = true := List.forall_mem_singleton.mpr rfl
  have hright : ∀ c ∈ "\n".toList, Text.isBlank c = true := List.forall_mem_singleton.mpr rfl
  refine ⟨(form_of_key "").2.2.2 "\u2003" " [*:key]" "\n" (by decide) hleft hright, ?_⟩
  have htrim : Text.trim " [opt:key:]".toList = optionalOpening ++ optionalClosing := by decide
  apply (form_of_key " [opt:key:]").2.2.1
  refine ⟨htrim ▸ List.prefix_append _ _, fun name hne h => hne ?_⟩
  rw [htrim, List.append_cancel_right_eq, List.self_eq_append_right] at h
  simpa using h

end Marker
end Conform
