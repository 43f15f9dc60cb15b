import Conform.Document.Writable
import Conform.Text.Blank

/-!
Markers: the meaning of a key in a shape. A key names an entry that must be present, unless its text
is the wildcard marker, which stands for every entry, or an optional marker around a name, which
stands for an entry that may be absent. Blanks around a marker do not matter; blanks inside an
optional marker belong to the name. An optional marker without a usable name is an ordinary key. A key
that is no text is known by its text form, and has no meaning if it cannot be written.
-/
namespace Conform

/-- How the entries that a key stands for are found. -/
inductive MarkerKind
  | exact
  | wildcard
  | optional
deriving DecidableEq, Repr

def MarkerKind.name : MarkerKind → String
  | .exact => "exact"
  | .wildcard => "wildcard"
  | .optional => "optional"

structure Marker where
  kind : MarkerKind
  /-- The name of the entry; for a wildcard, the key itself. -/
  name : String
deriving DecidableEq, Repr

namespace Marker

def wildcardText : List Char := "[*:key]".toList

def optionalOpening : List Char := "[opt:key:".toList

def optionalClosing : List Char := "]".toList

def isWildcardText (cs : List Char) : Bool := Text.trim cs = wildcardText

/-- Whether the text starts like an optional marker. -/
def opensOptional (cs : List Char) : Bool := optionalOpening.isPrefixOf (Text.trim cs)

/-- The name between the opening and the closing of an optional marker, unless it is empty. -/
def optionalName? (cs : List Char) : Option (List Char) :=
  let t := Text.trim cs
  if optionalOpening.isPrefixOf t && optionalClosing.isSuffixOf t then
    let name := (t.take (t.length - optionalClosing.length)).drop optionalOpening.length
    if name.isEmpty then none else some name
  else none

def isWildcard (k : Key) : Bool := k.string?.any fun s => isWildcardText s.toList

/-- The name that an optional marker carries. -/
def optionalNameOf? (k : Key) : Option String :=
  k.string?.bind fun s => (optionalName? s.toList).map String.ofList

/-- Whether a key starts like an optional marker and carries no usable name. -/
def isMalformed (k : Key) : Bool :=
  k.string?.any fun s => opensOptional s.toList && (optionalName? s.toList).isNone

/-- The meaning of a key. A key that is no text is known by its text form. -/
def ofKey (k : Key) : Marker :=
  if isWildcard k then ⟨.wildcard, k.text⟩
  else
    match optionalNameOf? k with
    | some name => ⟨.optional, name⟩
    | none => ⟨.exact, k.text⟩

/-- The meaning of a key, unless it would be known by a text that it does not have. -/
def ofKey? (k : Key) : Option Marker := if k.isWritable then some (ofKey k) else none

theorem name_of_exact {k : Key} (h : (ofKey k).kind = .exact) : (ofKey k).name = k.text := by
  unfold ofKey at h ⊢
  split
  · rfl
  · split
    · rename_i hw _ name hn
      rw [if_neg hw, hn] at h
      cases h
    · rfl

theorem ofKey_of_exact {k : Key} (h : (ofKey k).kind = .exact) : ofKey k = ⟨.exact, k.text⟩ := by
  have hname := name_of_exact h
  cases hk : ofKey k with
  | mk kind name => simp_all

/-- Whether a key is a text that is no marker. -/
def isPlain (k : Key) : Bool := k.string?.isSome && (ofKey k).kind = .exact

theorem isPlain_iff {k : Key} :
    isPlain k = true ↔ ∃ name : String, k = .str name ∧ ofKey k = ⟨.exact, name⟩ := by
  constructor
  · intro h
    obtain ⟨htext, hkind⟩ : k.string?.isSome = true ∧ (ofKey k).kind = .exact := by
      simpa [isPlain] using h
    obtain ⟨name, rfl⟩ := Key.exists_of_isSome_string? htext
    exact ⟨name, rfl, ofKey_of_exact hkind⟩
  · rintro ⟨name, rfl, hmarker⟩
    simp [isPlain, hmarker, Key.string?]

theorem kind_of_isPlain {k : Key} (h : isPlain k = true) : (ofKey k).kind = .exact := by
  obtain ⟨name, rfl, hmarker⟩ := isPlain_iff.mp h
  rw [hmarker]

/-- Keys that are no markers are the same only if they are equal. -/
theorem eq_of_same_of_isPlain {k l : Key} (hk : isPlain k = true) (hl : isPlain l = true)
    (h : k.same l = true) : k = l := by
  obtain ⟨s, rfl, -⟩ := isPlain_iff.mp hk
  obtain ⟨t, rfl, -⟩ := isPlain_iff.mp hl
  rw [Key.same_str, decide_eq_true_eq] at h
  rw [h]

/-- The optional marker around a name. -/
def optionalText (name : String) : String :=
  String.ofList (optionalOpening ++ name.toList ++ optionalClosing)

theorem trim_optional (cs : List Char) :
    Text.trim (optionalOpening ++ cs ++ optionalClosing) = optionalOpening ++ cs ++ optionalClosing :=
  Text.trim_between (by decide : Text.isBlank '[' = false) (by decide : Text.isBlank ']' = false)
    ("opt:key:".toList ++ cs)

/-- The name in an optional marker is read as it is written, blanks and brackets included. -/
theorem optionalName?_optional {cs : List Char} (h : cs ≠ []) :
    optionalName? (optionalOpening ++ cs ++ optionalClosing) = some cs := by
  have hopening : optionalOpening.isPrefixOf (optionalOpening ++ cs ++ optionalClosing) = true :=
    List.isPrefixOf_iff_prefix.mpr ⟨cs ++ optionalClosing, (List.append_assoc _ _ _).symm⟩
  have hclosing : optionalClosing.isSuffixOf (optionalOpening ++ cs ++ optionalClosing) = true :=
    List.isSuffixOf_iff_suffix.mpr (List.suffix_append _ _)
  have hlength : (optionalOpening ++ cs ++ optionalClosing).length - optionalClosing.length =
      (optionalOpening ++ cs).length := by
    rw [List.length_append, Nat.add_sub_cancel]
  rw [optionalName?, trim_optional]
  dsimp only
  rw [hopening, hclosing, hlength, List.take_left, List.drop_left]
  simpa using h

theorem isWildcardText_optional (cs : List Char) :
    isWildcardText (optionalOpening ++ cs ++ optionalClosing) = false := by
  rw [isWildcardText, trim_optional]
  rfl

theorem ofKey_optionalText {name : String} (h : name ≠ "") :
    ofKey (.str (optionalText name)) = ⟨.optional, name⟩ := by
  have hname : optionalName? (optionalText name).toList = some name.toList := by
    rw [optionalText, String.toList_ofList]
    exact optionalName?_optional (by simpa using h)
  have hwild : isWildcardText (optionalText name).toList = false := by
    rw [optionalText, String.toList_ofList]
    exact isWildcardText_optional name.toList
  simp [ofKey, isWildcard, optionalNameOf?, Key.string?, hname, hwild]

/-- Only text is a marker. -/
theorem isSome_string?_of_ne_exact {k : Key} (h : (ofKey k).kind ≠ .exact) :
    k.string?.isSome = true := by
  cases hk : k.string? with
  | some s => rfl
  | none => simp [ofKey, isWildcard, optionalNameOf?, hk] at h

end Marker
end Conform
