import Mathlib.Data.List.Basic
import Conform.Pointer

/-!
# What a rendered pointer tells

A rendered pointer tells its segments, with one exception: the root is written as the pointer with one
empty segment is. Segments are escaped by two replacements, one after the other, and read by their
inverses in the opposite order. The two do not get in each other's way, because after the first one every
tilde stands before a zero, and after the second one before a zero or a one.
-/
namespace Conform

/-! ## Replacements -/

namespace Text

/-- The text with `new` in place of `old` wherever that occurs, found from left to right. The count is of
characters that belong to what was found last; what was put in is not searched again. -/
def replaceFrom (old new : List Char) : Nat → List Char → List Char
  | _, [] => []
  | n + 1, _ :: cs => replaceFrom old new n cs
  | 0, c :: cs =>
    if old.isPrefixOf (c :: cs) then new ++ replaceFrom old new (old.length - 1) cs
    else c :: replaceFrom old new 0 cs

/-- The text with `new` in place of `old`, which is not empty. -/
def replace (old new text : List Char) : List Char := replaceFrom old new 0 text

variable {old new : List Char} {c : Char}

theorem replaceFrom_length_append (found cs : List Char) :
    replaceFrom old new found.length (found ++ cs) = replace old new cs := by
  induction found with
  | nil => rfl
  | cons _ found ih => exact ih

theorem replace_append (h : old ≠ []) (new cs : List Char) :
    replace old new (old ++ cs) = new ++ replace old new cs := by
  obtain ⟨c, old, rfl⟩ := List.exists_cons_of_ne_nil h
  have hfound : (c :: old).isPrefixOf (c :: (old ++ cs)) = true :=
    List.isPrefixOf_iff_prefix.mpr (List.prefix_append (c :: old) cs)
  rw [List.cons_append, replace, replaceFrom, if_pos hfound, List.length_cons, Nat.add_sub_cancel,
    replaceFrom_length_append]

theorem replace_cons {cs : List Char} (h : ¬ old <+: c :: cs) (new : List Char) :
    replace old new (c :: cs) = c :: replace old new cs := by
  have hnot : ¬ old.isPrefixOf (c :: cs) = true := fun hp => h (List.isPrefixOf_iff_prefix.mp hp)
  rw [replace, replaceFrom, if_neg hnot]
  rfl

/-- A single character is replaced wherever it stands. -/
theorem replace_singleton (a : Char) (new cs : List Char) :
    replace [a] new cs = cs.flatMap fun c => if c = a then new else [c] := by
  induction cs with
  | nil => rfl
  | cons c cs ih =>
    rw [List.flatMap_cons, ← ih]
    by_cases hc : c = a
    · subst hc
      rw [if_pos rfl]
      exact replace_append (List.cons_ne_nil c []) new cs
    · rw [if_neg hc]
      exact replace_cons (fun hp => hc (List.cons_prefix_cons.mp hp).1.symm) new

theorem replace_pair_of_first_ne {a : Char} (h : c ≠ a) (b : Char) (new cs : List Char) :
    replace [a, b] new (c :: cs) = c :: replace [a, b] new cs :=
  replace_cons (fun hp => h (List.cons_prefix_cons.mp hp).1.symm) new

theorem replace_pair_of_second_ne {b : Char} (h : c ≠ b) (a : Char) (new cs : List Char) :
    replace [a, b] new (a :: c :: cs) = a :: replace [a, b] new (c :: cs) := by
  refine replace_cons (fun hp => h ?_) new
  exact (List.cons_prefix_cons.mp (List.cons_prefix_cons.mp hp).2).1.symm

end Text

namespace Pointer

/-! ## Escapes -/

/-- Escaping is done by two replacements, of the tildes and then of the slashes. -/
theorem escape_eq_replace (s : String) :
    escape s = Text.replace ['/'] ['~', '1'] (Text.replace ['~'] ['~', '0'] s.toList) := by
  rw [Text.replace_singleton, Text.replace_singleton, List.flatMap_assoc, escape]
  refine List.flatMap_congr fun c _ => ?_
  unfold escapeChar
  split
  · rfl
  · rfl
  · rename_i htilde hslash
    rw [if_neg htilde, List.flatMap_singleton, if_neg hslash]

/-- The reading of a segment: first the slashes come back, and then the tildes. -/
def unescape (cs : List Char) : List Char :=
  Text.replace ['~', '0'] ['~'] (Text.replace ['~', '1'] ['/'] cs)

/-- Only tildes are left escaped when the slashes are back. -/
theorem replace_slashes_escape (cs : List Char) :
    Text.replace ['~', '1'] ['/'] (cs.flatMap escapeChar) = Text.replace ['~'] ['~', '0'] cs := by
  rw [Text.replace_singleton]
  induction cs with
  | nil => rfl
  | cons c cs ih =>
    rw [List.flatMap_cons, List.flatMap_cons, ← ih]
    unfold escapeChar
    split
    -- The zero behind an escaped tilde keeps it from being taken for half of a slash.
    · show Text.replace _ _ ('~' :: '0' :: _) = _
      rw [Text.replace_pair_of_second_ne (by decide), Text.replace_pair_of_first_ne (by decide)]
      rfl
    · exact Text.replace_append (by decide) _ _
    · rename_i htilde _
      rw [if_neg htilde]
      exact Text.replace_pair_of_first_ne htilde _ _ _

theorem replace_tildes_back (cs : List Char) :
    Text.replace ['~', '0'] ['~'] (Text.replace ['~'] ['~', '0'] cs) = cs := by
  rw [Text.replace_singleton]
  induction cs with
  | nil => rfl
  | cons c cs ih =>
    rw [List.flatMap_cons]
    by_cases hc : c = '~'
    · subst hc
      rw [if_pos rfl, Text.replace_append (by decide), ih]
      rfl
    · rw [if_neg hc, List.singleton_append, Text.replace_pair_of_first_ne hc, ih]

theorem unescape_escape (s : String) : unescape (escape s) = s.toList := by
  rw [unescape, escape, replace_slashes_escape, replace_tildes_back]

theorem slash_not_mem_escape (s : String) : '/' ∉ escape s := by
  intro h
  obtain ⟨c, -, hc⟩ := List.mem_flatMap.mp h
  unfold escapeChar at hc
  split at hc
  · simp at hc
  · simp at hc
  · rename_i hslash
    exact hslash (List.mem_singleton.mp hc).symm

/-! ## Rendered pointers -/

theorem toList_render_cons (s : String) (ss : List String) :
    (render ⟨s :: ss⟩).toList = '/' :: (escape s ++ ss.flatMap fun s => '/' :: escape s) := by
  rw [render, if_neg (by simp), String.toList_ofList]
  rfl

theorem splitOn_escaped (s : String) (ss : List String) :
    (escape s ++ ss.flatMap fun s => '/' :: escape s).splitOn '/' = (s :: ss).map escape := by
  induction ss generalizing s with
  | nil =>
    rw [List.flatMap_nil, List.append_nil, List.splitOn_eq_singleton (slash_not_mem_escape s)]
    rfl
  | cons s' ss ih =>
    rw [List.flatMap_cons, List.cons_append,
      List.splitOn_append_cons_self_of_not_mem (slash_not_mem_escape s), ih]
    rfl

/-- The segments that a rendered pointer is read as: what stands between the slashes, unescaped. -/
def segmentsOf (text : String) : List String :=
  ((text.toList.drop 1).splitOn '/').map fun piece => String.ofList (unescape piece)

theorem segmentsOf_render_cons (s : String) (ss : List String) :
    segmentsOf (render ⟨s :: ss⟩) = s :: ss := by
  have hread : ∀ s : String, String.ofList (unescape (escape s)) = s := fun s => by
    rw [unescape_escape, String.ofList_toList]
  rw [segmentsOf, toList_render_cons, List.drop_one, List.tail_cons, splitOn_escaped, List.map_map]
  exact List.map_id'' hread _

theorem segmentsOf_render_root : segmentsOf (render root) = [""] := rfl

/-- **A rendered pointer identifies its segments, up to one collision.** Two pointers are written alike
only if they are equal, or one is the root and the other has one empty segment. Every pointer but the root
is written as its segments, each after a slash and with tildes and then slashes replaced; dropping the
first slash, splitting at the others and undoing the replacements in the opposite order reads the segments
back. -/
theorem render_identifies :
    (∀ p q : Pointer, p.render = q.render ↔
      p = q ∨ (p = root ∧ q = ⟨[""]⟩) ∨ (p = ⟨[""]⟩ ∧ q = root)) ∧
    (∀ s ss, (render ⟨s :: ss⟩).toList = (s :: ss).flatMap fun s =>
      '/' :: Text.replace ['/'] ['~', '1'] (Text.replace ['~'] ['~', '0'] s.toList)) ∧
    ∀ s ss, (((render ⟨s :: ss⟩).toList.drop 1).splitOn '/').map (fun piece => String.ofList
      (Text.replace ['~', '0'] ['~'] (Text.replace ['~', '1'] ['/'] piece))) = s :: ss := by
  refine ⟨fun p q => ⟨fun h => ?_, ?_⟩, fun s ss => ?_, segmentsOf_render_cons⟩
  · obtain ⟨ps⟩ := p
    obtain ⟨qs⟩ := q
    have hread := congrArg segmentsOf h
    cases ps with
    | nil =>
      cases qs with
      | nil => exact .inl rfl
      | cons s ss =>
        rw [segmentsOf_render_cons] at hread
        exact .inr (.inl ⟨rfl, congrArg Pointer.mk (hread.symm.trans segmentsOf_render_root)⟩)
    | cons s ss =>
      rw [segmentsOf_render_cons] at hread
      cases qs with
      | nil => exact .inr (.inr ⟨congrArg Pointer.mk (hread.trans segmentsOf_render_root), rfl⟩)
      | cons s' ss' =>
        rw [segmentsOf_render_cons] at hread
        exact .inl (congrArg Pointer.mk hread)
  · rintro (rfl | ⟨rfl, rfl⟩ | ⟨rfl, rfl⟩) <;> rfl
  · rw [toList_render_cons, List.flatMap_cons, ← escape_eq_replace]
    exact congrArg _ (congrArg _ (List.flatMap_congr fun s _ => by rw [← escape_eq_replace]))

/-- A segment that looks like escapes already is read back as it is. -/
example : render ⟨["~01/~", ""]⟩ = "/~001~1~0/" ∧ segmentsOf "/~001~1~0/" = ["~01/~", ""] := by decide

end Pointer
end Conform
