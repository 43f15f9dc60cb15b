import Mathlib.Data.List.Basic
import Conform.Json.Reader
import Conform.Json.Writer

/-!
# Texts in JSON

A text is read back from between its marks, in any style that escapes the control characters. An escape
by number stands for the character itself, as one code unit or as two surrogates.
-/
namespace Conform.Text

/-- The last digit of a number that is given at least two digits. -/
theorem digitsOf_succ {base width : Nat} (hbase : 1 < base) (hwidth : 0 < width) (n : Nat) :
    digitsOf base (width + 1) n = digitsOf base width (n / base) ++ [Nat.digitChar (n % base)] := by
  by_cases hn : n < base
  · obtain ⟨k, rfl⟩ := Nat.exists_eq_succ_of_ne_zero (Nat.pos_iff_ne_zero.mp hwidth)
    rw [digitsOf, digitsOf, Nat.toDigits_of_lt_base hn, Nat.div_eq_of_lt hn, Nat.mod_eq_of_lt hn,
      Nat.toDigits_zero]
    simp [List.replicate_succ']
  · have hdigits := Nat.toDigits_of_base_le hbase (Nat.le_of_not_lt hn)
    simp only [digitsOf, hdigits, List.length_append, List.length_singleton,
      Nat.add_sub_add_right, List.append_assoc]

theorem digitsOf_one {base n : Nat} (hn : n < base) : digitsOf base 1 n = [Nat.digitChar n] := by
  rw [digitsOf, Nat.toDigits_of_lt_base hn]
  rfl

theorem digit?_digitChar : ∀ {n : Nat}, n < 16 → digit? 16 (Nat.digitChar n) = some n := by
  have h : ∀ n < 16, digit? 16 (Nat.digitChar n) = some n := by decide
  exact fun {n} => h n

end Conform.Text

namespace Conform.Json

/-! ## Reading what is written -/

/-- The four digits of a code unit. -/
theorem exists_digits_of_unit {n : Nat} (hn : n < 0x10000) :
    ∃ a b c d, Text.digitsOf 16 4 n = [a, b, c, d] ∧ unit? a b c d = some n := by
  have hsixteen : (1 : Nat) < 16 := by decide
  have hdigits : Text.digitsOf 16 4 n = [Nat.digitChar (n / 16 / 16 / 16),
      Nat.digitChar (n / 16 / 16 % 16), Nat.digitChar (n / 16 % 16), Nat.digitChar (n % 16)] := by
    rw [Text.digitsOf_succ hsixteen (by decide), Text.digitsOf_succ hsixteen (by decide),
      Text.digitsOf_succ hsixteen (by decide), Text.digitsOf_one (by omega)]
    rfl
  refine ⟨_, _, _, _, hdigits, ?_⟩
  have hlow : ∀ m, m % 16 < 16 := fun m => Nat.mod_lt _ (by decide)
  simp only [unit?, Text.digit?_digitChar (hlow _), Text.digit?_digitChar (show n / 16 / 16 / 16 < 16 by omega),
    Option.bind_eq_bind, Option.bind_some, Option.pure_def, Option.some.injEq]
  omega

theorem readText_unitEscape {n : Nat} (hn : n < 0x10000) (hhigh : isHighSurrogate n = false)
    (start : Nat) (e : Char) (r : List Char) :
    readText start (unitEscape n ++ e :: r) = prepend (unitChar n) (readText start (e :: r)) := by
  obtain ⟨a, b, c, d, hdigits, hunit⟩ := exists_digits_of_unit hn
  rw [unitEscape, hdigits]
  simp only [List.cons_append, List.nil_append, readText, hunit, hhigh, Bool.false_eq_true, if_false]

theorem readText_surrogates {n m : Nat} (hhigh : isHighSurrogate n = true)
    (hlow : isLowSurrogate m = true) (start : Nat) (e : Char) (r : List Char) :
    readText start (unitEscape n ++ (unitEscape m ++ e :: r)) =
      prepend (Char.ofNat (joinSurrogates n m)) (readText start (e :: r)) := by
  have hbounds : n < 0x10000 ∧ m < 0x10000 := by
    simp only [isHighSurrogate, isLowSurrogate, Bool.and_eq_true, decide_eq_true_eq] at hhigh hlow
    omega
  obtain ⟨a, b, c, d, hdigits, hunit⟩ := exists_digits_of_unit hbounds.1
  obtain ⟨a', b', c', d', hdigits', hunit'⟩ := exists_digits_of_unit hbounds.2
  rw [unitEscape, unitEscape, hdigits, hdigits']
  simp only [List.cons_append, List.nil_append, readText, hunit, hhigh, hunit', hlow, if_true]

/-- No character is half of a pair of surrogates. -/
theorem not_surrogate (c : Char) : c.toNat < 0xd800 ∨ 0xdfff < c.toNat ∧ c.toNat < 0x110000 :=
  c.valid

theorem readText_codeEscape (c : Char) (start : Nat) (e : Char) (r : List Char) :
    readText start (codeEscape c.toNat ++ e :: r) = prepend c (readText start (e :: r)) := by
  have hc := not_surrogate c
  unfold codeEscape
  split
  · rename_i hsmall
    have hhigh : isHighSurrogate c.toNat = false := by
      rw [isHighSurrogate, Bool.and_eq_false_iff, decide_eq_false_iff_not, decide_eq_false_iff_not]
      omega
    have hchar : unitChar c.toNat = c := by
      have hvalid : c.toNat.isValidChar := c.valid
      rw [unitChar, if_pos hvalid, Char.ofNat_toNat]
    rw [readText_unitEscape hsmall hhigh, hchar]
  · rename_i hlarge
    have hhigh : isHighSurrogate (0xd800 + (c.toNat - 0x10000) / 0x400) = true := by
      rw [isHighSurrogate, Bool.and_eq_true, decide_eq_true_eq, decide_eq_true_eq]
      omega
    have hlow : isLowSurrogate (0xdc00 + (c.toNat - 0x10000) % 0x400) = true := by
      rw [isLowSurrogate, Bool.and_eq_true, decide_eq_true_eq, decide_eq_true_eq]
      omega
    have hjoin : joinSurrogates (0xd800 + (c.toNat - 0x10000) / 0x400)
        (0xdc00 + (c.toNat - 0x10000) % 0x400) = c.toNat := by
      unfold joinSurrogates
      omega
    rw [List.append_assoc, readText_surrogates hhigh hlow, hjoin, Char.ofNat_toNat]

/-- A style under which texts can be read back. -/
def Style.Sound (style : Style) : Prop := ∀ c, style.verbatim c = true → 0x20 ≤ c.toNat

theorem Style.sound_ascii : Style.ascii.Sound := fun c h => by
  simp only [Style.ascii, Bool.and_eq_true, decide_eq_true_eq] at h
  exact h.1

theorem readText_letterEscape : ∀ p ∈ letterEscapes, ∀ start r,
    readText start ('\\' :: p.2 :: r) = prepend p.1 (readText start r) := by
  simp only [letterEscapes, List.forall_mem_cons]
  exact ⟨fun _ _ => rfl, fun _ _ => rfl, fun _ _ => rfl, fun _ _ => rfl, fun _ _ => rfl,
    fun _ _ => rfl, fun _ _ => rfl, List.forall_mem_nil _⟩

theorem readText_verbatim {c : Char} (hlookup : letterEscapes.lookup c = none)
    (hlarge : 0x20 ≤ c.toNat) (start : Nat) (r : List Char) :
    readText start (c :: r) = prepend c (readText start r) := by
  have hmark : c ≠ '\x22' := by
    rintro rfl
    cases hlookup
  have hslash : c ≠ '\\' := by
    rintro rfl
    cases hlookup
  rw [readText.eq_7 start c r hmark (fun h => absurd h hslash) (fun _ _ _ _ _ _ h => absurd h hslash)
    (fun _ h => absurd h hslash) (fun _ _ h => absurd h hslash), if_neg (Nat.not_lt.mpr hlarge)]

theorem readText_writeChar {style : Style} (hstyle : style.Sound) (c : Char) (start : Nat) (e : Char)
    (r : List Char) :
    readText start (writeChar style c ++ e :: r) = prepend c (readText start (e :: r)) := by
  unfold writeChar
  split
  · rename_i letter hletter
    obtain ⟨before, after, hescapes, -⟩ := List.lookup_eq_some_iff.mp hletter
    have hmem : (c, letter) ∈ letterEscapes := by simp [hescapes]
    exact readText_letterEscape _ hmem start (e :: r)
  · rename_i hnone
    split
    · rename_i hverbatim
      exact readText_verbatim hnone (hstyle c hverbatim) start (e :: r)
    · exact readText_codeEscape c start e r

theorem readText_written {style : Style} (hstyle : style.Sound) (cs : List Char) (start : Nat)
    (r : List Char) :
    readText start (cs.flatMap (writeChar style) ++ '\x22' :: r) = .ok (cs, r) := by
  induction cs with
  | nil => exact readText.eq_2 start r
  | cons c cs ih =>
    -- What is read next is another character of the text, or the closing mark.
    obtain ⟨e, r', hrest⟩ : ∃ e r', cs.flatMap (writeChar style) ++ '\x22' :: r = e :: r' :=
      List.exists_cons_of_ne_nil (by simp)
    rw [List.flatMap_cons, List.append_assoc, hrest, readText_writeChar hstyle, ← hrest, ih]
    rfl

/-- A text is read back from behind its opening mark. -/
theorem readString_written {style : Style} (hstyle : style.Sound) (s : String) (r : List Char) :
    readString (s.toList.flatMap (writeChar style) ++ '\x22' :: r) = .ok (s, r) := by
  rw [readString, readText_written hstyle, Except.map, String.ofList_toList]

end Conform.Json
