import Mathlib.Data.List.TakeDrop
import Mathlib.Data.List.TakeWhile
import Conform.Document.Dump
import Conform.Numeral.Decimal
import Conform.Proofs.Returns

/-!
# Plainly written numerals

Numerals in digits of ASCII, without blanks and underscores, are read as they stand: an integer unless
it has too many digits, and a decimal number in any case. What is read is never too long to be
written.
-/
namespace Conform.Numeral

/-- The characters of plainly written numerals. -/
def isPlain (c : Char) : Bool := "0123456789+-.eE".toList.contains c

theorem isPlain_of_isDigit {c : Char} (h : c.isDigit = true) : isPlain c = true := by
  have hdigits : ∀ n < 58, 48 ≤ n → isPlain (Char.ofNat n) = true := by decide +kernel
  simp only [Char.isDigit, Bool.and_eq_true, decide_eq_true_eq, ge_iff_le,
    UInt32.le_iff_toNat_le] at h
  rw [← Char.ofNat_toNat c]
  exact hdigits c.toNat (Nat.lt_succ_of_le h.2) h.1

/-- Plain characters are no blanks, no underscores and in their ASCII form. -/
theorem of_isPlain : ∀ {c : Char}, isPlain c = true →
    isMargin c = false ∧ plainDigit c = c ∧ c ≠ '_' := by
  have h : "0123456789+-.eE".toList.all
      (fun c => !isMargin c && plainDigit c == c && c != '_') = true := by decide +kernel
  intro c hc
  have hall := List.all_eq_true.mp h c (List.contains_iff_mem.mp hc)
  simpa [and_assoc] using hall

theorem normalise_of_plain {cs : List Char} (h : ∀ c ∈ cs, isPlain c = true) : normalise cs = cs := by
  have hdrop : ∀ ds : List Char, (∀ c ∈ ds, isPlain c = true) → ds.dropWhile isMargin = ds := by
    intro ds hds
    cases ds with
    | nil => rfl
    | cons d ds =>
      have hd := (of_isPlain (hds d List.mem_cons_self)).1
      exact List.dropWhile_cons_of_neg (by simp [hd])
  have htrailing : Text.dropTrailing isMargin cs = cs := by
    rw [Text.dropTrailing, hdrop cs.reverse fun c hc => h c (List.mem_reverse.mp hc),
      List.reverse_reverse]
  rw [normalise, hdrop cs h, htrailing]
  exact List.map_congr_left (fun c hc => (of_isPlain (h c hc)).2.1) |>.trans (List.map_id cs)

/-- A text of digits, at least one. -/
structure Digits (cs : List Char) : Prop where
  ne_nil : cs ≠ []
  all : ∀ c ∈ cs, c.isDigit = true

namespace Digits

variable {ds : List Char} (h : Digits ds)
include h

theorem plain : ∀ c ∈ ds, isPlain c = true := fun c hc => isPlain_of_isDigit (h.all c hc)

theorem filter_underscores : ds.filter (· ≠ '_') = ds :=
  List.filter_eq_self.mpr fun c hc => by simpa using (of_isPlain (h.plain c hc)).2.2

theorem exists_first (more : List Char) : ∃ c r, ds ++ more = c :: r ∧ c.isDigit = true := by
  obtain ⟨c, r, rfl⟩ := List.exists_cons_of_ne_nil h.ne_nil
  exact ⟨c, r ++ more, rfl, h.all c List.mem_cons_self⟩

end Digits

theorem wellSpaced_of_no_underscore {cs : List Char} (h : ∀ c ∈ cs, c ≠ '_') :
    wellSpaced cs = true := by
  induction cs with
  | nil => rfl
  | cons c cs ih =>
    have hc := h c List.mem_cons_self
    unfold wellSpaced
    split
    · rfl
    · rename_i heq
      cases heq
      exact absurd rfl hc
    · rename_i heq
      cases heq
      exact absurd rfl hc
    · rename_i heq
      cases heq
      exact ih fun c hc => h c (List.mem_cons_of_mem _ hc)

theorem valueOf_lt (base : Nat) (hbase : 0 < base) (cs : List Char) :
    valueOf base cs < Nat.pow base cs.length := by
  have hfold : ∀ (ds : List Nat) (n : Nat), (∀ d ∈ ds, d < base) →
      ds.foldl (fun n d => n * base + d) n < (n + 1) * Nat.pow base ds.length := by
    intro ds
    induction ds with
    | nil => intro n _; simp
    | cons d ds ih =>
      intro n hds
      have hd := hds d List.mem_cons_self
      have hrest := ih (n * base + d) fun d hd => hds d (List.mem_cons_of_mem _ hd)
      calc (d :: ds).foldl (fun n d => n * base + d) n
          < (n * base + d + 1) * Nat.pow base ds.length := hrest
        _ ≤ ((n + 1) * base) * Nat.pow base ds.length :=
            Nat.mul_le_mul_right _ (by rw [Nat.succ_mul]; omega)
        _ = (n + 1) * (Nat.pow base ds.length * base) := by
            rw [Nat.mul_assoc, Nat.mul_comm base]
  have hdigit : ∀ d ∈ cs.filterMap (Text.digit? base), d < base := by
    intro d hd
    obtain ⟨c, -, hc⟩ := List.mem_filterMap.mp hd
    exact Text.digit?_lt hc
  calc valueOf base cs
      < (0 + 1) * Nat.pow base (cs.filterMap (Text.digit? base)).length := hfold _ 0 hdigit
    _ ≤ Nat.pow base cs.length := by
        rw [Nat.zero_add, Nat.one_mul]
        exact Nat.pow_le_pow_right hbase (List.length_filterMap_le _ _)

/-- Characters behind a minus sign, or without a sign. -/
def signed (negative : Bool) (cs : List Char) : List Char := if negative then '-' :: cs else cs

theorem digit?_of_isDigit {c : Char} (h : c.isDigit = true) : (Text.digit? 10 c).isSome = true := by
  simp only [Char.isDigit, Bool.and_eq_true, decide_eq_true_eq, ge_iff_le,
    UInt32.le_iff_toNat_le] at h
  have hlow : 0x30 ≤ c.toNat := h.1
  have hhigh : c.toNat ≤ 0x39 := h.2
  have hten : c.toNat - 0x30 < 10 := by omega
  simp [Text.digit?, hlow, hhigh, hten]

theorem takeSign_of_first {cs : List Char} (h : ∃ c r, cs = c :: r ∧ c.isDigit = true) :
    takeSign cs = (false, cs) := by
  obtain ⟨c, r, rfl, hc⟩ := h
  unfold takeSign
  split
  · rename_i heq
    cases heq
    cases hc
  · rename_i heq
    cases heq
    cases hc
  · rfl

theorem takeSign_signed {cs : List Char} (h : ∃ c r, cs = c :: r ∧ c.isDigit = true)
    (negative : Bool) : takeSign (signed negative cs) = (negative, cs) := by
  cases negative with
  | false => exact takeSign_of_first h
  | true => rfl

theorem plain_signed {cs : List Char} (h : ∀ c ∈ cs, isPlain c = true) (negative : Bool) :
    ∀ c ∈ signed negative cs, isPlain c = true := by
  cases negative with
  | false => exact h
  | true => exact List.forall_mem_cons.mpr ⟨by decide, h⟩

theorem Digits.spanDigits_eq {ds : List Char} (h : Digits ds) : spanDigits 10 ds = (ds, []) := by
  have hall : ∀ c ∈ ds, (decide (c = '_') || (Text.digit? 10 c).isSome) = true := fun c hc => by
    rw [digit?_of_isDigit (h.all c hc), Bool.or_true]
  rw [spanDigits, List.span_eq_takeWhile_dropWhile, List.takeWhile_eq_self_iff.mpr hall,
    List.dropWhile_eq_nil_iff.mpr hall]

theorem dropAnnouncement_ten (cs : List Char) : dropAnnouncement 10 cs = cs := by
  unfold dropAnnouncement
  split
  · rfl
  · rfl

/-- A sign and digits are read as an integer, if the digits are not too many. -/
theorem readInteger_signed {ds : List Char} (h : Digits ds) (negative : Bool) :
    readInteger 10 (signed negative ds) =
      if digitLimit < ds.length then .error (.tooManyDigits ds.length)
      else .ok (if negative then -(valueOf 10 ds : Int) else valueOf 10 ds) := by
  have hspaced : wellSpaced ds = true :=
    wellSpaced_of_no_underscore fun c hc => (of_isPlain (h.plain c hc)).2.2
  have hhead : ds.head? ≠ some '_' := fun hhead =>
    (of_isPlain (h.plain _ (List.mem_of_mem_head? hhead))).2.2 rfl
  have hempty : ds.isEmpty = false := by simpa using h.ne_nil
  have hfirst : ∃ c r, ds = c :: r ∧ c.isDigit = true := by simpa using h.exists_first []
  unfold readInteger
  simp only [normalise_of_plain (plain_signed h.plain negative), takeSign_signed hfirst,
    dropAnnouncement_ten, h.spanDigits_eq, h.filter_underscores]
  simp [hspaced, hhead, hempty]

/-- What is read is not too long to be written. -/
theorem isWritable_of_readInteger_signed {ds : List Char} (h : Digits ds) {negative : Bool} {n : Int}
    (hn : readInteger 10 (signed negative ds) = .ok n) : isWritable n = true := by
  rw [readInteger_signed h] at hn
  split at hn
  · cases hn
  · rename_i hlimit
    have hvalue : n.natAbs = valueOf 10 ds := by
      cases hn
      split <;> simp
    have hlt : ∀ limit, ds.length ≤ limit → valueOf 10 ds < Nat.pow 10 limit := fun limit hle =>
      Nat.lt_of_lt_of_le (valueOf_lt 10 (by decide) ds) (Nat.pow_le_pow_right (by decide) hle)
    rw [isWritable, hvalue]
    exact decide_eq_true (hlt digitLimit (Nat.le_of_not_lt hlimit))

/-! ## Decimal numbers -/

/-- The part after the point, with it. -/
def IsFraction (cs : List Char) : Prop := cs = [] ∨ ∃ ds, Digits ds ∧ cs = '.' :: ds

/-- The exponent, with its letter and perhaps a sign. -/
def IsExponent (cs : List Char) : Prop :=
  cs = [] ∨ ∃ c sign ds, (c = 'e' ∨ c = 'E') ∧ (sign = [] ∨ sign = ['-'] ∨ sign = ['+']) ∧
    Digits ds ∧ cs = c :: (sign ++ ds)

/-- No digit comes first. -/
def Stops (cs : List Char) : Prop := ∀ c ∈ cs.head?, c.isDigit = false

theorem IsExponent.stops {cs : List Char} (h : IsExponent cs) : Stops cs := by
  rcases h with rfl | ⟨c, sign, ds, rfl | rfl, -, -, rfl⟩
  · exact nofun
  · intro c hc
    cases hc
    rfl
  · intro c hc
    cases hc
    rfl

theorem span_digits_append {ds r : List Char} (h : ∀ c ∈ ds, c.isDigit = true) (hr : Stops r) :
    (ds ++ r).span Char.isDigit = (ds, r) := by
  have hnone : r.takeWhile Char.isDigit = [] ∧ r.dropWhile Char.isDigit = r := by
    cases r with
    | nil => exact ⟨rfl, rfl⟩
    | cons c r => simp [hr c rfl]
  rw [List.span_eq_takeWhile_dropWhile, List.takeWhile_append_of_pos h,
    List.dropWhile_append_of_pos h, hnone.1, hnone.2, List.append_nil]

theorem readExponent?_isSome {cs : List Char} (h : IsExponent cs) :
    (readExponent? cs).isSome = true := by
  rcases h with rfl | ⟨c, sign, ds, hc, hsign, hds, rfl⟩
  · rfl
  · have htake : ∃ negative, takeSign (sign ++ ds) = (negative, ds) := by
      rcases hsign with rfl | rfl | rfl
      · exact ⟨false, takeSign_of_first (by simpa using hds.exists_first [])⟩
      · exact ⟨true, rfl⟩
      · exact ⟨false, rfl⟩
    obtain ⟨negative, htake⟩ := htake
    have hempty : ds.isEmpty = false := by simpa using hds.ne_nil
    have hall : ds.all Char.isDigit = true := List.all_eq_true.mpr hds.all
    simp [readExponent?, htake, hempty, hall, hc]

theorem readDigits?_isSome {ds point power : List Char} (h : Digits ds) (negative : Bool)
    (hpoint : IsFraction point) (hpower : IsExponent power) :
    (readDigits? negative (ds ++ (point ++ power))).isSome = true := by
  have hexponent := readExponent?_isSome hpower
  have hempty : ds.isEmpty = false := by simpa using h.ne_nil
  unfold readDigits?
  rcases hpoint with rfl | ⟨fs, hfs, rfl⟩
  · rw [List.nil_append, span_digits_append h.all hpower.stops]
    simp only [hempty, Bool.false_and, Bool.false_eq_true, if_false, Option.isSome_map]
    -- The exponent does not start with a point.
    rcases hpower with rfl | ⟨c, sign, es, rfl | rfl, -, -, rfl⟩ <;> exact hexponent
  · rw [span_digits_append h.all fun c hc => by cases hc; rfl]
    simp only [hempty, Bool.false_and, Bool.false_eq_true, if_false, Option.isSome_map]
    show (readExponent? ((fs ++ power).span Char.isDigit).2).isSome = true
    rw [span_digits_append hfs.all hpower.stops]
    exact hexponent

theorem plain_of_parts {ds point power : List Char} (h : Digits ds) (hpoint : IsFraction point)
    (hpower : IsExponent power) : ∀ c ∈ ds ++ (point ++ power), isPlain c = true := by
  refine List.forall_mem_append.mpr ⟨h.plain, List.forall_mem_append.mpr ⟨?_, ?_⟩⟩
  · rcases hpoint with rfl | ⟨fs, hfs, rfl⟩
    · exact List.forall_mem_nil _
    · exact List.forall_mem_cons.mpr ⟨by decide, hfs.plain⟩
  · rcases hpower with rfl | ⟨c, sign, es, hc, hsign, hes, rfl⟩
    · exact List.forall_mem_nil _
    · refine List.forall_mem_cons.mpr ⟨?_, List.forall_mem_append.mpr ⟨?_, hes.plain⟩⟩
      · rcases hc with rfl | rfl <;> decide
      · rcases hsign with rfl | rfl | rfl <;> simp <;> decide

theorem underscoresBetweenDigits_of_none {cs : List Char} (h : ∀ c ∈ cs, c ≠ '_')
    (before : Option Char) : underscoresBetweenDigits before cs = true := by
  induction cs generalizing before with
  | nil => rfl
  | cons c cs ih =>
    obtain ⟨hc, hcs⟩ := List.forall_mem_cons.mp h
    unfold underscoresBetweenDigits
    split
    · rfl
    · rename_i heq
      cases heq
      exact absurd rfl hc
    · rename_i heq
      cases heq
      exact ih hcs _

theorem returns_readDecimal {ds point power : List Char} (h : Digits ds) (negative : Bool)
    (hpoint : IsFraction point) (hpower : IsExponent power) :
    Returns (readDecimal (signed negative (ds ++ (point ++ power)))) := by
  have hplain := plain_signed (plain_of_parts h hpoint hpower) negative
  have hspaced : ∀ c ∈ signed negative (ds ++ (point ++ power)), c ≠ '_' := fun c hc =>
    (of_isPlain (hplain c hc)).2.2
  have htake : takeSign (signed negative (ds ++ (point ++ power))) =
      (negative, ds ++ (point ++ power)) := takeSign_signed (h.exists_first _) negative
  have hread : (readUnspaced? (signed negative (ds ++ (point ++ power)))).isSome = true := by
    unfold readUnspaced?
    rw [htake]
    dsimp only
    split
    · rfl
    · split
      · rfl
      · exact readDigits?_isSome h negative hpoint hpower
  obtain ⟨x, hx⟩ := Option.isSome_iff_exists.mp hread
  refine ⟨x, ?_⟩
  have hfilter : (signed negative (ds ++ (point ++ power))).filter (· ≠ '_') =
      signed negative (ds ++ (point ++ power)) :=
    List.filter_eq_self.mpr fun c hc => by simpa using hspaced c hc
  simp only [readDecimal, normalise_of_plain hplain, underscoresBetweenDigits_of_none hspaced, hfilter,
    hx, if_true]

/-- Numbers are told apart by their digits. -/
theorem toString_injective {m n : Nat} (h : toString m = toString n) : m = n := by
  have hdigits : Nat.toDigits 10 m = Nat.toDigits 10 n := by
    simpa [Nat.toString_eq_ofList_toDigits] using congrArg String.toList h
  rw [← Nat.ofDigitChars_ten_toDigits (n := m), hdigits, Nat.ofDigitChars_ten_toDigits]

theorem isDigit_of_mem_toString {n : Nat} {c : Char} (h : c ∈ (toString n).toList) :
    c.isDigit = true := by
  rw [Nat.toString_eq_ofList_toDigits, String.toList_ofList] at h
  exact Nat.isDigit_of_mem_toDigits (by decide) (by decide) h

/-- A number ends where its digits end. -/
theorem toString_append_inj {m n : Nat} {c : Char} {r s : List Char} (hc : c.isDigit = false)
    (h : (toString m).toList ++ c :: r = (toString n).toList ++ c :: s) : m = n ∧ r = s := by
  have hdigits : ∀ (k : Nat) (t : List Char),
      ((toString k).toList ++ c :: t).takeWhile Char.isDigit = (toString k).toList := by
    intro k t
    have hstop : ¬ c.isDigit = true := by simp [hc]
    rw [List.takeWhile_append_of_pos fun d hd => isDigit_of_mem_toString hd,
      List.takeWhile_cons_of_neg hstop, List.append_nil]
  have hnumber : (toString m).toList = (toString n).toList := by rw [← hdigits m r, h, hdigits]
  rw [hnumber, List.append_cancel_left_eq] at h
  exact ⟨toString_injective (String.toList_inj.mp hnumber), (List.cons.inj h).2⟩

end Conform.Numeral
