import Conform.Proofs.Json.Reading
import Conform.Proofs.Json.Texts

/-!
# JSON text that is written is read back

A value without decimal numbers is read back from its text, if it is not nested deeper than may be and
its integers are not too long.
-/
namespace Conform.Json

open Numeral (Digits signed)

/-! ## Whole numbers -/

theorem toList_toString (n : Int) :
    (toString n).toList = signed (decide (n < 0)) (Nat.toDigits 10 n.natAbs) := by
  cases n with
  | ofNat m =>
    have hsign : decide (Int.ofNat m < 0) = false := decide_eq_false (Int.not_lt.mpr (Int.natCast_nonneg m))
    rw [hsign]
    show (Nat.repr m).toList = _
    rw [Nat.repr_eq_ofList_toDigits, String.toList_ofList]
    rfl
  | negSucc m =>
    have hsign : decide (Int.negSucc m < 0) = true := decide_eq_true (Int.negSucc_lt_zero m)
    rw [hsign]
    show ("-" ++ Nat.repr (m + 1)).toList = _
    simp only [Nat.repr_eq_ofList_toDigits, String.toList_append, String.toList_ofList]
    rfl

theorem digits_toDigits (n : Nat) : Digits (Nat.toDigits 10 n) :=
  ⟨Nat.toDigits_ne_nil, fun _ hc => Nat.isDigit_of_mem_toDigits (by decide) (by decide) hc⟩

/-- No zero comes before other digits. -/
theorem toDigits_eq_zero_or (n : Nat) :
    Nat.toDigits 10 n = ['0'] ∨ ∃ c r, Nat.toDigits 10 n = c :: r ∧ c ≠ '0' := by
  induction n using Nat.strongRecOn with
  | ind n ih =>
    by_cases hn : n < 10
    · rw [Nat.toDigits_of_lt_base hn]
      by_cases hzero : n = 0
      · subst hzero
        exact .inl rfl
      · exact .inr ⟨_, [], rfl, mt Nat.digitChar_eq_zero.mp hzero⟩
    · rw [Nat.toDigits_of_base_le (by decide) (Nat.le_of_not_lt hn)]
      rcases ih (n / 10) (by omega) with hzero | ⟨c, r, hcons, hc⟩
      · have hvalue := Nat.ofDigitChars_toDigits (n := n / 10) (by decide) (Nat.le_refl 10)
        rw [hzero] at hvalue
        have hsmall : n / 10 = 0 := hvalue.symm
        omega
      · rw [hcons]
        exact .inr ⟨c, _, rfl, hc⟩

theorem valueOf_toDigits (n : Nat) : Numeral.valueOf 10 (Nat.toDigits 10 n) = n := by
  have hfold : ∀ ds : List Char, (∀ c ∈ ds, c.isDigit = true) → ∀ start,
      (ds.filterMap (Text.digit? 10)).foldl (fun n d => n * 10 + d) start =
        Nat.ofDigitChars 10 ds start := by
    intro ds
    induction ds with
    | nil => exact fun _ _ => rfl
    | cons c ds ih =>
      intro h start
      obtain ⟨hc, hds⟩ := List.forall_mem_cons.mp h
      have hdigit : Text.digit? 10 c = some (c.toNat - '0'.toNat) := by
        simp only [Char.isDigit, Bool.and_eq_true, decide_eq_true_eq, ge_iff_le,
          UInt32.le_iff_toNat_le] at hc
        have hlow : 0x30 ≤ c.toNat := hc.1
        have hhigh : c.toNat ≤ 0x39 := hc.2
        have hten : c.toNat - 0x30 < 10 := by omega
        simp [Text.digit?, hlow, hhigh, hten]
      rw [List.filterMap_cons_some hdigit, List.foldl_cons, ih hds, Nat.ofDigitChars_cons,
        Nat.mul_comm]
  rw [Numeral.valueOf, hfold _ (digits_toDigits n).all, Nat.ofDigitChars_ten_toDigits]

/-- Text in front of which a number ends. -/
def Closes (r : List Char) : Prop := ∀ c ∈ r.head?, Numeral.isPlain c = false

theorem Closes.stops {r : List Char} (h : Closes r) : Numeral.Stops r := by
  intro c hc
  by_contra hdigit
  have hplain := Numeral.isPlain_of_isDigit (by simpa using hdigit)
  rw [h c hc] at hplain
  cases hplain

theorem Closes.fraction_eq {r : List Char} (h : Closes r) : fraction r = ([], r) := by
  unfold fraction
  split
  · cases h '.' rfl
  · rfl

theorem Closes.exponent_eq {r : List Char} (h : Closes r) : exponent r = ([], r) := by
  unfold exponent
  split
  · rename_i c r
    have hc : (c = 'e' || c = 'E') = false := by
      rw [Bool.or_eq_false_iff, decide_eq_false_iff_not, decide_eq_false_iff_not]
      constructor <;> rintro rfl <;> cases h _ rfl
    rw [hc]
    rfl
  · rfl

theorem whole?_signed {c : Char} (hc : c.isDigit = true) (negative : Bool) (r : List Char) :
    whole? (signed negative (c :: r)) = wholeAfter? (signed negative []) (c :: r) := by
  cases negative with
  | true => rfl
  | false =>
    unfold whole?
    split
    rename_i hsign
    split at hsign
    · rename_i heq
      cases heq
      cases hc
    · cases hsign
      rfl

theorem whole?_written (n : Nat) (negative : Bool) {r : List Char} (hr : Closes r) :
    whole? (signed negative (Nat.toDigits 10 n) ++ r) =
      some (signed negative (Nat.toDigits 10 n), r) := by
  have hdigits := digits_toDigits n
  have hspan : spanDigits (Nat.toDigits 10 n ++ r) = (Nat.toDigits 10 n, r) :=
    Numeral.span_digits_append hdigits.all hr.stops
  obtain ⟨d, ds, hcons, hd⟩ := hdigits.exists_first r
  rw [signed_append, hcons, whole?_signed hd, ← hcons]
  rcases toDigits_eq_zero_or n with hzero | ⟨c, cs, hfirst, hc⟩
  · rw [hzero]
    exact congrArg (fun whole => some (whole, r)) (signed_append negative [] ['0'])
  · have hempty : (Nat.toDigits 10 n).isEmpty = false := by simp
    rw [wholeAfter?.eq_def]
    split
    · rename_i heq
      rw [hfirst] at heq
      exact absurd (List.cons.inj heq).1 hc
    · simp only [hspan, hempty, signed_append, List.nil_append]
      rfl

theorem length_toDigits_le {n limit : Nat} (hlimit : 0 < limit) (hn : n < Nat.pow 10 limit) :
    (Nat.toDigits 10 n).length ≤ limit :=
  (Nat.length_toDigits_le_iff (by decide) hlimit).mpr hn

theorem readNumber_written {n : Int} (hn : Numeral.isWritable n = true) {r : List Char}
    (hr : Closes r) : readNumber ((toString n).toList ++ r) = .ok (.int n, r) := by
  have hlength : (Nat.toDigits 10 n.natAbs).length ≤ Numeral.digitLimit :=
    length_toDigits_le (by decide) (by simpa [Numeral.isWritable] using hn)
  have hread : Numeral.readInteger 10 (signed (decide (n < 0)) (Nat.toDigits 10 n.natAbs)) =
      .ok n := by
    rw [Numeral.readInteger_signed (digits_toDigits _), if_neg (Nat.not_lt.mpr hlength),
      valueOf_toDigits]
    refine congrArg Except.ok ?_
    split
    · rename_i hneg
      have hlt : n < 0 := of_decide_eq_true hneg
      omega
    · rename_i hnonneg
      have hge : ¬ n < 0 := fun h => hnonneg (decide_eq_true h)
      omega
  unfold readNumber
  rw [toList_toString, whole?_written _ _ hr]
  simp only [hr.fraction_eq, hr.exponent_eq, hread, List.isEmpty_nil, Bool.and_self, if_true]

/-! ## Values -/

/-- The value can be read with `room` for that many open collections: it is not nested deeper, and it
holds no decimal number and no integer that is too long. -/
inductive Fits : Nat → Json → Prop
  | null {room : Nat} : Fits room .null
  | bool {room : Nat} (b : Bool) : Fits room (.bool b)
  | int {room : Nat} {n : Int} (h : Numeral.isWritable n = true) : Fits room (.int n)
  | str {room : Nat} (s : String) : Fits room (.str s)
  | array {room : Nat} {xs : List Json} (h : ∀ x ∈ xs, Fits room x) : Fits (room + 1) (.array xs)
  | object {room : Nat} {fields : List (String × Json)} (h : ∀ f ∈ fields, Fits room f.2) :
      Fits (room + 1) (.object fields)

/-- No blank, no closing mark and no byte order mark comes first. -/
def Begins (cs : List Char) : Prop :=
  ∃ c r, cs = c :: r ∧ isSpace c = false ∧ c ≠ ']' ∧ c ≠ '\x7d' ∧ c ≠ '\ufeff'

theorem begins_block (level : Nat) {opening : Char} (closing : Char) (items : List (List Char))
    (h : Begins [opening]) : Begins (block level opening closing items) := by
  obtain ⟨c, r, hcons, hc⟩ := h
  cases hcons
  unfold block
  split
  · exact ⟨_, _, rfl, hc⟩
  · exact ⟨_, _, rfl, hc⟩

theorem begins_toString (n : Int) : Begins (toString n).toList := by
  obtain ⟨c, r, hcons, hc⟩ := (digits_toDigits n.natAbs).exists_first []
  rw [List.append_nil] at hcons
  rw [toList_toString, hcons]
  cases decide (n < 0) with
  | true => exact ⟨_, _, rfl, by decide⟩
  | false =>
    refine ⟨c, r, rfl, ?_, ?_, ?_, ?_⟩
    · by_contra hspace
      simp only [isSpace, Bool.not_eq_false, Bool.or_eq_true, decide_eq_true_eq] at hspace
      rcases hspace with ((rfl | rfl) | rfl) | rfl <;> cases hc
    all_goals
      rintro rfl
      cases hc

theorem skipSpace_of_begins {cs : List Char} (h : Begins cs) (r : List Char) :
    skipSpace (cs ++ r) = cs ++ r := by
  obtain ⟨c, cs, rfl, hc, -⟩ := h
  exact List.dropWhile_cons_of_neg (by simp [hc])

theorem skipSpace_newline (level : Nat) (r : List Char) :
    skipSpace (newline level ++ r) = skipSpace r := by
  refine List.dropWhile_append_of_pos fun c hc => ?_
  rcases List.mem_cons.mp hc with rfl | hc
  · rfl
  · rw [List.eq_of_mem_replicate hc]
    rfl

theorem skipSpace_blank (r : List Char) : skipSpace (' ' :: r) = skipSpace r := rfl

theorem closes_newline (level : Nat) (r : List Char) : Closes (newline level ++ r) := by
  rintro c ⟨⟩
  rfl

section Steps

variable {fuel room : Nat} {cs rest rest' r : List Char} {x : Json} {name : String}

theorem readItems_last (hvalue : readValue fuel room cs = .ok (x, rest))
    (hrest : skipSpace rest = ']' :: r) : readItems (fuel + 1) room cs = .ok ([x], r) := by
  rw [readItems, hvalue]
  dsimp only
  rw [hrest]
  rfl

theorem readItems_more {xs : List Json} (hvalue : readValue fuel room cs = .ok (x, rest))
    (hrest : skipSpace rest = ',' :: rest')
    (hmore : readItems fuel room (skipSpace rest') = .ok (xs, r)) :
    readItems (fuel + 1) room cs = .ok (x :: xs, r) := by
  rw [readItems, hvalue]
  dsimp only
  rw [hrest]
  show (readItems fuel room (skipSpace rest')).map _ = _
  rw [hmore]
  rfl

theorem readFields_last {after : List Char} (hname : readString cs = .ok (name, ':' :: after))
    (hvalue : readValue fuel room (skipSpace after) = .ok (x, rest))
    (hrest : skipSpace rest = '\x7d' :: r) :
    readFields (fuel + 1) room ('\x22' :: cs) = .ok ([(name, x)], r) := by
  have hcolon : skipSpace (':' :: after) = ':' :: after := rfl
  simp only [readFields, hname, hcolon, hvalue, hrest]

theorem readFields_more {after : List Char} {fields : List (String × Json)}
    (hname : readString cs = .ok (name, ':' :: after))
    (hvalue : readValue fuel room (skipSpace after) = .ok (x, rest))
    (hrest : skipSpace rest = ',' :: rest')
    (hmore : readFields fuel room (skipSpace rest') = .ok (fields, r)) :
    readFields (fuel + 1) room ('\x22' :: cs) = .ok ((name, x) :: fields, r) := by
  have hcolon : skipSpace (':' :: after) = ':' :: after := rfl
  simp only [readFields, hname, hcolon, hvalue, hrest, hmore]
  rfl

theorem readValue_items {t : List Char} {xs : List Json} (ht : Begins t)
    (hskip : skipSpace cs = t ++ rest) (hitems : readItems fuel room (t ++ rest) = .ok (xs, r)) :
    readValue (fuel + 1) (room + 1) ('[' :: cs) = .ok (.array xs, r) := by
  obtain ⟨c, t, rfl, -, hc, -⟩ := ht
  rw [List.cons_append] at hskip hitems
  rw [readValue, hskip]
  split
  · rename_i heq
    exact absurd (List.cons.inj heq).1 hc
  · rw [hitems]
    rfl

theorem readValue_fields {t : List Char} {fields : List (String × Json)} (ht : Begins t)
    (hskip : skipSpace cs = t ++ rest) (hfields : readFields fuel room (t ++ rest) = .ok (fields, r)) :
    readValue (fuel + 1) (room + 1) ('\x7b' :: cs) = .ok (.object fields, r) := by
  obtain ⟨c, t, rfl, -, -, hc, -⟩ := ht
  rw [List.cons_append] at hskip hfields
  rw [readValue, hskip]
  split
  · rename_i heq
    exact absurd (List.cons.inj heq).1 hc
  · rw [hfields]
    rfl

end Steps

/-! A block is read item by item. What stands between two items is a comma and a new line. -/

theorem begins_intercalate {t : List Char} (h : Begins t) (sep : List Char) (ts : List (List Char)) :
    Begins (List.intercalate sep (t :: ts)) := by
  obtain ⟨c, r, rfl, hc⟩ := h
  cases ts with
  | nil => exact ⟨c, r, by rw [List.intercalate_singleton], hc⟩
  | cons u us => exact ⟨c, _, by rw [List.intercalate_cons_cons]; rfl, hc⟩

theorem begins_field (style : Style) (level : Nat) (f : String × Json) :
    Begins (writeText style f.1 ++ ':' :: ' ' :: chars style level f.2) :=
  ⟨_, _, rfl, by decide⟩

section Block

variable {style : Style} {room level : Nat}

/-- The value is read back from its text, whatever closes it. -/
def ReadsBack (style : Style) (room level : Nat) (j : Json) : Prop :=
  Begins (chars style level j) ∧ ∀ fuel r, 2 * (chars style level j).length ≤ fuel → Closes r →
    readValue fuel room (chars style level j ++ r) = .ok (j, r)

theorem ReadsBack.of_succ {j : Json} (hbegins : Begins (chars style level j))
    (h : ∀ fuel r, 2 * (chars style level j).length ≤ fuel + 1 → Closes r →
      readValue (fuel + 1) room (chars style level j ++ r) = .ok (j, r)) :
    ReadsBack style room level j := by
  refine ⟨hbegins, fun fuel r hfuel hr => ?_⟩
  cases fuel with
  | zero =>
    obtain ⟨c, cs, hcons, -⟩ := hbegins
    rw [hcons, List.length_cons] at hfuel
    omega
  | succ fuel => exact h fuel r hfuel hr

theorem readItems_written {x : Json} {xs : List Json}
    (h : ∀ y ∈ x :: xs, ReadsBack style room level y) (outer : Nat) (r : List Char) (fuel : Nat)
    (hfuel : 2 * (List.intercalate (',' :: newline level) (itemChars style level (x :: xs))).length
      < fuel) :
    readItems fuel room (List.intercalate (',' :: newline level) (itemChars style level (x :: xs)) ++
      (newline outer ++ ']' :: r)) = .ok (x :: xs, r) := by
  obtain ⟨fuel, rfl⟩ := Nat.exists_eq_succ_of_ne_zero (Nat.ne_zero_of_lt hfuel)
  induction xs generalizing x fuel with
  | nil =>
    simp only [itemChars, List.intercalate_singleton] at hfuel ⊢
    have hread := (h x List.mem_cons_self).2 fuel (newline outer ++ ']' :: r) (by omega)
      (closes_newline _ _)
    exact readItems_last hread (skipSpace_newline _ _)
  | cons y ys ih =>
    obtain ⟨hx, hrest⟩ := List.forall_mem_cons.mp h
    have hbegins := begins_intercalate (hrest y List.mem_cons_self).1 (',' :: newline level)
      (itemChars style level ys)
    rw [itemChars, itemChars, List.intercalate_cons_cons] at hfuel ⊢
    simp only [List.length_append, List.length_cons, List.append_assoc, List.cons_append]
      at hfuel ⊢
    obtain ⟨fuel, rfl⟩ := Nat.exists_eq_succ_of_ne_zero (by omega : fuel ≠ 0)
    refine readItems_more (hx.2 _ _ (by omega) (by rintro c ⟨⟩; rfl)) rfl ?_
    rw [skipSpace_newline, skipSpace_of_begins hbegins]
    exact ih hrest fuel (by rw [itemChars]; omega)

theorem readFields_written {f : String × Json} {fields : List (String × Json)}
    (hstyle : style.Sound) (h : ∀ g ∈ f :: fields, ReadsBack style room level g.2) (outer : Nat)
    (r : List Char) (fuel : Nat)
    (hfuel : 2 * (List.intercalate (',' :: newline level)
      (fieldChars style level (f :: fields))).length < fuel) :
    readFields fuel room (List.intercalate (',' :: newline level)
      (fieldChars style level (f :: fields)) ++ (newline outer ++ '\x7d' :: r)) =
        .ok (f :: fields, r) := by
  obtain ⟨fuel, rfl⟩ := Nat.exists_eq_succ_of_ne_zero (Nat.ne_zero_of_lt hfuel)
  induction fields generalizing f fuel with
  | nil =>
    obtain ⟨name, x⟩ := f
    obtain ⟨hbegins, hread⟩ : ReadsBack style room level x := h (name, x) List.mem_cons_self
    simp only [fieldChars, List.intercalate_singleton, writeText, List.length_append,
      List.length_cons, List.append_assoc, List.cons_append, List.nil_append] at hfuel ⊢
    have hvalue := hread fuel (newline outer ++ '\x7d' :: r) (by omega) (closes_newline _ _)
    rw [← skipSpace_of_begins hbegins, ← skipSpace_blank] at hvalue
    exact readFields_last (readString_written hstyle name _) hvalue (skipSpace_newline _ _)
  | cons g fields ih =>
    obtain ⟨name, x⟩ := f
    obtain ⟨hfirst, hrest⟩ := List.forall_mem_cons.mp h
    obtain ⟨hbegins, hread⟩ : ReadsBack style room level x := hfirst
    have hnext : Begins (List.intercalate (',' :: newline level)
        (fieldChars style level (g :: fields))) := begins_intercalate (begins_field style level g) _ _
    have htext : List.intercalate (',' :: newline level)
        (fieldChars style level ((name, x) :: g :: fields)) =
        '\x22' :: (name.toList.flatMap (writeChar style) ++ '\x22' :: ':' :: ' ' ::
          (chars style level x ++ ',' :: (newline level ++
            List.intercalate (',' :: newline level) (fieldChars style level (g :: fields))))) := by
      simp only [fieldChars, List.intercalate_cons_cons, writeText, List.append_assoc,
        List.cons_append, List.nil_append]
    rw [htext] at hfuel ⊢
    simp only [List.length_append, List.length_cons, List.append_assoc, List.cons_append]
      at hfuel ⊢
    obtain ⟨fuel, rfl⟩ := Nat.exists_eq_succ_of_ne_zero (by omega : fuel ≠ 0)
    have hmore := ih hrest fuel (by omega)
    rw [← skipSpace_of_begins hnext, ← skipSpace_newline level] at hmore
    have hvalue := hread (fuel + 1) (',' :: (newline level ++
      (List.intercalate (',' :: newline level) (fieldChars style level (g :: fields)) ++
        (newline outer ++ '\x7d' :: r)))) (by omega) (by rintro c ⟨⟩; rfl)
    rw [← skipSpace_of_begins hbegins, ← skipSpace_blank] at hvalue
    exact readFields_more (readString_written hstyle name _) hvalue rfl hmore

theorem readsBack_array {xs : List Json} (h : ∀ x ∈ xs, ReadsBack style room (level + 1) x) :
    ReadsBack style (room + 1) level (.array xs) := by
  refine .of_succ (begins_block _ _ _ ⟨_, _, rfl, by decide⟩) fun fuel r hfuel _ => ?_
  cases xs with
  | nil => rfl
  | cons x xs =>
    have hbegins : Begins (List.intercalate (',' :: newline (level + 1))
        (itemChars style (level + 1) (x :: xs))) :=
      begins_intercalate (h x List.mem_cons_self).1 _ _
    have htext : chars style level (.array (x :: xs)) = '[' :: (newline (level + 1) ++
        (List.intercalate (',' :: newline (level + 1)) (itemChars style (level + 1) (x :: xs)) ++
          (newline level ++ [']']))) := by
      simp [chars, block, itemChars]
    rw [htext] at hfuel ⊢
    simp only [List.length_append, List.length_cons, List.length_nil, List.append_assoc,
      List.cons_append, List.nil_append] at hfuel ⊢
    refine readValue_items hbegins ?_ (readItems_written h level r fuel (by omega))
    rw [skipSpace_newline, skipSpace_of_begins hbegins]

theorem readsBack_object {fields : List (String × Json)} (hstyle : style.Sound)
    (h : ∀ f ∈ fields, ReadsBack style room (level + 1) f.2) :
    ReadsBack style (room + 1) level (.object fields) := by
  refine .of_succ (begins_block _ _ _ ⟨_, _, rfl, by decide⟩) fun fuel r hfuel _ => ?_
  cases fields with
  | nil => rfl
  | cons f fields =>
    have hbegins : Begins (List.intercalate (',' :: newline (level + 1))
        (fieldChars style (level + 1) (f :: fields))) :=
      begins_intercalate (begins_field style (level + 1) f) _ _
    have htext : chars style level (.object (f :: fields)) = '\x7b' :: (newline (level + 1) ++
        (List.intercalate (',' :: newline (level + 1)) (fieldChars style (level + 1) (f :: fields)) ++
          (newline level ++ ['\x7d']))) := by
      simp [chars, block, fieldChars]
    rw [htext] at hfuel ⊢
    simp only [List.length_append, List.length_cons, List.length_nil, List.append_assoc,
      List.cons_append, List.nil_append] at hfuel ⊢
    refine readValue_fields hbegins ?_ (readFields_written hstyle h level r fuel (by omega))
    rw [skipSpace_newline, skipSpace_of_begins hbegins]

end Block

theorem isPrefixOf_eq_false {c d : Char} (h : (d == c) = false) (ds r : List Char) :
    List.isPrefixOf (d :: ds) (c :: r) = false := by
  rw [List.isPrefixOf, h, Bool.false_and]

/-- A number is none of the values that are read by name. -/
theorem readPlain_signed {c : Char} (hc : c.isDigit = true) (negative : Bool) (r : List Char) :
    readPlain (signed negative (c :: r)) = readNumber (signed negative (c :: r)) := by
  have hne : ∀ d : Char, d.isDigit = false → (d == c) = false := by
    intro d hd
    rw [beq_eq_false_iff_ne]
    rintro rfl
    rw [hc] at hd
    cases hd
  have hword : ∀ v ∈ namedValues, v.1.toList.isPrefixOf (signed negative (c :: r)) = false := by
    simp only [namedValues, List.forall_mem_cons]
    cases negative with
    | false =>
      exact ⟨isPrefixOf_eq_false (hne 'n' rfl) _ _, isPrefixOf_eq_false (hne 't' rfl) _ _,
        isPrefixOf_eq_false (hne 'f' rfl) _ _, isPrefixOf_eq_false (hne 'N' rfl) _ _,
        isPrefixOf_eq_false (hne 'I' rfl) _ _, isPrefixOf_eq_false (hne '-' rfl) _ _,
        List.forall_mem_nil _⟩
    | true =>
      exact ⟨rfl, rfl, rfl, rfl, rfl, isPrefixOf_eq_false (hne 'I' rfl) _ _, List.forall_mem_nil _⟩
  have hnone : namedValues.findSome?
      (fun v => (after? v.1 (signed negative (c :: r))).map fun r => (v.2, r)) = none := by
    refine List.findSome?_eq_none_iff.mpr fun v hv => ?_
    rw [after?, if_neg (by rw [hword v hv]; exact Bool.false_ne_true)]
    rfl
  rw [readPlain, hnone]

theorem readValue_digit {c : Char} (hc : c.isDigit = true) (negative : Bool) (fuel room : Nat)
    (r : List Char) :
    readValue (fuel + 1) room (signed negative (c :: r)) = readPlain (signed negative (c :: r)) := by
  cases negative with
  | true => rfl
  | false =>
    show readValue (fuel + 1) room (c :: r) = readPlain (c :: r)
    rw [readValue]
    · rintro r ⟨⟩
      cases hc
    · rintro r ⟨⟩
      cases hc
    · rintro r ⟨⟩
      cases hc

theorem readValue_toString {n : Int} (hn : Numeral.isWritable n = true) {r : List Char}
    (hr : Closes r) (fuel room : Nat) :
    readValue (fuel + 1) room ((toString n).toList ++ r) = .ok (.int n, r) := by
  obtain ⟨c, cs, hcons, hc⟩ := (digits_toDigits n.natAbs).exists_first r
  have htext : (toString n).toList ++ r = signed (decide (n < 0)) (c :: cs) := by
    rw [toList_toString, signed_append, hcons]
  rw [htext, readValue_digit hc, readPlain_signed hc, ← htext, readNumber_written hn hr]

/-- What fits is read back. -/
theorem readsBack_of_fits {style : Style} (hstyle : style.Sound) {room : Nat} {j : Json}
    (h : Fits room j) : ∀ level, ReadsBack style room level j := by
  induction h with
  | null => exact fun level => .of_succ ⟨_, _, rfl, by decide⟩ fun _ _ _ _ => rfl
  | bool b =>
    intro level
    cases b with
    | false => exact .of_succ ⟨_, _, rfl, by decide⟩ fun _ _ _ _ => rfl
    | true => exact .of_succ ⟨_, _, rfl, by decide⟩ fun _ _ _ _ => rfl
  | int h =>
    exact fun level => .of_succ (begins_toString _) fun fuel r _ hr => readValue_toString h hr fuel _
  | str s =>
    refine fun level => .of_succ ⟨_, _, rfl, by decide⟩ fun fuel r _ _ => ?_
    have htext : chars style level (.str s) ++ r =
        '\x22' :: (s.toList.flatMap (writeChar style) ++ '\x22' :: r) := by
      simp only [chars, writeText, List.append_assoc, List.cons_append, List.nil_append]
    rw [htext, readValue, readString_written hstyle]
    rfl
  | array h ih => exact fun level => readsBack_array fun x hx => ih x hx (level + 1)
  | object h ih => exact fun level => readsBack_object hstyle fun f hf => ih f hf (level + 1)

/-- A text that was written is read as the value that it was written for. -/
theorem readChars_write {style : Style} (hstyle : style.Sound) {j : Json} (h : Fits nestingLimit j) :
    readChars (write style j).toList = .ok j := by
  obtain ⟨hbegins, hread⟩ := readsBack_of_fits hstyle h 0
  have hvalue := hread (2 * (chars style 0 j).length + 2) [] (Nat.le_add_right _ _) nofun
  have hskip := skipSpace_of_begins hbegins []
  rw [List.append_nil] at hvalue hskip
  have hmark : (chars style 0 j).head? ≠ some '\ufeff' := by
    obtain ⟨c, r, hcons, -, -, -, hc⟩ := hbegins
    rw [hcons]
    exact fun hmark => hc (Option.some.inj hmark)
  rw [write, String.toList_ofList, readChars, if_neg hmark, hskip, hvalue]
  rfl

end Conform.Json
