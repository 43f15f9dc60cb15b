import Mathlib.Data.List.Basic
import Conform.Json.Writer

/-!
# The ASCII style

In the ASCII style the text of every value is ASCII.
-/
namespace Conform.Json

def IsAscii (c : Char) : Prop := c.toNat < 0x80

instance (c : Char) : Decidable (IsAscii c) := inferInstanceAs (Decidable (c.toNat < 0x80))

theorem isAscii_of_all {cs : List Char} (h : cs.all (fun c => decide (IsAscii c)) = true) :
    ∀ c ∈ cs, IsAscii c := fun c hc => of_decide_eq_true (List.all_eq_true.mp h c hc)

/-! ## Texts -/

theorem isAscii_digitChar : ∀ {n : Nat}, n < 16 → IsAscii (Nat.digitChar n) := by
  have h : ∀ n < 16, IsAscii (Nat.digitChar n) := by decide
  exact fun {n} => h n

theorem isAscii_toDigits {base : Nat} (hlow : 1 < base) (hhigh : base ≤ 16) (n : Nat) :
    ∀ c ∈ Nat.toDigits base n, IsAscii c := by
  induction n using Nat.strongRecOn with
  | ind n ih =>
    by_cases hn : n < base
    · rw [Nat.toDigits_of_lt_base hn]
      exact List.forall_mem_singleton.mpr (isAscii_digitChar (Nat.lt_of_lt_of_le hn hhigh))
    · have hbase : base ≤ n := Nat.le_of_not_lt hn
      rw [Nat.toDigits_of_base_le hlow hbase]
      exact List.forall_mem_append.mpr ⟨ih (n / base) (Nat.div_lt_self (by omega) hlow),
        List.forall_mem_singleton.mpr
          (isAscii_digitChar (Nat.lt_of_lt_of_le (Nat.mod_lt n (by omega)) hhigh))⟩

theorem isAscii_replicate (n : Nat) : ∀ c ∈ List.replicate n '0', IsAscii c := by
  intro c hc
  rw [List.eq_of_mem_replicate hc]
  decide

theorem isAscii_digitsOf {base : Nat} (hlow : 1 < base) (hhigh : base ≤ 16) (width n : Nat) :
    ∀ c ∈ Text.digitsOf base width n, IsAscii c :=
  List.forall_mem_append.mpr ⟨isAscii_replicate _, isAscii_toDigits hlow hhigh n⟩

theorem isAscii_writeChar (c : Char) : ∀ d ∈ writeChar .ascii c, IsAscii d := by
  have hunit : ∀ n, ∀ d ∈ unitEscape n, IsAscii d := fun n =>
    List.forall_mem_cons.mpr ⟨by decide, List.forall_mem_cons.mpr ⟨by decide,
      isAscii_digitsOf (by decide) (by decide) 4 n⟩⟩
  unfold writeChar
  split
  · rename_i letter hletter
    obtain ⟨before, after, hescapes, -⟩ := List.lookup_eq_some_iff.mp hletter
    have hmem : (c, letter) ∈ letterEscapes := by simp [hescapes]
    have hall : ∀ p ∈ letterEscapes, IsAscii p.2 := by decide
    exact List.forall_mem_cons.mpr ⟨by decide, List.forall_mem_singleton.mpr (hall _ hmem)⟩
  · split
    · rename_i hverbatim
      simp only [Style.ascii, Bool.and_eq_true, decide_eq_true_eq] at hverbatim
      exact List.forall_mem_singleton.mpr (Nat.lt_succ_of_le (by omega))
    · unfold codeEscape
      split
      · exact hunit _
      · exact List.forall_mem_append.mpr ⟨hunit _, hunit _⟩

theorem isAscii_writeText (s : String) : ∀ c ∈ writeText .ascii s, IsAscii c :=
  List.forall_mem_cons.mpr ⟨by decide, List.forall_mem_append.mpr
    ⟨List.forall_mem_flatMap.mpr fun c _ => isAscii_writeChar c,
      List.forall_mem_singleton.mpr (by decide)⟩⟩

/-! ## Numbers -/

theorem isAscii_toString (n : Int) : ∀ c ∈ (toString n).toList, IsAscii c := by
  cases n with
  | ofNat m =>
    show ∀ c ∈ (Nat.repr m).toList, IsAscii c
    rw [Nat.repr_eq_ofList_toDigits, String.toList_ofList]
    exact isAscii_toDigits (by decide) (by decide) m
  | negSucc m =>
    show ∀ c ∈ ("-" ++ Nat.repr (m + 1)).toList, IsAscii c
    rw [String.toList_append, Nat.repr_eq_ofList_toDigits]
    refine List.forall_mem_append.mpr ⟨isAscii_of_all (by decide), ?_⟩
    rw [String.toList_ofList]
    exact isAscii_toDigits (by decide) (by decide) (m + 1)

theorem isAscii_shortestDigits (m : Nat) (e : Int) :
    ∀ c ∈ (Numeral.shortestDigits m e).1, IsAscii c := by
  intro c hc
  have hmem := (List.dropWhile_sublist _).subset (List.mem_reverse.mp hc)
  exact isAscii_toDigits (by decide) (by decide) _ c (List.mem_reverse.mp hmem)

theorem isAscii_positional {digits : List Char} (h : ∀ c ∈ digits, IsAscii c) (top : Int) :
    ∀ c ∈ Numeral.DecimalLayout.positional digits top, IsAscii c := by
  unfold Numeral.DecimalLayout.positional
  split
  · exact List.forall_mem_append.mpr ⟨List.forall_mem_cons.mpr ⟨by decide,
      List.forall_mem_cons.mpr ⟨by decide, isAscii_replicate _⟩⟩, h⟩
  · have hpadded : ∀ c ∈ digits ++ List.replicate (top.toNat + 1 - digits.length) '0', IsAscii c :=
      List.forall_mem_append.mpr ⟨h, isAscii_replicate _⟩
    refine List.forall_mem_append.mpr ⟨fun c hc => hpadded c (List.mem_of_mem_take hc),
      List.forall_mem_cons.mpr ⟨by decide, ?_⟩⟩
    split
    · exact isAscii_of_all (by decide)
    · exact fun c hc => hpadded c (List.mem_of_mem_drop hc)

theorem isAscii_scientific {digits : List Char} (h : ∀ c ∈ digits, IsAscii c) (top : Int) :
    ∀ c ∈ numberLayout.scientific digits top, IsAscii c := by
  unfold Numeral.DecimalLayout.scientific
  refine List.forall_mem_append.mpr ⟨?_, List.forall_mem_cons.mpr ⟨by decide,
    List.forall_mem_cons.mpr ⟨?_, isAscii_digitsOf (by decide) (by decide) _ _⟩⟩⟩
  · split
    · obtain ⟨hfirst, hrest⟩ := List.forall_mem_cons.mp h
      exact List.forall_mem_cons.mpr ⟨hfirst, List.forall_mem_cons.mpr ⟨by decide, hrest⟩⟩
    · exact h
  · split <;> decide

theorem isAscii_sign (negative : Bool) :
    ∀ c ∈ (if negative then "-" else "").toList, IsAscii c := by
  cases negative <;> exact isAscii_of_all (by decide)

theorem isAscii_float (x : Numeral.Binary64) : ∀ c ∈ (numberLayout.text x).toList, IsAscii c := by
  cases x with
  | nan => exact isAscii_of_all (by decide)
  | infinite negative =>
    rw [Numeral.DecimalLayout.text, String.toList_append]
    exact List.forall_mem_append.mpr ⟨isAscii_sign _, isAscii_of_all (by decide)⟩
  | finite negative m e =>
    rw [Numeral.DecimalLayout.text, String.toList_append, String.toList_ofList]
    refine List.forall_mem_append.mpr ⟨isAscii_sign _, ?_⟩
    have hbody : ∀ (digits : List Char) (top : Int), (∀ c ∈ digits, IsAscii c) →
        ∀ c ∈ if numberLayout.leastPositional ≤ top && top ≤ numberLayout.greatestPositional
          then Numeral.DecimalLayout.positional digits top
          else numberLayout.scientific digits top, IsAscii c := by
      intro digits top h
      split
      · exact isAscii_positional h top
      · exact isAscii_scientific h top
    split
    · exact hbody _ _ (isAscii_of_all (by decide))
    · exact hbody _ _ (isAscii_shortestDigits m e)

/-! ## Values -/

theorem forall_mem_intercalate {P : Char → Prop} {sep : List Char} {ts : List (List Char)}
    (hsep : ∀ c ∈ sep, P c) (h : ∀ t ∈ ts, ∀ c ∈ t, P c) : ∀ c ∈ List.intercalate sep ts, P c := by
  induction ts with
  | nil => exact List.forall_mem_nil _
  | cons t ts ih =>
    obtain ⟨ht, hts⟩ := List.forall_mem_cons.mp h
    cases ts with
    | nil => rwa [List.intercalate_singleton]
    | cons u us =>
      rw [List.intercalate_cons_cons]
      exact List.forall_mem_append.mpr ⟨List.forall_mem_append.mpr ⟨ht, hsep⟩, ih hts⟩

theorem isAscii_newline (level : Nat) : ∀ c ∈ newline level, IsAscii c := by
  refine List.forall_mem_cons.mpr ⟨by decide, fun c hc => ?_⟩
  rw [List.eq_of_mem_replicate hc]
  decide

theorem isAscii_block (level : Nat) {opening closing : Char} {items : List (List Char)}
    (hopening : IsAscii opening) (hclosing : IsAscii closing)
    (h : ∀ t ∈ items, ∀ c ∈ t, IsAscii c) : ∀ c ∈ block level opening closing items, IsAscii c := by
  unfold block
  split
  · exact List.forall_mem_cons.mpr ⟨hopening, List.forall_mem_singleton.mpr hclosing⟩
  · have hsep : ∀ c ∈ ',' :: newline (level + 1), IsAscii c :=
      List.forall_mem_cons.mpr ⟨by decide, isAscii_newline _⟩
    exact List.forall_mem_append.mpr ⟨List.forall_mem_append.mpr ⟨List.forall_mem_append.mpr
      ⟨List.forall_mem_cons.mpr ⟨hopening, isAscii_newline _⟩, forall_mem_intercalate hsep h⟩,
      isAscii_newline _⟩, List.forall_mem_singleton.mpr hclosing⟩

mutual

/-- The text of a value is ASCII in the ASCII style. -/
theorem isAscii_chars : ∀ (j : Json) (level : Nat), ∀ c ∈ chars .ascii level j, IsAscii c
  | .null, _ => isAscii_of_all rfl
  | .bool true, _ => isAscii_of_all rfl
  | .bool false, _ => isAscii_of_all rfl
  | .int n, _ => isAscii_toString n
  | .float x, _ => isAscii_float x
  | .str s, _ => isAscii_writeText s
  | .array xs, level => isAscii_block level (by decide) (by decide) (isAscii_itemChars xs _)
  | .object fields, level =>
    isAscii_block level (by decide) (by decide) (isAscii_fieldChars fields _)

theorem isAscii_itemChars : ∀ (xs : List Json) (level : Nat),
    ∀ t ∈ itemChars .ascii level xs, ∀ c ∈ t, IsAscii c
  | [], _ => List.forall_mem_nil _
  | x :: xs, level =>
    List.forall_mem_cons.mpr ⟨isAscii_chars x level, isAscii_itemChars xs level⟩

theorem isAscii_fieldChars : ∀ (fields : List (String × Json)) (level : Nat),
    ∀ t ∈ fieldChars .ascii level fields, ∀ c ∈ t, IsAscii c
  | [], _ => List.forall_mem_nil _
  | (name, x) :: fields, level =>
    List.forall_mem_cons.mpr ⟨List.forall_mem_append.mpr ⟨isAscii_writeText name,
      List.forall_mem_cons.mpr ⟨by decide, List.forall_mem_cons.mpr
        ⟨by decide, isAscii_chars x level⟩⟩⟩, isAscii_fieldChars fields level⟩

end

end Conform.Json
