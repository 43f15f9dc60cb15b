import Conform.Json.Reader
import Conform.Proofs.Numeral.Written

/-!
# What reading JSON text can come to

Besides a fault of the text, reading stops for two reasons only: a run of more digits than an integer
may have, and more collections inside one another than may be open. A value that is read holds no
integer that is too long to be written.
-/
namespace Conform.Json

open Numeral (Digits IsFraction IsExponent signed digitLimit)

/-- The value holds an integer. -/
inductive Holds (n : Int) : Json → Prop
  | here : Holds n (.int n)
  | item {xs : List Json} {x : Json} (hx : x ∈ xs) (h : Holds n x) : Holds n (.array xs)
  | field {fields : List (String × Json)} {f : String × Json} (hf : f ∈ fields) (h : Holds n f.2) :
      Holds n (.object fields)

/-- Every integer in the value can be written. -/
def Short (j : Json) : Prop := ∀ n, Holds n j → Numeral.isWritable n = true

def isOpening (c : Char) : Bool := c = '[' || c = '\x7b'

/-- Why a text is not read with `room` for that many open collections: it is malformed, it has a run of
too many digits, or it opens too many collections. -/
inductive Explains (room : Nat) (cs : List Char) : Fault → Prop
  | malformed (complaint : Complaint) (left : Nat) : Explains room cs (.malformed complaint left)
  | digits {ds : List Char} (run : ds <:+: cs) (digits : Digits ds) (many : digitLimit < ds.length) :
      Explains room cs (.numeral (.tooManyDigits ds.length))
  | nesting (many : room < cs.countP isOpening) : Explains room cs .tooNested

variable {α β : Type} {P Q : α → Prop} {room : Nat} {cs cs' : List Char}

theorem Explains.of_suffix {e : Fault} (h : Explains room cs e) (hs : cs <:+ cs') :
    Explains room cs' e := by
  cases h with
  | malformed complaint left => exact .malformed complaint left
  | digits run digits many => exact .digits (run.trans hs.isInfix) digits many
  | nesting many => exact .nesting (many.trans_le (hs.sublist.countP_le))

/-- A reading of the beginning of a text: what is read satisfies `P` and the end of the text is left,
or the text explains the fault. -/
def Reads (P : α → Prop) (room : Nat) (cs : List Char) : Reading α → Prop
  | .ok (a, r) => P a ∧ r <:+ cs
  | .error e => Explains room cs e

namespace Reads

theorem of_suffix {x : Reading α} (h : Reads P room cs x) (hs : cs <:+ cs') : Reads P room cs' x := by
  match x, h with
  | .ok _, h => exact ⟨h.1, h.2.trans hs⟩
  | .error _, h => exact Explains.of_suffix h hs

theorem map {Q : β → Prop} {f : α → β} {x : Reading α} (h : Reads P room cs x)
    (himp : ∀ a, P a → Q (f a)) : Reads Q room cs (x.map fun t => (f t.1, t.2)) := by
  match x, h with
  | .ok _, h => exact ⟨himp _ h.1, h.2⟩
  | .error _, h => exact h

theorem complain (complaint : Complaint) (rest : List Char) :
    Reads P room cs (Json.complain complaint rest) := Explains.malformed _ _

end Reads

/-! ## Texts -/

theorem Reads.prepend {c : Char} {r : List Char} {x : Reading (List Char)}
    (h : Reads (fun _ => True) room r x) (hs : r <:+ cs) :
    Reads (fun _ => True) room cs (Json.prepend c x) :=
  (h.map fun _ _ => trivial).of_suffix hs

theorem reads_readText (start : Nat) (cs : List Char) :
    Reads (fun _ => True) room cs (readText start cs) := by
  fun_induction readText start cs with
  | case1 => exact Explains.malformed _ _
  | case2 r => exact ⟨trivial, List.suffix_cons _ _⟩
  | case3 => exact Explains.malformed _ _
  | case4 => exact .complain _ _
  | case5 => exact .complain _ _
  | case6 a b c d _ _ _ a' b' c' d' _ _ _ _ _ _ ih =>
    exact ih.prepend (List.suffix_append ['\\', 'u', a, b, c, d, '\\', 'u', a', b', c', d'] _)
  | case7 a b c d _ _ _ a' b' c' d' _ _ _ _ _ _ ih =>
    exact ih.prepend (List.suffix_append ['\\', 'u', a, b, c, d] _)
  | case8 a b c d _ _ _ _ _ _ _ ih =>
    exact ih.prepend (List.suffix_append ['\\', 'u', a, b, c, d] _)
  | case9 a b c d _ _ _ _ _ _ ih =>
    exact ih.prepend (List.suffix_append ['\\', 'u', a, b, c, d] _)
  | case10 => exact .complain _ _
  | case11 c _ _ _ _ _ ih => exact ih.prepend (List.suffix_append ['\\', c] _)
  | case12 => exact .complain _ _
  | case13 => exact .complain _ _
  | case14 c _ _ _ _ _ _ _ ih => exact ih.prepend (List.suffix_cons _ _)

theorem reads_readString (cs : List Char) : Reads (fun _ => True) room cs (readString cs) :=
  (reads_readText _ cs).map fun _ _ => trivial

/-! ## Numbers -/

theorem digits_of_spanDigits (cs : List Char) :
    cs = (spanDigits cs).1 ++ (spanDigits cs).2 ∧ ∀ c ∈ (spanDigits cs).1, c.isDigit = true := by
  rw [spanDigits, List.span_eq_takeWhile_dropWhile]
  exact ⟨List.takeWhile_append_dropWhile.symm, fun c hc => List.mem_takeWhile_imp hc⟩

theorem signed_append (negative : Bool) (ds r : List Char) :
    signed negative ds ++ r = signed negative (ds ++ r) := by
  cases negative <;> rfl

theorem suffix_signed (negative : Bool) (ds : List Char) : ds <:+ signed negative ds := by
  cases negative with
  | false => exact List.suffix_rfl
  | true => exact List.suffix_cons _ _

/-- The whole part after a sign. -/
def wholeAfter? (sign : List Char) : List Char → Option (List Char × List Char)
  | '0' :: r => some (sign ++ ['0'], r)
  | r => if (spanDigits r).1.isEmpty then none else some (sign ++ (spanDigits r).1, (spanDigits r).2)

theorem exists_sign_whole? (cs : List Char) : ∃ negative unsigned,
    cs = signed negative unsigned ∧ whole? cs = wholeAfter? (signed negative []) unsigned := by
  unfold whole?
  split
  rename_i sign unsigned hsign
  split at hsign
  · cases hsign
    exact ⟨true, _, rfl, rfl⟩
  · cases hsign
    exact ⟨false, _, rfl, rfl⟩

/-- Digits behind a sign: a zero, or the digits up to the next other character. -/
theorem of_whole? {whole r : List Char} (h : whole? cs = some (whole, r)) :
    ∃ negative ds, Digits ds ∧ whole = signed negative ds ∧ cs = whole ++ r := by
  obtain ⟨negative, unsigned, hcs, hwhole⟩ := exists_sign_whole? cs
  rw [hwhole, wholeAfter?.eq_def] at h
  split at h
  · cases h
    have hzero : Digits ['0'] := ⟨nofun, List.forall_mem_singleton.mpr rfl⟩
    refine ⟨negative, ['0'], hzero, signed_append negative [] _, ?_⟩
    rw [hcs, signed_append, signed_append]
    rfl
  · split at h
    · cases h
    · rename_i hempty
      cases h
      obtain ⟨happend, hall⟩ := digits_of_spanDigits unsigned
      refine ⟨negative, _, ⟨by simpa using hempty, hall⟩, signed_append negative [] _, ?_⟩
      rw [hcs, signed_append, signed_append, List.nil_append, ← happend]

theorem of_fraction (cs : List Char) :
    IsFraction (fraction cs).1 ∧ cs = (fraction cs).1 ++ (fraction cs).2 := by
  unfold fraction
  split
  · rename_i r
    obtain ⟨happend, hall⟩ := digits_of_spanDigits r
    by_cases hempty : (spanDigits r).1.isEmpty = true
    · simp only [hempty, if_true]
      exact ⟨.inl rfl, rfl⟩
    · simp only [hempty]
      exact ⟨.inr ⟨_, ⟨by simpa using hempty, hall⟩, rfl⟩, congrArg _ happend⟩
  · exact ⟨.inl rfl, rfl⟩

/-- The exponent after its letter; the text is not touched if no digits follow. -/
def exponentAfter (c : Char) (cs sign r : List Char) : List Char × List Char :=
  if (spanDigits r).1.isEmpty then ([], cs) else (c :: sign ++ (spanDigits r).1, (spanDigits r).2)

theorem exists_sign_exponent {c : Char} (hc : (c = 'e' || c = 'E') = true) (cs : List Char) :
    ∃ sign unsigned, cs = sign ++ unsigned ∧ (sign = [] ∨ sign = ['-'] ∨ sign = ['+']) ∧
      exponent (c :: cs) = exponentAfter c (c :: cs) sign unsigned := by
  unfold exponent
  simp only [hc, if_true]
  split
  · exact ⟨['-'], _, rfl, .inr (.inl rfl), rfl⟩
  · exact ⟨['+'], _, rfl, .inr (.inr rfl), rfl⟩
  · exact ⟨[], _, rfl, .inl rfl, rfl⟩

theorem of_exponent (cs : List Char) :
    IsExponent (exponent cs).1 ∧ cs = (exponent cs).1 ++ (exponent cs).2 := by
  have hnone : exponent cs = ([], cs) → IsExponent (exponent cs).1 ∧
      cs = (exponent cs).1 ++ (exponent cs).2 := by
    intro h
    rw [h]
    exact ⟨.inl rfl, rfl⟩
  cases cs with
  | nil => exact hnone rfl
  | cons c cs =>
    by_cases hc : (c = 'e' || c = 'E') = true
    · obtain ⟨sign, unsigned, hcs, hsign, hexponent⟩ := exists_sign_exponent hc cs
      by_cases hempty : (spanDigits unsigned).1.isEmpty = true
      · exact hnone (by rw [hexponent, exponentAfter, if_pos hempty])
      · obtain ⟨happend, hall⟩ := digits_of_spanDigits unsigned
        rw [hexponent, exponentAfter, if_neg hempty]
        refine ⟨.inr ⟨c, sign, _, by simpa using hc, hsign, ⟨by simpa using hempty, hall⟩, rfl⟩, ?_⟩
        simp only [List.cons_append, List.append_assoc, ← happend, hcs]
    · exact hnone (if_neg hc)

theorem short_of_float (x : Numeral.Binary64) : Short (.float x) := nofun

theorem short_of_int {n : Int} (h : Numeral.isWritable n = true) : Short (.int n) := by
  rintro _ ⟨⟩
  exact h

theorem reads_readNumber (cs : List Char) : Reads Short room cs (readNumber cs) := by
  unfold readNumber
  split
  · exact .complain _ _
  · rename_i whole r hwhole
    obtain ⟨negative, ds, hds, rfl, rfl⟩ := of_whole? hwhole
    obtain ⟨hpoint, hpoint'⟩ := of_fraction r
    obtain ⟨hpower, hpower'⟩ := of_exponent (fraction r).2
    have hleft : (exponent (fraction r).2).2 <:+ signed negative ds ++ r :=
      (List.IsSuffix.trans ⟨_, hpower'.symm⟩ ⟨_, hpoint'.symm⟩).trans (List.suffix_append _ _)
    dsimp only
    split
    · split
      · rename_i n hn
        exact ⟨short_of_int (Numeral.isWritable_of_readInteger_signed hds hn), hleft⟩
      · rename_i e he
        rw [Numeral.readInteger_signed hds] at he
        split at he
        · rename_i hmany
          cases he
          exact .digits ((suffix_signed negative ds).isInfix.trans (List.prefix_append _ _).isInfix)
            hds hmany
        · cases he
    · obtain ⟨x, hx⟩ := Numeral.returns_readDecimal hds negative hpoint hpower
      rw [← signed_append, ← List.append_assoc] at hx
      rw [hx]
      exact ⟨short_of_float x, hleft⟩

theorem suffix_of_after? {word : String} {r : List Char} (h : after? word cs = some r) : r <:+ cs := by
  unfold after? at h
  split at h
  · cases h
    exact List.drop_suffix _ _
  · cases h

theorem short_of_named : ∀ v ∈ namedValues, Short v.2 := by
  intro v hv
  simp only [namedValues, List.mem_cons, List.not_mem_nil, or_false] at hv
  rcases hv with rfl | rfl | rfl | rfl | rfl | rfl <;> exact nofun

theorem reads_readPlain (cs : List Char) : Reads Short room cs (readPlain cs) := by
  unfold readPlain
  split
  · rename_i r hr
    obtain ⟨v, hv, h⟩ := List.exists_of_findSome?_eq_some hr
    obtain ⟨left, hleft, rfl⟩ := Option.map_eq_some_iff.mp h
    exact ⟨short_of_named v hv, suffix_of_after? hleft⟩
  · exact reads_readNumber cs

/-! ## Values -/

theorem skipSpace_suffix (cs : List Char) : skipSpace cs <:+ cs := List.dropWhile_suffix _

theorem suffix_of_skipSpace {c : Char} {r r' : List Char} (h : skipSpace r = c :: r') : r' <:+ r :=
  ((List.suffix_cons c r').trans (h ▸ List.suffix_rfl)).trans (skipSpace_suffix r)

/-- What comes behind a mark and the blanks around it. -/
theorem suffix_behind {c : Char} {r r' : List Char} (h : skipSpace r = c :: r') (hr : r <:+ cs) :
    skipSpace r' <:+ cs :=
  (skipSpace_suffix r').trans ((suffix_of_skipSpace h).trans hr)

theorem short_of_array {xs : List Json} (h : ∀ x ∈ xs, Short x) : Short (.array xs) := by
  rintro n (_ | ⟨hx, hn⟩)
  exact h _ hx n hn

theorem short_of_object {fields : List (String × Json)} (h : ∀ f ∈ fields, Short f.2) :
    Short (.object fields) := by
  rintro n (_ | _ | ⟨hf, hn⟩)
  exact h _ hf n hn

theorem short_of_str (s : String) : Short (.str s) := nofun

/-- A collection inside takes one from the room, and its opening mark counts for one. -/
theorem Explains.of_inside {c : Char} {e : Fault} (h : Explains room cs e) (hc : isOpening c = true)
    (hs : cs <:+ cs') : Explains (room + 1) (c :: cs') e := by
  cases h with
  | malformed complaint left => exact .malformed complaint left
  | digits run digits many =>
    exact .digits (run.trans (hs.isInfix.trans (List.suffix_cons _ _).isInfix)) digits many
  | nesting many =>
    refine .nesting ?_
    rw [List.countP_cons_of_pos hc]
    have hle := hs.sublist.countP_le (p := isOpening)
    omega

theorem Reads.inside {c : Char} {x : Reading α} (h : Reads P room cs x) (hc : isOpening c = true)
    (hs : cs <:+ cs') : Reads P (room + 1) (c :: cs') x := by
  match x, h with
  | .ok _, h => exact ⟨h.1, (h.2.trans hs).trans (List.suffix_cons _ _)⟩
  | .error _, h => exact Explains.of_inside h hc hs

section Step

variable {fuel : Nat} (hvalue : ∀ room cs, Reads Short room cs (readValue fuel room cs))
  (hitems : ∀ room cs, Reads (fun xs => ∀ x ∈ xs, Short x) room cs (readItems fuel room cs))
  (hfields : ∀ room cs, Reads (fun fs => ∀ f ∈ fs, Short f.2) room cs (readFields fuel room cs))

include hitems hfields in
theorem reads_readValue_succ (room : Nat) (cs : List Char) :
    Reads Short room cs (readValue (fuel + 1) room cs) := by
  unfold readValue
  split
  · exact ((reads_readString _).map fun s _ => short_of_str s).of_suffix (List.suffix_cons _ _)
  · split
    · exact .nesting (by simp [isOpening])
    · split
      · rename_i hskip
        exact ⟨short_of_array (List.forall_mem_nil _),
          (suffix_of_skipSpace hskip).trans (List.suffix_cons _ _)⟩
      · exact ((hitems _ _).map fun _ => short_of_array).inside rfl (skipSpace_suffix _)
  · split
    · exact .nesting (by simp [isOpening])
    · split
      · rename_i hskip
        exact ⟨short_of_object (List.forall_mem_nil _),
          (suffix_of_skipSpace hskip).trans (List.suffix_cons _ _)⟩
      · exact ((hfields _ _).map fun _ => short_of_object).inside rfl (skipSpace_suffix _)
  · exact reads_readPlain _

include hvalue hitems in
theorem reads_readItems_succ (room : Nat) (cs : List Char) :
    Reads (fun xs => ∀ x ∈ xs, Short x) room cs (readItems (fuel + 1) room cs) := by
  have hfirst := hvalue room cs
  unfold readItems
  split
  · rename_i e he
    rw [he] at hfirst
    exact hfirst
  · rename_i x r hx
    rw [hx] at hfirst
    obtain ⟨hshort, hr⟩ := hfirst
    split
    · rename_i hskip
      exact ⟨List.forall_mem_singleton.mpr hshort, (suffix_of_skipSpace hskip).trans hr⟩
    · rename_i r' hskip
      refine ((hitems room (skipSpace r')).map fun xs hxs => ?_).of_suffix (suffix_behind hskip hr)
      exact List.forall_mem_cons.mpr ⟨hshort, hxs⟩
    · exact .complain _ _

include hvalue hfields in
theorem reads_readFields_succ (room : Nat) (cs : List Char) :
    Reads (fun fs => ∀ f ∈ fs, Short f.2) room cs (readFields (fuel + 1) room cs) := by
  unfold readFields
  split
  · rename_i r
    have hname : Reads _ room r _ := reads_readString r
    split
    · rename_i e he
      rw [he] at hname
      exact hname.of_suffix (List.suffix_cons _ _)
    · rename_i name r' hname'
      rw [hname'] at hname
      have hr' := hname.2.trans (List.suffix_cons '\x22' r)
      split
      · rename_i r'' hcolon
        have hr'' := suffix_behind hcolon hr'
        have hfirst := hvalue room (skipSpace r'')
        split
        · rename_i e he
          rw [he] at hfirst
          exact hfirst.of_suffix hr''
        · rename_i x s hx
          rw [hx] at hfirst
          obtain ⟨hshort, hs⟩ := hfirst
          have hs' := hs.trans hr''
          split
          · rename_i hskip
            exact ⟨List.forall_mem_singleton.mpr hshort, (suffix_of_skipSpace hskip).trans hs'⟩
          · rename_i s' hskip
            refine ((hfields room (skipSpace s')).map fun fs hfs => ?_).of_suffix
              (suffix_behind hskip hs')
            exact List.forall_mem_cons.mpr ⟨hshort, hfs⟩
          · exact .complain _ _
      · exact .complain _ _
  · exact .complain _ _

end Step

theorem reads_values (fuel : Nat) :
    (∀ room cs, Reads Short room cs (readValue fuel room cs)) ∧
    (∀ room cs, Reads (fun xs => ∀ x ∈ xs, Short x) room cs (readItems fuel room cs)) ∧
    (∀ room cs, Reads (fun fs => ∀ f ∈ fs, Short f.2) room cs (readFields fuel room cs)) := by
  induction fuel with
  | zero => exact ⟨fun _ _ => .complain _ _, fun _ _ => .complain _ _, fun _ _ => .complain _ _⟩
  | succ fuel ih =>
    obtain ⟨hvalue, hitems, hfields⟩ := ih
    exact ⟨reads_readValue_succ hitems hfields, reads_readItems_succ hvalue hitems,
      reads_readFields_succ hvalue hfields⟩

/-- What is read holds no integer that is too long, and a text that is not read explains why. -/
theorem readChars_outcome (cs : List Char) :
    match readChars cs with
    | .ok j => Short j
    | .error e => Explains nestingLimit cs e := by
  have hread := ((reads_values (2 * cs.length + 2)).1 nestingLimit (skipSpace cs)).of_suffix
    (skipSpace_suffix cs)
  unfold readChars
  by_cases hmark : cs.head? = some '\ufeff'
  · rw [if_pos hmark]
    exact .malformed _ _
  · rw [if_neg hmark]
    cases hvalue : readValue (2 * cs.length + 2) nestingLimit (skipSpace cs) with
    | error e =>
      rw [hvalue] at hread
      exact hread
    | ok t =>
      rw [hvalue] at hread
      obtain ⟨j, r⟩ := t
      dsimp only
      cases skipSpace r with
      | nil => exact hread.1
      | cons c s => exact .malformed _ _

end Conform.Json
