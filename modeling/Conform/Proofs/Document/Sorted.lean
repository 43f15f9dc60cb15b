import Conform.Document.Dump
import Conform.Proofs.Returns

/-!
# Entries in the order of their keys

Entries can be put in order if their keys are all text or all numbers; a single entry is in order
whatever its key. For keys that have a name in a dump there is no other way: wherever sorting starts,
every entry is compared at least once with one that is already part of the order, and keys of two types
cannot be compared.
-/
namespace Conform

/-- The types of keys that have both a name and an order. -/
inductive KeyType
  | text
  | number
deriving DecidableEq, Repr

namespace Key

def type? : Key → Option KeyType
  | .atom (.str _) => some .text
  | .atom a => if a.isNumber then some .number else none
  | _ => none

/-- The keys that have a name in a dump: text, numbers and null. -/
def IsNamed (k : Key) : Prop := k = .null ∨ k.type?.isSome

theorem type?_eq_text_iff {k : Key} : k.type? = some .text ↔ ∃ s : String, k = .str s := by
  constructor
  · intro h
    unfold type? at h
    split at h
    · exact ⟨_, rfl⟩
    · split at h <;> cases h
    · cases h
  · rintro ⟨s, rfl⟩
    rfl

theorem type?_eq_number_iff {k : Key} :
    k.type? = some .number ↔ ∃ a, k = .atom a ∧ a.isNumber = true := by
  constructor
  · intro h
    unfold type? at h
    split at h
    · cases h
    · split at h
      · exact ⟨_, rfl, ‹_›⟩
      · cases h
    · cases h
  · rintro ⟨a, rfl, ha⟩
    cases a <;> first | rfl | cases ha

end Key

theorem Atom.lt_text_number (s : String) {a : Atom} (ha : a.isNumber = true) :
    (Atom.str s).lt a = .error .unlikeTypes := by
  cases a <;> cases ha <;> rfl

theorem Atom.lt_number_text {a : Atom} (ha : a.isNumber = true) (s : String) :
    a.lt (.str s) = .error .unlikeTypes := by
  cases a <;> cases ha <;> rfl

theorem Atom.returns_lt_of_numbers {a b : Atom} (ha : a.isNumber = true) (hb : b.isNumber = true) :
    Returns (a.lt b) := by
  unfold lt
  split
  · exact .ok _
  · exact .ok _
  · exact .ok _
  · cases ha
  · cases ha
  · cases ha
  · rw [ha, hb, Bool.and_self, if_pos rfl]
    split <;> exact .ok _

namespace Key

theorem returns_lt {k l : Key} {t : KeyType} (hk : k.type? = some t) (hl : l.type? = some t) :
    Returns (k.lt l) := by
  cases t with
  | text =>
    obtain ⟨s, rfl⟩ := type?_eq_text_iff.mp hk
    obtain ⟨s', rfl⟩ := type?_eq_text_iff.mp hl
    exact .ok _
  | number =>
    obtain ⟨a, rfl, ha⟩ := type?_eq_number_iff.mp hk
    obtain ⟨b, rfl, hb⟩ := type?_eq_number_iff.mp hl
    exact Atom.returns_lt_of_numbers ha hb

/-- A key with a name is compared only with keys of its own type. -/
theorem same_type_of_lt {k l : Key} (hk : k.IsNamed) (hl : l.IsNamed) (h : Returns (k.lt l)) :
    ∃ t, k.type? = some t ∧ l.type? = some t := by
  obtain ⟨b, h⟩ := h
  rcases hk with rfl | hk
  · cases h
  rcases hl with rfl | hl
  · unfold lt at h
    split at h <;> first | cases h | simp_all
  obtain ⟨t, hk⟩ := Option.isSome_iff_exists.mp hk
  obtain ⟨t', hl⟩ := Option.isSome_iff_exists.mp hl
  cases t <;> cases t'
  · exact ⟨_, hk, hl⟩
  · obtain ⟨s, rfl⟩ := type?_eq_text_iff.mp hk
    obtain ⟨a, rfl, ha⟩ := type?_eq_number_iff.mp hl
    exact nomatch (Atom.lt_text_number s ha).symm.trans h
  · obtain ⟨a, rfl, ha⟩ := type?_eq_number_iff.mp hk
    obtain ⟨s, rfl⟩ := type?_eq_text_iff.mp hl
    exact nomatch (Atom.lt_number_text ha s).symm.trans h
  · exact ⟨_, hk, hl⟩

theorem type?_of_lt {k l : Key} {t : KeyType} (hk : k.IsNamed) (hl : l.type? = some t)
    (h : Returns (k.lt l)) : k.type? = some t := by
  obtain ⟨t', hk', hl'⟩ := same_type_of_lt hk (.inr (by rw [hl]; rfl)) h
  rw [hk', ← hl', hl]

end Key

namespace Entries

variable {α : Type} {t : KeyType}

/-- The keys are all of one type. -/
def OfType (t : KeyType) (es : List (Key × α)) : Prop := ∀ e ∈ es, e.1.type? = some t

/-- The keys all have names. -/
def Named (es : List (Key × α)) : Prop := ∀ e ∈ es, e.1.IsNamed

/-! ## The run at the front -/

theorem append_of_runFrom {down : Bool} {last : Key} {es run rest : List (Key × α)}
    (h : runFrom down last es = .ok (run, rest)) : run ++ rest = es := by
  induction es generalizing last run with
  | nil =>
    cases h
    rfl
  | cons e es ih =>
    obtain ⟨b, -, h⟩ := bind_eq_ok_iff.mp h
    split at h
    · obtain ⟨⟨more, rest'⟩, hmore, h⟩ := bind_eq_ok_iff.mp h
      cases h
      rw [List.cons_append, ih hmore]
    · cases h
      rfl

/-- Every key of the run is compared with the one before it. -/
theorem ofType_of_runFrom {down : Bool} {last : Key} {es run rest : List (Key × α)}
    (hlast : last.type? = some t) (hes : Named es) (h : runFrom down last es = .ok (run, rest)) :
    OfType t run := by
  induction es generalizing last run with
  | nil =>
    cases h
    exact List.forall_mem_nil _
  | cons e es ih =>
    obtain ⟨he, hes⟩ := List.forall_mem_cons.mp hes
    obtain ⟨b, hlt, h⟩ := bind_eq_ok_iff.mp h
    split at h
    · obtain ⟨⟨more, rest'⟩, hmore, h⟩ := bind_eq_ok_iff.mp h
      cases h
      have het := Key.type?_of_lt he hlast ⟨b, hlt⟩
      exact List.forall_mem_cons.mpr ⟨het, ih het hes hmore⟩
    · cases h
      exact List.forall_mem_nil _

theorem returns_runFrom {down : Bool} {last : Key} {es : List (Key × α)}
    (hlast : last.type? = some t) (hes : OfType t es) : Returns (runFrom down last es) := by
  induction es generalizing last with
  | nil => exact .ok _
  | cons e es ih =>
    obtain ⟨he, hes⟩ := List.forall_mem_cons.mp hes
    obtain ⟨b, hlt⟩ := Key.returns_lt he hlast
    refine returns_bind_iff.mpr ⟨b, hlt, ?_⟩
    split
    · obtain ⟨run, hrun⟩ := ih he hes
      exact returns_bind_iff.mpr ⟨run, hrun, .pure _⟩
    · exact .pure _

theorem perm_of_leadingRun {es run rest : List (Key × α)} (h : leadingRun es = .ok (run, rest)) :
    (run ++ rest).Perm es := by
  unfold leadingRun at h
  split at h
  · obtain ⟨down, -, h⟩ := bind_eq_ok_iff.mp h
    obtain ⟨⟨more, rest'⟩, hmore, h⟩ := bind_eq_ok_iff.mp h
    cases h
    rw [← append_of_runFrom hmore, ← List.cons_append, ← List.cons_append]
    refine List.Perm.append_right rest ?_
    split
    · exact List.reverse_perm _
    · exact .refl _
  · cases h
    rw [List.append_nil]

/-- Of two entries or more at least two come into the run, and these are of one type. -/
theorem ofType_of_leadingRun {e f : Key × α} {es run rest : List (Key × α)}
    (hes : Named (e :: f :: es)) (h : leadingRun (e :: f :: es) = .ok (run, rest)) :
    run ≠ [] ∧ ∃ t, OfType t run := by
  obtain ⟨he, hes⟩ := List.forall_mem_cons.mp hes
  obtain ⟨hf, hes⟩ := List.forall_mem_cons.mp hes
  obtain ⟨down, hlt, h⟩ := bind_eq_ok_iff.mp h
  obtain ⟨⟨more, rest'⟩, hmore, h⟩ := bind_eq_ok_iff.mp h
  cases h
  obtain ⟨t, hft, het⟩ := Key.same_type_of_lt hf he ⟨down, hlt⟩
  have hrun : OfType t (e :: f :: more) :=
    List.forall_mem_cons.mpr ⟨het, List.forall_mem_cons.mpr ⟨hft, ofType_of_runFrom hft hes hmore⟩⟩
  split
  · exact ⟨by simp, t, fun x hx => hrun x (List.mem_reverse.mp hx)⟩
  · exact ⟨by simp, t, hrun⟩

theorem returns_leadingRun {es : List (Key × α)} (hes : OfType t es) : Returns (leadingRun es) := by
  unfold leadingRun
  split
  · rename_i e f es
    obtain ⟨he, hf, hes⟩ : e.1.type? = some t ∧ f.1.type? = some t ∧ OfType t es := by
      simpa [OfType] using hes
    obtain ⟨down, hlt⟩ := Key.returns_lt hf he
    obtain ⟨run, hrun⟩ := returns_runFrom hf hes
    exact returns_bind_iff.mpr ⟨down, hlt, returns_bind_iff.mpr ⟨run, hrun, .pure _⟩⟩
  · exact .ok _

/-! ## Insertion -/

theorem perm_of_insertInOrder {es fs : Array (Key × α)} {e : Key × α}
    (h : insertInOrder es e = .ok fs) : fs.toList.Perm (e :: es.toList) := by
  obtain ⟨i, -, h⟩ := bind_eq_ok_iff.mp h
  cases h
  refine List.perm_middle.trans ?_
  rw [List.take_append_drop]

theorem ofType_of_insertInOrder {es fs : Array (Key × α)} {e : Key × α}
    (h : insertInOrder es e = .ok fs) (he : e.1.type? = some t) (hes : OfType t es.toList) :
    OfType t fs.toList := by
  intro x hx
  rcases List.mem_cons.mp ((perm_of_insertInOrder h).mem_iff.mp hx) with rfl | hx
  · exact he
  · exact hes x hx

/-- The place of a key is found by comparing it at least with the entry in the middle. -/
theorem exists_lt_of_insertInOrder {es fs : Array (Key × α)} {e : Key × α} (hes : es.toList ≠ [])
    (h : insertInOrder es e = .ok fs) : ∃ f ∈ es.toList, Returns (e.1.lt f.1) := by
  obtain ⟨i, hi, -⟩ := bind_eq_ok_iff.mp h
  have hpos : 0 < es.size := by
    rw [← Array.length_toList]
    exact List.length_pos_of_ne_nil hes
  obtain ⟨n, hn⟩ : ∃ n, es.size = n + 1 := ⟨es.size - 1, by omega⟩
  rw [hn, placeBetween, if_pos (by omega)] at hi
  obtain ⟨b, hb, -⟩ := bind_eq_ok_iff.mp hi
  have hmiddle : 0 + (n + 1 - 0) / 2 < es.size := by omega
  rw [Array.getElem?_eq_getElem hmiddle] at hb
  exact ⟨es[0 + (n + 1 - 0) / 2], Array.getElem_mem_toList hmiddle, b, hb⟩

theorem returns_placeBetween {es : Array (Key × α)} {pivot : Key} (hpivot : pivot.type? = some t)
    (hes : OfType t es.toList) (n low high : Nat) : Returns (placeBetween pivot es n low high) := by
  induction n generalizing low high with
  | zero => exact .ok _
  | succ n ih =>
    unfold placeBetween
    split
    · obtain ⟨greater, hgreater⟩ :
          Returns ((es[low + (high - low) / 2]?.map fun e => pivot.lt e.1).getD (.ok true)) := by
        cases hmiddle : es[low + (high - low) / 2]? with
        | none => exact .ok _
        | some e =>
          have he : e ∈ es.toList := Array.mem_toList_iff.mpr (Array.mem_of_getElem? hmiddle)
          exact Key.returns_lt hpivot (hes e he)
      refine returns_bind_iff.mpr ⟨greater, hgreater, ?_⟩
      split
      · exact ih _ _
      · exact ih _ _
    · exact .ok _

theorem returns_insertInOrder {es : Array (Key × α)} {e : Key × α} (he : e.1.type? = some t)
    (hes : OfType t es.toList) : Returns (insertInOrder es e) := by
  obtain ⟨i, hi⟩ := returns_placeBetween he hes es.size 0 es.size
  exact returns_bind_iff.mpr ⟨i, hi, .pure _⟩

theorem perm_of_insertAll {es fs : Array (Key × α)} {rest : List (Key × α)}
    (h : rest.foldlM insertInOrder es = .ok fs) : fs.toList.Perm (es.toList ++ rest) := by
  induction rest generalizing es with
  | nil =>
    cases h
    rw [List.append_nil]
  | cons e rest ih =>
    obtain ⟨more, hmore, h⟩ := bind_eq_ok_iff.mp h
    refine (ih h).trans ?_
    refine ((perm_of_insertInOrder hmore).append_right rest).trans ?_
    exact List.perm_middle.symm

theorem ofType_of_insertAll {es fs : Array (Key × α)} {rest : List (Key × α)} (hne : es.toList ≠ [])
    (hes : OfType t es.toList) (hrest : Named rest) (h : rest.foldlM insertInOrder es = .ok fs) :
    OfType t rest := by
  induction rest generalizing es with
  | nil => exact List.forall_mem_nil _
  | cons e rest ih =>
    obtain ⟨he, hrest⟩ := List.forall_mem_cons.mp hrest
    obtain ⟨more, hmore, h⟩ := bind_eq_ok_iff.mp h
    obtain ⟨f, hf, hlt⟩ := exists_lt_of_insertInOrder hne hmore
    have het := Key.type?_of_lt he (hes f hf) hlt
    have hmoreNe : more.toList ≠ [] := fun hnil => by
      have hperm := perm_of_insertInOrder hmore
      simp [hnil] at hperm
    have hmoreType := ofType_of_insertInOrder hmore het hes
    exact List.forall_mem_cons.mpr ⟨het, ih hmoreNe hmoreType hrest h⟩

theorem returns_insertAll {es : Array (Key × α)} {rest : List (Key × α)} (hes : OfType t es.toList)
    (hrest : OfType t rest) : Returns (rest.foldlM insertInOrder es) := by
  induction rest generalizing es with
  | nil => exact .pure _
  | cons e rest ih =>
    obtain ⟨he, hrest⟩ := List.forall_mem_cons.mp hrest
    obtain ⟨more, hmore⟩ := returns_insertInOrder he hes
    exact returns_bind_iff.mpr ⟨more, hmore, ih (ofType_of_insertInOrder hmore he hes) hrest⟩

/-! ## The whole order -/

theorem perm_of_sorted {es fs : Entries α} (h : es.sorted = .ok fs) : fs.Perm es := by
  unfold sorted at h
  split at h
  · cases h
    exact List.mergeSort_perm es _
  · obtain ⟨⟨run, rest⟩, hrun, h⟩ := bind_eq_ok_iff.mp h
    obtain ⟨all, hall, h⟩ := bind_eq_ok_iff.mp h
    cases h
    exact (perm_of_insertAll hall).trans (perm_of_leadingRun hrun)

/-- There is an order of the keys: there is at most one, or they are of one type. -/
def Sortable (es : List (Key × α)) : Prop := es.length ≤ 1 ∨ ∃ t, OfType t es

theorem returns_sorted {es : Entries α} (h : Sortable es) : Returns es.sorted := by
  unfold sorted
  split
  · exact .ok _
  · rcases h with h | ⟨t, h⟩
    · have hrun : leadingRun es = .ok (es, []) := by
        match es, h with
        | [], _ => rfl
        | [_], _ => rfl
      exact returns_bind_iff.mpr ⟨(es, []), hrun, .pure _⟩
    · obtain ⟨⟨run, rest⟩, hrun⟩ := returns_leadingRun h
      have hperm := perm_of_leadingRun hrun
      have hboth : OfType t (run ++ rest) := fun e he => h e (hperm.mem_iff.mp he)
      obtain ⟨all, hall⟩ : Returns (rest.foldlM insertInOrder run.toArray) :=
        returns_insertAll (fun e he => hboth e (List.mem_append_left rest he))
          (fun e he => hboth e (List.mem_append_right run he))
      exact returns_bind_iff.mpr ⟨_, hrun, returns_bind_iff.mpr ⟨all, hall, .pure _⟩⟩

theorem sortable_of_sorted {es : Entries α} (hes : Named es) (h : Returns es.sorted) :
    Sortable es := by
  obtain ⟨fs, h⟩ := h
  unfold sorted at h
  split at h
  · rename_i htext
    refine .inr ⟨.text, fun e he => ?_⟩
    have hs := List.all_eq_true.mp htext e he
    exact Key.type?_eq_text_iff.mpr (Key.exists_of_isSome_string? hs)
  · obtain ⟨⟨run, rest⟩, hrun, h⟩ := bind_eq_ok_iff.mp h
    obtain ⟨all, hall, -⟩ := bind_eq_ok_iff.mp h
    match es, hes, hrun with
    | [], _, _ => exact .inl (Nat.zero_le 1)
    | [_], _, _ => exact .inl (Nat.le_refl 1)
    | e :: f :: es, hes, hrun =>
      have hperm := perm_of_leadingRun hrun
      obtain ⟨hne, t, ht⟩ := ofType_of_leadingRun hes hrun
      have hrest : Named rest := fun x hx => hes x (hperm.mem_iff.mp (List.mem_append_right run hx))
      have htrest := ofType_of_insertAll (by simpa using hne) (by simpa using ht) hrest hall
      refine .inr ⟨t, fun x hx => ?_⟩
      rcases List.mem_append.mp (hperm.mem_iff.mpr hx) with hx | hx
      · exact ht x hx
      · exact htrest x hx

theorem returns_sorted_iff {es : Entries α} (hes : Named es) : Returns es.sorted ↔ Sortable es :=
  ⟨sortable_of_sorted hes, returns_sorted⟩

/-! ## Texts as keys -/

section Texts

variable {es fs : Entries α}

theorem sorted_of_texts (h : OfType .text es) : es.sorted = .ok (es.mergeSort textLe) := by
  have hall : es.all (fun e => e.1.string?.isSome) = true := by
    refine List.all_eq_true.mpr fun e he => ?_
    obtain ⟨s, hs⟩ := Key.type?_eq_text_iff.mp (h e he)
    rw [hs]
    rfl
  rw [sorted, if_pos hall]

/-- No text is there twice. -/
theorem pairwise_text_ne (hd : es.Distinct) (h : OfType .text es) :
    es.Pairwise fun e f => e.1.text ≠ f.1.text := by
  refine List.Pairwise.imp_of_mem (fun {e f} he hf hne => ?_) hd
  obtain ⟨s, hs⟩ := Key.type?_eq_text_iff.mp (h e he)
  obtain ⟨t, ht⟩ := Key.type?_eq_text_iff.mp (h f hf)
  rw [hs, ht, Key.same_str, decide_eq_false_iff_not] at hne
  rw [hs, ht]
  exact hne

theorem pairwise_mergeSort_textLe (hd : es.Distinct) (h : OfType .text es) :
    (es.mergeSort textLe).Pairwise fun e f => e.1.text < f.1.text := by
  have htrans : ∀ a b c : Key × α, textLe a b = true → textLe b c = true → textLe a c = true := by
    intro a b c hab hbc
    exact decide_eq_true (String.le_trans (of_decide_eq_true hab) (of_decide_eq_true hbc))
  have htotal : ∀ a b : Key × α, (textLe a b || textLe b a) = true := by
    intro a b
    rw [Bool.or_eq_true]
    exact (String.le_total a.1.text b.1.text).imp decide_eq_true decide_eq_true
  have hle := List.pairwise_mergeSort htrans htotal es
  have hne : (es.mergeSort textLe).Pairwise fun e f => e.1.text ≠ f.1.text :=
    (List.mergeSort_perm es textLe).symm.pairwise (pairwise_text_ne hd h) Ne.symm
  exact hle.imp₂ (fun _ _ hef hne => Std.lt_of_le_of_ne (of_decide_eq_true hef) hne) hne

/-- Sorting forgets in which order entries came. -/
theorem mergeSort_textLe_of_perm (hd : es.Distinct) (h : OfType .text es) (hperm : es.Perm fs) :
    es.mergeSort textLe = fs.mergeSort textLe := by
  have hfs : OfType .text fs := fun e he => h e (hperm.mem_iff.mpr he)
  have hboth : (es.mergeSort textLe).Perm (fs.mergeSort textLe) :=
    (List.mergeSort_perm es textLe).trans (hperm.trans (List.mergeSort_perm fs textLe).symm)
  exact hboth.eq_of_pairwise (fun _ _ _ _ hef hfe => absurd hef (String.lt_asymm hfe))
    (pairwise_mergeSort_textLe hd h) (pairwise_mergeSort_textLe (hd.perm hperm) hfs)

end Texts

end Entries
end Conform
