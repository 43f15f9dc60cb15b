import Conform.Document.Key

/-!
The entries of a mapping, in the order in which their keys first came. A key that comes again keeps
the place and the form of the first and takes the last value.
-/
namespace Conform

abbrev Entries (α : Type) := List (Key × α)

namespace Entries

variable {α β : Type}

/-- The value of the entry whose key is the same as `k`. -/
def get? (k : Key) (es : Entries α) : Option α := (es.find? fun e => e.1.same k).map Prod.snd

def has (k : Key) (es : Entries α) : Bool := es.any fun e => e.1.same k

def put (k : Key) (v : α) : Entries α → Entries α
  | [] => [(k, v)]
  | (l, w) :: es => if l.same k then (l, v) :: es else (l, w) :: put k v es

def ofList (es : List (Key × α)) : Entries α := es.foldl (fun acc e => acc.put e.1 e.2) []

def mapValues (f : α → β) (es : Entries α) : Entries β := es.map fun e => (e.1, f e.2)

theorem has_eq_isSome_get? (k : Key) (es : Entries α) : es.has k = (es.get? k).isSome := by
  rw [get?, Option.isSome_map, List.isSome_find?, has]

/-- What is looked up is the value of an entry with the same key. -/
theorem exists_same_of_get? {k : Key} {es : Entries α} {v : α} (h : es.get? k = some v) :
    ∃ l, (l, v) ∈ es ∧ l.same k = true := by
  obtain ⟨⟨l, w⟩, hfind, rfl⟩ := Option.map_eq_some_iff.mp h
  have hsame := List.find?_some hfind
  exact ⟨l, List.mem_of_find?_eq_some hfind, hsame⟩

theorem exists_mem_of_get? {k : Key} {es : Entries α} {v : α} (h : es.get? k = some v) :
    ∃ l, (l, v) ∈ es := by
  obtain ⟨l, hmem, -⟩ := exists_same_of_get? h
  exact ⟨l, hmem⟩

/-- No two entries have the same key. -/
def Distinct (es : Entries α) : Prop := es.Pairwise fun e f => e.1.same f.1 = false

instance (es : Entries α) : Decidable es.Distinct :=
  inferInstanceAs (Decidable (es.Pairwise fun e f => e.1.same f.1 = false))

/-- In a mapping without a key twice, any form of a key finds the entry. -/
theorem get?_of_mem {k l : Key} {v : α} {es : Entries α} (hd : es.Distinct) (hs : l.same k = true)
    (hm : (l, v) ∈ es) : es.get? k = some v := by
  induction es with
  | nil => cases hm
  | cons e es ih =>
    obtain ⟨hhead, htail⟩ := List.pairwise_cons.mp hd
    rcases List.mem_cons.mp hm with rfl | hm
    · simp [get?, hs]
    · have hne : e.1.same k ≠ true := by
        intro he
        have hel : e.1.same l = true := Key.same_trans he (Key.same_comm l k ▸ hs)
        have hfalse : e.1.same l = false := hhead (l, v) hm
        rw [hfalse] at hel
        cases hel
      rw [get?, List.find?_cons_of_neg (by simpa using hne)]
      exact ih htail hm

theorem get?_eq_some_iff {k : Key} {v : α} {es : Entries α} (hd : es.Distinct) :
    es.get? k = some v ↔ ∃ l, (l, v) ∈ es ∧ l.same k = true :=
  ⟨exists_same_of_get?, fun ⟨_, hm, hs⟩ => get?_of_mem hd hs hm⟩

theorem Distinct.perm {es fs : Entries α} (hd : es.Distinct) (h : es.Perm fs) : fs.Distinct :=
  h.pairwise hd fun hne => (Key.same_comm _ _).trans hne

/-- In a mapping without a key twice, the order of the entries does not matter. -/
theorem get?_perm {es fs : Entries α} (hd : es.Distinct) (h : es.Perm fs) (k : Key) :
    es.get? k = fs.get? k := by
  refine Option.ext fun v => ?_
  rw [get?_eq_some_iff hd, get?_eq_some_iff (hd.perm h)]
  simp only [h.mem_iff]

theorem get?_append_of_not_same {k : Key} (es : Entries α) {fs : Entries α}
    (h : ∀ e ∈ fs, e.1.same k = false) : Entries.get? k (es ++ fs) = es.get? k := by
  have hnone : fs.find? (fun e => e.1.same k) = none :=
    List.find?_eq_none.mpr fun e he => by simp [h e he]
  rw [get?, List.find?_append, hnone, Option.or_none, get?]

/-- Putting an entry brings in no other key than its own. -/
theorem key_of_mem_put {k : Key} {v : α} {es : Entries α} {e : Key × α} (h : e ∈ es.put k v) :
    e.1 = k ∨ ∃ w, (e.1, w) ∈ es := by
  induction es with
  | nil => exact .inl (by rw [List.mem_singleton.mp h])
  | cons f es ih =>
    obtain ⟨l, w⟩ := f
    unfold put at h
    split at h
    · rcases List.mem_cons.mp h with rfl | h
      · exact .inr ⟨w, List.mem_cons_self⟩
      · exact .inr ⟨e.2, List.mem_cons_of_mem _ h⟩
    · rcases List.mem_cons.mp h with rfl | h
      · exact .inr ⟨w, List.mem_cons_self⟩
      · rcases ih h with hk | ⟨u, hu⟩
        · exact .inl hk
        · exact .inr ⟨u, List.mem_cons_of_mem _ hu⟩

theorem distinct_put {es : Entries α} (h : es.Distinct) (k : Key) (v : α) :
    (es.put k v).Distinct := by
  induction es with
  | nil => exact List.pairwise_singleton _ _
  | cons f es ih =>
    obtain ⟨l, w⟩ := f
    obtain ⟨hhead, htail⟩ := List.pairwise_cons.mp h
    unfold put
    split
    · exact List.pairwise_cons.mpr ⟨hhead, htail⟩
    · rename_i hne
      refine List.pairwise_cons.mpr ⟨fun e he => ?_, ih htail⟩
      rcases key_of_mem_put he with hk | ⟨u, hu⟩
      · simpa [hk] using hne
      · exact hhead (e.1, u) hu

/-- However entries are listed, a mapping of them has no key twice. -/
theorem distinct_ofList (es : List (Key × α)) : (ofList es).Distinct := by
  have hfold : ∀ acc : Entries α, acc.Distinct →
      (es.foldl (fun acc e => acc.put e.1 e.2) acc).Distinct := by
    induction es with
    | nil => exact fun acc h => h
    | cons e es ih => exact fun acc h => ih _ (distinct_put h e.1 e.2)
  exact hfold [] List.Pairwise.nil

theorem put_of_not_same {k : Key} {es : Entries α} (h : ∀ e ∈ es, e.1.same k = false) (v : α) :
    es.put k v = es ++ [(k, v)] := by
  induction es with
  | nil => rfl
  | cons e es ih =>
    obtain ⟨l, w⟩ := e
    obtain ⟨hl, hes⟩ := List.forall_mem_cons.mp h
    have hne : l.same k = false := hl
    rw [put, hne, if_neg Bool.false_ne_true, ih hes, List.cons_append]

/-- Entries without a key twice are a mapping as they stand. -/
theorem ofList_of_distinct {es : Entries α} (h : es.Distinct) : ofList es = es := by
  have hfold : ∀ (fs acc : Entries α), Distinct (acc ++ fs) →
      fs.foldl (fun acc e => acc.put e.1 e.2) acc = acc ++ fs := by
    intro fs
    induction fs with
    | nil => exact fun acc _ => (List.append_nil acc).symm
    | cons e fs ih =>
      intro acc hd
      have hnew : ∀ f ∈ acc, f.1.same e.1 = false := fun f hf =>
        (List.pairwise_append.mp hd).2.2 f hf e List.mem_cons_self
      rw [List.foldl_cons, put_of_not_same hnew, ih _ (by simpa using hd), List.append_assoc,
        List.singleton_append]
  exact hfold es [] h

end Entries
end Conform
