import Conform.Loader

/-!
# What a loader keeps

A load asks for a file first, then for a document that is kept, and reads the bytes only if there is
none. Only a load that reads a document changes the loader, and it changes nothing but the document
for its own path.
-/
namespace Conform.Loader

variable {fs : Files} {l : Loader} {p q : Path} {asked : Option String} {d : Document}
  {bytes : List UInt8}

/-- What a loader that has kept nothing makes of a path. -/
def fresh (fs : Files) (p : Path) (asked : Option String) : Except LoadError Document :=
  (load fs (.start false) p asked).result

section Kept

@[simp] theorem kept?_start (keeps : Bool) (p : Path) : (start keeps).kept? p = none := by
  cases keeps <;> rfl

@[simp] theorem kept?_clear (l : Loader) (p : Path) : l.clear.kept? p = none := by
  unfold kept? clear
  split <;> rfl

@[simp] theorem keeps_keep (l : Loader) (p : Path) (d : Document) :
    (l.keep p d).keeps = l.keeps := by
  unfold keep
  split <;> rfl

theorem lookup_filter_of_ne (es : List (Path × Document)) (h : q ≠ p) :
    (es.filter (·.1 ≠ p)).lookup q = es.lookup q := by
  induction es with
  | nil => rfl
  | cons e es ih =>
    by_cases he : e.1 = p
    · have hqe : (q == e.1) = false := beq_eq_false_iff_ne.mpr (he ▸ h)
      rw [List.filter_cons_of_neg (by simp [he]), List.lookup_cons, hqe, ih]
    · rw [List.filter_cons_of_pos (by simp [he]), List.lookup_cons, List.lookup_cons, ih]

theorem kept?_keep (l : Loader) (p q : Path) (d : Document) :
    (l.keep p d).kept? q = if l.keeps = true ∧ q = p then some d else l.kept? q := by
  unfold keep kept?
  cases hkeeps : l.keeps with
  | false => simp [hkeeps]
  | true =>
    by_cases h : q = p
    · simp [h]
    · have hqp : (q == p) = false := beq_eq_false_iff_ne.mpr h
      simp only [if_true, List.lookup_cons, hqp, lookup_filter_of_ne l.kept h, h, and_false, if_false]

end Kept

section Load

/-- Bytes are read as the same document by every loader. -/
theorem result_read (l l' : Loader) (p : Path) (asked : Option String) (bytes : List UInt8) :
    (l.read p asked bytes).result = (l'.read p asked bytes).result := by
  unfold read
  split
  · rfl
  · dsimp only
    split <;> rfl

theorem loader_read (l : Loader) (p : Path) (asked : Option String) (bytes : List UInt8) :
    (l.read p asked bytes).loader =
      ((l.read p asked bytes).result.toOption.map fun d => l.keep p d).getD l := by
  unfold read
  split
  · rfl
  · dsimp only
    split <;> rfl

theorem fresh_of_missing (h : fs.entry? p = none) : fresh fs p asked = .error (.missing p) := by
  rw [fresh, load, h]

theorem fresh_of_directory (h : fs.entry? p = some .directory) :
    fresh fs p asked = .error (.notFile p) := by
  rw [fresh, load, h]

theorem fresh_of_file (l : Loader) (h : fs.entry? p = some (.file bytes)) :
    fresh fs p asked = (l.read p asked bytes).result := by
  rw [fresh, load, h]
  exact result_read _ _ _ _ _

/-- A load of a path where there is no file answers as if nothing were kept. -/
theorem load_of_no_file (l : Loader) (asked : Option String)
    (h : ∀ bytes, fs.entry? p ≠ some (.file bytes)) :
    (load fs l p asked).result = fresh fs p asked ∧ (load fs l p asked).loader = l ∧
      (fresh fs p asked).toOption = none := by
  cases hentry : fs.entry? p with
  | none =>
    rw [fresh_of_missing hentry, load, hentry]
    exact ⟨rfl, rfl, rfl⟩
  | some entry =>
    cases entry with
    | directory =>
      rw [fresh_of_directory hentry, load, hentry]
      exact ⟨rfl, rfl, rfl⟩
    | file bytes => exact absurd hentry (h bytes)

theorem load_of_kept (asked : Option String) (h : fs.entry? p = some (.file bytes))
    (hkept : l.kept? p = some d) :
    (load fs l p asked).result = .ok d ∧ (load fs l p asked).loader = l := by
  rw [load, h]
  dsimp only
  rw [hkept]
  exact ⟨rfl, rfl⟩

/-- A load without a kept document answers as a fresh loader does, and keeps what it answers. -/
theorem load_of_not_kept (fs : Files) (asked : Option String) (hkept : l.kept? p = none) :
    (load fs l p asked).result = fresh fs p asked ∧
      (load fs l p asked).loader =
        ((fresh fs p asked).toOption.map fun d => l.keep p d).getD l := by
  by_cases h : ∃ bytes, fs.entry? p = some (.file bytes)
  · obtain ⟨bytes, hentry⟩ := h
    have hload : load fs l p asked = l.read p asked bytes := by
      rw [load, hentry]
      dsimp only
      rw [hkept]
    rw [hload, fresh_of_file l hentry]
    exact ⟨rfl, loader_read l p asked bytes⟩
  · obtain ⟨hresult, hloader, hnone⟩ := load_of_no_file l asked fun bytes hb => h ⟨bytes, hb⟩
    rw [hnone]
    exact ⟨hresult, hloader⟩

/-- Where a document is kept, a load does not change the loader. -/
theorem loader_of_kept (fs : Files) (asked : Option String) (hkept : l.kept? p = some d) :
    (load fs l p asked).loader = l := by
  by_cases h : ∃ bytes, fs.entry? p = some (.file bytes)
  · obtain ⟨bytes, hentry⟩ := h
    exact (load_of_kept asked hentry hkept).2
  · exact (load_of_no_file l asked fun bytes hb => h ⟨bytes, hb⟩).2.1

@[simp] theorem keeps_load (fs : Files) (l : Loader) (p : Path) (asked : Option String) :
    (load fs l p asked).loader.keeps = l.keeps := by
  cases hkept : l.kept? p with
  | none =>
    rw [(load_of_not_kept fs asked hkept).2]
    cases (fresh fs p asked).toOption <;> simp
  | some d => rw [loader_of_kept fs asked hkept]

/-- What is kept after a load: for its own path what was kept before, or else what it read; for any
other path what was kept before. -/
theorem kept?_load (fs : Files) (hkeeps : l.keeps = true) (p q : Path) (asked : Option String) :
    (load fs l p asked).loader.kept? q =
      (l.kept? q).or (if p = q then (fresh fs p asked).toOption else none) := by
  cases hkept : l.kept? p with
  | none =>
    rw [(load_of_not_kept fs asked hkept).2]
    cases hfresh : (fresh fs p asked).toOption with
    | none => simp
    | some d =>
      rw [Option.map_some, Option.getD_some, kept?_keep]
      by_cases h : q = p
      · subst h
        simp [hkeeps, hkept]
      · simp [h, Ne.symm h]
  | some d =>
    rw [loader_of_kept fs asked hkept]
    by_cases h : p = q
    · subst h
      rw [hkept, Option.some_or]
    · rw [if_neg h, Option.or_none]

end Load
end Conform.Loader
