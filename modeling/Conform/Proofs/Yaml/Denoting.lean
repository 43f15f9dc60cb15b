import Conform.Proofs.Yaml.Parsing
import Conform.Yaml.Denotation

/-!
# What keeps elements from denoting a document

Merging changes tags and entries of elements on the way, but never makes a text of what is none. So a
scalar that denotes nothing comes from an element as it was written: its type is that of the element,
and its text is its own or, where a mapping stands for a text, that of another element.
-/
namespace Conform.Yaml

variable {α : Type}

/-- The element at a place of a table; places outside hold nothing. -/
def placed (table : Array Element) (i : Nat) : Element := (table[i]?).getD ⟨.null, .scalar []⟩

/-- The types that cannot read every text. -/
def Tag.isParticular : Tag → Bool
  | .bool => true
  | .int => true
  | .float => true
  | .timestamp => true
  | _ => false

/-- Why a scalar of a table denotes nothing. -/
inductive Unreadable (table : Array Element) : ScalarError → Prop
  | text {i j : Nat} {text : List Char} {e : ScalarError}
      (type : (placed table i).tag.isParticular = true)
      (content : (placed table j).content = .scalar text)
      (stands : j = i ∨ ∃ entries, (placed table i).content = .mapping entries)
      (fails : Scalar.read (placed table i).tag text = .error (.scalar e)) : Unreadable table e
  | timestampOfMapping {i : Nat} {entries : List (Nat × Nat)} (tag : (placed table i).tag = .timestamp)
      (content : (placed table i).content = .mapping entries) :
      Unreadable table .timestampOfMapping

/-- What a table of elements can be refused for. -/
inductive DenoteFault (table : Array Element) : Fault → Prop
  | malformed : DenoteFault table .malformed
  | tooNested : DenoteFault table .tooNested
  | scalar {e : ScalarError} (h : Unreadable table e) : DenoteFault table (.scalar e)

attribute [grind ←] DenoteFault.malformed DenoteFault.tooNested

/-- An element as merging may have left it: its type is kept or has become text, its text is kept, and a
mapping stays one. -/
structure Derives (e e' : Element) : Prop where
  tag : e'.tag = e.tag ∨ e'.tag = .str
  scalar : ∀ text, e'.content = .scalar text → e.content = .scalar text
  mapping : ∀ entries, e'.content = .mapping entries → ∃ es, e.content = .mapping es

namespace Denotation

/-- Every element of the progress derives from the one in the table. -/
def Descends (table : Array Element) (s : Progress) : Prop :=
  ∀ i, Derives (placed table i) (placed s.elements i)

variable {table : Array Element}

abbrev DenoteSafe (table : Array Element) (x : Denoter α) : Prop :=
  Guarded (Descends table) (DenoteFault table) x

theorem placed_modify (elements : Array Element) (f : Element → Element) (i j : Nat) :
    placed (elements.modify i f) j = placed elements j ∨
      i = j ∧ placed (elements.modify i f) j = f (placed elements j) := by
  unfold placed
  rw [Array.getElem?_modify]
  split
  · rename_i hij
    cases helement : elements[j]? with
    | none => exact .inl rfl
    | some e => exact .inr ⟨hij, rfl⟩
  · exact .inl rfl

/-- Steps that leave the elements as they are. -/
theorem safe_modify {f : Progress → Progress} (h : ∀ s, (f s).elements = s.elements) :
    DenoteSafe table (modify f) :=
  .modify fun s hs i => by
    rw [h s]
    exact hs i

@[grind ←] theorem safe_setCell (i : Nat) (v : View Nat) : DenoteSafe table (setCell i v) :=
  safe_modify fun _ => rfl

@[grind ←] theorem safe_setTag (i : Nat) : DenoteSafe table (setTag i .str) := by
  refine .modify fun s hs j => ?_
  rcases placed_modify s.elements (fun e => { e with tag := .str }) i j with h | ⟨-, h⟩
  · exact h ▸ hs j
  · rw [h]
    exact ⟨.inr rfl, (hs j).scalar, (hs j).mapping⟩

/-- The entries of a mapping are replaced. -/
theorem safe_setContent {i : Nat} (h : ∃ es, (placed table i).content = .mapping es)
    (es : List (Nat × Nat)) : DenoteSafe table (setContent i (.mapping es)) := by
  refine .modify fun s hs j => ?_
  rcases placed_modify s.elements (fun e => { e with content := .mapping es }) i j with hj | ⟨rfl, hj⟩
  · exact hj ▸ hs j
  · rw [hj]
    exact ⟨(hs i).tag, nofun, fun _ _ => h⟩

theorem yields_elementAt (i : Nat) :
    Yields (Descends table) (DenoteFault table) (Derives (placed table i)) (elementAt i) :=
  fun _ hs => ⟨hs i, hs⟩

@[grind ←] theorem safe_elementAt (i : Nat) : DenoteSafe table (elementAt i) :=
  (yields_elementAt i).guarded

@[grind ←] theorem safe_tagAt (i : Nat) : DenoteSafe table (tagAt i) := by
  unfold tagAt
  grind

theorem yields_entriesAt (i : Nat) :
    Yields (Descends table) (DenoteFault table)
      (fun _ => ∃ es, (placed table i).content = .mapping es) (entriesAt i) := by
  refine Yields.bind (yields_elementAt i) fun e he => ?_
  split
  · rename_i es hes
    exact .pure (he.mapping es hes)
  · exact .throw .malformed

@[grind ←] theorem safe_entriesAt (i : Nat) : DenoteSafe table (entriesAt i) :=
  (yields_entriesAt i).guarded

@[grind ←] theorem safe_takeMerge? (es : List (Nat × Nat)) : DenoteSafe table (takeMerge? es) := by
  induction es with
  | nil => exact .pure _
  | cons e es ih =>
    unfold takeMerge?
    grind

@[grind ←] theorem safe_mergeSources (v : Nat) : DenoteSafe table (mergeSources v) := by
  unfold mergeSources
  grind

theorem safe_merging (fuel : Nat) :
    (∀ i, DenoteSafe table (merge i fuel)) ∧ (∀ i, DenoteSafe table (mergeAll i fuel)) := by
  induction fuel with
  | zero => exact ⟨fun _ => .throw .tooNested, fun _ => .throw .tooNested⟩
  | succ fuel ih =>
    obtain ⟨hmerge, hmergeAll⟩ := ih
    refine ⟨fun i => ?_, fun i => ?_⟩
    · unfold merge
      refine .bind (hmergeAll i) fun merged => (yields_entriesAt i).then_guarded fun es hes => ?_
      refine .bind (safe_setContent hes _) fun _ => ?_
      grind
    · unfold mergeAll
      refine (yields_entriesAt i).then_guarded fun es hes => .bind (safe_takeMerge? es) fun found => ?_
      split
      · exact .pure _
      · refine .bind (safe_setContent hes _) fun _ => .bind (safe_mergeSources _) fun sources => ?_
        grind

@[grind ←] theorem safe_merge (i fuel : Nat) : DenoteSafe table (merge i fuel) :=
  (safe_merging fuel).1 i

/-- A text is that of the element itself, or that of another for which a mapping stands. -/
theorem yields_textAt (i fuel : Nat) :
    Yields (Descends table) (DenoteFault table)
      (fun text => ∃ j, (placed table j).content = .scalar text ∧
        (j = i ∨ ∃ entries, (placed table i).content = .mapping entries)) (textAt i fuel) := by
  induction fuel generalizing i with
  | zero => exact .throw .tooNested
  | succ fuel ih =>
    unfold textAt
    refine (yields_elementAt i).bind fun e he => ?_
    split
    · rename_i text htext
      exact .pure ⟨i, he.scalar text htext, .inl rfl⟩
    · exact .throw .malformed
    · rename_i es hes
      have hfind : DenoteSafe table (es.findM? fun e => return (← tagAt e.1) = .value) := by grind
      refine Yields.bind hfind fun found _ => ?_
      split
      · refine (ih _).imp fun text htext => ?_
        obtain ⟨j, hj, -⟩ := htext
        exact ⟨j, hj, .inr (he.mapping es hes)⟩
      · exact .throw .malformed

/-- Reading a scalar fails as malformed, or because its type is particular about texts. -/
theorem fault_of_read {tag : Tag} {text : List Char} {e : Fault} (h : Scalar.read tag text = .error e) :
    e = .malformed ∨ tag.isParticular = true ∧ ∃ err, e = .scalar err := by
  have hatom : ∀ {β : Type} (make : β → Atom) (x : Except ScalarError β),
      Scalar.atom make x = .error e → ∃ err, e = .scalar err := by
    intro β make x hx
    cases x with
    | ok a => cases hx
    | error err => exact ⟨err, (Except.error.inj hx).symm⟩
  have hbinary : ∀ f, Scalar.readBinary text = .error f → f = .malformed := by
    intro f hf
    unfold Scalar.readBinary at hf
    split at hf
    · split at hf <;> cases hf
      rfl
    · cases hf
      rfl
  cases tag with
  | bool => exact .inr ⟨rfl, hatom _ _ h⟩
  | int => exact .inr ⟨rfl, hatom _ _ h⟩
  | float => exact .inr ⟨rfl, hatom _ _ h⟩
  | timestamp => exact .inr ⟨rfl, hatom _ _ h⟩
  | null => cases h
  | str => cases h
  | binary =>
    cases hread : Scalar.readBinary text with
    | ok bs =>
      rw [Scalar.read, hread] at h
      cases h
    | error f =>
      rw [Scalar.read, hread] at h
      cases h
      exact .inl (hbinary _ hread)
  | sequence => exact .inl (Except.error.inj h).symm
  | mapping => exact .inl (Except.error.inj h).symm
  | set => exact .inl (Except.error.inj h).symm
  | pairs => exact .inl (Except.error.inj h).symm
  | merge => exact .inl (Except.error.inj h).symm
  | value => exact .inl (Except.error.inj h).symm
  | unknown => exact .inl (Except.error.inj h).symm

/-- A scalar of a type that merging has changed into text is read whatever it is. -/
theorem unreadable_of_read {i : Nat} {e' : Element} {text : List Char} {err : ScalarError}
    (he : Derives (placed table i) e')
    (htext : ∃ j, (placed table j).content = .scalar text ∧
      (j = i ∨ ∃ entries, (placed table i).content = .mapping entries))
    (htype : e'.tag.isParticular = true) (h : Scalar.read e'.tag text = .error (.scalar err)) :
    Unreadable table err := by
  obtain ⟨j, hj, hstands⟩ := htext
  rcases he.tag with htag | htag
  · exact .text (htag ▸ htype) hj hstands (htag ▸ h)
  · rw [htag] at h
    cases h

@[grind ←] theorem safe_meet (i : Nat) : DenoteSafe table (meet i) := by
  unfold meet
  refine .bind .get fun s => ?_
  split
  · refine (yields_elementAt i).then_guarded fun e he => ?_
    split
    · exact .bind (safe_setCell _ _) fun _ => safe_modify fun _ => rfl
    · rename_i htag hcontent
      refine .bind (yields_textAt i _).guarded fun _ => .throw (.scalar ?_)
      obtain ⟨entries, hentries⟩ := he.mapping _ hcontent
      refine .timestampOfMapping ?_ hentries
      rcases he.tag with h | h
      · exact h ▸ htag
      · rw [htag] at h
        cases h
    · grind
    · grind
    · grind
    · refine (yields_textAt i _).then_guarded fun text htext => ?_
      refine .bind (.lift fun f hf => ?_) fun v => safe_setCell i v
      rcases fault_of_read hf with rfl | ⟨htype, err, rfl⟩
      · exact .malformed
      · exact .scalar (unreadable_of_read he htext htype hf)
  · exact .pure _

@[grind ←] theorem safe_keyAt (i : Nat) : DenoteSafe table (keyAt i) := by
  unfold keyAt
  grind

@[grind ←] theorem safe_entries (mergeFuel i : Nat) : DenoteSafe table (entries mergeFuel i) := by
  have hentry : ∀ e : Nat × Nat, DenoteSafe table (do
      meet e.1
      let k ← keyAt e.1
      meet e.2
      return (k, e.2)) := fun e =>
    .bind (safe_meet _) fun _ => .bind (safe_keyAt _) fun _ => .bind (safe_meet _) fun _ => .pure _
  unfold entries
  refine .bind (safe_entriesAt i) fun _ => .bind (safe_merge i mergeFuel) fun _ => ?_
  exact .bind (safe_entriesAt i) fun es => .bind (.mapM hentry es) fun _ => .pure _

@[grind ←] theorem safe_itemsAt (i : Nat) : DenoteSafe table (itemsAt i) := by
  unfold itemsAt
  grind

@[grind ←] theorem safe_pair (i : Nat) : DenoteSafe table (pair i) := by
  unfold pair
  refine .bind (safe_entriesAt i) fun es => ?_
  split
  · exact .bind (safe_meet _) fun _ => .bind (safe_meet _) fun _ => .modifyGet fun _ hs => hs
  · exact .throw .malformed

end Denotation

end Conform.Yaml
