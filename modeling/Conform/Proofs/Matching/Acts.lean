import Mathlib.Data.List.Basic
import Conform.Matching.Walk

/-!
# Walks without state

The acts of one level are listed in order, each with the pointer at which it takes place: an issue
is found, the shape is remarked upon, a lower level is entered, or a key is at fault because it cannot
be written. No list is ever cut short, not even at a fault, and no pointer is ever changed. The unfolding
of a walk puts the acts of a lower level in place of its entry, over so many levels; the entries that are
left are those of the level that comes next.
-/
namespace Conform.Matching

/-- What a level of a walk does at a time. -/
inductive Act (S X : Type) where
  | issue (i : Issue)
  | remark (text : String)
  | enter (p : Pointer) (shape : S) (subject : X)
  | fault

namespace Act

variable {S X : Type}

def issue? : Act S X → Option Issue
  | .issue i => some i
  | _ => none

/-- What is matched at the level that is entered. -/
def entered? : Act S X → Option (S × X)
  | .enter _ shape subject => some (shape, subject)
  | _ => none

def isEnter (a : Act S X) : Bool := a.entered?.isSome

/-- Whether a walk goes no further, as far as it is unfolded. -/
def stops : Act S X → Bool
  | .enter .. => true
  | .fault => true
  | _ => false

/-- The acts that take the place of one: those of `f`, if it enters a level. -/
def expand (f : Pointer → S → X → List (Act S X)) : Act S X → List (Act S X)
  | .enter p shape subject => f p shape subject
  | a => [a]

@[simp] theorem entered?_issue (i : Issue) : (.issue i : Act S X).entered? = none := rfl

@[simp] theorem entered?_remark (text : String) : (.remark text : Act S X).entered? = none := rfl

@[simp] theorem entered?_enter (p : Pointer) (shape : S) (subject : X) :
    (.enter p shape subject : Act S X).entered? = some (shape, subject) := rfl

@[simp] theorem entered?_fault : (.fault : Act S X).entered? = none := rfl

@[simp] theorem isEnter_issue (i : Issue) : (.issue i : Act S X).isEnter = false := rfl

@[simp] theorem isEnter_remark (text : String) : (.remark text : Act S X).isEnter = false := rfl

@[simp] theorem isEnter_enter (p : Pointer) (shape : S) (subject : X) :
    (.enter p shape subject : Act S X).isEnter = true := rfl

@[simp] theorem isEnter_fault : (.fault : Act S X).isEnter = false := rfl

@[simp] theorem stops_issue (i : Issue) : (.issue i : Act S X).stops = false := rfl

@[simp] theorem stops_remark (text : String) : (.remark text : Act S X).stops = false := rfl

@[simp] theorem stops_enter (p : Pointer) (shape : S) (subject : X) :
    (.enter p shape subject : Act S X).stops = true := rfl

@[simp] theorem stops_fault : (.fault : Act S X).stops = true := rfl

/-- An issue of the kind at `p`. -/
def found (kind : IssueKind) (message : String → String) (p : Pointer) : Act S X :=
  .issue ⟨kind, message p.render, p.render⟩

@[simp] theorem entered?_found (kind : IssueKind) (message : String → String) (p : Pointer) :
    (found kind message p : Act S X).entered? = none := entered?_issue _

end Act

section Finished

variable {S X : Type}

/-- An unfolding is complete when no level is left to be entered. -/
def Complete (as : List (Act S X)) : Prop := ∀ a ∈ as, a.isEnter = false

/-- An unfolding is finished when a walk gets through it: it is complete and without faults. -/
def Finished (as : List (Act S X)) : Prop := ∀ a ∈ as, a.stops = false

theorem finished_iff {as : List (Act S X)} : Finished as ↔ Complete as ∧ .fault ∉ as := by
  constructor
  · refine fun h => ⟨fun a ha => ?_, fun hfault => by simpa using h _ hfault⟩
    have hstops := h a ha
    cases a <;> simp_all
  · rintro ⟨hcomplete, hfault⟩ a ha
    have hleft := hcomplete a ha
    cases a <;> simp_all

theorem Finished.complete {as : List (Act S X)} (h : Finished as) : Complete as :=
  (finished_iff.mp h).1

theorem flatMap_expand_of_complete {as : List (Act S X)} (h : Complete as)
    (f : Pointer → S → X → List (Act S X)) : as.flatMap (Act.expand f) = as := by
  have hself : ∀ a ∈ as, a.expand f = [a] := by
    intro a ha
    cases a with
    | issue i => rfl
    | remark text => rfl
    | enter q shape subject => simpa using h _ ha
    | fault => rfl
  rw [List.flatMap_congr hself]
  exact List.flatMap_singleton' as

end Finished

section Names

variable {S X : Type} {key : Key} {a : Act S X}

/-- A key that is needed as text is at fault if it has none. -/
def textActs (key : Key) : List (Act S X) := if key.isWritable then [] else [.fault]

theorem mem_textActs_iff : a ∈ (textActs key : List (Act S X)) ↔ a = .fault ∧ key.isWritable = false := by
  unfold textActs
  cases key.isWritable <;> simp

/-- A fault stays where it is when levels are unfolded. -/
theorem flatMap_expand_textActs (key : Key) (f : Pointer → S → X → List (Act S X)) :
    (textActs key).flatMap (Act.expand f) = textActs key := by
  unfold textActs
  cases key.isWritable <;> rfl

/-- A fault enters nothing. -/
theorem entered_textActs (key : Key) :
    (textActs key : List (Act S X)).filterMap Act.entered? = [] := by
  unfold textActs
  cases key.isWritable <;> rfl

theorem enter_not_mem_textActs {p : Pointer} {shape : S} {subject : X} :
    .enter p shape subject ∉ textActs key :=
  fun h => nomatch (mem_textActs_iff.mp h).1

theorem textActs_of_isWritable (h : key.isWritable = true) : (textActs key : List (Act S X)) = [] :=
  if_pos h

/-- A text is its own text. -/
theorem textActs_str (s : String) : (textActs (.str s) : List (Act S X)) = [] := rfl

variable [Node S] {shape : S}

theorem view_of_leaf (h : Node.kind shape = .null ∨ Node.kind shape = .scalar) :
    Node.view shape = .null ∨ ∃ s, Node.view shape = .scalar s := by
  unfold Node.kind at h
  cases hs : Node.view shape with
  | null => exact .inl rfl
  | scalar s => exact .inr ⟨s, rfl⟩
  | sequence form elements => simp [hs, View.kind] at h
  | mapping entries => simp [hs, View.kind] at h

/-- The key of a member is needed where something is asked of the member. -/
def nameActs (shape : S) (key : Key) : List (Act S X) :=
  match Node.view shape with
  | .null => []
  | .scalar _ => []
  | _ => textActs key

theorem nameActs_of_leaf (h : Node.kind shape = .null ∨ Node.kind shape = .scalar) :
    (nameActs shape key : List (Act S X)) = [] := by
  rcases view_of_leaf h with hs | ⟨s, hs⟩ <;> rw [nameActs, hs]

theorem nameActs_of_not_leaf (h : ¬ (Node.kind shape = .null ∨ Node.kind shape = .scalar)) :
    (nameActs shape key : List (Act S X)) = textActs key := by
  unfold Node.kind at h
  unfold nameActs
  cases hs : Node.view shape with
  | null => simp [hs, View.kind] at h
  | scalar s => simp [hs, View.kind] at h
  | sequence form elements => rfl
  | mapping entries => rfl

theorem mem_textActs_of_mem_nameActs (h : a ∈ (nameActs shape key : List (Act S X))) :
    a ∈ (textActs key : List (Act S X)) := by
  by_cases hleaf : Node.kind shape = .null ∨ Node.kind shape = .scalar
  · rw [nameActs_of_leaf hleaf] at h
    cases h
  · rwa [nameActs_of_not_leaf hleaf] at h

theorem nameActs_of_isWritable (h : key.isWritable = true) :
    (nameActs shape key : List (Act S X)) = [] := by
  refine List.eq_nil_iff_forall_not_mem.mpr fun a ha => ?_
  have hfault := (mem_textActs_iff.mp (mem_textActs_of_mem_nameActs ha)).2
  simp [h] at hfault

end Names

section Level

variable {S X : Type} [Node S] [Node X]

/-- The acts for a subject that has to be a sequence. -/
def arrayActs (p : Pointer) (shape : List S) (subject : X) : List (Act S X) :=
  match Node.view subject with
  | .sequence _ xs =>
    match shape with
    | [] => []
    | template :: more =>
      (if more.isEmpty then [] else [.remark (onlyFirstElement shape.length p.render)]) ++
        if xs.isEmpty then [.found .emptyArray nothingInArray p]
        else xs.map fun x => .enter p template x
  | v => [.found .arrayTypeMismatch (notAnArray v.kind) p]

/-- The acts for a subject that has to be a mapping. -/
def objectActs (p : Pointer) (shape : S) (entries : Entries S) (subject : X) : List (Act S X) :=
  match Node.view subject with
  | .mapping _ => if entries.isEmpty then [] else [.enter p shape subject]
  | v => [.found .objectTypeMismatch (notAnObject v.kind) p]

def valueActs (p : Pointer) (shape : S) (subject : X) : List (Act S X) :=
  match Node.view shape with
  | .null => []
  | .scalar _ => []
  | .sequence _ elements => arrayActs p elements subject
  | .mapping entries => objectActs p shape entries subject

/-- The acts for one member that a wildcard stands for. -/
def memberActs (p : Pointer) (shape : S) (member : X) : List (Act S X) :=
  match Node.view shape with
  | .null => []
  | .scalar _ => []
  | .sequence _ elements => arrayActs p elements member
  | .mapping _ => [.enter p shape member]

/-- The acts for an entry whose key has a text. -/
def markedActs (p : Pointer) (subject : X) (entry : Key × S) : List (Act S X) :=
  let marker := Marker.ofKey entry.1
  match marker.kind with
  | .wildcard =>
    if acceptsWildcard subject then
      (members subject).flatMap fun m =>
        nameActs entry.2 m.1 ++ memberActs (p.push m.1.text) entry.2 m.2
    else [.found .missingRequiredKey (missingKey marker.name) p]
  | .optional =>
    match entry? marker entry.1 subject with
    | some value => valueActs (p.push marker.name) entry.2 value
    | none => []
  | .exact =>
    match entry? marker entry.1 subject with
    | some value => valueActs (p.push marker.name) entry.2 value
    | none => [.found .missingRequiredKey (missingKey marker.name) p]

def entryActs (p : Pointer) (subject : X) (entry : Key × S) : List (Act S X) :=
  textActs entry.1 ++ markedActs p subject entry

/-- A key that is no marker has a text and must be found. -/
theorem entryActs_of_isPlain {key : Key} (h : Marker.isPlain key = true) (p : Pointer) (part : S)
    (subject : X) :
    entryActs p subject (key, part) =
      match entry? (Marker.ofKey key) key subject with
      | some value => valueActs (p.push (Marker.ofKey key).name) part value
      | none => [.found .missingRequiredKey (missingKey (Marker.ofKey key).name) p] := by
  obtain ⟨name, rfl, -⟩ := Marker.isPlain_iff.mp h
  rw [entryActs, textActs_str, List.nil_append, markedActs]
  simp only [Marker.kind_of_isPlain h]

/-- The acts of one level in pre-order. -/
def acts (p : Pointer) (shape : S) (subject : X) : List (Act S X) :=
  match Node.view shape with
  | .mapping entries => entries.flatMap (entryActs p subject)
  | _ => valueActs p shape subject

theorem acts_of_not_mapping {p : Pointer} {shape : S} {subject : X}
    (h : Node.kind shape ≠ .mapping) : acts p shape subject = valueActs p shape subject := by
  unfold acts
  split
  · rename_i entries hs
    exact absurd (Node.kind_of_mapping hs) h
  · rfl

/-- A null and a scalar ask for nothing. -/
theorem valueActs_of_leaf {p : Pointer} {shape : S} {subject : X}
    (h : Node.kind shape = .null ∨ Node.kind shape = .scalar) : valueActs p shape subject = [] := by
  rcases view_of_leaf h with hs | ⟨s, hs⟩ <;> rw [valueActs, hs]

/-- A member is checked as a value is, unless the shape is a mapping: that is followed at once. -/
theorem memberActs_of_mapping {p : Pointer} {shape : S} {member : X}
    (h : Node.kind shape = .mapping) : memberActs p shape member = [.enter p shape member] := by
  obtain ⟨entries, hs⟩ := Node.exists_view_mapping h
  rw [memberActs, hs]

theorem memberActs_of_not_mapping {p : Pointer} {shape : S} {member : X}
    (h : Node.kind shape ≠ .mapping) : memberActs p shape member = valueActs p shape member := by
  unfold Node.kind at h
  unfold memberActs valueActs
  cases hs : Node.view shape with
  | mapping entries => exact absurd (by rw [hs]; rfl) h
  | null => rfl
  | scalar s => rfl
  | sequence form elements => rfl

/-- The acts of a walk over so many levels. The entries among them are those of the level below. -/
def unfolding : Nat → Pointer → S → X → List (Act S X)
  | 0, p, shape, subject => [.enter p shape subject]
  | n + 1, p, shape, subject => (acts p shape subject).flatMap (Act.expand (unfolding n))

end Level

variable {S X : Type} [Node S] [Node X]

/-- To unfold further is to unfold what is left to be entered. -/
theorem unfolding_add (m n : Nat) (p : Pointer) (shape : S) (subject : X) :
    unfolding (m + n) p shape subject =
      (unfolding m p shape subject).flatMap (Act.expand (unfolding n)) := by
  induction m generalizing p shape subject with
  | zero => simp [unfolding, Act.expand]
  | succ m ih =>
    rw [Nat.add_right_comm, unfolding, unfolding, List.flatMap_assoc]
    refine List.flatMap_congr fun a _ => ?_
    cases a with
    | issue i => simp [Act.expand]
    | remark text => simp [Act.expand]
    | enter q shape' subject' => exact ih q shape' subject'
    | fault => simp [Act.expand]

/-- A complete unfolding does not change with the number of levels. -/
theorem unfolding_of_complete {m n : Nat} {p : Pointer} {shape : S} {subject : X}
    (h : Complete (unfolding m p shape subject)) (hle : m ≤ n) :
    unfolding n p shape subject = unfolding m p shape subject := by
  obtain ⟨k, rfl⟩ := Nat.exists_eq_add_of_le hle
  rw [unfolding_add, flatMap_expand_of_complete h]

end Conform.Matching
