import Conform.Document.Value
import Conform.Matching.Verify
import Conform.Proofs.Document.Acyclic
import Conform.Proofs.Matching.Run

/-!
# Conformance

What it means that a subject conforms to a shape, said without a walk: a relation on the layers of
the two. A sequence asks for a sequence, a mapping for a mapping, and a key for an entry; nothing is
counted and no path is kept. A verification that returns a report passes the subject exactly if it
conforms. The relation is finitely derived, so on documents that lead back to themselves the
statement is about the walks that end.
-/
namespace Conform.Matching

variable {S X : Type} [Node X]

/-- The mapping `subject` has `value` under `key`. -/
def Has (subject : X) (key : Key) (value : X) : Prop :=
  ∃ es, Node.view subject = .mapping es ∧ es.get? key = some value

/-- `value` is what the mapping `subject` has under the text of `key` or, failing that, under `key`
itself if that is no text. -/
inductive Answers (subject : X) (key : Key) (value : X) : Prop
  | text (h : Has subject (.str key.text) value)
  | itself (lacks : ∀ other, ¬ Has subject (.str key.text) other) (hk : key.string? = none)
      (h : Has subject key value)

/-- `member` is an element of the sequence `subject`, or the value of an entry of the mapping. -/
inductive Member (subject : X) : X → Prop
  | element {form : Form} {xs : List X} {x : X} (hx : Node.view subject = .sequence form xs)
      (hm : x ∈ xs) : Member subject x
  | value {es : Entries X} {key : Key} {x : X} (hx : Node.view subject = .mapping es)
      (hm : (key, x) ∈ es) : Member subject x

theorem member_iff {subject part : X} : Member subject part ↔ part ∈ (Node.view subject).parts := by
  constructor
  · rintro (⟨hx, hm⟩ | ⟨hx, hm⟩)
    · rwa [hx]
    · rw [hx]
      exact List.mem_map_of_mem hm
  · intro h
    cases hx : Node.view subject with
    | null => simp [hx, View.parts] at h
    | scalar s => simp [hx, View.parts] at h
    | sequence form xs =>
      rw [hx] at h
      exact .element hx h
    | mapping es =>
      rw [hx] at h
      obtain ⟨e, he, rfl⟩ := List.mem_map.mp h
      exact .value hx he

/-- A sequence, or a mapping that is not empty. -/
inductive Collection (subject : X) : Prop
  | sequence {form : Form} {xs : List X} (hx : Node.view subject = .sequence form xs)
  | mapping {es : Entries X} (hx : Node.view subject = .mapping es) (he : es ≠ [])

section Lookup

variable {key : Key} {subject : X} {value : X}

theorem has_iff {es : Entries X} (hx : Node.view subject = .mapping es) :
    Has subject key value ↔ es.get? key = some value := by
  simp [Has, hx]

theorem not_has (hx : ∀ es, Node.view subject ≠ .mapping es) : ¬ Has subject key value :=
  fun ⟨es, he, _⟩ => hx es he

theorem answers_iff {es : Entries X} (hx : Node.view subject = .mapping es) :
    Answers subject key value ↔ es.get? (.str key.text) = some value ∨
      es.get? (.str key.text) = none ∧ key.string? = none ∧ es.get? key = some value := by
  constructor
  · rintro (h | ⟨lacks, hk, h⟩)
    · exact .inl ((has_iff hx).mp h)
    · refine .inr ⟨Option.eq_none_iff_forall_ne_some.mpr fun other ho => ?_, hk, (has_iff hx).mp h⟩
      exact lacks other ((has_iff hx).mpr ho)
  · rintro (h | ⟨hn, hk, h⟩)
    · exact .text ((has_iff hx).mpr h)
    · refine .itself (fun other ho => ?_) hk ((has_iff hx).mpr h)
      rw [has_iff hx, hn] at ho
      cases ho

theorem not_answers (hx : ∀ es, Node.view subject ≠ .mapping es) :
    ¬ Answers subject key value := by
  rintro (h | ⟨_, _, h⟩) <;> exact not_has hx h

/-- The entry that an optional key looks up is the one under its name. -/
theorem entry?_optional (h : (Marker.ofKey key).kind = .optional) (subject value : X) :
    entry? (Marker.ofKey key) key subject = some value ↔
      Has subject (.str (Marker.ofKey key).name) value := by
  have hs := Marker.isSome_string?_of_ne_exact (k := key) (by simp [h])
  unfold entry? Has
  cases Node.view subject <;> simp [hs]

theorem entry?_exact (h : (Marker.ofKey key).kind = .exact) (subject value : X) :
    entry? (Marker.ofKey key) key subject = some value ↔ Answers subject key value := by
  unfold entry?
  rw [Marker.name_of_exact h]
  cases hx : Node.view subject with
  | mapping es =>
    rw [answers_iff hx]
    cases ht : es.get? (.str key.text) with
    | some other => simp [ht]
    | none => cases hk : key.string? <;> simp [ht]
  | null => simpa using not_answers (by simp [hx])
  | scalar s => simpa using not_answers (by simp [hx])
  | sequence form xs => simpa using not_answers (by simp [hx])

/-- The members that a walk goes through are those of the subject, each under some key. -/
theorem exists_mem_members_iff : (∃ key, (key, value) ∈ members subject) ↔ Member subject value := by
  constructor
  · rintro ⟨key, hm⟩
    unfold members at hm
    cases hx : Node.view subject with
    | null => simp [hx] at hm
    | scalar s => simp [hx] at hm
    | sequence form xs =>
      simp only [hx, List.mem_map, Prod.mk.injEq] at hm
      obtain ⟨⟨x, i⟩, hi, _, rfl⟩ := hm
      exact .element hx (List.fst_mem_of_mem_zipIdx hi)
    | mapping es =>
      rw [hx] at hm
      exact .value hx hm
  · rintro (⟨hx, hm⟩ | ⟨hx, hm⟩)
    · obtain ⟨i, hi, hget⟩ := List.getElem_of_mem hm
      refine ⟨.str (toString i), ?_⟩
      simp only [members, hx, List.mem_map]
      have hi' := List.getElem?_eq_some_iff.mpr ⟨hi, hget⟩
      exact ⟨(value, i), List.mk_mem_zipIdx_iff_getElem?.mpr hi', rfl⟩
    · rename_i k
      refine ⟨k, ?_⟩
      rw [members, hx]
      exact hm

theorem acceptsWildcard_iff : acceptsWildcard subject = true ↔ Collection subject := by
  unfold acceptsWildcard
  cases hx : Node.view subject with
  | null => simp; rintro (⟨h⟩ | ⟨h, _⟩) <;> simp [hx] at h
  | scalar s => simp; rintro (⟨h⟩ | ⟨h, _⟩) <;> simp [hx] at h
  | sequence form xs => simpa using .sequence hx
  | mapping es =>
    constructor
    · intro h
      exact .mapping hx (by simpa using h)
    · rintro (⟨h⟩ | ⟨h, he⟩)
      · simp [hx] at h
      · rw [hx] at h
        cases h
        simpa using he

end Lookup

variable [Node S]

mutual

/-- The subject may stand where the shape stands as a value. -/
inductive Meets : S → X → Prop
  | null {shape : S} {subject : X} (hs : Node.view shape = .null) : Meets shape subject
  | scalar {shape : S} {subject : X} {s : Scalar} (hs : Node.view shape = .scalar s) :
      Meets shape subject
  | sequence {shape : S} {subject : X} {form form' : Form} {elements : List S} {xs : List X}
      (hs : Node.view shape = .sequence form elements)
      (hx : Node.view subject = .sequence form' xs)
      (data : elements ≠ [] → xs ≠ [])
      (each : ∀ template ∈ elements.head?, ∀ x ∈ xs, Conforms template x) : Meets shape subject
  | mapping {shape : S} {subject : X} {entries : Entries S} {es : Entries X}
      (hs : Node.view shape = .mapping entries) (hx : Node.view subject = .mapping es)
      (below : entries ≠ [] → Conforms shape subject) : Meets shape subject

/-- The subject conforms to the shape. -/
inductive Conforms : S → X → Prop
  | value {shape : S} {subject : X} (hs : Node.kind shape ≠ .mapping)
      (h : Meets shape subject) : Conforms shape subject
  | entries {shape : S} {subject : X} {entries : Entries S}
      (hs : Node.view shape = .mapping entries)
      (each : ∀ e ∈ entries, Satisfies subject e.1 e.2) : Conforms shape subject

/-- The subject has what an entry of a shape mapping asks for. -/
inductive Satisfies : X → Key → S → Prop
  | wildcard {subject : X} {key : Key} {shape : S} (hk : (Marker.ofKey key).kind = .wildcard)
      (hx : Collection subject)
      (mapping : Node.kind shape = .mapping → ∀ x, Member subject x → Conforms shape x)
      (sequence : Node.kind shape = .sequence → ∀ x, Member subject x → Meets shape x) :
      Satisfies subject key shape
  | optional {subject : X} {key : Key} {name : String} {shape : S}
      (hk : Marker.ofKey key = ⟨.optional, name⟩)
      (h : ∀ value, Has subject (.str name) value → Meets shape value) :
      Satisfies subject key shape
  | exact {subject value : X} {key : Key} {shape : S} (hk : (Marker.ofKey key).kind = .exact)
      (answer : Answers subject key value) (h : Meets shape value) : Satisfies subject key shape

end

section Inversion

variable {shape : S} {subject : X}

theorem Meets.exists_of_sequence {form : Form} {elements : List S} (h : Meets shape subject)
    (hs : Node.view shape = .sequence form elements) :
    ∃ form' xs, Node.view subject = .sequence form' xs ∧ (elements ≠ [] → xs ≠ []) ∧
      ∀ template ∈ elements.head?, ∀ x ∈ xs, Conforms template x := by
  rcases h with h | h | ⟨h, hx, data, each⟩ | h <;> rw [hs] at h <;> cases h
  exact ⟨_, _, hx, data, each⟩

theorem Meets.exists_of_mapping {entries : Entries S} (h : Meets shape subject)
    (hs : Node.view shape = .mapping entries) :
    ∃ es, Node.view subject = .mapping es ∧ (entries ≠ [] → Conforms shape subject) := by
  rcases h with h | h | h | ⟨h, hx, below⟩ <;> rw [hs] at h <;> cases h
  exact ⟨_, hx, below⟩

theorem Conforms.meets (h : Conforms shape subject) (hs : Node.kind shape ≠ .mapping) :
    Meets shape subject := by
  rcases h with ⟨_, h⟩ | ⟨h, _⟩
  · exact h
  · exact absurd (Node.kind_of_mapping h) hs

theorem Conforms.satisfies {entries : Entries S} (h : Conforms shape subject)
    (hs : Node.view shape = .mapping entries) : ∀ e ∈ entries, Satisfies subject e.1 e.2 := by
  rcases h with ⟨hkind, _⟩ | ⟨h, each⟩
  · exact absurd (Node.kind_of_mapping hs) hkind
  · rw [hs] at h
    cases h
    exact each

end Inversion

/-- An act passes if it finds nothing and the level that it enters conforms. A fault finds nothing. -/
def Act.Passes : Act S X → Prop
  | .issue _ => False
  | .remark _ => True
  | .enter _ shape subject => Conforms shape subject
  | .fault => True

theorem passes_textActs (key : Key) : ∀ a ∈ (textActs key : List (Act S X)), a.Passes := by
  intro a ha
  rw [(mem_textActs_iff.mp ha).1]
  trivial

section Level

variable {shape : S} {subject : X}

theorem passes_arrayActs (p : Pointer) (elements : List S) (subject : X) :
    (∀ a ∈ arrayActs p elements subject, a.Passes) ↔
      ∃ form xs, Node.view subject = .sequence form xs ∧ (elements ≠ [] → xs ≠ []) ∧
        ∀ template ∈ elements.head?, ∀ x ∈ xs, Conforms template x := by
  unfold arrayActs
  cases hx : Node.view subject with
  | null => simp [Act.found, Act.Passes]
  | scalar s => simp [Act.found, Act.Passes]
  | mapping es => simp [Act.found, Act.Passes]
  | sequence form xs =>
    cases elements with
    | nil => simp
    | cons template more =>
      cases xs with
      | nil => simp [Act.found, Act.Passes]
      | cons x xs => cases more <;> simp [Act.Passes]

theorem meets_iff (p : Pointer) (shape : S) (subject : X) :
    Meets shape subject ↔ ∀ a ∈ valueActs p shape subject, a.Passes := by
  unfold valueActs
  cases hs : Node.view shape with
  | null => simpa using .null hs
  | scalar s => simpa using .scalar hs
  | sequence form elements =>
    dsimp only
    rw [passes_arrayActs]
    constructor
    · rintro (h | h | ⟨h, hx, data, each⟩ | h) <;> rw [hs] at h <;> cases h
      exact ⟨_, _, hx, data, each⟩
    · rintro ⟨form', xs, hx, data, each⟩
      exact .sequence hs hx data each
  | mapping entries =>
    unfold objectActs
    constructor
    · rintro (h | h | h | ⟨h, hx, below⟩) <;> rw [hs] at h <;> cases h
      cases entries with
      | nil => simp [hx]
      | cons e entries => simpa [hx, Act.Passes] using below
    · intro h
      cases hx : Node.view subject with
      | null => simp [hx, Act.found, Act.Passes] at h
      | scalar s => simp [hx, Act.found, Act.Passes] at h
      | sequence form xs => simp [hx, Act.found, Act.Passes] at h
      | mapping es =>
        refine .mapping hs hx fun he => ?_
        simpa [hx, he, Act.Passes] using h

theorem passes_memberActs (p : Pointer) (shape : S) (member : X) :
    (∀ a ∈ memberActs p shape member, a.Passes) ↔
      (Node.kind shape = .mapping → Conforms shape member) ∧
        (Node.kind shape = .sequence → Meets shape member) := by
  have hmeets := meets_iff p shape member
  unfold memberActs Node.kind
  unfold valueActs at hmeets
  cases hs : Node.view shape with
  | null => simp [View.kind]
  | scalar s => simp [View.kind]
  | sequence form elements =>
    rw [hs] at hmeets
    simp [View.kind, hmeets]
  | mapping entries => simp [View.kind, Act.Passes]

theorem satisfies_wildcard_iff (p : Pointer) {key : Key} (hk : (Marker.ofKey key).kind = .wildcard)
    (shape : S) (subject : X) :
    Satisfies subject key shape ↔ Collection subject ∧
      ∀ m ∈ members subject, ∀ a ∈ memberActs (p.push m.1.text) shape m.2, a.Passes := by
  simp only [passes_memberActs]
  constructor
  · rintro (⟨_, hx, mapping, sequence⟩ | ⟨h, _⟩ | ⟨h, _, _⟩)
    · refine ⟨hx, fun m hm => ?_⟩
      have hmem : Member subject m.2 := exists_mem_members_iff.mp ⟨m.1, hm⟩
      exact ⟨fun hs => mapping hs _ hmem, fun hs => sequence hs _ hmem⟩
    · rw [h] at hk; cases hk
    · rw [h] at hk; cases hk
  · rintro ⟨hx, each⟩
    refine .wildcard hk hx (fun hs x hm => ?_) (fun hs x hm => ?_)
    · obtain ⟨name, hname⟩ := exists_mem_members_iff.mpr hm
      exact (each _ hname).1 hs
    · obtain ⟨name, hname⟩ := exists_mem_members_iff.mpr hm
      exact (each _ hname).2 hs

theorem satisfies_iff_markedActs (p : Pointer) (subject : X) (entry : Key × S) :
    Satisfies subject entry.1 entry.2 ↔ ∀ a ∈ markedActs p subject entry, a.Passes := by
  unfold markedActs
  dsimp only
  cases hk : (Marker.ofKey entry.1).kind with
  | wildcard =>
    rw [satisfies_wildcard_iff p hk, ← acceptsWildcard_iff]
    cases acceptsWildcard subject with
    | true =>
      simp only [true_and, if_true, List.forall_mem_flatMap, List.forall_mem_append]
      refine forall₂_congr fun m _ => (and_iff_right fun a ha => ?_).symm
      exact passes_textActs m.1 a (mem_textActs_of_mem_nameActs ha)
    | false => simp [Act.found, Act.Passes]
  | optional =>
    have hlookup := entry?_optional hk subject
    constructor
    · rintro (⟨h, _⟩ | ⟨h, each⟩ | ⟨h, _, _⟩)
      · rw [h] at hk; cases hk
      · cases he : entry? (Marker.ofKey entry.1) entry.1 subject with
        | none => simp
        | some value =>
          refine (meets_iff _ _ _).mp (each value ?_)
          have hhas := (hlookup value).mp he
          rwa [h] at hhas
      · rw [h] at hk; cases hk
    · intro h
      have hmarker : Marker.ofKey entry.1 = ⟨.optional, (Marker.ofKey entry.1).name⟩ := by rw [← hk]
      refine .optional hmarker fun value hv => ?_
      rw [(hlookup value).mpr hv] at h
      exact (meets_iff _ _ _).mpr h
  | exact =>
    have hlookup := entry?_exact hk subject
    constructor
    · rintro (⟨h, _⟩ | ⟨h, _⟩ | ⟨h, answer, hm⟩)
      · rw [h] at hk; cases hk
      · rw [h] at hk; cases hk
      · rw [(hlookup _).mpr answer]
        exact (meets_iff _ _ _).mp hm
    · intro h
      cases he : entry? (Marker.ofKey entry.1) entry.1 subject with
      | none => simp [he, Act.found, Act.Passes] at h
      | some value =>
        rw [he] at h
        exact .exact hk ((hlookup value).mp he) ((meets_iff _ _ _).mpr h)

theorem satisfies_iff (p : Pointer) (subject : X) (entry : Key × S) :
    Satisfies subject entry.1 entry.2 ↔ ∀ a ∈ entryActs p subject entry, a.Passes := by
  rw [satisfies_iff_markedActs p, entryActs, List.forall_mem_append]
  exact (and_iff_right (passes_textActs entry.1)).symm

theorem conforms_iff (p : Pointer) (shape : S) (subject : X) :
    Conforms shape subject ↔ ∀ a ∈ acts p shape subject, a.Passes := by
  by_cases hm : Node.kind shape = .mapping
  · obtain ⟨entries, hs⟩ := Node.exists_view_mapping hm
    simp only [acts, hs, List.forall_mem_flatMap]
    constructor
    · rintro (⟨h, _⟩ | ⟨h, each⟩)
      · exact absurd hm h
      · rw [hs] at h
        cases h
        exact fun e he => (satisfies_iff p subject e).mp (each e he)
    · exact fun h => .entries hs fun e he => (satisfies_iff p subject e).mpr (h e he)
  · have hacts : acts p shape subject = valueActs p shape subject := acts_of_not_mapping hm
    rw [hacts, ← meets_iff]
    constructor
    · rintro (⟨_, h⟩ | ⟨h, _⟩)
      · exact h
      · exact absurd (by rw [Node.kind, h]; rfl) hm
    · exact .value hm

end Level

/-- However far a walk is unfolded, its acts pass exactly if the subject conforms. -/
theorem passes_unfolding_iff (n : Nat) (p : Pointer) (shape : S) (subject : X) :
    (∀ a ∈ unfolding n p shape subject, a.Passes) ↔ Conforms shape subject := by
  induction n generalizing p shape subject with
  | zero => simp [unfolding, Act.Passes]
  | succ n ih =>
    rw [conforms_iff p, unfolding, List.forall_mem_flatMap]
    refine forall₂_congr fun a _ => ?_
    cases a with
    | issue i => simp [Act.expand, Act.Passes]
    | remark text => simp [Act.expand, Act.Passes]
    | enter q shape' subject' => exact ih q shape' subject'
    | fault => simp [Act.expand, Act.Passes]

/-- Acts that do not stop a walk pass exactly if there is no issue among them. -/
theorem passes_iff_of_finished {as : List (Act S X)} (h : Finished as) :
    (∀ a ∈ as, a.Passes) ↔ issuesOf as = [] := by
  rw [issuesOf, List.filterMap_eq_nil_iff]
  refine forall₂_congr fun a ha => ?_
  cases a with
  | issue i => simp [Act.Passes, Act.issue?]
  | remark text => simp [Act.Passes, Act.issue?]
  | enter q shape subject => exact absurd (h _ ha) (by simp)
  | fault => exact absurd (h _ ha) (by simp)

/-- A report that a walk returns to the root is without issues exactly if the subject conforms. -/
theorem issues_eq_nil_iff_conforms {stack : Option Nat} {limit depth : Int} {shape : S}
    {subject : X} {t : Trail}
    (h : (walkOn stack limit depth shape subject).run (.start .root) = (.ok (), t)) :
    t.report.messages = [] ↔ Conforms shape subject := by
  obtain ⟨stop, n, -, hrun⟩ := exists_run_walkOn stack limit depth shape subject .root
  rw [hrun _ rfl] at h
  have hfin : Finished (unfolding n .root shape subject) :=
    (play_ok_iff stop _ _).mp (congrArg Prod.fst h)
  have hreport := report_play stop (unfolding n .root shape subject) (.start .root)
  rw [h, reached_of_finished hfin] at hreport
  rw [hreport, ← passes_unfolding_iff n .root, passes_iff_of_finished hfin]
  simp [Trail.start, Report.empty]

end Conform.Matching

namespace Conform.Matcher

variable {S X : Type} [Node S] [Node X]

/-- **A subject passes exactly if it conforms.** -/
theorem status_ok_iff_conforms (stack : Stack) (m : Matcher) (shape : S) (subject : X) (r : Report)
    (h : m.verifyOn stack shape subject = .ok r) :
    r.status = .ok ↔ Matching.Conforms shape subject := by
  obtain ⟨t, hrun, rfl⟩ := exists_run_of_verifyOn h
  rw [← Matching.issues_eq_nil_iff_conforms hrun]
  cases hm : t.report.messages <;> simp [Report.status, hm]

/-- Groups of members, each with an identifier and, if it likes, a role. -/
def groupsShape : Value :=
  .record [("[*:key]", .list [.record [("id", .null), ("[opt:key:role]", .mapping [])]])]

def groups : Value :=
  .record [("staff", .list [.record [("id", .int 1), ("role", .record [])]]),
    ("guests", .list [.record [("role", .str "none")]])]

theorem not_conforms_groups :
    ∃ r, (⟨4, false, by decide⟩ : Matcher).verify groupsShape groups = .ok r ∧
      r.messages = ["Missing required key 'id' at /guests",
        "Value at /guests/role should be object (expected: object, found: scalar)"] ∧
      ¬ Matching.Conforms groupsShape groups := by
  refine ⟨_, rfl, rfl, fun hc => ?_⟩
  have hok := (status_ok_iff_conforms .usual ⟨4, false, by decide⟩ groupsShape groups _ rfl).mpr hc
  cases hok

end Conform.Matcher
