import Conform.Proofs.Lint.Visits

/-!
# Strict matchers

A strict matcher lists the problems of a shape before it walks, with the same limit. The listing
counts every part of the shape as a level, a walk only those that it matches against a mapping or an
element, so a walk is never the deeper of the two: if the listing returns, no subject whatsoever leads
the walk beyond the limit. A shape without problems that the listing reaches the end of is matched as
a lenient matcher does it; one that would lead a walk beyond the limit is refused, also with subjects
that end before.
-/
namespace Conform.Matcher

open Matching

/-- The matcher with another strictness. -/
def setStrict (b : Bool) (m : Matcher) : Matcher := { m with strict := b }

@[simp] theorem strict_setStrict (b : Bool) (m : Matcher) : (m.setStrict b).strict = b := rfl

@[simp] theorem maxDepth_setStrict (b : Bool) (m : Matcher) :
    (m.setStrict b).maxDepth = m.maxDepth := rfl

variable {S X : Type} [Node S] [Node X] {m : Matcher} {shape : S}

/-- Where the listing of a strict matcher is empty, it goes on as a lenient one. -/
theorem verifyOn_strict (stack : Stack) (m : Matcher) (hs : Node.kind shape = .mapping)
    (subject : X) :
    (m.setStrict true).verifyOn stack shape subject =
      match Lint.issuesOn stack.listing m.maxDepth shape with
      | .ok [] => (m.setStrict false).verifyOn stack shape subject
      | .ok issues => .error (.ambiguous issues)
      | .error e => .error (.lint e) := by
  obtain ⟨entries, hv⟩ := Node.exists_view_mapping hs
  unfold verifyOn outcomeOn refuse
  rw [hv]
  simp only [strict_setStrict, maxDepth_setStrict, if_true]
  rcases Lint.issuesOn stack.listing m.maxDepth shape with e | (_ | ⟨i, issues⟩) <;> rfl

/-- A shape whose listing returns has no part below the limit. -/
theorem within_of_listed {issues : List ShapeIssue} (hs : Node.kind shape = .mapping)
    (h : Lint.issues m.maxDepth shape = .ok issues) {d : Nat} (hd : Leads Part shape d) :
    d ≤ m.maxDepth := by
  rw [Lint.issues, Lint.issuesWithin, hs] at h
  have hlt := ((Lint.returns_issuesFrom_iff _ _ _ _).mp ⟨_, h⟩).1 d hd
  unfold Lint.levels at hlt
  omega

theorem partsWritable_of_listed {issues : List ShapeIssue} (hs : Node.kind shape = .mapping)
    (h : Lint.issues m.maxDepth shape = .ok issues) : PartsWritable shape := by
  rw [Lint.issues, Lint.issuesWithin, hs] at h
  exact ((Lint.returns_issuesFrom_iff _ _ _ _).mp ⟨_, h⟩).2

/-- **A listed shape leads no walk beyond the limit.** If the problems of a shape can be listed within
a limit, a lenient matcher returns a report on every subject, unless a key of the subject has no text. A
strict one stops for the depth of the shape exactly if the listing does, and never in the walk. -/
theorem depth_verdict_of_listing (m : Matcher) (shape : S) (hs : Node.kind shape = .mapping) :
    (∀ issues, Lint.issues m.maxDepth shape = .ok issues →
      ∀ subject : X, (∃ r, (m.setStrict false).verifyOn .unbounded shape subject = .ok r) ∨
        ¬ KeysWritable subject ∧ (m.setStrict false).verifyOn .unbounded shape subject =
          .error (.walk m.maxDepth .unwritable)) ∧
    ∀ subject : X,
      (∀ e, (m.setStrict true).verifyOn .unbounded shape subject = .error (.lint e) ↔
        Lint.issues m.maxDepth shape = .error e) ∧
      ∀ limit e, (m.setStrict true).verifyOn .unbounded shape subject = .error (.walk limit e) →
        ¬ KeysWritable subject ∧ e = .unwritable := by
  have hlenient : ∀ issues, Lint.issues m.maxDepth shape = .ok issues → ∀ subject : X,
      (∃ r, (m.setStrict false).verifyOn .unbounded shape subject = .ok r) ∨
        ¬ KeysWritable subject ∧ (m.setStrict false).verifyOn .unbounded shape subject =
          .error (.walk m.maxDepth .unwritable) := by
    intro issues h subject
    have hwithin := fun d (hd : Enters shape subject d) => within_of_listed hs h hd.leads_shape
    refine (verifyOn_of_enters_le (m := m.setStrict false) rfl hs hwithin).imp_right ?_
    exact fun ⟨hfault, herror⟩ => ⟨fun hx => hfault ⟨partsWritable_of_listed hs h, hx⟩, herror⟩
  refine ⟨hlenient, fun subject => ?_⟩
  have hstrict := verifyOn_strict .unbounded m hs subject
  rw [show Lint.issuesOn Stack.unbounded.listing m.maxDepth shape =
    Lint.issues m.maxDepth shape from rfl] at hstrict
  rcases h : Lint.issues m.maxDepth shape with e | (_ | ⟨i, issues⟩)
  · simp [hstrict, h]
  · rcases hlenient [] h subject with ⟨r, hr⟩ | ⟨hkeys, herror⟩
    · simp [hstrict, h, hr]
    · rw [h] at hstrict
      rw [hstrict, herror]
      refine ⟨fun e => iff_of_false nofun nofun, fun limit e heq => ?_⟩
      cases heq
      exact ⟨hkeys, rfl⟩
  · simp [hstrict, h]

/-- Two wildcards in one mapping, which a listing reports and a walk accepts. -/
def twoWildcards : Value :=
  .record [("[*:key]", .record [("next", .null)]), (" [*:key]", .mapping [])]

theorem depth_verdict_of_listing_loop :
    Node.kind twoWildcards = .mapping ∧
      (∃ issues, Lint.issues (⟨2, false, by decide⟩ : Matcher).maxDepth twoWildcards = .ok issues ∧
        issues.length = 1) ∧
      ∃ r, ((⟨2, false, by decide⟩ : Matcher).setStrict false).verifyOn .unbounded twoWildcards loop =
        .ok r := by
  have h := depth_verdict_of_listing (X := Document) ⟨2, false, by decide⟩ twoWildcards rfl
  have hkeys : KeysWritable loop := keysWritable_of_isWritable rfl
  exact ⟨rfl, ⟨_, rfl, rfl⟩, (h.1 _ rfl loop).resolve_right fun hfault => hfault.1 hkeys⟩

/-- **Strictness matters to a clean shape for its depth alone.** Let all keys of the shape have a text. If
the listing reaches the end of the shape, a strict and a lenient matcher come to the same on every subject.
If some subject leads a walk beyond the limit, a strict matcher refuses the shape for its depth, whatever
the subject. In any case a strict matcher comes to what a lenient one comes to, or stops with the listing
for the depth. -/
theorem strict_eq_lenient_or_too_deep (stack : Stack) (m : Matcher) (shape : S)
    (hs : Node.kind shape = .mapping) (hclean : Lint.Clean shape) (hkeys : PartsWritable shape) :
    ((∀ d, Leads Part shape d → d < capped stack.listing (Lint.levels m.maxDepth)) → ∀ subject : X,
      (m.setStrict true).verifyOn stack shape subject =
        (m.setStrict false).verifyOn stack shape subject) ∧
    (∀ (Y : Type) [Node Y] (other : Y) (d : Nat), Enters shape other d → m.maxDepth < d →
      ∀ subject : X, ∃ e,
        (m.setStrict true).verifyOn stack shape subject = .error (.lint e) ∧ e.isDepth = true) ∧
    ∀ subject : X,
      (m.setStrict true).verifyOn stack shape subject =
        (m.setStrict false).verifyOn stack shape subject ∨
      ∃ e, (m.setStrict true).verifyOn stack shape subject = .error (.lint e) ∧ e.isDepth = true := by
  obtain ⟨stop, -, hlisting⟩ := Lint.issuesOn_eq hs stack.listing m.maxDepth
  have hreturns := Lint.returns_issuesFrom_iff stop (capped stack.listing (Lint.levels m.maxDepth))
    .root shape
  have hwithin : (∀ d, Leads Part shape d → d < capped stack.listing (Lint.levels m.maxDepth)) →
      ∀ subject : X, (m.setStrict true).verifyOn stack shape subject =
        (m.setStrict false).verifyOn stack shape subject := by
    intro h subject
    rw [verifyOn_strict stack m hs, hlisting,
      Lint.issuesFrom_of_returns _ _ _ _ (hreturns.mpr ⟨h, hkeys⟩), Lint.listing_of_clean _ _ hclean]
  have hbeyond : (¬ ∀ d, Leads Part shape d → d < capped stack.listing (Lint.levels m.maxDepth)) →
      ∀ subject : X, ∃ e,
        (m.setStrict true).verifyOn stack shape subject = .error (.lint e) ∧ e.isDepth = true := by
    intro h subject
    obtain ⟨e, he⟩ := not_returns_iff.mp fun hok => h (hreturns.mp hok).1
    refine ⟨e, ?_, Lint.isDepth_of_issuesOn hs hkeys (hlisting.trans he)⟩
    rw [verifyOn_strict stack m hs, hlisting, he]
  refine ⟨hwithin, fun Y _ other d hd hlt => ?_, fun subject => ?_⟩
  · -- What some subject leads a walk into is a part of the shape, so the listing comes to it too.
    refine hbeyond fun h => ?_
    have hlisted := (h d hd.leads_shape).trans_le (capped_le _ _)
    unfold Lint.levels at hlisted
    omega
  · by_cases h : ∀ d, Leads Part shape d → d < capped stack.listing (Lint.levels m.maxDepth)
    · exact .inl (hwithin h subject)
    · exact .inr (hbeyond h subject)

section Chain

/-- Mappings inside one another, each with one entry, down to a null. -/
def chain : List String → Value
  | [] => .null
  | name :: names => .record [(name, chain names)]

theorem clean_chain (names : List String)
    (h : ∀ name ∈ names, Marker.isMalformed (.str name) = false) : Lint.Clean (chain names) := by
  induction names with
  | nil =>
    refine Lint.clean_of_parts trivial fun part hp => ?_
    rcases hp.kind with h | h <;> cases h
  | cons name names ih =>
    obtain ⟨hname, hnames⟩ := List.forall_mem_cons.mp h
    refine Lint.clean_of_parts ⟨?_, ?_⟩ fun part hp => ?_
    · exact List.length_filter_le _ _
    · intro e he
      rw [List.mem_singleton.mp he]
      exact hname
    · obtain ⟨key, hkey⟩ := (part_iff_of_mapping rfl).mp hp
      cases List.mem_singleton.mp hkey
      exact ih hnames

theorem partsWritable_chain (names : List String) : PartsWritable (chain names) := by
  induction names with
  | nil =>
    refine forall_reached_iff.mpr ⟨nofun, fun part hp => ?_⟩
    rcases hp.kind with h | h <;> cases h
  | cons name names ih =>
    refine forall_reached_iff.mpr ⟨(not_lacksText_of_mapping rfl).mpr ?_, fun part hp => ?_⟩
    · exact List.forall_mem_singleton.mpr rfl
    · obtain ⟨key, hkey⟩ := (part_iff_of_mapping rfl).mp hp
      cases List.mem_singleton.mp hkey
      exact ih

def abc : Value := chain ["a", "b", "c"]

theorem clean_abc : Lint.Clean abc := clean_chain _ (by decide)

theorem strict_eq_lenient_or_too_deep_abc :
    Node.kind abc = .mapping ∧ Lint.Clean abc ∧ PartsWritable abc ∧
      (⟨3, true, by decide⟩ : Matcher).verifyOn .usual abc (Value.mapping []) =
        (⟨3, false, by decide⟩ : Matcher).verifyOn .usual abc (Value.mapping []) ∧
      Enters abc abc 2 ∧
      ∃ e, (⟨1, true, by decide⟩ : Matcher).verifyOn .usual abc (Value.mapping []) =
        .error (.lint e) ∧ e.isDepth = true := by
  have hkeys : PartsWritable abc := partsWritable_chain _
  have hwide := strict_eq_lenient_or_too_deep (X := Value) .usual ⟨3, false, by decide⟩ abc rfl
    clean_abc hkeys
  have hnarrow := strict_eq_lenient_or_too_deep (X := Value) .usual ⟨1, false, by decide⟩ abc rfl
    clean_abc hkeys
  have henters : Enters abc abc 2 := .lower (.head _) (.lower (.head _) (.here _ _))
  have hlisting : Lint.issuesFrom (fun _ => .stackExhausted 3) 4 .root abc = .ok [] := rfl
  have hwithin := ((Lint.returns_issuesFrom_iff _ _ _ _).mp ⟨_, hlisting⟩).1
  exact ⟨rfl, clean_abc, hkeys, hwide.1 hwithin _, henters,
    hnarrow.2.1 Value abc 2 henters (by decide) _⟩

/-- A strict matcher refuses a clean shape on a subject that a lenient one returns a report on: the
shape goes beyond the limit, the subject ends before. -/
theorem strict_refuses_deep_shape :
    Node.kind abc = .mapping ∧ Lint.Clean abc ∧
      (∃ r, (⟨1, false, by decide⟩ : Matcher).verify abc (Value.mapping []) = .ok r ∧
        r.messages = ["Missing required key 'a' at /"]) ∧
      (⟨1, true, by decide⟩ : Matcher).verify abc (Value.mapping []) =
        .error (.lint (.tooDeep 1 "/a/b")) :=
  ⟨rfl, clean_abc, ⟨_, rfl, rfl⟩, rfl⟩

end Chain

end Conform.Matcher
