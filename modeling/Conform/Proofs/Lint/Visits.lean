import Conform.Document.Value
import Conform.Proofs.Lint.Listing

/-!
# What a listing visits and what it lists

A listing visits the root of a shape, the values of every mapping it visits and the first element of
every sequence, each a level deeper than what it belongs to. It stops if and only if it would visit a
node beyond its limit or one with a key that has no text. Otherwise it lists the issues of what it visits
in pre-order, and nothing else.

`Lists` says what the pre-order is without counting levels. Where a shape leads back to itself nothing
is listed; elsewhere there is exactly one list.
-/
namespace Conform.Lint

open Matching (LacksText Leads Part PartsWritable)

variable {S : Type} [Node S]

/-- From a root at the pointer `p` on, a node is visited at some depth and at some pointer. The first
element of a sequence has the pointer of the sequence. -/
inductive Visits (p : Pointer) (root : S) : S → Nat → Pointer → Prop
  | root : Visits p root root 0 p
  | element {node x : S} {d : Nat} {q : Pointer} {form : Form} {xs : List S}
      (h : Visits p root node d q) (hv : Node.view node = .sequence form xs)
      (hx : xs.head? = some x) : Visits p root x (d + 1) q
  | value {node x : S} {d : Nat} {q : Pointer} {entries : Entries S} {key : Key}
      (h : Visits p root node d q) (hv : Node.view node = .mapping entries)
      (he : (key, x) ∈ entries) : Visits p root x (d + 1) (q.push (Marker.ofKey key).name)

namespace Visits

variable {p q : Pointer} {root node x : S} {d : Nat}

theorem of_element {form : Form} {xs : List S} (hv : Node.view root = .sequence form xs)
    (hx : xs.head? = some x) (h : Visits p x node d q) : Visits p root node (d + 1) q := by
  induction h with
  | root => exact .element .root hv hx
  | element _ hv' hx' ih => exact .element ih hv' hx'
  | value _ hv' he ih => exact .value ih hv' he

theorem of_value {entries : Entries S} {key : Key} (hv : Node.view root = .mapping entries)
    (he : (key, x) ∈ entries) (h : Visits (p.push (Marker.ofKey key).name) x node d q) :
    Visits p root node (d + 1) q := by
  induction h with
  | root => exact .value .root hv he
  | element _ hv' hx' ih => exact .element ih hv' hx'
  | value _ hv' he' ih => exact .value ih hv' he'

theorem leads (h : Visits p root node d q) {c : Nat} (hc : Leads Part node c) :
    Leads Part root (d + c) := by
  induction h generalizing c with
  | root => rwa [Nat.zero_add]
  | element _ hv hx ih =>
    rw [Nat.add_right_comm]
    exact ih (.step ((Matching.part_iff_of_sequence hv).mpr hx) hc)
  | value _ hv he ih =>
    rw [Nat.add_right_comm]
    exact ih (.step ((Matching.part_iff_of_mapping hv).mpr ⟨_, he⟩) hc)

theorem reached (h : Visits p root node d q) : Relation.ReflTransGen Part root node := by
  induction h with
  | root => exact .refl
  | element _ hv hx ih => exact ih.tail (.template hv hx)
  | value _ hv he ih => exact ih.tail (.value hv he)

end Visits

/-- Whatever can be reached is visited, at some depth. -/
theorem exists_visits_of_reached {p : Pointer} {root node : S}
    (h : Relation.ReflTransGen Part root node) :
    ∃ d q, Visits p root node d q := by
  induction h with
  | refl => exact ⟨0, p, .root⟩
  | tail _ hpart ih =>
    obtain ⟨d, q, h⟩ := ih
    cases hpart with
    | template hv hx => exact ⟨_, _, .element h hv hx⟩
    | value hv he => exact ⟨_, _, .value h hv he⟩

/-- What is visited at a depth is what the ways of that length lead to. -/
theorem exists_visits_iff {p : Pointer} {root : S} {d : Nat} :
    (∃ node q, Visits p root node d q) ↔ Leads Part root d := by
  constructor
  · rintro ⟨node, q, h⟩
    exact h.leads (.here node)
  · intro h
    induction h generalizing p with
    | here root => exact ⟨root, p, .root⟩
    | step hpart _ ih =>
      cases hpart with
      | template hv hx =>
        obtain ⟨node, q, h⟩ := ih
        exact ⟨node, q, .of_element hv hx h⟩
      | value hv he =>
        obtain ⟨node, q, h⟩ := ih
        exact ⟨node, q, .of_value hv he h⟩

/-- A listing that stops does so at a node that it visits right below its last level, or at one with a
key that has no text. -/
theorem visits_of_error (stop : Pointer → Error) (n : Nat) (p : Pointer) (root : S) {e : Error}
    (h : issuesFrom stop n p root = .error e) :
    (∃ node q, Visits p root node n q ∧ e = stop q) ∨
      ∃ node d q, Visits p root node d q ∧ d < n ∧ LacksText node ∧ e = .unwritable := by
  induction n generalizing p root with
  | zero =>
    cases h
    exact .inl ⟨root, p, .root, rfl⟩
  | succ n ih =>
    cases hv : Node.view root with
    | null =>
      rw [issuesFrom, hv] at h
      cases h
    | scalar s =>
      rw [issuesFrom, hv] at h
      cases h
    | sequence form xs =>
      rw [issuesFrom, hv] at h
      cases xs with
      | nil => cases h
      | cons x xs =>
        cases hx : issuesFrom stop n p x with
        | ok found =>
          simp only [hx] at h
          cases h
        | error e' =>
          simp only [hx] at h
          cases h
          rcases ih p x hx with ⟨node, q, hvisits, hq⟩ | ⟨node, d, q, hvisits, hd, hkey⟩
          · exact .inl ⟨node, q, .of_element hv rfl hvisits, hq⟩
          · exact .inr ⟨node, d + 1, q, .of_element hv rfl hvisits, Nat.succ_lt_succ hd, hkey⟩
    | mapping entries =>
      rw [issuesFrom_of_mapping stop hv] at h
      cases hbelow : entries.mapM (entryIssuesFrom stop n p) with
      | ok lists =>
        rw [hbelow] at h
        cases h
      | error e' =>
        rw [hbelow] at h
        cases h
        obtain ⟨⟨key, x⟩, he, herror⟩ := exists_mem_of_mapM_error hbelow
        cases hkey : key.isWritable with
        | false =>
          rw [entryIssuesFrom_of_not_isWritable hkey] at herror
          cases herror
          exact .inr ⟨root, 0, p, .root, Nat.succ_pos n, ⟨entries, hv, _, he, hkey⟩, rfl⟩
        | true =>
          rw [entryIssuesFrom_of_isWritable hkey] at herror
          rcases ih _ x (map_eq_error_iff.mp herror) with
            ⟨node, q, hvisits, hq⟩ | ⟨node, d, q, hvisits, hd, hbelow⟩
          · exact .inl ⟨node, q, .of_value hv he hvisits, hq⟩
          · exact .inr ⟨node, d + 1, q, .of_value hv he hvisits, Nat.succ_lt_succ hd, hbelow⟩

/-- Where all keys have a text, a listing stops for the depth only. -/
theorem isDepth_of_issuesOn {stack : Option Nat} {limit : Int} {shape : S} {e : Error}
    (hs : Node.kind shape = .mapping) (hkeys : PartsWritable shape)
    (h : issuesOn stack limit shape = .error e) : e.isDepth = true := by
  obtain ⟨stop, hdepth, hlisting⟩ := issuesOn_eq hs stack limit
  rw [hlisting] at h
  rcases visits_of_error stop _ _ _ h with ⟨-, q, -, rfl⟩ | ⟨node, d, q, hvisits, -, hkey, -⟩
  · exact hdepth q
  · exact absurd hkey (hkeys node hvisits.reached)

/-- The issues from a node at the pointer `p` downwards, in pre-order: those of the node itself, and
then those of each of its parts in turn, with those of a key right before those of its value. -/
inductive Lists : Pointer → S → List ShapeIssue → Prop
  | leaf {p : Pointer} {node : S} (h : Node.kind node = .null ∨ Node.kind node = .scalar) :
      Lists p node []
  | empty {p : Pointer} {node : S} {form : Form} (hv : Node.view node = .sequence form []) :
      Lists p node []
  | sequence {p : Pointer} {node x : S} {form : Form} {more : List S} {below : List ShapeIssue}
      (hv : Node.view node = .sequence form (x :: more)) (h : Lists p x below) :
      Lists p node
        ((if 1 < (x :: more).length then [⟨elementsMessage (x :: more).length, p.render⟩] else []) ++
          below)
  | mapping {p : Pointer} {node : S} {entries : Entries S} {below : Key × S → List ShapeIssue}
      (hv : Node.view node = .mapping entries)
      (h : ∀ e ∈ entries, Lists (p.push (Marker.ofKey e.1).name) e.2 (below e)) :
      Lists p node
        ((if 1 < ((entries.map Prod.fst).filter Marker.isWildcard).length then
            [⟨wildcardsMessage ((entries.map Prod.fst).filter Marker.isWildcard), p.render⟩]
          else []) ++
          entries.flatMap fun e =>
            (if Marker.isMalformed e.1 then [⟨namelessMessage e.1, p.render⟩] else []) ++ below e)

namespace Lists

variable {p : Pointer} {node : S} {found found' : List ShapeIssue}

theorem eq_nil_of_leaf (h : Lists p node found)
    (hleaf : Node.kind node = .null ∨ Node.kind node = .scalar) : found = [] := by
  cases h with
  | leaf => rfl
  | empty => rfl
  | sequence hv =>
    rw [Node.kind_of_view hv] at hleaf
    rcases hleaf with h | h <;> cases h
  | mapping hv =>
    rw [Node.kind_of_view hv] at hleaf
    rcases hleaf with h | h <;> cases h

/-- There is one list at most. -/
theorem unique (h : Lists p node found) (h' : Lists p node found') : found = found' := by
  induction h generalizing found' with
  | leaf hleaf => exact (h'.eq_nil_of_leaf hleaf).symm
  | empty hv =>
    cases h' with
    | leaf => rfl
    | empty => rfl
    | sequence hv' =>
      rw [hv] at hv'
      cases hv'
    | mapping hv' =>
      rw [hv] at hv'
      cases hv'
  | sequence hv _ ih =>
    cases h' with
    | leaf hleaf =>
      rw [Node.kind_of_view hv] at hleaf
      rcases hleaf with h | h <;> cases h
    | empty hv' =>
      rw [hv] at hv'
      cases hv'
    | sequence hv' hbelow =>
      rw [hv] at hv'
      cases hv'
      rw [ih hbelow]
    | mapping hv' =>
      rw [hv] at hv'
      cases hv'
  | mapping hv _ ih =>
    cases h' with
    | leaf hleaf =>
      rw [Node.kind_of_view hv] at hleaf
      rcases hleaf with h | h <;> cases h
    | empty hv' =>
      rw [hv] at hv'
      cases hv'
    | sequence hv' =>
      rw [hv] at hv'
      cases hv'
    | mapping hv' hbelow =>
      rw [hv] at hv'
      cases hv'
      refine congrArg _ (List.flatMap_congr fun e he => ?_)
      rw [ih e he (hbelow e he)]

/-- The path of an issue is that of the node which it is about. -/
theorem exists_visits (h : Lists p node found) :
    ∀ i ∈ found, ∃ other d q, Visits p node other d q ∧ i.path = q.render := by
  induction h with
  | leaf => exact fun i hi => absurd hi List.not_mem_nil
  | empty => exact fun i hi => absurd hi List.not_mem_nil
  | @sequence p node x form more below hv _ ih =>
    intro i hi
    rcases List.mem_append.mp hi with hown | hbelow
    · have hpath : i.path = p.render := by
        split at hown
        · rw [List.mem_singleton.mp hown]
        · cases hown
      exact ⟨node, 0, p, .root, hpath⟩
    · obtain ⟨other, d, q, hvisits, hq⟩ := ih i hbelow
      exact ⟨other, d + 1, q, .of_element hv rfl hvisits, hq⟩
  | @mapping p node entries below hv _ ih =>
    intro i hi
    have hnode : i.path = p.render → ∃ other d q, Visits p node other d q ∧ i.path = q.render :=
      fun hpath => ⟨node, 0, p, .root, hpath⟩
    rcases List.mem_append.mp hi with hown | hentries
    · refine hnode ?_
      split at hown
      · rw [List.mem_singleton.mp hown]
      · cases hown
    · obtain ⟨e, he, hi⟩ := List.mem_flatMap.mp hentries
      rcases List.mem_append.mp hi with hkey | hbelow
      · refine hnode ?_
        split at hkey
        · rw [List.mem_singleton.mp hkey]
        · cases hkey
      · obtain ⟨other, d, q, hvisits, hq⟩ := ih e he i hbelow
        exact ⟨other, d + 1, q, .of_value hv he hvisits, hq⟩

end Lists

/-- With enough levels, what is listed is the pre-order. -/
theorem lists_listing (n : Nat) (p : Pointer) (node : S) (h : ∀ d, Leads Part node d → d < n) :
    Lists p node (listing n p node) := by
  induction n generalizing p node with
  | zero => exact absurd (h 0 (.here node)) (Nat.lt_irrefl 0)
  | succ n ih =>
    have hpart := Leads.forall_lt_succ_iff.mp h
    unfold listing
    cases hv : Node.view node with
    | null => exact .leaf (.inl (Node.kind_of_view hv))
    | scalar s => exact .leaf (.inr (Node.kind_of_view hv))
    | sequence form xs =>
      cases xs with
      | nil => exact .empty hv
      | cons x more =>
        have hx := ih p x (hpart x ((Matching.part_iff_of_sequence hv).mpr rfl))
        dsimp only
        rw [List.head?_cons, Option.toList_some, List.flatMap_singleton]
        exact .sequence hv hx
    | mapping entries =>
      refine .mapping hv fun e he => ?_
      exact ih _ e.2 (hpart e.2 ((Matching.part_iff_of_mapping hv).mpr ⟨e.1, he⟩))

/-- **A listing is exact.** A root that is no mapping is the one issue. Below a mapping the listing
stops if and only if it visits a node deeper than the limit, or one with a key that has no text, and then
at such a node. Otherwise it returns the pre-order of the issues, each with the path of a node that it
visits. -/
theorem issues_exact (limit : Int) (shape : S) :
    (Node.kind shape ≠ .mapping →
      issues limit shape = .ok [⟨rootMessage (Node.kind shape), "/"⟩]) ∧
    (Node.kind shape = .mapping →
      ((∃ e, issues limit shape = .error e) ↔
        ∃ node d q, Visits .root shape node d q ∧ (limit < d ∨ LacksText node)) ∧
      (∀ e, issues limit shape = .error e → ∃ node d q, Visits .root shape node d q ∧
        (limit < d ∧ e = .tooDeep limit q.render ∨ d ≤ limit ∧ LacksText node ∧ e = .unwritable)) ∧
      ((∀ node d q, Visits .root shape node d q → d ≤ limit ∧ ¬ LacksText node) →
        ∃ found, issues limit shape = .ok found ∧ (∀ l, Lists .root shape l ↔ l = found) ∧
          ∀ i ∈ found, ∃ node d q, Visits .root shape node d q ∧ i.path = q.render)) := by
  refine ⟨fun hs => ?_, fun hs => ?_⟩
  · unfold issues issuesWithin
    cases hkind : Node.kind shape with
    | mapping => exact absurd hkind hs
    | null => rfl
    | scalar => rfl
    | sequence => rfl
  · have hissues : issues limit shape =
        issuesFrom (fun p => .tooDeep limit p.render) (levels limit) .root shape := by
      rw [issues, issuesWithin, hs]
    have hdeeper : ∀ d : Nat, limit < d ↔ levels limit ≤ d := by
      intro d
      unfold levels
      omega
    have hreturns : Returns (issues limit shape) ↔
        ∀ node d q, Visits .root shape node d q → d ≤ limit ∧ ¬ LacksText node := by
      rw [hissues, returns_issuesFrom_iff]
      constructor
      · rintro ⟨hwithin, hkeys⟩ node d q hvisits
        have hlt := hwithin d (exists_visits_iff.mp ⟨node, q, hvisits⟩)
        have hnot := mt (hdeeper d).mp (by omega)
        exact ⟨by omega, hkeys node hvisits.reached⟩
      · refine fun h => ⟨fun d hd => ?_, fun part hpart => ?_⟩
        · obtain ⟨node, q, hvisits⟩ := (exists_visits_iff (p := .root)).mpr hd
          have hle := (h node d q hvisits).1
          have hnot := mt (hdeeper d).mpr (by omega)
          omega
        · obtain ⟨d, q, hvisits⟩ := exists_visits_of_reached (p := .root) hpart
          exact (h part d q hvisits).2
    refine ⟨?_, fun e he => ?_, fun h => ?_⟩
    · rw [← not_returns_iff, hreturns]
      push Not
      simp only [← not_lt, ← or_iff_not_imp_left]
    · rcases visits_of_error _ _ _ _ (hissues ▸ he) with
        ⟨node, q, hvisits, rfl⟩ | ⟨node, d, q, hvisits, hd, hkey⟩
      · exact ⟨node, _, q, hvisits, .inl ⟨(hdeeper _).mpr (Nat.le_refl _), rfl⟩⟩
      · have hnot := mt (hdeeper d).mp (by omega)
        exact ⟨node, d, q, hvisits, .inr ⟨by omega, hkey⟩⟩
    · have hok := hreturns.mpr h
      rw [hissues] at hok ⊢
      have hlists : Lists .root shape (listing (levels limit) .root shape) :=
        lists_listing _ _ shape ((returns_issuesFrom_iff _ _ _ _).mp hok).1
      refine ⟨_, issuesFrom_of_returns _ _ _ shape hok, fun l => ⟨fun hl => ?_, ?_⟩, ?_⟩
      · exact hl.unique hlists
      · rintro rfl
        exact hlists
      · exact hlists.exists_visits

/-- Two wildcards at the root, an optional marker without a name, and elements that are not used. -/
def signs : Value :=
  .record [("[*:key]", .null),
    ("[opt:key:]", .list [.record [("[opt:key:", .null), ("b", .null)], .null]),
    (" [*:key] ", .scalar (.atom (.int 0))), ("[opt:key:a/b]", .list [.null, .null, .null])]

theorem issues_exact_signs :
    Node.kind (Value.list []) ≠ .mapping ∧
      issues (-3) (Value.list []) =
        .ok [⟨"Shape root must be a mapping/object, found array", "/"⟩] ∧
      Node.kind signs = .mapping ∧
      (∃ node d q, Visits .root signs node d q ∧ (2 : Int) < d ∧
        issues 2 signs = .error (.tooDeep 2 q.render)) ∧
      (∀ node d q, Visits .root signs node d q → (d : Int) ≤ 3 ∧ ¬ LacksText node) ∧
      ∃ found, issues 3 signs = .ok found ∧ Lists .root signs found ∧
        found = [⟨wildcardsMessage [.str "[*:key]", .str " [*:key] "], "/"⟩,
          ⟨namelessMessage (.str "[opt:key:]"), "/"⟩, ⟨elementsMessage 2, "/[opt:key:]"⟩,
          ⟨namelessMessage (.str "[opt:key:"), "/[opt:key:]"⟩, ⟨elementsMessage 3, "/a~1b"⟩] := by
  have hnarrow : ∃ path, issues 2 signs = .error (.tooDeep 2 path) := ⟨"/[opt:key:]/[opt:key:", rfl⟩
  have hwide : ∃ found, issues 3 signs = .ok found := ⟨_, rfl⟩
  have hexact := (issues_exact 2 signs).2 rfl
  obtain ⟨hstops, -, hlists⟩ := (issues_exact 3 signs).2 rfl
  have hwithin : ∀ node d q, Visits .root signs node d q → (d : Int) ≤ 3 ∧ ¬ LacksText node := by
    intro node d q hvisits
    by_contra hbad
    rw [not_and_or, not_le, not_not] at hbad
    obtain ⟨e, he⟩ := hstops.mpr ⟨node, d, q, hvisits, hbad⟩
    obtain ⟨found, hfound⟩ := hwide
    rw [hfound] at he
    cases he
  refine ⟨by decide, (issues_exact (-3) (Value.list [])).1 (by decide), rfl, ?_, hwithin, ?_⟩
  · obtain ⟨path, herror⟩ := hnarrow
    obtain ⟨node, d, q, hvisits, ⟨hd, he⟩ | ⟨-, -, he⟩⟩ := hexact.2.1 _ herror
    · exact ⟨node, d, q, hvisits, hd, he ▸ herror⟩
    · cases he
  · obtain ⟨found, hfound, hunique, -⟩ := hlists hwithin
    refine ⟨found, hfound, (hunique found).mpr rfl, ?_⟩
    obtain rfl := Except.ok.inj hfound
    rfl

/-- No node of the shape lies deeper than one level, and it is not listed with that limit. -/
theorem listing_stops_within_limit :
    (∀ node d q, Visits .root (Value.mapping [(longKey, .null)]) node d q → d ≤ 1) ∧
      issues 1 (Value.mapping [(longKey, .null)]) = .error .unwritable := by
  have hends : ∀ d, Leads Part (Value.mapping [(longKey, .null)]) d → d < 2 := by
    refine Leads.forall_lt_succ_iff.mpr fun part hpart => Leads.forall_lt_succ_iff.mpr fun other hother => ?_
    obtain ⟨key, hkey⟩ := (Matching.part_iff_of_mapping rfl).mp hpart
    cases List.mem_singleton.mp hkey
    rcases hother.kind with h | h <;> cases h
  constructor
  · intro node d q hvisits
    exact Nat.lt_succ_iff.mp (hends d (exists_visits_iff.mp ⟨node, q, hvisits⟩))
  · have hlisting := issuesFrom_of_mapping (fun p => .tooDeep 1 p.render)
      (rfl : Node.view (Value.mapping [(longKey, .null)]) = _) 1 .root
    rw [List.mapM_cons,
      entryIssuesFrom_of_not_isWritable (e := (longKey, Value.null)) longKey_not_writable] at hlisting
    exact hlisting

end Conform.Lint
