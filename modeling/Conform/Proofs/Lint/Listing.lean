import Mathlib.Data.List.Forall2
import Mathlib.Logic.Relation
import Conform.Lint
import Conform.Proofs.Matching.Nesting
import Conform.Proofs.Returns

/-!
# The listing of authoring problems

A listing goes down the shape alone: to the first element of a sequence and to every value of a
mapping, a level at a time. It returns exactly if its levels reach as far down as the shape does and all
keys on the way have a text; what it returns is then the list below, which is computed without errors. A
shape without authoring problems has an empty listing.
-/
namespace Conform.Lint

open Matching
  (LacksText Leads Part PartsWritable capped forall_reached_iff not_lacksText_of_mapping)

variable {S : Type} [Node S]

/-- The issues from a node downwards, in pre-order; nothing is listed below the last level. -/
def listing : Nat → Pointer → S → List ShapeIssue
  | 0, _, _ => []
  | n + 1, p, node =>
    match Node.view node with
    | .null => []
    | .scalar _ => []
    | .sequence _ xs =>
      elementIssues xs.length p.render ++ xs.head?.toList.flatMap fun x => listing n p x
    | .mapping entries =>
      wildcardIssues (entries.map Prod.fst) p.render ++ entries.flatMap fun e =>
        keyIssues e.1 p.render ++ listing n (p.push (Marker.ofKey e.1).name) e.2

section Levels

variable (stop : Pointer → Error)

/-- The issues of an entry: that of its key, and then those from its value downwards. -/
def entryIssuesFrom (n : Nat) (p : Pointer) (e : Key × S) : Except Error (List ShapeIssue) := do
  let marker ← markerOf e.1
  let below ← issuesFrom stop n (p.push marker.name) e.2
  return keyIssues e.1 p.render ++ below

theorem issuesFrom_of_mapping {node : S} {entries : Entries S} (hv : Node.view node = .mapping entries)
    (n : Nat) (p : Pointer) :
    issuesFrom stop (n + 1) p node = (entries.mapM (entryIssuesFrom stop n p)).map fun below =>
      wildcardIssues (entries.map Prod.fst) p.render ++ below.flatten := by
  rw [issuesFrom, hv]
  rfl

section Entry

variable {stop} {n : Nat} {p : Pointer} {e : Key × S}

theorem entryIssuesFrom_of_isWritable (h : e.1.isWritable = true) :
    entryIssuesFrom stop n p e = (keyIssues e.1 p.render ++ ·) <$>
      issuesFrom stop n (p.push (Marker.ofKey e.1).name) e.2 := by
  rw [entryIssuesFrom, markerOf, Marker.ofKey?, if_pos h]
  rfl

theorem entryIssuesFrom_of_not_isWritable (h : e.1.isWritable = false) :
    entryIssuesFrom stop n p e = .error .unwritable := by
  rw [entryIssuesFrom, markerOf, Marker.ofKey?, h]
  rfl

theorem returns_entryIssuesFrom_iff :
    Returns (entryIssuesFrom stop n p e) ↔
      e.1.isWritable = true ∧ Returns (issuesFrom stop n (p.push (Marker.ofKey e.1).name) e.2) := by
  cases h : e.1.isWritable with
  | true =>
    rw [entryIssuesFrom_of_isWritable h, and_iff_right rfl]
    exact returns_map_iff
  | false => simp [entryIssuesFrom_of_not_isWritable h]

end Entry

/-- A listing returns exactly if its levels reach the end of the shape and all keys on the way have a
text. -/
theorem returns_issuesFrom_iff (n : Nat) (p : Pointer) (node : S) :
    Returns (issuesFrom stop n p node) ↔
      (∀ d, Leads Part node d → d < n) ∧ PartsWritable node := by
  unfold PartsWritable
  induction n generalizing p node with
  | zero =>
    refine iff_of_false (Returns.not_error _) fun h => ?_
    exact absurd (h.1 0 (.here node)) (Nat.lt_irrefl 0)
  | succ n ih =>
    rw [Leads.forall_lt_succ_iff, forall_reached_iff, and_left_comm, ← forall₂_and]
    cases hv : Node.view node with
    | null =>
      rw [issuesFrom, hv]
      refine iff_of_true (.ok _) ⟨by simp [LacksText, hv], fun part hp => ?_⟩
      simpa [Node.kind, hv, View.kind] using hp.kind
    | scalar s =>
      rw [issuesFrom, hv]
      refine iff_of_true (.ok _) ⟨by simp [LacksText, hv], fun part hp => ?_⟩
      simpa [Node.kind, hv, View.kind] using hp.kind
    | sequence form xs =>
      rw [issuesFrom, hv, and_iff_right (by simp [LacksText, hv])]
      simp only [Matching.part_iff_of_sequence hv]
      cases xs with
      | nil => simp
      | cons x xs =>
        simp only [List.head?_cons, Option.some.injEq, forall_eq']
        exact returns_map_iff.trans (ih p x)
    | mapping entries =>
      rw [issuesFrom_of_mapping stop hv, not_lacksText_of_mapping hv]
      refine returns_map_iff.trans (returns_mapM_iff.trans ?_)
      simp only [returns_entryIssuesFrom_iff, ih, Matching.part_iff_of_mapping hv]
      constructor
      · refine fun h => ⟨fun e he => (h e he).1, fun part hpart => ?_⟩
        obtain ⟨key, hkey⟩ := hpart
        exact (h _ hkey).2
      · exact fun h e he => ⟨h.1 e he, h.2 e.2 ⟨e.1, he⟩⟩

/-- What a listing returns is the list. -/
theorem issuesFrom_of_returns (n : Nat) (p : Pointer) (node : S)
    (h : Returns (issuesFrom stop n p node)) : issuesFrom stop n p node = .ok (listing n p node) := by
  induction n generalizing p node with
  | zero => exact absurd h (Returns.not_error _)
  | succ n ih =>
    unfold listing
    cases hv : Node.view node with
    | null => rw [issuesFrom, hv]
    | scalar s => rw [issuesFrom, hv]
    | sequence form xs =>
      rw [issuesFrom, hv] at h ⊢
      cases xs with
      | nil => rfl
      | cons x xs =>
        have hx := ih p x (returns_map_iff.mp h)
        simp only [hx, List.head?_cons, Option.toList_some, List.flatMap_singleton]
        rfl
    | mapping entries =>
      rw [issuesFrom_of_mapping stop hv] at h ⊢
      have hbelow : entries.mapM (entryIssuesFrom stop n p) = .ok (entries.map fun e =>
          keyIssues e.1 p.render ++ listing n (p.push (Marker.ofKey e.1).name) e.2) := by
        refine mapM_of_ok fun e he => ?_
        obtain ⟨hkey, hvalue⟩ :=
          returns_entryIssuesFrom_iff.mp (returns_mapM_iff.mp (returns_map_iff.mp h) e he)
        rw [entryIssuesFrom_of_isWritable hkey, ih _ e.2 hvalue]
        rfl
      dsimp only
      rw [hbelow, List.flatMap_def]
      rfl

end Levels

/-- A node without an authoring problem of its own: at most one of its keys is a wildcard and every
optional marker carries a name; as a sequence, it has at most one element. -/
def Faultless (node : S) : Prop :=
  match Node.view node with
  | .null => True
  | .scalar _ => True
  | .sequence _ xs => xs.length ≤ 1
  | .mapping entries =>
    ((entries.map Prod.fst).filter Marker.isWildcard).length ≤ 1 ∧
      ∀ e ∈ entries, Marker.isMalformed e.1 = false

/-- A shape without authoring problems. As no sequence in it has more than one element, its parts are
all there is of it. -/
def Clean (shape : S) : Prop := ∀ part, Relation.ReflTransGen Part shape part → Faultless part

theorem clean_of_parts {shape : S} (hf : Faultless shape) (hp : ∀ part, Part shape part → Clean part) :
    Clean shape := forall_reached_iff.mpr ⟨hf, hp⟩

theorem Clean.part {shape part : S} (h : Clean shape) (hp : Part shape part) : Clean part :=
  (forall_reached_iff.mp h).2 part hp

theorem listing_of_clean (n : Nat) (p : Pointer) {node : S} (h : Clean node) :
    listing n p node = [] := by
  induction n generalizing p node with
  | zero => rfl
  | succ n ih =>
    have hnode : Faultless node := h node .refl
    unfold Faultless at hnode
    unfold listing
    cases hv : Node.view node with
    | null => rfl
    | scalar s => rfl
    | sequence form xs =>
      rw [hv] at hnode
      cases xs with
      | nil => rfl
      | cons x more =>
        have hpart : Part node x := (Matching.part_iff_of_sequence hv).mpr rfl
        have hx := ih p (h.part hpart)
        have hlength : elementIssues (x :: more).length p.render = [] := if_neg (by simpa using hnode)
        dsimp only
        rw [hlength, List.head?_cons, Option.toList_some, List.flatMap_singleton, hx]
        rfl
    | mapping entries =>
      rw [hv] at hnode
      have hwildcards : wildcardIssues (entries.map Prod.fst) p.render = [] :=
        if_neg (Nat.not_lt.mpr hnode.1)
      dsimp only
      rw [hwildcards, List.nil_append, List.flatMap_eq_nil_iff]
      intro e he
      have hbelow := ih (p.push (Marker.ofKey e.1).name)
        (h.part ((Matching.part_iff_of_mapping hv).mpr ⟨e.1, he⟩))
      rw [hbelow, keyIssues, hnode.2 e he]
      rfl

theorem issuesOn_eq {shape : S} (hs : Node.kind shape = .mapping) (stack : Option Nat)
    (limit : Int) :
    ∃ stop, (∀ p, (stop p).isDepth = true) ∧
      issuesOn stack limit shape = issuesFrom stop (capped stack (levels limit)) .root shape := by
  have hwithin : ∀ stop n, issuesWithin stop n shape = issuesFrom stop n .root shape := by
    intro stop n
    rw [issuesWithin, hs]
  cases stack with
  | none => exact ⟨_, fun _ => rfl, hwithin _ _⟩
  | some held =>
    by_cases h : levels limit ≤ held
    · rw [issuesOn, if_pos h, capped, Nat.min_eq_right h]
      exact ⟨_, fun _ => rfl, hwithin _ _⟩
    · rw [issuesOn, if_neg h, capped, Nat.min_eq_left (by omega)]
      exact ⟨_, fun _ => rfl, hwithin _ _⟩

end Conform.Lint
