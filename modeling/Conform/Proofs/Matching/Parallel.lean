import Conform.Proofs.Matching.Alike

/-!
# Walks in step

A relation between shapes and one between subjects are carried along two walks if they hold again
wherever the two walks enter a level. It is enough to show this of one level: what the two levels ask
for is the same, the subjects have the same outline and agree on the keys, and going through the
entries of the one shape comes to what going through those of the other comes to. Then the acts of the
two walks are related over any number of levels.
-/
namespace Conform.Matching

variable {S T X Y : Type} {R : S → T → Prop} {Q : X → Y → Prop}
  {L : List (Act S X) → List (Act T Y) → Prop}

/-- A relation between lists of acts that stays when alike acts are expanded in a related way. -/
structure Unfolds (L : List (Act S X) → List (Act T Y) → Prop) (R : S → T → Prop)
    (Q : X → Y → Prop) : Prop extends Composes L where
  alike {as : List (Act S X)} {bs : List (Act T Y)} (h : List.Forall₂ (Act.Alike R Q) as bs) : L as bs
  flatMap {as : List (Act S X)} {bs : List (Act T Y)} {f : Act S X → List (Act S X)}
    {g : Act T Y → List (Act T Y)} (h : L as bs) (hfg : ∀ a b, a.Alike R Q b → L (f a) (g b)) :
    L (as.flatMap f) (bs.flatMap g)

theorem unfolds_alike : Unfolds (List.Forall₂ (Act.Alike R Q)) R Q where
  toComposes := composes_alike
  alike h := h
  flatMap h hfg := List.rel_flatMap h hfg

theorem forall₂_zipIdx {xs : List X} {ys : List Y} (each : List.Forall₂ Q xs ys) (n : Nat) :
    List.Forall₂ (fun x y => y.2 = x.2 ∧ Q x.1 y.1) (xs.zipIdx n) (ys.zipIdx n) := by
  induction each generalizing n with
  | nil => exact .nil
  | cons hxy _ ih => exact .cons ⟨rfl, hxy⟩ (ih (n + 1))

variable [Node S] [Node T] [Node X] [Node Y]

/-- If the acts of any two related levels are related, so are those of any number of levels. -/
theorem Unfolds.unfolding (hL : Unfolds L R Q)
    (hacts : ∀ p {shape : S} {shape' : T} {subject : X} {subject' : Y}, R shape shape' →
      Q subject subject' → L (acts p shape subject) (acts p shape' subject'))
    (n : Nat) (p : Pointer) {shape : S} {shape' : T} {subject : X} {subject' : Y}
    (hs : R shape shape') (hx : Q subject subject') :
    L (unfolding n p shape subject) (unfolding n p shape' subject') := by
  induction n generalizing p shape shape' subject subject' with
  | zero => exact hL.alike (.cons (.enter p hs hx) .nil)
  | succ n ih =>
    refine hL.flatMap (hacts p hs hx) fun a b hab => ?_
    cases hab with
    | issue i => exact hL.issue i
    | remark text text' => exact hL.alike (.cons (.remark text text') .nil)
    | enter q hs' hx' => exact ih q hs' hx'
    | fault => exact hL.fault

/-- One level of two walks, as far as the relations have to carry over to the levels below. -/
structure InStep (L : List (Act S X) → List (Act T Y) → Prop) (R : S → T → Prop) (Q : X → Y → Prop) :
    Prop where
  outline : Outlines Q
  demands : ∀ shape shape', R shape shape' → Demands R shape shape'
  entries : ∀ {shape : S} {shape' : T} {subject : X} {subject' : Y} {es : Entries S}
    {fs : Entries T}, R shape shape' → Q subject subject' → Node.view shape = .mapping es →
    Node.view shape' = .mapping fs →
    Spans L (fun e f => f.1 = e.1 ∧ R e.2 f.2 ∧ Agree L Q e.1 subject subject') es fs

namespace InStep

variable {shape : S} {shape' : T} {subject : X} {subject' : Y} (hL : Unfolds L R Q)
  (h : InStep L R Q)
include hL h

theorem acts (p : Pointer) (hs : R shape shape') (hx : Q subject subject') :
    L (acts p shape subject) (acts p shape' subject') := by
  have hdemands := h.demands shape shape' hs
  by_cases hkind : Node.kind shape = .mapping
  · obtain ⟨es, hv⟩ := Node.exists_view_mapping hkind
    obtain ⟨fs, hv'⟩ := Node.exists_view_mapping (hdemands.mapping_iff.mp hkind)
    simp only [Matching.acts, hv, hv']
    refine h.entries hs hx hv hv' _ _ ?_
    rintro ⟨key, value⟩ ⟨_, value'⟩ ⟨rfl, hvalue, hagree⟩
    have hbelow := h.demands value value' hvalue
    refine hL.entryActs ?_ ?_ ?_ p hagree
    · intro p x y hxy
      exact hL.alike (hbelow.valueActs h.outline p hxy)
    · intro p x y hxy
      exact hL.alike (hbelow.memberActs h.outline p hxy)
    · exact fun name => hL.alike (hbelow.nameActs name)
  · rw [acts_of_not_mapping hkind, acts_of_not_mapping (mt hdemands.mapping_iff.mpr hkind)]
    exact hL.alike (hdemands.valueActs h.outline p hx)

theorem unfolding (n : Nat) (p : Pointer) (hs : R shape shape') (hx : Q subject subject') :
    L (unfolding n p shape subject) (unfolding n p shape' subject') :=
  hL.unfolding (fun p => h.acts hL p) n p hs hx

end InStep

/-- An entry is found in two mappings alike if its name and its key are. -/
theorem rel_entry?_of_mapping {marker : Marker} {key : Key} {subject : X} {subject' : Y}
    {es : Entries X} {fs : Entries Y} (hx : Node.view subject = .mapping es)
    (hy : Node.view subject' = .mapping fs)
    (hname : Option.Rel Q (es.get? (.str marker.name)) (fs.get? (.str marker.name)))
    (hkey : Option.Rel Q (es.get? key) (fs.get? key)) :
    Option.Rel Q ( entry? marker key subject) ( entry? marker key subject') := by
  unfold entry?
  rw [hx, hy]
  dsimp only
  generalize es.get? (.str marker.name) = found at hname ⊢
  generalize fs.get? (.str marker.name) = found' at hname ⊢
  cases hname with
  | some hvalue => exact .some hvalue
  | none =>
    cases key.string?.isSome with
    | true => exact .none
    | false => exact hkey

/-- The elements of two sequences are known by their places. -/
theorem forall₂_members_of_sequence {form form' : Form} {xs : List X} {ys : List Y} {subject : X}
    {subject' : Y} (hx : Node.view subject = .sequence form xs)
    (hy : Node.view subject' = .sequence form' ys) (each : List.Forall₂ Q xs ys) :
    List.Forall₂ (fun m m' => m'.1 = m.1 ∧ Q m.2 m'.2) (members subject) (members subject') := by
  simp only [members, hx, hy, List.forall₂_map_left_iff, List.forall₂_map_right_iff]
  exact (forall₂_zipIdx each 0).imp fun _ _ hxy => ⟨congrArg (fun i => Key.str (toString i)) hxy.1, hxy.2⟩

end Conform.Matching

namespace Conform.Matcher

open Matching

variable {S T X Y : Type} {R : S → T → Prop} {Q : X → Y → Prop}

theorem settle_eq_of_alike {as : List (Act S X)} {bs : List (Act T Y)}
    (h : List.Forall₂ (Act.Alike R Q) as bs) (stop : Pointer → WalkError) (maxDepth : Int) :
    settle stop maxDepth as = settle stop maxDepth bs := by
  have hpending : pending stop as = pending stop bs :=
    filterMap_eq_of_forall₂ (h.imp fun _ _ hab => hab.error?_eq stop)
  have hissues : issuesOf as = issuesOf bs :=
    filterMap_eq_of_forall₂ (h.imp fun _ _ hab => hab.issue?_eq)
  rw [settle, settle, hpending, hissues]

variable [Node S] [Node T] [Node X] [Node Y] {shape : S} {shape' : T} {subject : X} {subject' : Y}

/-- Two walks that do the same at every level come to the same report or the same error. -/
theorem verifyOn_eq_of_inStep (h : InStep (List.Forall₂ (Act.Alike R Q)) R Q) (stack : Stack)
    {m : Matcher} (hm : m.strict = false) (hs : Node.kind shape = .mapping) (hR : R shape shape')
    (hQ : Q subject subject') :
    m.verifyOn stack shape' subject' = m.verifyOn stack shape subject := by
  have hs' : Node.kind shape' = .mapping := (h.demands shape shape' hR).mapping_iff.mp hs
  rw [verifyOn_eq_settle stack hm hs, verifyOn_eq_settle stack hm hs']
  exact (settle_eq_of_alike (h.unfolding unfolds_alike _ .root hR hQ) _ m.maxDepth).symm

end Conform.Matcher
