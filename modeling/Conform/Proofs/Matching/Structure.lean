import Conform.Document.Value
import Conform.Proofs.Document.Layerwise
import Conform.Proofs.Matching.Parallel
import Conform.Proofs.Matching.Strict

/-!
# What a verification cannot see

A verification depends on the skeletons of its documents. It sees which keys a mapping has and in which
order, how many elements a sequence has, and of a subject whether a value is a null, but never the data
in a scalar, and of a shape not even whether there is a scalar. Nor does it tell the forms of sequences
from each other. The listing of a strict matcher sees no more of a shape than a walk does.
-/
namespace Conform

variable {S T X Y : Type}

namespace Lint

variable [Node S] [Node T] {nulls : Prop} {shape : S} {shape' : T}

theorem issuesFrom_eq_of_skeleton (stop : Pointer → Error) (n : Nat) (p : Pointer)
    (h : SameSkeleton nulls shape shape') : issuesFrom stop n p shape' = issuesFrom stop n p shape := by
  induction n generalizing p shape shape' with
  | zero => rfl
  | succ n ih =>
    have hlayer := h.layer
    generalize hv : Node.view shape = v at hlayer
    generalize hv' : Node.view shape' = w at hlayer
    cases hlayer with
    | null => rw [issuesFrom, issuesFrom, hv, hv']
    | scalar s s' => rw [issuesFrom, issuesFrom, hv, hv']
    | filled _ s => rw [issuesFrom, issuesFrom, hv, hv']
    | emptied _ s => rw [issuesFrom, issuesFrom, hv, hv']
    | sequence form form' each =>
      rw [issuesFrom, issuesFrom, hv, hv']
      dsimp only
      rw [each.length_eq]
      cases each with
      | nil => rfl
      | cons hfirst _ =>
        dsimp only
        rw [ih p hfirst]
    | @mapping es fs each =>
      have hbelow : es.mapM (entryIssuesFrom stop n p) = fs.mapM (entryIssuesFrom stop n p) := by
        refine mapM_eq_of_forall₂ (each.imp ?_)
        rintro ⟨key, value⟩ ⟨_, value'⟩ ⟨rfl, hvalue⟩
        have hlist : ∀ q, issuesFrom stop n q value' = issuesFrom stop n q value := fun q => ih q hvalue
        simp only [entryIssuesFrom, hlist]
      rw [issuesFrom_of_mapping stop hv, issuesFrom_of_mapping stop hv', hbelow,
        keys_eq_of_forall₂ each]

theorem issuesOn_eq_of_skeleton (stack : Option Nat) (limit : Int)
    (hs : Node.kind shape = .mapping) (hs' : Node.kind shape' = .mapping)
    (h : SameSkeleton nulls shape shape') : issuesOn stack limit shape' = issuesOn stack limit shape := by
  have hwithin : ∀ stop n, issuesWithin stop n shape' = issuesWithin stop n shape := by
    intro stop n
    rw [issuesWithin, issuesWithin, hs, hs']
    exact issuesFrom_eq_of_skeleton stop n .root h
  unfold issuesOn issues
  simp only [hwithin]

end Lint

namespace Matching

variable [Node S] [Node T] [Node X] [Node Y]

theorem demands_of_skeleton {nulls : Prop} {shape : S} {shape' : T}
    (h : SameSkeleton nulls shape shape') : Demands (SameSkeleton nulls) shape shape' := by
  have hlayer := h.layer
  generalize hv : Node.view shape = v at hlayer
  generalize hv' : Node.view shape' = w at hlayer
  cases hlayer with
  | null => exact .leaf (.inl (Node.kind_of_view hv)) (.inl (Node.kind_of_view hv'))
  | scalar s s' => exact .leaf (.inr (Node.kind_of_view hv)) (.inr (Node.kind_of_view hv'))
  | filled _ s => exact .leaf (.inl (Node.kind_of_view hv)) (.inr (Node.kind_of_view hv'))
  | emptied _ s => exact .leaf (.inr (Node.kind_of_view hv)) (.inl (Node.kind_of_view hv'))
  | sequence form form' each => exact .of_forall₂ hv hv' each
  | @mapping es fs each =>
    have hempty : es.isEmpty = fs.isEmpty := by
      cases each <;> rfl
    exact .mapping hv hv' hempty h

section Subjects

variable {subject : X} {subject' : Y}

theorem outline_of_skeleton (h : SameSkeleton False subject subject') :
    Outline (SameSkeleton False) (Node.view subject) (Node.view subject') := by
  have hlayer := h.layer
  generalize Node.view subject = v at hlayer ⊢
  generalize Node.view subject' = w at hlayer ⊢
  cases hlayer with
  | null => exact .null
  | scalar s s' => exact .scalar s s'
  | filled h _ => exact h.elim
  | emptied h _ => exact h.elim
  | sequence form form' each => exact .sequence form form' each
  | mapping each => exact .mapping _ _

theorem rel_entry?_of_skeleton (marker : Marker) (key : Key)
    (h : SameSkeleton False subject subject') :
    Option.Rel (SameSkeleton False) ( entry? marker key subject) ( entry? marker key subject') := by
  have hlayer := h.layer
  generalize hv : Node.view subject = v at hlayer
  generalize hv' : Node.view subject' = w at hlayer
  cases hlayer with
  | null => simpa only [ entry?, hv, hv'] using Option.Rel.none
  | scalar s s' => simpa only [ entry?, hv, hv'] using Option.Rel.none
  | filled h _ => exact h.elim
  | emptied h _ => exact h.elim
  | sequence form form' each => simpa only [ entry?, hv, hv'] using Option.Rel.none
  | mapping each =>
    exact rel_entry?_of_mapping hv hv' (Entries.rel_get?_of_forall₂ each _)
      (Entries.rel_get?_of_forall₂ each _)

theorem acceptsWildcard_of_skeleton (h : SameSkeleton False subject subject') :
    acceptsWildcard subject = acceptsWildcard subject' := by
  have hlayer := h.layer
  unfold acceptsWildcard
  generalize Node.view subject = v at hlayer ⊢
  generalize Node.view subject' = w at hlayer ⊢
  cases hlayer with
  | null => rfl
  | scalar s s' => rfl
  | filled h _ => exact h.elim
  | emptied h _ => exact h.elim
  | sequence form form' each => rfl
  | mapping each => cases each <;> rfl

theorem forall₂_members_of_skeleton (h : SameSkeleton False subject subject') :
    List.Forall₂ (fun m m' => m'.1 = m.1 ∧ SameSkeleton False m.2 m'.2) (members subject)
      (members subject') := by
  have hlayer := h.layer
  generalize hv : Node.view subject = v at hlayer
  generalize hv' : Node.view subject' = w at hlayer
  cases hlayer with
  | null => simpa only [members, hv, hv'] using List.Forall₂.nil
  | scalar s s' => simpa only [members, hv, hv'] using List.Forall₂.nil
  | filled h _ => exact h.elim
  | emptied h _ => exact h.elim
  | sequence form form' each => exact forall₂_members_of_sequence hv hv' each
  | mapping each =>
    simpa only [members, hv, hv'] using each

end Subjects

/-- Walks over documents with the same skeletons are in step. -/
theorem inStep_of_skeleton :
    InStep (S := S) (T := T) (X := X) (Y := Y)
      (List.Forall₂ (Act.Alike (SameSkeleton True) (SameSkeleton False))) (SameSkeleton True)
      (SameSkeleton False) where
  outline x y h := outline_of_skeleton h
  demands shape shape' h := demands_of_skeleton h
  entries := by
    intro shape shape' subject subject' es fs hs hx hv hv'
    have hlayer := hs.layer
    rw [hv, hv'] at hlayer
    cases hlayer with
    | mapping each =>
      refine composes_alike.spans (each.imp fun e f hef => ⟨hef.1, hef.2, ?_, ?_, ?_⟩)
      · exact rel_entry?_of_skeleton _ e.1 hx
      · exact fun _ => acceptsWildcard_of_skeleton hx
      · exact fun _ => composes_alike.spans (forall₂_members_of_skeleton hx)

end Matching

namespace Matcher

open Matching

variable [Node S] [Node T] [Node X] [Node Y]

/-- **A verification cannot see the data.** If other scalars are put into a subject for its scalars, other
scalars or nulls into a shape for its scalars and nulls, and lists for tuples or tuples for lists into
both, at any depth but not in keys, then a matcher, strict or not, comes to the same: the same issues
in the same order, or the same error. -/
theorem verifyOn_eq_of_skeleton (stack : Stack) (m : Matcher) {shape : S} {shape' : T}
    (hs : Node.kind shape = .mapping) (hshape : SameSkeleton True shape shape') {subject : X}
    {subject' : Y} (hsubject : SameSkeleton False subject subject') :
    m.verifyOn stack shape' subject' = m.verifyOn stack shape subject := by
  have hs' : Node.kind shape' = .mapping := (demands_of_skeleton hshape).mapping_iff.mp hs
  have hlenient : ∀ m : Matcher, m.strict = false →
      m.verifyOn stack shape' subject' = m.verifyOn stack shape subject :=
    fun m hm => verifyOn_eq_of_inStep inStep_of_skeleton stack hm hs hshape hsubject
  cases hm : m.strict with
  | false => exact hlenient m hm
  | true =>
    have hself : m.setStrict true = m := by rw [setStrict, ← hm]
    rw [← hself, verifyOn_strict stack m hs, verifyOn_strict stack m hs',
      Lint.issuesOn_eq_of_skeleton stack.listing m.maxDepth hs hs' hshape,
      hlenient (m.setStrict false) rfl]

def cardShape : Value :=
  .record [("id", .null), ("tags", .list [.str "tag"]), ("owner", .record [("name", .str "")])]

def cardShapeFilled : Value :=
  .record [("id", .int 0), ("tags", .sequence .tuple [.null]), ("owner", .record [("name", .bool true)])]

def card : Value := .record [("id", .int 17), ("tags", .list []), ("owner", .str "guest")]

def cardRedacted : Value :=
  .record [("id", .str "?"), ("tags", .sequence .tuple []), ("owner", .str "?")]

theorem sameSkeleton_cardShape : SameSkeleton True cardShape cardShapeFilled := by
  have hid : SameSkeleton True Value.null (Value.int 0) := .of_layer (.filled trivial _)
  have htag : SameSkeleton True (Value.str "tag") Value.null := .of_layer (.emptied trivial _)
  have htags : SameSkeleton True (Value.list [.str "tag"]) (Value.sequence .tuple [.null]) :=
    .of_layer (.sequence .list .tuple (.cons htag .nil))
  have hname : SameSkeleton True (Value.str "") (Value.bool true) := .of_layer (.scalar _ _)
  have howner : SameSkeleton True (Value.record [("name", .str "")])
      (Value.record [("name", .bool true)]) := .of_layer (.mapping (.cons ⟨rfl, hname⟩ .nil))
  exact .of_layer (.mapping (.cons ⟨rfl, hid⟩ (.cons ⟨rfl, htags⟩ (.cons ⟨rfl, howner⟩ .nil))))

theorem sameSkeleton_card : SameSkeleton False card cardRedacted := by
  have hid : SameSkeleton False (Value.int 17) (Value.str "?") := .of_layer (.scalar _ _)
  have htags : SameSkeleton False (Value.list []) (Value.sequence .tuple []) :=
    .of_layer (.sequence .list .tuple .nil)
  have howner : SameSkeleton False (Value.str "guest") (Value.str "?") := .of_layer (.scalar _ _)
  exact .of_layer (.mapping (.cons ⟨rfl, hid⟩ (.cons ⟨rfl, htags⟩ (.cons ⟨rfl, howner⟩ .nil))))

theorem verifyOn_eq_of_skeleton_card :
    Node.kind cardShape = .mapping ∧ SameSkeleton True cardShape cardShapeFilled ∧
      SameSkeleton False card cardRedacted ∧
      ∃ r, (⟨9, true, by decide⟩ : Matcher).verify cardShape card = .ok r ∧
        (⟨9, true, by decide⟩ : Matcher).verify cardShapeFilled cardRedacted = .ok r ∧
        r.messages = ["Expected data in array at /tags; found nothing",
          "Value at /owner should be object (expected: object, found: scalar)"] := by
  have hsame : (⟨9, true, by decide⟩ : Matcher).verify cardShapeFilled cardRedacted =
      (⟨9, true, by decide⟩ : Matcher).verify cardShape card :=
    verifyOn_eq_of_skeleton .usual ⟨9, true, by decide⟩ rfl sameSkeleton_cardShape sameSkeleton_card
  exact ⟨rfl, sameSkeleton_cardShape, sameSkeleton_card, _, rfl, hsame.trans rfl, rfl⟩

end Matcher
end Conform
