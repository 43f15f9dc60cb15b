import Conform.Document.Entries

/-!
One layer of a document. `View N` is what can be seen of a value without following it further: its
kind and, for a collection, the nodes one level below. Any type whose nodes have views is a source of
documents; a source may be a finite tree or a graph that leads back to itself.
-/
namespace Conform

/-- The two forms of a sequence. -/
inductive Form
  | list
  | tuple
deriving DecidableEq, Repr

inductive Scalar
  | atom (a : Atom)
  | set (ks : List Key)
deriving Repr

inductive View (N : Type)
  | null
  | scalar (s : Scalar)
  | sequence (form : Form) (xs : List N)
  | mapping (es : Entries N)

/-- The four kinds of value. -/
inductive Kind
  | null
  | scalar
  | sequence
  | mapping
deriving DecidableEq, Repr

/-- The name of a kind in messages. -/
def Kind.tag : Kind → String
  | .null => "null"
  | .scalar => "scalar"
  | .sequence => "array"
  | .mapping => "object"

namespace View

variable {M N : Type}

def kind : View N → Kind
  | .null => .null
  | .scalar _ => .scalar
  | .sequence .. => .sequence
  | .mapping _ => .mapping

def map (f : M → N) : View M → View N
  | .null => .null
  | .scalar s => .scalar s
  | .sequence form xs => .sequence form (xs.map f)
  | .mapping es => .mapping (es.mapValues f)

@[simp] theorem kind_map (f : M → N) (v : View M) : (v.map f).kind = v.kind := by cases v <;> rfl

end View

/-- A source of documents. -/
class Node (N : Type) where
  view : N → View N

/-- The kind of a node. -/
def Node.kind {N : Type} [Node N] (n : N) : Kind := (Node.view n).kind

theorem Node.kind_of_view {N : Type} [Node N] {n : N} {v : View N} (h : Node.view n = v) :
    Node.kind n = v.kind := by
  rw [Node.kind, h]

theorem Node.kind_of_mapping {N : Type} [Node N] {n : N} {es : Entries N}
    (h : Node.view n = .mapping es) : Node.kind n = .mapping := Node.kind_of_view h

theorem Node.exists_view_mapping {N : Type} [Node N] {n : N} (h : Node.kind n = .mapping) :
    ∃ es, Node.view n = .mapping es := by
  unfold Node.kind at h
  cases hv : Node.view n with
  | mapping es => exact ⟨es, rfl⟩
  | _ => simp [hv, View.kind] at h

end Conform
