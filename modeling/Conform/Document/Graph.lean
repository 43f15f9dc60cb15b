import Conform.Document.View

/-!
Graphs: documents whose parts may be shared or lead back to themselves. A cell shows one layer, and
the nodes below it are places of other cells.
-/
namespace Conform

structure Graph where
  cells : Array (View Nat)

namespace Graph

/-- The layer at a place; a place outside the graph is null. -/
def view (g : Graph) (i : Nat) : View Nat := (g.cells[i]?).getD .null

variable {α : Type}

/-- Computes from the leaves upwards, as if the graph were unfolded from `i`. A place that occurs on
the way to itself is not unfolded again: `back` is given its kind of layer. -/
def foldFrom (g : Graph) (layer : View α → α) (back : View Unit → α) : Nat → List Nat → Nat → α
  | 0, _, i => back ((g.view i).map fun _ => ())
  | n + 1, trail, i =>
    if trail.contains i then back ((g.view i).map fun _ => ())
    else layer ((g.view i).map (foldFrom g layer back n (i :: trail)))

/-- A way without repetition has at most as many places as there are cells. -/
def fold (g : Graph) (layer : View α → α) (back : View Unit → α) (i : Nat) : α :=
  g.foldFrom layer back (g.cells.size + 1) [] i

end Graph
end Conform
