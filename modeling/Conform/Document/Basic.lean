import Conform.Document.Graph
import Conform.Document.Value

/-!
Documents: what a reader of document text returns. A document without references is a tree; one with
references is a place in a graph. The parts of a document are documents.
-/
namespace Conform

inductive Document
  | tree (v : Value)
  | place (g : Graph) (i : Nat)

namespace Document

def view : Document → View Document
  | .tree v => v.view.map .tree
  | .place g i => (g.view i).map (.place g)

instance : Node Document := ⟨view⟩

instance : Inhabited Document := ⟨.tree .null⟩

variable {α : Type}

/-- Computes from the leaves upwards; `back` answers for a part that leads back to itself. -/
def fold (layer : View α → α) (back : View Unit → α) : Document → α
  | .tree v => v.fold layer
  | .place g i => g.fold layer back i

end Document
end Conform
