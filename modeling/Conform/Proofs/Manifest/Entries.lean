import Conform.Proofs.Document.Moved
import Conform.Proofs.Manifest.Checks
import Conform.Proofs.Manifest.Order

/-!
# The entries of a manifest

An entry of a manifest has the problems that it has as the only entry, at its own number. The problems of
a manifest are those of its entries, each of them once, and they come in an order that is fixed by the
paths and by the schema. So one entry has no part in the problems of another.

A manifest with one entry of a document with references is a larger document with references: the entry
is moved behind the two collections around it.
-/
namespace Conform

namespace Schema

variable {s : Schema} {required listed : List String} {fields : List (String × Schema)}
  {es : Entries Document} {m : Document → Document}

/-! ## Documents that are moved -/

end Schema

namespace Manifest

variable {d d' x y : Document} {xs ys : List Document} {v w : Violation} {i j k : Nat}

/-- The collections around the only entry of a manifest, where the entry is behind them. -/
def around (i : Nat) : Array (View Nat) := #[.mapping [(.str "checks", 1)], .sequence .list [i + 2]]

/-- The manifest with a document as its only entry. -/
def alone : Document → Document
  | .tree v => .tree (.record [("checks", .list [v])])
  | .place g i => .place (g.behind (around i)) 0

/-- A problem of an entry as a problem of the manifest. -/
def under (i : Nat) (v : Violation) : Violation := (v.under (toString i)).under "checks"

end Manifest
end Conform
