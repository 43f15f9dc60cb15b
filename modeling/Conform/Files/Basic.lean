import Conform.Files.Path

/-!
Files: what the paths that a run asks for lead to.
-/
namespace Conform

inductive Entry
  | file (bytes : List UInt8)
  | directory
deriving DecidableEq, Repr

/-- What is found at every path. -/
structure Files where
  entry? : Path → Option Entry

/-- Files that are found at exactly the paths of a list. -/
def Files.ofList (es : List (Path × Entry)) : Files := ⟨fun p => es.lookup p⟩

end Conform
