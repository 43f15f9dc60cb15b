/-!
Paths of files: a root and the names below it. Empty names and names that stand for the place itself
are left out when a path is read; steps to the parent are kept. Two slashes at the front are a root of
their own, and three or more are one.
-/
namespace Conform

inductive Root
  | relative
  | absolute
  | double
deriving DecidableEq, Repr

structure Path where
  root : Root
  names : List String
deriving DecidableEq, Repr

namespace Root

def text : Root → String
  | .relative => ""
  | .absolute => "/"
  | .double => "//"

/-- The root that a number of slashes at the front stands for. -/
def ofSlashes (n : Nat) : Root :=
  if n = 0 then .relative else if n = 2 then .double else .absolute

end Root

namespace Path

/-- The pieces of a text between slashes. -/
def pieces (text : String) : List String := (text.toList.splitOn '/').map String.ofList

def ofText (text : String) : Path :=
  ⟨.ofSlashes (text.toList.takeWhile (· = '/')).length,
    (pieces text).filter fun name => name ≠ "" && name ≠ "."⟩

def text (p : Path) : String :=
  if p = ⟨.relative, []⟩ then "." else p.root.text ++ "/".intercalate p.names

/-- The path to the place that holds `p`; the topmost place holds itself. -/
def parent (p : Path) : Path := { p with names := p.names.dropLast }

/-- The path `q` as seen from `p`. -/
def join (p q : Path) : Path :=
  if q.root = .relative then { p with names := p.names ++ q.names } else q

/-- The last name, or nothing at the top. -/
def name (p : Path) : String := p.names.getLast?.getD ""

/-- The end of the last name from its last full stop on, unless the full stop begins or ends it. -/
def suffix (p : Path) : String :=
  let cs := p.name.toList
  let after := (cs.reverse.takeWhile (· ≠ '.')).length
  if cs.contains '.' && after > 0 && after + 1 < cs.length then
    String.ofList (cs.drop (cs.length - after - 1))
  else ""

end Path
end Conform
