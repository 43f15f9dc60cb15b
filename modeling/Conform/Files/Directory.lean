import Conform.Files.Basic

/-!
Directories: the contents of a working directory. Paths lead into it from its own place; the places
above it are directories that are known to exist and of which nothing else is known.
-/
namespace Conform

/-- The entries below the working directory, by the names that lead to them. -/
structure Directory where
  entries : List (List String × Entry)
deriving DecidableEq, Repr

namespace Directory

def empty : Directory := ⟨[]⟩

/-- Where a path leads. -/
inductive Place
  | inside (names : List String)
  /-- Above the working directory. -/
  | outside
deriving DecidableEq, Repr

def Place.start (p : Path) : Place := if p.root = .relative then .inside [] else .outside

def at? (dir : Directory) : Place → Option Entry
  | .outside => some .directory
  | .inside [] => some .directory
  | .inside names => (dir.entries.find? fun e => e.1 = names).map Prod.snd

/-- The place one name further. -/
def Place.step (name : String) : Place → Option Place
  | .outside => if name = ".." then some .outside else none
  | .inside names =>
    if name ≠ ".." then some (.inside (names ++ [name]))
    else if names.isEmpty then some .outside
    else some (.inside names.dropLast)

/-- Follows names from a place. Every place on the way must be a directory. -/
def follow (dir : Directory) (here : Place) : List String → Option Place
  | [] => if (dir.at? here).isSome then some here else none
  | name :: names =>
    if dir.at? here = some .directory then (here.step name).bind fun next => dir.follow next names
    else none

/-- The entry that a path leads to. -/
def find? (dir : Directory) (p : Path) : Option Entry := (dir.follow (.start p) p.names).bind dir.at?

def put (dir : Directory) (names : List String) (e : Entry) : Directory :=
  ⟨dir.entries.filter (fun f => f.1 ≠ names) ++ [(names, e)]⟩

/-- Puts an entry at the end of a way, and directories where the way leads through nothing. -/
def putAlong (dir : Directory) (e : Entry) (here : Place) : List String → Directory
  | [] =>
    match here with
    | .inside (n :: ns) => dir.put (n :: ns) e
    | _ => dir
  | name :: names =>
    let dir :=
      match here with
      | .inside (n :: ns) => if (dir.at? here).isNone then dir.put (n :: ns) .directory else dir
      | _ => dir
    match here.step name with
    | some next => dir.putAlong e next names
    | none => dir

/-- Puts an entry at a path, together with the directories on the way to it. -/
def write (dir : Directory) (p : Path) (e : Entry) : Directory := dir.putAlong e (.start p) p.names

/-- Removes what a path leads to, and everything below it. -/
def remove (dir : Directory) (p : Path) : Directory :=
  match dir.follow (.start p) p.names with
  | some (.inside names) => ⟨dir.entries.filter fun e => !names.isPrefixOf e.1⟩
  | _ => dir

/-- What the paths that start at the directory lead to. -/
def files (dir : Directory) : Files := ⟨dir.find?⟩

end Directory
end Conform
