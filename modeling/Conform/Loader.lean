import Conform.Document.Format
import Conform.Files.Basic
import Conform.Text.Newline
import Conform.Text.Utf8

/-!
Loading documents from files. A loader may keep what it has loaded; a kept document stands in for a
later reading of the same path, as long as there is a file at the path.
-/
namespace Conform

inductive LoadError
  | missing (p : Path)
  | notFile (p : Path)
  /-- The bytes of the file are no text. -/
  | unreadable (p : Path) (e : Text.Utf8.Error)
  | undecodable (p : Path) (e : DecodeError)
deriving DecidableEq, Repr

namespace LoadError

/-- Whether the file is at fault, and not a scalar in it that denotes nothing. -/
def isRefusal : LoadError → Bool
  | .undecodable _ e => e.isRefusal
  | _ => true

def message : LoadError → String
  | .missing p => "Document not found: " ++ p.text
  | .notFile p => "Path is not a file: " ++ p.text
  | .unreadable p e => "Failed to read document " ++ p.text ++ ": " ++ e.message
  | .undecodable p e =>
    if e.isRefusal then "Failed to parse document " ++ p.text ++ ": " ++ e.message else e.message

end LoadError

structure Loader where
  /-- Whether documents are kept. -/
  keeps : Bool
  kept : List (Path × Document)

namespace Loader

def start (keeps : Bool) : Loader := ⟨keeps, []⟩

def clear (l : Loader) : Loader := { l with kept := [] }

/-- The document kept for a path. -/
def kept? (l : Loader) (p : Path) : Option Document := if l.keeps then l.kept.lookup p else none

/-- Keeps a document for a path in place of the one before. -/
def keep (p : Path) (d : Document) (l : Loader) : Loader :=
  if l.keeps then { l with kept := (p, d) :: l.kept.filter (·.1 ≠ p) } else l

/-- The format that was asked for, or else that of the path. An empty name asks for nothing. -/
def formatName (p : Path) (asked : Option String) : String :=
  ((asked.filter (· ≠ "")).getD (Format.ofPath p).name)

/-- What became of a load: its result, the loader after it, and the remark made on the way. -/
structure Outcome where
  result : Except LoadError Document
  loader : Loader
  remark : Option String

/-- Reads the document in the bytes of a file. -/
def read (l : Loader) (p : Path) (asked : Option String) (bytes : List UInt8) : Outcome :=
  match Text.Utf8.decode bytes with
  | .error e => ⟨.error (.unreadable p e), l, none⟩
  | .ok text =>
    let remark := some ("Loading document: " ++ p.text)
    match Document.decodeNamed (formatName p asked) (Text.unifyNewlines text) with
    | .error e => ⟨.error (.undecodable p e), l, remark⟩
    | .ok d => ⟨.ok d, l.keep p d, remark⟩

/-- Loads the document at a path. -/
def load (fs : Files) (l : Loader) (p : Path) (asked : Option String) : Outcome :=
  match fs.entry? p with
  | none => ⟨.error (.missing p), l, none⟩
  | some .directory => ⟨.error (.notFile p), l, none⟩
  | some (.file bytes) =>
    match l.kept? p with
    | some d => ⟨.ok d, l, some ("Loading document from cache: " ++ p.text)⟩
    | none => l.read p asked bytes

end Loader
end Conform
