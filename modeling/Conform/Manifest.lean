import Conform.Loader
import Conform.Schema

/-!
Manifests: documents that list checks. A check names a shape and a subject; their paths start at the
place of the manifest.
-/
namespace Conform

structure Check where
  name : String
  shape : Path
  subject : Path
  /-- Whether the check is strict, if it says so itself. -/
  strict : Option Bool
deriving DecidableEq, Repr

inductive ManifestError
  | unloadable (e : LoadError)
  | invalid (p : Path) (problems : List Violation)
deriving DecidableEq, Repr

namespace ManifestError

/-- Whether the manifest is at fault, and not a scalar in it that denotes nothing. -/
def isRefusal : ManifestError → Bool
  | .unloadable e => e.isRefusal
  | .invalid .. => true

/-- The message, or `none` if a problem has none. -/
def message? : ManifestError → Option String
  | .unloadable e => some (if e.isRefusal then "Failed to load manifest: " ++ e.message else e.message)
  | .invalid p problems => do
    let messages ← problems.mapM Violation.message?
    return "Manifest validation failed for " ++ p.text ++ ":\n"
      ++ "\n".intercalate (messages.map ("  - " ++ ·))

end ManifestError

namespace Manifest

def checkSchema : Schema :=
  .record ["shape", "subject"] [("name", .text), ("shape", .text), ("subject", .text), ("strict", .truth)]

/-- What every manifest conforms to. -/
def schema : Schema := .record ["checks"] [("checks", .list checkSchema)]

/-- The problems of a document as a manifest. -/
def problems (d : Document) : List Violation := schema.problems d

/-- The schema as a published document, with its dialect and its title. -/
def schemaJson : Json :=
  .object ([("$schema", .str "http://json-schema.org/draft-07/schema#"),
    ("title", .str "shape_verifier batch manifest")]
    ++ Schema.recordFields ["checks"] [("checks", .list checkSchema)])

/-- The schemas that are published, by name. -/
def schemas : List (String × Json) := [("manifest", schemaJson)]

/-- A name that no schema has, and the file that would hold it. -/
structure UnknownSchema where
  name : String
  file : Path
deriving DecidableEq, Repr

def UnknownSchema.message (e : UnknownSchema) : String :=
  s!"Schema file not found for '{e.name}': {e.file.text}"

/-- The schema of a name. Schemas are kept in files of their names in a directory. -/
def findSchema (directory : Path) (name : String) : Except UnknownSchema Json :=
  let file := directory.join (.ofText (name ++ ".json"))
  match schemas.find? fun s => directory.join (.ofText (s.1 ++ ".json")) = file with
  | some s => .ok s.2
  | none => .error ⟨name, file⟩

/-- A part of a mapping, if it is one and has the part. -/
def part? (name : String) (d : Document) : Option Document :=
  match d.view with
  | .mapping es => es.get? (.str name)
  | _ => none

def text? (d : Document) : Option String :=
  match d.view with
  | .scalar (.atom (.str s)) => some s
  | _ => none

def truth? (d : Document) : Option Bool :=
  match d.view with
  | .scalar (.atom (.bool b)) => some b
  | _ => none

def items (d : Document) : List Document :=
  match d.view with
  | .sequence _ xs => xs
  | _ => []

/-- The check that an entry of a manifest lists. It is called by its subject, unless it has a name. -/
def check (base : Path) (entry : Document) : Check :=
  let shape := ((part? "shape" entry).bind text?).getD ""
  let subject := ((part? "subject" entry).bind text?).getD ""
  { name := ((part? "name" entry).bind text?).getD subject
    shape := base.join (.ofText shape)
    subject := base.join (.ofText subject)
    strict := (part? "strict" entry).bind truth? }

/-- The checks that a document at a path lists, or its problems as a manifest. -/
def checks (p : Path) (d : Document) : Except ManifestError (List Check) :=
  match problems d with
  | [] => .ok (((part? "checks" d).map items).getD [] |>.map (check p.parent))
  | vs => .error (.invalid p vs)

/-- What became of loading a manifest. -/
structure Outcome where
  result : Except ManifestError (List Check)
  loader : Loader
  remark : Option String

def load (fs : Files) (l : Loader) (p : Path) : Outcome :=
  let o := Loader.load fs l p none
  ⟨match o.result with
    | .error e => .error (.unloadable e)
    | .ok d => checks p d, o.loader, o.remark⟩

end Manifest
end Conform
