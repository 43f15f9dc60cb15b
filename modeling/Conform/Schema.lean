import Conform.Document.Quoted
import Conform.Document.Writable
import Conform.Json.Basic

/-!
Schemas of manifests and their violations. A record has required fields and no fields but those that
are listed; a list and a text must not be empty. The violations of a document are found from the
outside inwards: for a record first the missing fields, then the violations inside the fields in the
order of the schema, then the fields that are not listed.
-/
namespace Conform

inductive Schema
  | record (required : List String) (fields : List (String × Schema))
  | list (item : Schema)
  | text
  | truth

/-- A document as it is shown in a message, or `none` if an integer in it cannot be written. -/
def Document.shown? (d : Document) : Option String := if d.isWritable then some d.quoted else none

def Key.shown? (k : Key) : Option String := if k.isWritable then some k.quoted else none

/-- What is wrong with a part of a document. Parts are shown as quoted text, where they can be. -/
inductive Complaint
  | type (found : Option String) (expected : String)
  | empty (found : String)
  | missing (field : String)
  /-- Fields that are not listed. -/
  | unexpected (fields : List (Option String))
deriving DecidableEq, Repr

def Complaint.message? : Complaint → Option String
  | .type found expected => found.map fun text => s!"{text} is not of type '{expected}'"
  | .empty found => some s!"{found} should be non-empty"
  | .missing field => some (Text.quoted field ++ " is a required property")
  | .unexpected fields => do
    let texts ← fields.mapM id
    return "Additional properties are not allowed (" ++ ", ".intercalate texts
      ++ (if texts.length = 1 then " was" else " were") ++ " unexpected)"

/-- A complaint about the part at a path of field names and item numbers. -/
structure Violation where
  path : List String
  complaint : Complaint
deriving DecidableEq, Repr

namespace Violation

def message? (v : Violation) : Option String :=
  v.complaint.message?.map (· ++ " (path=/" ++ "/".intercalate v.path ++ ")")

/-- The same violation one level further out. -/
def under (name : String) (v : Violation) : Violation := { v with path := name :: v.path }

/-- Violations are listed by their paths; those of one path stay in order. -/
def le (v w : Violation) : Bool := !(decide (w.path < v.path))

end Violation

namespace Schema

/-- The names of the types in messages. -/
def typeName : Schema → String
  | .record .. => "object"
  | .list _ => "array"
  | .text => "string"
  | .truth => "boolean"

def complain (c : Complaint) : List Violation := [⟨[], c⟩]

/-- The complaint that a document is not of the type of a schema. -/
def mismatch (s : Schema) (d : Document) : List Violation :=
  complain (.type d.shown? s.typeName)

def missing (required : List String) (es : Entries Document) : List Violation :=
  (required.filter fun name => !es.has (.str name)).flatMap fun name => complain (.missing name)

/-- The keys that are not listed, sorted by their text. -/
def unexpected (listed : List String) (es : Entries Document) : List Violation :=
  let extra := (es.map Prod.fst).filter fun k => !listed.any fun name => k.same (.str name)
  if extra.isEmpty then []
  else complain (.unexpected ((extra.mergeSort fun k l => k.text ≤ l.text).map Key.shown?))

mutual

/-- The violations of a document, from the outside inwards. -/
def violations (s : Schema) (d : Document) : List Violation :=
  match s with
  | .record required fields =>
    match d.view with
    | .mapping es =>
      missing required es ++ fieldViolations fields es ++ unexpected (fields.map Prod.fst) es
    | _ => mismatch s d
  | .list item =>
    match d.view with
    | .sequence .list xs =>
      if xs.isEmpty then complain (.empty d.quoted)
      else (xs.mapIdx fun i x => (item.violations x).map (Violation.under (toString i))).flatten
    | _ => mismatch s d
  | .text =>
    match d.view with
    | .scalar (.atom (.str t)) => if t.isEmpty then complain (.empty d.quoted) else []
    | _ => mismatch s d
  | .truth =>
    match d.view with
    | .scalar (.atom (.bool _)) => []
    | _ => mismatch s d

def fieldViolations : List (String × Schema) → Entries Document → List Violation
  | [], _ => []
  | (name, s) :: fields, es =>
    ((es.get? (.str name)).toList.flatMap fun d =>
      (s.violations d).map (Violation.under name)) ++ fieldViolations fields es

end

/-- The violations sorted by their paths. -/
def problems (s : Schema) (d : Document) : List Violation :=
  (s.violations d).mergeSort Violation.le

mutual

/-- The schema as a JSON Schema. -/
def toJson : Schema → Json
  | .record required fields => .object (recordFields required fields)
  | .list item => .object [("type", .str "array"), ("minItems", .int 1), ("items", item.toJson)]
  | .text => .object [("type", .str "string"), ("minLength", .int 1)]
  | .truth => .object [("type", .str "boolean")]

def recordFields (required : List String) (fields : List (String × Schema)) :
    List (String × Json) :=
  [("type", .str "object"), ("required", .array (required.map .str)),
    ("properties", .object (propertyFields fields)), ("additionalProperties", .bool false)]

def propertyFields : List (String × Schema) → List (String × Json)
  | [] => []
  | (name, s) :: fields => (name, s.toJson) :: propertyFields fields

end

end Schema
end Conform
