import Conform.Document.Basic
import Conform.Files.Path
import Conform.Json.Reader
import Conform.Yaml.Denotation

/-!
Formats of documents and the reading of document text. JSON is read as it stands; of a YAML text
without content, or with null, nothing but an empty mapping is made. A text may be refused as no text
of its format, or it may hold a scalar that denotes nothing.
-/
namespace Conform

inductive Format
  | json
  | yaml
deriving DecidableEq, Repr

namespace Format

def name : Format → String
  | .json => "json"
  | .yaml => "yaml"

def ofName? (name : String) : Option Format :=
  if name = "json" then some .json else if name = "yaml" then some .yaml else none

/-- The format that the suffix of a path speaks for; YAML, if it says nothing. -/
def ofPath (p : Path) : Format :=
  if Text.toLower p.suffix.toList = ".json".toList then .json else .yaml

theorem ofName?_name (f : Format) : ofName? f.name = some f := by cases f <;> rfl

end Format

/-- Why a text has no document. -/
inductive DecodeError
  /-- A format that is not known. -/
  | format (name : String)
  | json (complaint : Json.Complaint) (place : Json.Place)
  | yaml
  /-- A number in JSON that cannot be read. -/
  | numeral (e : Numeral.Error)
  /-- A scalar in YAML that denotes nothing. -/
  | scalar (e : Yaml.ScalarError)
  | tooNested
deriving DecidableEq, Repr

namespace DecodeError

/-- Whether the text is refused as no text of its format, or the format is not known. -/
def isRefusal : DecodeError → Bool
  | .format _ => true
  | .json .. => true
  | .yaml => true
  | _ => false

/-- The message; there is none about nesting. -/
def message : DecodeError → String
  | .format name => s!"Unsupported document format: '{name}'"
  | .json complaint place => "Invalid JSON: " ++ place.message complaint
  | .yaml => "Invalid YAML"
  | .numeral e => e.message
  | .scalar e => e.message
  | .tooNested => ""

def ofJson (text : List Char) : Json.Fault → DecodeError
  | .malformed complaint left => .json complaint (Json.Place.at text (text.length - left))
  | .numeral e => .numeral e
  | .tooNested => .tooNested

def ofYaml : Yaml.Fault → DecodeError
  | .malformed => .yaml
  | .scalar e => .scalar e
  | .tooNested => .tooNested

end DecodeError

namespace Document

/-- The document itself, or an empty mapping in place of null. -/
def orEmpty (d : Document) : Document :=
  match d.view with
  | .null => .tree (.mapping [])
  | _ => d

/-- Reads a text in a format. -/
def decode (f : Format) (text : List Char) : Except DecodeError Document :=
  match f with
  | .json =>
    match Json.readChars text with
    | .ok j => .ok (.tree j.toValue)
    | .error e => .error (.ofJson text e)
  | .yaml =>
    match Yaml.read text with
    | .ok d => .ok d.orEmpty
    | .error e => .error (.ofYaml e)

/-- Reads a text in the format of a name. -/
def decodeNamed (format : String) (text : List Char) : Except DecodeError Document :=
  match Format.ofName? format with
  | some f => decode f text
  | none => .error (.format format)

end Document
end Conform
