import Conform.Files.Path
import Conform.Json.Writer
import Conform.Report

/-!
Results of checks, and the three forms in which a list of them is written: lines for people, a JSON
document, and annotation commands with one line for every message.
-/
namespace Conform

/-- The outcome of a check that was completed. -/
structure Result where
  name : String
  report : Report
  shape : Option Path
  subject : Option Path
deriving Repr

def Issue.toJson (i : Issue) : Json :=
  .object [("kind", .str i.kind.name), ("message", .str i.message), ("path", .str i.path)]

def Report.fields (r : Report) : List (String × Json) :=
  [("status", .str r.status.name), ("messages", .array (r.messages.map .str)),
    ("issues", .array (r.issues.map Issue.toJson))]

namespace Result

/-- The paths are left out where there are none. -/
def fields (r : Result) : List (String × Json) :=
  ("name", .str r.name) :: (r.shape.map fun p => ("shape", .str p.text)).toList
    ++ (r.subject.map fun p => ("subject", .str p.text)).toList ++ r.report.fields

def toJson (r : Result) : Json := .object r.fields

/-- The file that annotations name: the subject, or the name of a result without one. -/
def file (r : Result) : String := (r.subject.map Path.text).getD r.name

end Result

/-- The forms of output. -/
inductive OutputFormat
  | human
  | json
  | annotations
deriving DecidableEq, Repr

namespace OutputFormat

def name : OutputFormat → String
  | .human => "human"
  | .json => "json"
  | .annotations => "github-actions"

def all : List OutputFormat := [.human, .json, .annotations]

def ofName? (s : String) : Option OutputFormat := all.find? fun f => f.name = s

theorem ofName?_name (f : OutputFormat) : ofName? f.name = some f := by cases f <;> rfl

def unknownMessage (name : String) : String :=
  s!"Unknown output format: '{name}'. Valid formats: "
    ++ ", ".intercalate (all.map OutputFormat.name)

end OutputFormat

namespace Rendering

def failedCount (rs : List Result) : Nat := (rs.filter fun r => !r.report.isOk).length

def messageCount (rs : List Result) : Nat := (rs.flatMap fun r => r.report.messages).length

/-! ## For people -/

def issueLine (i : Issue) : String := s!"  ERROR [{i.kind.name}]: {i.message}\n"

/-- The lines about one result: a heading, then its issues. -/
def paragraph (r : Result) : String :=
  if r.report.isOk then s!"{r.name}: OK\n"
  else
    s!"{r.name}: FAILED ({r.report.messages.length} error(s))\n"
      ++ String.join (r.report.issues.map issueLine)

def closingLine (rs : List Result) : String :=
  if failedCount rs = 0 then
    s!"Verification succeeded: {rs.length} document(s) matched the shape.\n"
  else
    s!"Verification failed: {failedCount rs} of {rs.length} document(s) did not match the shape.\n"

def human (rs : List Result) : String := String.join (rs.map paragraph) ++ closingLine rs

/-! ## As JSON -/

def document (rs : List Result) : Json :=
  .object [("documents", .int rs.length), ("errors", .int (messageCount rs)),
    ("results", .array (rs.map Result.toJson))]

def json (rs : List Result) : String := (document rs).write .ascii

/-! ## As annotations -/

/-- Line ends would end a command, and the percent sign starts an escape. -/
def escapeData : Char → List Char
  | '%' => "%25".toList
  | '\r' => "%0D".toList
  | '\n' => "%0A".toList
  | c => [c]

/-- Inside a property the marks between properties are escaped too. -/
def escapeProperty : Char → List Char
  | ':' => "%3A".toList
  | ',' => "%2C".toList
  | c => escapeData c

def commandLine (file message : String) : List Char :=
  "::error file=".toList ++ file.toList.flatMap escapeProperty ++ ':' :: ':'
    :: message.toList.flatMap escapeData

/-- One command for every message, results and messages in order. -/
def annotationLines (rs : List Result) : List (List Char) :=
  rs.flatMap fun r => r.report.messages.map (commandLine r.file)

def annotations (rs : List Result) : String :=
  String.ofList ((annotationLines rs).flatMap fun line => line ++ ['\n'])

def render (rs : List Result) : OutputFormat → String
  | .human => human rs
  | .json => json rs
  | .annotations => annotations rs

end Rendering
end Conform
