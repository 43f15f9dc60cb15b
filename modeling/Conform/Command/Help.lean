import Conform.Command.Arguments
import Conform.Settings
import Conform.Text.Wrap

/-!
The usage and the help of the command, for lines of eighty characters.
-/
namespace Conform.Command

def programName : String := "shape-verify"

def formatNames : String :=
  "\x7b" ++ ",".intercalate (OutputFormat.all.map OutputFormat.name) ++ "\x7d"

def lines (ls : List String) : String := String.join (ls.map (· ++ "\n"))

def usage : String :=
  lines [
    "usage: shape-verify [-h] [--manifest MANIFEST]",
    "                    [--format " ++ formatNames ++ "] [--strict]",
    "                    [--max-depth MAX_DEPTH] [--log-level LOG_LEVEL]",
    "                    [shape] [subject]"]

/-- The column where explanations start, and the room for them. -/
def helpColumn : Nat := 24
def helpRoom : Nat := 54

def blanks (n : Nat) : String := String.ofList (List.replicate n ' ')

/-- The lines about one argument: its heading, and its explanation beside or below it. -/
def entry (heading explanation : String) : List String :=
  let heading := "  " ++ heading
  let indented := (Text.wrap helpRoom explanation).map (blanks helpColumn ++ ·)
  if heading.length + 2 ≤ helpColumn then
    match Text.wrap helpRoom explanation with
    | [] => [heading]
    | first :: _ => (heading ++ blanks (helpColumn - heading.length) ++ first) :: indented.tail
  else heading :: indented

/-- The help, with the settings that hold where an option is not given. -/
def help (s : Settings) : String :=
  usage ++ lines (
    ["",
      "Verify that JSON/YAML documents have the keys and nesting described by a shape",
      "",
      "positional arguments:"]
    ++ entry "shape" "Shape document (JSON or YAML)"
    ++ entry "subject" "Document to verify (JSON or YAML)"
    ++ ["", "options:"]
    ++ entry "-h, --help" "show this help message and exit"
    ++ entry "--manifest MANIFEST" "Manifest listing shape/subject pairs to verify in one run"
    ++ entry ("--format " ++ formatNames) "Output format (default: human)"
    ++ entry "--strict"
      "Reject ambiguous shapes (several wildcards per level, multi-element array shapes)"
    ++ entry "--max-depth MAX_DEPTH" s!"Maximum nesting depth (default: {s.maxDepth})"
    ++ entry "--log-level LOG_LEVEL" s!"Logging level (default: {s.logLevel})")

/-- The complaint about arguments that make no sense. -/
def UsageError.report (e : UsageError) : String :=
  usage ++ s!"{programName}: error: {e.message}\n"

end Conform.Command
