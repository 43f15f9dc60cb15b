import Conform.Document.Basic

/-!
Documents inside messages. A quoted document is written on one line: lists in brackets, tuples in
parentheses, mappings and sets in braces, text in quotation marks. A part that leads back to itself
is written as an ellipsis.
-/
namespace Conform

def Scalar.quoted : Scalar → String
  | .atom a => a.quoted
  | .set [] => "set()"
  | .set ks => "\x7b" ++ ", ".intercalate (ks.map Key.quoted) ++ "\x7d"

namespace View

/-- Quotes one layer, given the quoted layers below it. -/
def quoted : View String → String
  | .null => "None"
  | .scalar s => s.quoted
  | .sequence .list items => "[" ++ ", ".intercalate items ++ "]"
  | .sequence .tuple items => Key.tupleText items
  | .mapping es =>
    "\x7b" ++ ", ".intercalate (es.map fun e => e.1.quoted ++ ": " ++ e.2) ++ "\x7d"

/-- Stands for a collection inside itself. -/
def ellipsis : View Unit → String
  | .sequence .list _ => "[...]"
  | .sequence .tuple _ => "(...)"
  | _ => "\x7b...\x7d"

end View

def Document.quoted (d : Document) : String := d.fold View.quoted View.ellipsis

def Value.quoted (v : Value) : String := v.fold View.quoted

/-- A value as plain text: the text of a single atom, else the quoted form. -/
def Value.text : Value → String
  | .scalar (.atom a) => a.text
  | v => v.quoted

end Conform
