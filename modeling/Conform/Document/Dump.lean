import Conform.Document.KeyOrder
import Conform.Document.Quoted
import Conform.Document.Writable
import Conform.Json.Writer

/-!
Dumps: documents as JSON text for a reader of diagnostics. Mappings are sorted by their keys, which
must be numbers, truth values, nulls or text; every other atom is written as its text. An integer of
too many digits is not written, and a document that leads back to itself has no dump.
-/
namespace Conform

inductive DumpError
  | order (e : OrderError)
  /-- A key of a type that JSON has no name for. -/
  | key (type : String)
  /-- An integer has more digits than are written. -/
  | tooManyDigits
  | circular
deriving DecidableEq, Repr

/-- The message, or `none` where keys have no order and the message is about their types. -/
def DumpError.message? : DumpError → Option String
  | .order .unlikeTypes => none
  | .order .mixedOffsets => some "can't compare offset-naive and offset-aware datetimes"
  | .order .dateBesideTimestamp => some "can't compare datetime.datetime to datetime.date"
  | .key type => some s!"keys must be str, int, float, bool or None, not {type}"
  | .tooManyDigits => some Numeral.unwritableMessage
  | .circular => some "Circular reference detected"

namespace Dump

/-- The name of a field for a key. -/
def fieldName : Key → Except DumpError String
  | .null => .ok "null"
  | .atom (.bool b) => .ok (if b then "true" else "false")
  | .atom (.int n) => if Numeral.isWritable n then .ok (toString n) else .error .tooManyDigits
  | .atom (.float x) => .ok (Json.numberLayout.text x)
  | .atom (.str s) => .ok s
  | .atom (.bytes _) => .error (.key "bytes")
  | .atom (.date _) => .error (.key "date")
  | .atom (.timestamp _) => .error (.key "datetime")
  | .tuple _ => .error (.key "tuple")

def atomJson : Atom → Json
  | .bool b => .bool b
  | .int n => .int n
  | .float x => .float x
  | a => .str a.text

def scalarJson : Scalar → Json
  | .atom a => atomJson a
  | s => .str s.quoted

/-- One layer as JSON, given the layers below it. A fault of the layer itself comes before those of
its keys, and a fault of a key before one of its value. -/
def layer : View (Except DumpError Json) → Except DumpError Json
  | .null => .ok .null
  | .scalar s => if s.isWritable then .ok (scalarJson s) else .error .tooManyDigits
  | .sequence _ xs => .array <$> xs.mapM id
  | .mapping es => do
    let es ← es.sorted.mapError DumpError.order
    let fields ← es.mapM fun e => do
      let name ← fieldName e.1
      return (name, ← e.2)
    return .object fields

def back (_ : View Unit) : Except DumpError Json := .error .circular

end Dump

def Document.dump (d : Document) : Except DumpError String :=
  (Json.write .unicode) <$> d.fold Dump.layer Dump.back

def Value.dump (v : Value) : Except DumpError String :=
  (Json.write .unicode) <$> v.fold Dump.layer

end Conform
