import Conform.Document.Basic
import Conform.Numeral.Error

/-!
Integers of too many digits have no text: what they stand in is neither dumped nor shown.
-/
namespace Conform

/-- Whether an integer has no more digits than are written. -/
def Numeral.isWritable (n : Int) : Bool := n.natAbs < Nat.pow 10 digitLimit

/-- Why an integer is not written. -/
def Numeral.unwritableMessage : String :=
  s!"Exceeds the limit ({digitLimit} digits) for integer string conversion; "
    ++ "use sys.set_int_max_str_digits() to increase the limit"

def Atom.isWritable : Atom → Bool
  | .int n => Numeral.isWritable n
  | _ => true

namespace Key

mutual

/-- Whether the integers in a key can be written. -/
def isWritable : Key → Bool
  | .null => true
  | .atom a => a.isWritable
  | .tuple ks => areWritable ks

def areWritable : List Key → Bool
  | [] => true
  | k :: ks => k.isWritable && areWritable ks

end

/-- The text of a key, unless an integer in it has none. -/
def text? (k : Key) : Option String := if k.isWritable then some k.text else none

end Key

def Scalar.isWritable : Scalar → Bool
  | .atom a => a.isWritable
  | .set ks => Key.areWritable ks

/-- Whether the integers of a layer can be written, given whether those below it can. -/
def View.isWritable : View Bool → Bool
  | .null => true
  | .scalar s => s.isWritable
  | .sequence _ parts => parts.all id
  | .mapping es => es.all fun e => e.1.isWritable && e.2

/-- Whether the integers in a document can be written. -/
def Document.isWritable (d : Document) : Bool := d.fold View.isWritable fun _ => true

end Conform
