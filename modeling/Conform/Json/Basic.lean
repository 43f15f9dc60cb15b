import Conform.Document.Value

/-!
JSON values, with whole numbers kept apart from decimal ones. An object lists its fields in order and
may name a field more than once; as a document it keeps the place of the first and the value of the
last.
-/
namespace Conform

inductive Json
  | null
  | bool (b : Bool)
  | int (n : Int)
  | float (x : Numeral.Binary64)
  | str (s : String)
  | array (xs : List Json)
  | object (fields : List (String × Json))
deriving Repr

namespace Json

mutual

def toValue : Json → Value
  | .null => .null
  | .bool b => .bool b
  | .int n => .int n
  | .float x => .scalar (.atom (.float x))
  | .str s => .str s
  | .array xs => .list (toValues xs)
  | .object fields => .mapping (Entries.ofList (toEntries fields))

def toValues : List Json → List Value
  | [] => []
  | x :: xs => toValue x :: toValues xs

def toEntries : List (String × Json) → List (Key × Value)
  | [] => []
  | (name, x) :: fields => (.str name, toValue x) :: toEntries fields

end

theorem toValues_eq_map (xs : List Json) : toValues xs = xs.map toValue := by
  induction xs with
  | nil => rfl
  | cons x xs ih => simp [toValues, ih]

theorem toEntries_eq_map (fields : List (String × Json)) :
    toEntries fields = fields.map fun f => (.str f.1, toValue f.2) := by
  induction fields with
  | nil => rfl
  | cons f fields ih => simp [toEntries, ih]

end Json
end Conform
