import Conform.Document.View

/-!
Values: documents that are finite trees. `Value.fold` computes bottom up, one layer at a time.
-/
namespace Conform

inductive Value
  | null
  | scalar (s : Scalar)
  | sequence (form : Form) (xs : List Value)
  | mapping (es : List (Key × Value))
deriving Repr

namespace Value

abbrev bool (b : Bool) : Value := .scalar (.atom (.bool b))
abbrev int (n : Int) : Value := .scalar (.atom (.int n))
abbrev str (s : String) : Value := .scalar (.atom (.str s))
abbrev list (xs : List Value) : Value := .sequence .list xs

/-- A mapping with text keys. -/
def record (fields : List (String × Value)) : Value :=
  .mapping (fields.map fun f => (.str f.1, f.2))

def view : Value → View Value
  | .null => .null
  | .scalar s => .scalar s
  | .sequence form xs => .sequence form xs
  | .mapping es => .mapping es

instance : Node Value := ⟨view⟩

variable {α : Type}

mutual

/-- Computes from the leaves upwards: `layer` is given each layer with the results below it. -/
def fold (layer : View α → α) : Value → α
  | .null => layer .null
  | .scalar s => layer (.scalar s)
  | .sequence form xs => layer (.sequence form (foldList layer xs))
  | .mapping es => layer (.mapping (foldEntries layer es))

def foldList (layer : View α → α) : List Value → List α
  | [] => []
  | x :: xs => fold layer x :: foldList layer xs

def foldEntries (layer : View α → α) : List (Key × Value) → List (Key × α)
  | [] => []
  | (k, v) :: es => (k, fold layer v) :: foldEntries layer es

end

theorem foldList_eq_map (layer : View α → α) (xs : List Value) :
    foldList layer xs = xs.map (fold layer) := by
  induction xs with
  | nil => rfl
  | cons x xs ih => simp [foldList, ih]

theorem foldEntries_eq_mapValues (layer : View α → α) (es : Entries Value) :
    foldEntries layer es = es.mapValues (fold layer) := by
  induction es with
  | nil => rfl
  | cons e es ih =>
    obtain ⟨k, v⟩ := e
    simp only [foldEntries, ih]
    rfl

theorem fold_eq (layer : View α → α) (v : Value) :
    v.fold layer = layer (v.view.map (fold layer)) := by
  cases v with
  | null => rfl
  | scalar s => rfl
  | sequence form xs => simp [fold, view, View.map, foldList_eq_map]
  | mapping es => simp [fold, view, View.map, foldEntries_eq_mapValues]

end Value
end Conform
