import Conform.Document.Entries

/-!
The order of keys in a dump. Keys of one type are ordered by what they denote: numbers by value, text
by code points, tuples by their first difference. Keys of unlike types have no order, and neither has
a timestamp with an offset beside one without. Entries whose keys are all text are sorted by them;
other entries are inserted one by one into the run at the front that is already in order.
-/
namespace Conform

/-- Why two keys cannot be ordered. -/
inductive OrderError
  | unlikeTypes
  /-- Timestamps with and without an offset. -/
  | mixedOffsets
  | dateBesideTimestamp
deriving DecidableEq, Repr

namespace Denotation

/-- The order of two finite numbers, brought to a common power of two. -/
def finiteLt (m e n f : Int) : Bool :=
  let least := min e f
  m * Nat.pow 2 (e - least).toNat < n * Nat.pow 2 (f - least).toNat

/-- The order of numbers, or `none` if one of the two is no number. -/
def numberLt? : Denotation → Denotation → Option Bool
  | .integer m, .integer n => some (m < n)
  | .integer m, .fraction n f => some (finiteLt m 0 n f)
  | .fraction m e, .integer n => some (finiteLt m e n 0)
  | .fraction m e, .fraction n f => some (finiteLt m e n f)
  | .infinite s, .infinite t => some (s && !t)
  | .infinite s, .integer _ => some s
  | .infinite s, .fraction .. => some s
  | .integer _, .infinite t => some !t
  | .fraction .., .infinite t => some !t
  | _, _ => none

end Denotation

def Date.lt (a b : Date) : Bool := a.ordinal < b.ordinal

namespace Atom

def isNumber : Atom → Bool
  | .bool _ => true
  | .int _ => true
  | .float _ => true
  | _ => false

def lt (a b : Atom) : Except OrderError Bool :=
  match a, b with
  | .str s, .str t => .ok (s < t)
  | .bytes s, .bytes t => .ok (s < t)
  | .date d, .date e => .ok (d.lt e)
  | .timestamp _, .date _ => .error .dateBesideTimestamp
  | .date _, .timestamp _ => .error .dateBesideTimestamp
  | .timestamp t, .timestamp u =>
    match t.instant?, u.instant? with
    | some x, some y => .ok (x < y)
    | none, none => .ok (t.clock < u.clock)
    | _, _ => .error .mixedOffsets
  | a, b =>
    if a.isNumber && b.isNumber then
      match a.denotation?, b.denotation? with
      | some x, some y => .ok ((x.numberLt? y).getD false)
      | _, _ => .ok false
    else .error .unlikeTypes

end Atom

namespace Key

mutual

def lt : Key → Key → Except OrderError Bool
  | .atom a, .atom b => a.lt b
  | .tuple ks, .tuple ls => ltAll ks ls
  | _, _ => .error .unlikeTypes

/-- The order of the first two members that differ; a beginning comes before the whole. -/
def ltAll : List Key → List Key → Except OrderError Bool
  | [], ls => .ok (!ls.isEmpty)
  | _, [] => .ok false
  | k :: ks, l :: ls => if k.same l then ltAll ks ls else k.lt l

end

end Key

namespace Entries

variable {α : Type}

/-- The place of `pivot` in a list in order, after everything that is not greater. The place is
between `low` and `high`. -/
def placeBetween (pivot : Key) (es : Array (Key × α)) : Nat → Nat → Nat → Except OrderError Nat
  | 0, low, _ => .ok low
  | n + 1, low, high =>
    if low < high then do
      let middle := low + (high - low) / 2
      let greater ← (es[middle]?.map fun e => pivot.lt e.1).getD (.ok true)
      if greater then placeBetween pivot es n low middle
      else placeBetween pivot es n (middle + 1) high
    else .ok low

def insertInOrder (es : Array (Key × α)) (e : Key × α) : Except OrderError (Array (Key × α)) := do
  let i ← placeBetween e.1 es es.size 0 es.size
  return (es.toList.take i ++ e :: es.toList.drop i).toArray

/-- The longest run in which every key after the first stands to the one before it as `down` says:
less, or not less. -/
def runFrom (down : Bool) (last : Key) : List (Key × α) →
    Except OrderError (List (Key × α) × List (Key × α))
  | [] => .ok ([], [])
  | e :: es => do
    if (← e.1.lt last) = down then
      let (run, rest) ← runFrom down e.1 es
      return (e :: run, rest)
    else return ([], e :: es)

/-- The run at the front, turned round if it descends, and the rest. -/
def leadingRun : List (Key × α) → Except OrderError (List (Key × α) × List (Key × α))
  | e :: f :: es => do
    let down ← f.1.lt e.1
    let (run, rest) ← runFrom down f.1 es
    let run := e :: f :: run
    return (if down then run.reverse else run, rest)
  | es => .ok (es, [])

def textLe (a b : Key × α) : Bool := a.1.text ≤ b.1.text

/-- The entries in the order of their keys. -/
def sorted (es : Entries α) : Except OrderError (Entries α) :=
  if es.all fun e => e.1.string?.isSome then .ok (es.mergeSort textLe)
  else do
    let (run, rest) ← leadingRun es
    return (← rest.foldlM insertInOrder run.toArray).toList

end Entries
end Conform
