import Conform.Calendar
import Conform.Numeral.Shortest
import Conform.Text.Quoted

/-!
Atoms and keys. An atom is an indivisible immutable value; a key of a mapping is an atom, a null or a
tuple of keys. Keys are compared by what they denote: a number equals a number of the same value
whatever its type, a truth value counts as zero or one, timestamps with offsets are compared as
instants, and not-a-number equals nothing.
-/
namespace Conform

open Numeral (Binary64)

inductive Atom
  | bool (b : Bool)
  | int (n : Int)
  | float (x : Binary64)
  | str (s : String)
  | bytes (bs : List UInt8)
  | date (d : Date)
  | timestamp (t : Timestamp)
deriving DecidableEq, Repr

/-- What an atom denotes when it is compared with another. -/
inductive Denotation
  | integer (n : Int)
  /-- The number `m * 2 ^ e` with an odd `m` and a negative `e`. -/
  | fraction (m e : Int)
  | infinite (negative : Bool)
  | text (s : String)
  | bytes (bs : List UInt8)
  | date (d : Date)
  | clock (microseconds : Int)
  | instant (microseconds : Int)
deriving DecidableEq, Repr

namespace Atom

def ofFinite (negative : Bool) (m : Nat) (e : Int) : Denotation :=
  if 0 ≤ e then .integer (Binary64.signed negative m * Nat.pow 2 e.toNat)
  else
    let (m, e) := Binary64.lowest m e (-e).toNat
    if 0 ≤ e then .integer (Binary64.signed negative m) else .fraction (Binary64.signed negative m) e

def denotation? : Atom → Option Denotation
  | .bool b => some (.integer (if b then 1 else 0))
  | .int n => some (.integer n)
  | .float .nan => none
  | .float (.infinite negative) => some (.infinite negative)
  | .float (.finite negative m e) => some (ofFinite negative m e)
  | .str s => some (.text s)
  | .bytes bs => some (.bytes bs)
  | .date d => some (.date d)
  | .timestamp t => some ((t.instant?.map .instant).getD (.clock t.clock))

/-- Whether two atoms are the same as keys. -/
def same (a b : Atom) : Bool :=
  match a.denotation?, b.denotation? with
  | some x, some y => x = y
  | _, _ => false

/-- The atom as it is shown inside a quoted value. -/
def quoted : Atom → String
  | .bool b => if b then "True" else "False"
  | .int n => toString n
  | .float x => x.text
  | .str s => Text.quoted s
  | .bytes bs => Text.quotedBytes bs
  | .date d => d.quoted
  | .timestamp t => t.quoted

/-- The atom as plain text. -/
def text : Atom → String
  | .str s => s
  | .date d => d.isoText
  | .timestamp t => t.isoText ' '
  | a => a.quoted

theorem same_comm (a b : Atom) : a.same b = b.same a := by
  unfold same
  cases a.denotation? <;> cases b.denotation? <;> simp [eq_comm]

theorem same_iff (a b : Atom) :
    a.same b = true ↔ ∃ d, a.denotation? = some d ∧ b.denotation? = some d := by
  unfold same
  cases a.denotation? <;> cases b.denotation? <;> simp [eq_comm]

theorem same_trans {a b c : Atom} (h : a.same b = true) (h' : b.same c = true) :
    a.same c = true := by
  obtain ⟨d, ha, hb⟩ := (same_iff a b).mp h
  obtain ⟨e, hb', hc⟩ := (same_iff b c).mp h'
  obtain rfl : d = e := Option.some.inj (hb.symm.trans hb')
  exact (same_iff a c).mpr ⟨d, ha, hc⟩

end Atom

inductive Key
  | null
  | atom (a : Atom)
  | tuple (ks : List Key)
deriving Repr

namespace Key

abbrev str (s : String) : Key := .atom (.str s)

mutual

/-- Whether two keys denote the same entry of a mapping. -/
def same : Key → Key → Bool
  | .null, .null => true
  | .atom a, .atom b => a.same b
  | .tuple ks, .tuple ls => sameAll ks ls
  | _, _ => false

def sameAll : List Key → List Key → Bool
  | [], [] => true
  | k :: ks, l :: ls => k.same l && sameAll ks ls
  | _, _ => false

end

/-- Items between brackets, with a comma after a single one. -/
def tupleText : List String → String
  | [item] => "(" ++ item ++ ",)"
  | items => "(" ++ ", ".intercalate items ++ ")"

mutual

/-- The key as it is shown inside a quoted value. -/
def quoted : Key → String
  | .null => "None"
  | .atom a => a.quoted
  | .tuple ks => tupleText (quotedAll ks)

def quotedAll : List Key → List String
  | [] => []
  | k :: ks => k.quoted :: quotedAll ks

end

/-- The key as plain text: its name in messages and paths. -/
def text : Key → String
  | .atom a => a.text
  | k => k.quoted

def string? : Key → Option String
  | .atom (.str s) => some s
  | _ => none

theorem exists_of_isSome_string? {k : Key} (h : k.string?.isSome = true) :
    ∃ s : String, k = .str s := by
  cases k with
  | null => cases h
  | tuple ks => cases h
  | atom a =>
    cases a with
    | str s => exact ⟨s, rfl⟩
    | _ => cases h

@[simp] theorem same_str (s t : String) : (str s).same (str t) = decide (s = t) := by
  simp [same, Atom.same, Atom.denotation?]

@[simp] theorem text_str (s : String) : (str s).text = s := rfl

mutual

theorem same_comm : ∀ k l : Key, k.same l = l.same k
  | .null, .null => rfl
  | .atom a, .atom b => Atom.same_comm a b
  | .tuple ks, .tuple ls => sameAll_comm ks ls
  | .null, .atom _ => rfl
  | .null, .tuple _ => rfl
  | .atom _, .null => rfl
  | .atom _, .tuple _ => rfl
  | .tuple _, .null => rfl
  | .tuple _, .atom _ => rfl

theorem sameAll_comm : ∀ ks ls : List Key, sameAll ks ls = sameAll ls ks
  | [], [] => rfl
  | k :: ks, l :: ls => by rw [sameAll, sameAll, same_comm k l, sameAll_comm ks ls]
  | [], _ :: _ => rfl
  | _ :: _, [] => rfl

end

mutual

theorem same_trans : ∀ {k l m : Key}, k.same l = true → l.same m = true → k.same m = true
  | .null, .null, .null, _, _ => rfl
  | .atom _, .atom _, .atom _, h, h' => Atom.same_trans h h'
  | .tuple _, .tuple _, .tuple _, h, h' => sameAll_trans h h'

theorem sameAll_trans : ∀ {ks ls ms : List Key},
    sameAll ks ls = true → sameAll ls ms = true → sameAll ks ms = true
  | [], [], [], _, _ => rfl
  | _ :: _, _ :: _, _ :: _, h, h' => by
    obtain ⟨hk, hks⟩ := Bool.and_eq_true_iff.mp h
    obtain ⟨hl, hls⟩ := Bool.and_eq_true_iff.mp h'
    exact Bool.and_eq_true_iff.mpr ⟨same_trans hk hl, sameAll_trans hks hls⟩

end

end Key
end Conform
