/-!
Bytes as text in base 64. Characters outside the alphabet are passed over. Padding ends the text where
it completes a group of four; a text that stops inside a group without it has no bytes.
-/
namespace Conform.Text.Base64

/-- The value of a character of the alphabet. -/
def digit? (c : Char) : Option Nat :=
  let n := c.toNat
  if 0x41 ≤ n && n ≤ 0x5a then some (n - 0x41)
  else if 0x61 ≤ n && n ≤ 0x7a then some (n - 0x61 + 26)
  else if 0x30 ≤ n && n ≤ 0x39 then some (n - 0x30 + 52)
  else if c = '+' then some 62
  else if c = '/' then some 63
  else none

/-- The place in a group of four characters, with the bits that are left over from the last one. -/
inductive Group
  | first
  | second (bits : Nat)
  | third (bits : Nat)
  | fourth (bits : Nat)

/-- How many characters a group has so far. -/
def Group.size : Group → Nat
  | .first => 0
  | .second _ => 1
  | .third _ => 2
  | .fourth _ => 3

/-- The byte that a digit completes, if it does, and the group after it. -/
def Group.push (d : Nat) : Group → Option UInt8 × Group
  | .first => (none, .second d)
  | .second bits => (some (UInt8.ofNat (bits * 4 + d / 16)), .third (d % 16))
  | .third bits => (some (UInt8.ofNat (bits * 16 + d / 4)), .fourth (d % 4))
  | .fourth bits => (some (UInt8.ofNat (bits * 64 + d)), .first)

/-- Reads the rest of a text inside a group, after a number of padding characters in a row. -/
def decodeFrom (g : Group) (padding : Nat) : List Char → Option (List UInt8)
  | [] => if g.size = 0 then some [] else none
  | c :: r =>
    if c = '=' then
      if g.size < 2 then decodeFrom g padding r
      else if g.size + padding + 1 ≥ 4 then some []
      else decodeFrom g (padding + 1) r
    else
      match digit? c with
      | none => decodeFrom g padding r
      | some d =>
        let (byte, g) := g.push d
        (decodeFrom g 0 r).map (byte.toList ++ ·)

/-- The bytes of a text. -/
def decode? (text : List Char) : Option (List UInt8) := decodeFrom .first 0 text

end Conform.Text.Base64
