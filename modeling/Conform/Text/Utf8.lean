import Conform.Text.Digit

/-!
UTF-8. Decoding stops at the first place that is not the code of a character and says how many bytes
are at fault: all that could still have begun a character.
-/
namespace Conform.Text.Utf8

/-- Why decoding stops. -/
inductive Reason
  | start
  | continuation
  | unfinished
deriving DecidableEq, Repr

def Reason.message : Reason → String
  | .start => "invalid start byte"
  | .continuation => "invalid continuation byte"
  | .unfinished => "unexpected end of data"

/-- The bytes at fault: the first, its place, how many there are. -/
structure Error where
  byte : UInt8
  position : Nat
  count : Nat
  reason : Reason
deriving DecidableEq, Repr

def Error.message (e : Error) : String :=
  let place :=
    if e.count = 1 then
      "byte 0x" ++ String.ofList (digitsOf 16 2 e.byte.toNat) ++ s!" in position {e.position}"
    else s!"bytes in position {e.position}-{e.position + e.count - 1}"
  "'utf-8' codec can't decode " ++ place ++ ": " ++ e.reason.message

/-- What a first byte announces: the payload bits it carries, how many bytes follow, and the range of
the next one. -/
structure Lead where
  bits : Nat
  following : Nat
  low : Nat
  high : Nat

/-- The shortest form, the surrogates and the last code point narrow the range of the second byte. -/
def lead? (b : UInt8) : Option Lead :=
  let n := b.toNat
  if n < 0x80 then some ⟨n, 0, 0x80, 0xbf⟩
  else if n < 0xc2 then none
  else if n < 0xe0 then some ⟨n - 0xc0, 1, 0x80, 0xbf⟩
  else if n < 0xf0 then
    some ⟨n - 0xe0, 2, if n = 0xe0 then 0xa0 else 0x80, if n = 0xed then 0x9f else 0xbf⟩
  else if n < 0xf5 then
    some ⟨n - 0xf0, 3, if n = 0xf0 then 0x90 else 0x80, if n = 0xf4 then 0x8f else 0xbf⟩
  else none

/-- The bytes after the first one: the code point, or the reason and how many bytes were good. -/
def tail (code : Nat) (low high : Nat) (good : Nat) : Nat → List UInt8 →
    Except (Reason × Nat) (Nat × List UInt8)
  | 0, bs => .ok (code, bs)
  | _ + 1, [] => .error (.unfinished, good)
  | n + 1, b :: bs =>
    if low ≤ b.toNat && b.toNat ≤ high then
      tail (code * 64 + b.toNat % 64) 0x80 0xbf (good + 1) n bs
    else .error (.continuation, good)

/-- The first character of some bytes, and the bytes after it. -/
def decodeChar (position : Nat) (b : UInt8) (bs : List UInt8) : Except Error (Char × List UInt8) :=
  match lead? b with
  | none => .error ⟨b, position, 1, .start⟩
  | some l =>
    match tail l.bits l.low l.high 1 l.following bs with
    | .ok (code, rest) => .ok (Char.ofNat code, rest)
    | .error (reason, count) => .error ⟨b, position, count, reason⟩

/-- Every character takes at least one byte, so `fuel` of the number of bytes suffices. -/
def decodeFrom (position : Nat) : Nat → List UInt8 → Except Error (List Char)
  | _, [] => .ok []
  | 0, _ => .ok []
  | fuel + 1, b :: bs =>
    match decodeChar position b bs with
    | .error e => .error e
    | .ok (c, rest) =>
      (decodeFrom (position + 1 + (bs.length - rest.length)) fuel rest).map (c :: ·)

def decode (bs : List UInt8) : Except Error (List Char) := decodeFrom 0 bs.length bs

end Conform.Text.Utf8
