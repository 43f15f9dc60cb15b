/-!
Blank characters: the Unicode spaces together with the control characters that end lines, files,
groups, records and units. Keys, level names and flags are read with the blanks at both ends
dropped.
-/
namespace Conform.Text

/-- Every blank character, in code point order. -/
def blanks : List Char :=
  ['\t', '\n', '\x0b', '\x0c', '\r', '\x1c', '\x1d', '\x1e', '\x1f', ' ', '\u0085', '\u00a0',
    '\u1680', '\u2000', '\u2001', '\u2002', '\u2003', '\u2004', '\u2005', '\u2006', '\u2007',
    '\u2008', '\u2009', '\u200a', '\u2028', '\u2029', '\u202f', '\u205f', '\u3000']

def isBlank (c : Char) : Bool := blanks.contains c

/-- The text without its trailing characters of class `p`. -/
def dropTrailing (p : Char → Bool) (cs : List Char) : List Char :=
  (cs.reverse.dropWhile p).reverse

/-- The text without the blanks at its two ends. -/
def trim (cs : List Char) : List Char := dropTrailing isBlank (cs.dropWhile isBlank)

/-- A text between two characters that are not blank has nothing to trim. -/
theorem trim_between {first last : Char} (hf : isBlank first = false) (hl : isBlank last = false)
    (cs : List Char) : trim (first :: (cs ++ [last])) = first :: (cs ++ [last]) := by
  have hdrop : (first :: (cs ++ [last])).dropWhile isBlank = first :: (cs ++ [last]) := by
    simp [hf]
  rw [trim, dropTrailing, hdrop]
  simp [hl]

end Conform.Text
