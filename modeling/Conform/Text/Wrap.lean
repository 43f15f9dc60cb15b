/-!
Wrapping of text into lines. Words are separated by blanks of ASCII; a word that is too long for a line
of its own is cut where the line ends.
-/
namespace Conform.Text

def isAsciiBlank (c : Char) : Bool :=
  c = ' ' || ('\t' ≤ c && c ≤ '\r')

/-- The words of a text; `word` holds the characters of the current one, the last one first. -/
def wordsFrom (word : List Char) : List Char → List (List Char)
  | [] => if word.isEmpty then [] else [word.reverse]
  | c :: r =>
    if isAsciiBlank c then
      if word.isEmpty then wordsFrom [] r else word.reverse :: wordsFrom [] r
    else wordsFrom (c :: word) r

def words (text : List Char) : List (List Char) := wordsFrom [] text

/-- The lines that words fill, after a line that holds `line` so far. Every step ends a line or takes a
word. -/
def fill (width : Nat) (line : List Char) : Nat → List (List Char) → List (List Char)
  | 0, _ => [line]
  | _, [] => if line.isEmpty then [] else [line]
  | fuel + 1, w :: ws =>
    let joined := if line.isEmpty then w else line ++ ' ' :: w
    if joined.length ≤ width then fill width joined fuel ws
    else if w.length > width && line.length + 1 ≤ width then
      joined.take width :: fill width [] fuel (joined.drop width :: ws)
    else line :: fill width [] fuel (w :: ws)

/-- The lines of a text, none longer than `width`. -/
def wrap (width : Nat) (text : String) : List String :=
  (fill width [] (2 * text.length + 2) (words text.toList)).map String.ofList

end Conform.Text
