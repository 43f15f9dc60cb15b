/-!
Line ends. Text files end their lines with a line feed, a carriage return, or both; text in memory has
line feeds only.
-/
namespace Conform.Text

/-- The text with a line feed for every line end. -/
def unifyNewlines : List Char → List Char
  | '\r' :: '\n' :: r => '\n' :: unifyNewlines r
  | '\r' :: r => '\n' :: unifyNewlines r
  | c :: r => c :: unifyNewlines r
  | [] => []

end Conform.Text
