/-! # Lines of a text

A line ends at a line feed or at the end of the text. A carriage return right before the line
feed belongs to the line end, and a text that ends in a line feed has no line after it. -/

namespace RecordQuery.Text

/-- The lines of a text, without their line ends. -/
def lines : List Char → List (List Char)
  | [] => []
  | '\n' :: cs => [] :: lines cs
  | '\r' :: '\n' :: cs => [] :: lines cs
  | c :: cs =>
    match lines cs with
    | [] => [[c]]
    | line :: rest => (c :: line) :: rest

example : lines "a\r\n\r\r\nb\r".toList = [['a'], ['\r'], ['b', '\r']] := by decide

end RecordQuery.Text
