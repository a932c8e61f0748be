import RecordQuery.Decimal.Rounding
import RecordQuery.Word

/-! # Reading a number as a word

The store counts in words of 64 bits. A text that is an integer is read as such if it fits.
Any other number is first rounded to a double and then cut off toward zero, and has to fit
after that. -/

namespace RecordQuery

open Text

/-- The word that a text stands for. Blanks around the text do not count. -/
def wordOfText? (text : String) : Option Int64 :=
  let cs := trim text.toList
  match (Decimal.integer? cs).bind word64? with
  | some w => some w
  | none =>
    match Numeral.ofChars? cs with
    | some (.finite d) => word64? d.truncate
    | _ => none

example : wordOfText? " -12.9e1 " = some (-129) := by decide +kernel

end RecordQuery
