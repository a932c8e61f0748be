import RecordQuery.Text.Extender
import RecordQuery.Text.Hexadecimal
import RecordQuery.Text.Printable

/-! # A character shown in a message

A message shows a character between single quotes. One that cannot be seen there is written
as an escape: the common control characters, the quote and the backslash by a letter, and
what does not print or attaches to its neighbour by its code point. -/

namespace RecordQuery.Text

/-- The escape of the code point of `c`, in hexadecimal. -/
def codePointEscape (c : Char) : String :=
  "\\u\x7b" ++ String.ofList (hexDigits c.toNat) ++ "\x7d"

/-- The character `c` as it stands between the quotes. -/
def escaped (c : Char) : String :=
  if c = '\x00' then "\\0"
  else if c = '\t' then "\\t"
  else if c = '\r' then "\\r"
  else if c = '\n' then "\\n"
  else if c = '\'' then "\\'"
  else if c = '\\' then "\\\\"
  else if isExtender c then codePointEscape c
  else if isPrintable c then String.singleton c
  else codePointEscape c

/-- The character `c` as a message shows it. -/
def shown (c : Char) : String :=
  "'" ++ escaped c ++ "'"

end RecordQuery.Text
