import RecordQuery.Json.Basic

/-! # Writing JSON

Values are written without blanks. In a string the quote, the backslash and the control
characters are escaped, and nothing else. -/

namespace RecordQuery.Json

/-- A control character that has no letter of its own, by its code point. -/
def controlEscape (c : Char) : List Char :=
  ['\\', 'u', '0', '0', Nat.digitChar (c.toNat / 16), Nat.digitChar (c.toNat % 16)]

/-- The character `c` as it stands in a string. -/
def escape (c : Char) : List Char :=
  if c = '"' then ['\\', '"']
  else if c = '\\' then ['\\', '\\']
  else if c = '\x08' then ['\\', 'b']
  else if c = '\t' then ['\\', 't']
  else if c = '\n' then ['\\', 'n']
  else if c = '\x0c' then ['\\', 'f']
  else if c = '\r' then ['\\', 'r']
  else if c.toNat < 32 then controlEscape c
  else [c]

/-- A string in its quotes. -/
def quoted (s : String) : String :=
  String.ofList ('"' :: (s.toList.flatMap escape ++ ['"']))

mutual

/-- The text of a value. -/
def text : Json → String
  | null => "null"
  | bool b => if b then "true" else "false"
  | integer n => toString n
  | real t => t
  | string s => quoted s
  | array elements => "[" ++ elementsText elements ++ "]"
  | object members => "\x7b" ++ membersText members ++ "\x7d"

/-- The elements of an array, with commas between them. -/
def elementsText : List Json → String
  | [] => ""
  | [j] => text j
  | j :: k :: rest => text j ++ "," ++ elementsText (k :: rest)

/-- The members of an object, with commas between them. -/
def membersText : List (String × Json) → String
  | [] => ""
  | [(name, j)] => quoted name ++ ":" ++ text j
  | (name, j) :: m :: rest => quoted name ++ ":" ++ text j ++ "," ++ membersText (m :: rest)

end

end RecordQuery.Json
