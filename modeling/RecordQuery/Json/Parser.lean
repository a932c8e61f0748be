import RecordQuery.Decimal.Basic
import RecordQuery.Json.Basic
import RecordQuery.Text.Hexadecimal

/-! # Reading JSON

The reader is strict: no comments, no trailing commas, no control characters in strings, no
surrogate on its own, and nothing but blanks behind the value. Values may nest up to a limit.

A function that reads an `α` at the start of a text gives it together with the text that is
left. -/

namespace RecordQuery.Json

open Text

/-- Whether `c` may stand between the parts of a document. -/
def isSpace (c : Char) : Bool := c == ' ' || c == '\t' || c == '\n' || c == '\r'

/-- The text behind its leading blanks. -/
def skipSpace (cs : List Char) : List Char := cs.dropWhile isSpace

/-! ## Strings -/

/-- Reads four hexadecimal digits. -/
def readUnit : List Char → Option (Nat × List Char)
  | a :: b :: c :: d :: cs => do
    return ((((← hexDigitValue? a) * 16 + (← hexDigitValue? b)) * 16 + (← hexDigitValue? c)) * 16
      + (← hexDigitValue? d), cs)
  | _ => none

/-- Reads a character that is written by its 16-bit units, behind the letter `u` of the first
one. A unit of the upper surrogates has to be followed by one of the lower surrogates. -/
def readUnicode (cs : List Char) : Option (Char × List Char) := do
  let (high, cs) ← readUnit cs
  if 0xdc00 ≤ high ∧ high ≤ 0xdfff then none
  else if 0xd800 ≤ high ∧ high ≤ 0xdbff then
    match cs with
    | '\\' :: 'u' :: cs =>
      let (low, cs) ← readUnit cs
      if 0xdc00 ≤ low ∧ low ≤ 0xdfff then
        some (Char.ofNat (0x10000 + (high - 0xd800) * 0x400 + (low - 0xdc00)), cs)
      else
        none
    | _ => none
  else some (Char.ofNat high, cs)

/-- Reads an escaped character behind its backslash. -/
def readEscape : List Char → Option (Char × List Char)
  | '"' :: cs => some ('"', cs)
  | '\\' :: cs => some ('\\', cs)
  | '/' :: cs => some ('/', cs)
  | 'b' :: cs => some ('\x08', cs)
  | 'f' :: cs => some ('\x0c', cs)
  | 'n' :: cs => some ('\n', cs)
  | 'r' :: cs => some ('\r', cs)
  | 't' :: cs => some ('\t', cs)
  | 'u' :: cs => readUnicode cs
  | _ => none

/-- Reads a string of at most `limit` characters behind its opening quote. -/
def readString : (limit : Nat) → List Char → Option (List Char × List Char)
  | _, '"' :: cs => some ([], cs)
  | limit + 1, '\\' :: cs => do
    let (c, cs) ← readEscape cs
    let (content, cs) ← readString limit cs
    return (c :: content, cs)
  | limit + 1, c :: cs =>
    if c.toNat < 32 then none
    else do
      let (content, cs) ← readString limit cs
      return (c :: content, cs)
  | _, _ => none

/-- Reads a string at the start of a text. -/
def readQuoted : List Char → Option (String × List Char)
  | '"' :: cs => (readString cs.length cs).map fun (content, cs) => (String.ofList content, cs)
  | _ => none

/-! ## Numbers -/

/-- The digits of a whole number at the start of a text: one zero, or no zero in front. -/
def wholeOf : List Char → List Char
  | '0' :: _ => ['0']
  | cs => cs.takeWhile Char.isDigit

/-- The marks of a fraction or exponent at the start of a text, behind which digits have to
follow. -/
def fractionMarkOf : List Char → List Char
  | '.' :: _ => ['.']
  | _ => []

@[inherit_doc fractionMarkOf]
def exponentMarkOf : List Char → List Char
  | c :: d :: _ =>
    if c == 'e' || c == 'E' then (if d == '+' || d == '-' then [c, d] else [c]) else []
  | [c] => if c == 'e' || c == 'E' then [c] else []
  | [] => []

/-- Reads a part of a number that begins with `mark`, unless there is no such part. -/
def readPart (mark : List Char) (cs : List Char) : Option (List Char × List Char) :=
  if mark.isEmpty then
    some ([], cs)
  else
    let cs := cs.drop mark.length
    let digits := cs.takeWhile Char.isDigit
    if digits.isEmpty then none else some (mark ++ digits, cs.drop digits.length)

/-- Reads a number behind its sign. -/
def readNumeral (negative : Bool) (cs : List Char) : Option (Json × List Char) := do
  let whole := wholeOf cs
  if whole.isEmpty then none
  else
    let rest := cs.drop whole.length
    if whole == ['0'] && (rest.head?.map Char.isDigit).getD false then none
    else
      let (fraction, rest) ← readPart (fractionMarkOf rest) rest
      let (exponent, rest) ← readPart (exponentMarkOf rest) rest
      let n := Decimal.digitsValue whole
      if fraction.isEmpty && exponent.isEmpty && !(negative && n == 0) then
        return (.integer (if negative then -(n : Int) else n), rest)
      else
        let sign := if negative then ['-'] else []
        return (.real (String.ofList (sign ++ whole ++ fraction ++ exponent)), rest)

/-! ## Values -/

/-- Reads a value that is neither an array nor an object. -/
def readScalar : List Char → Option (Json × List Char)
  | 'n' :: 'u' :: 'l' :: 'l' :: cs => some (.null, cs)
  | 't' :: 'r' :: 'u' :: 'e' :: cs => some (.bool true, cs)
  | 'f' :: 'a' :: 'l' :: 's' :: 'e' :: cs => some (.bool false, cs)
  | '-' :: cs => readNumeral true cs
  | '"' :: cs => (readQuoted ('"' :: cs)).map fun (s, cs) => (.string s, cs)
  | cs => readNumeral false cs

/-- Reads at most `limit` things, one or more, with commas between them and `close` behind the
last. -/
def readMany (read : List Char → Option (α × List Char)) (close : Char) :
    (limit : Nat) → List Char → Option (List α × List Char)
  | 0, _ => none
  | limit + 1, cs => do
    let (first, cs) ← read cs
    match skipSpace cs with
    | [] => none
    | c :: cs =>
      if c = close then return ([first], cs)
      else if c = ',' then
        let (rest, cs) ← readMany read close limit cs
        return (first :: rest, cs)
      else none

/-- Reads things up to `close`, behind the opening mark. There may be none. A text does not
hold more of them than it has characters. -/
def readAll (read : List Char → Option (α × List Char)) (close : Char) (cs : List Char) :
    Option (List α × List Char) :=
  match skipSpace cs with
  | c :: rest => if c = close then some ([], rest) else readMany read close cs.length cs
  | [] => none

/-- Reads a member of an object with its value. -/
def readMember (read : List Char → Option (Json × List Char)) (cs : List Char) :
    Option ((String × Json) × List Char) := do
  let (name, cs) ← readQuoted (skipSpace cs)
  match skipSpace cs with
  | ':' :: cs =>
    let (value, cs) ← read cs
    return ((name, value), cs)
  | _ => none

/-- Reads a value that holds at most `depth` levels of arrays and objects. -/
def readValue : (depth : Nat) → List Char → Option (Json × List Char)
  | 0, cs => readScalar (skipSpace cs)
  | depth + 1, cs =>
    match skipSpace cs with
    | '[' :: cs =>
      (readAll (readValue depth) ']' cs).map fun (elements, cs) => (.array elements, cs)
    | '\x7b' :: cs =>
      (readAll (readMember (readValue depth)) '\x7d' cs).map
        fun (members, cs) => (.object members, cs)
    | cs => readScalar cs

/-- The number of levels that a document may have. -/
def maxDepth : Nat := 127

/-- Reads a document. -/
def parse? (text : String) : Option Json := do
  let (value, rest) ← readValue maxDepth text.toList
  if (skipSpace rest).isEmpty then value else none

end RecordQuery.Json
