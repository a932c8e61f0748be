import RecordQuery.Text.Alphabetic
import RecordQuery.Text.Numeric
import RecordQuery.Text.Quoted
import RecordQuery.Token.Basic

/-! # From text to tokens

`Token.next` takes the token at a cursor and moves the cursor behind it. Which token it is
hangs on the first one or two characters alone; the longest text of its form is taken.

A fault never stops the reading: the token that has it is an error token, and the next one is
taken behind it. So every text is a list of tokens (`Token.tokens`), each of at least one
character (`length_pos_scan`), followed by the token at the end. -/

namespace RecordQuery

open Text

namespace Token

/-- A token at the start of a text: its kind, its literal and the number of characters it
takes. -/
structure Scan where
  kind : Kind
  literal : List Char
  length : Nat
deriving DecidableEq

/-- A token of the kind `kind` that is spelled as it stands in the text. -/
def Scan.verbatim (kind : Kind) (cs : List Char) : Scan := ⟨kind, cs, cs.length⟩

/-! ## The forms of token -/

/-- A string, given what follows its opening quote. One that is not closed is given a closing
quote in its literal. -/
def scanString (cs : List Char) : Scan :=
  let q := readQuoted '\'' cs
  ⟨if q.closed then .string else .error .unterminatedString,
    '\'' :: (q.content ++ ['\'']), q.length + 1⟩

/-- A quoted name, given what follows its opening quote. -/
def scanQuotedName (cs : List Char) : Scan :=
  let q := readQuoted '"' cs
  ⟨if q.closed then .identifier else .error .unterminatedName, q.content, q.length + 1⟩

/-- The fraction at the start of a text: a point and one digit or more. -/
def fractionOf : List Char → List Char
  | '.' :: c :: cs => if c.isDigit then '.' :: (c :: cs).takeWhile Char.isDigit else []
  | _ => []

/-- The sign at the start of a text. -/
def signOf : List Char → List Char
  | c :: _ => if c == '+' || c == '-' then [c] else []
  | [] => []

/-- The exponent at the start of a text: a letter, a sign, and the digits, which may be
missing. -/
def exponentOf : List Char → Option (List Char × List Char)
  | c :: cs =>
    if c == 'e' || c == 'E' then
      some (c :: signOf cs, (cs.drop (signOf cs).length).takeWhile Char.isDigit)
    else
      none
  | [] => none

/-- A number, given the text from its first digit on. -/
def scanNumber (cs : List Char) : Scan :=
  let whole := cs.takeWhile Char.isDigit
  let fraction := fractionOf (cs.drop whole.length)
  let mantissa := whole ++ fraction
  match exponentOf (cs.drop mantissa.length) with
  | some (mark, []) => .verbatim (.error .exponentWithoutDigits) (mantissa ++ mark)
  | some (mark, digits) => .verbatim .float (mantissa ++ mark ++ digits)
  | none => .verbatim (if fraction.isEmpty then .integer else .float) mantissa

/-- A comment that ends with its line, given the text from its first character on. -/
def scanLineComment (cs : List Char) : Scan :=
  .verbatim .comment (cs.takeWhile (· != '\n'))

/-- The text of a block comment behind its opening marks, with its closing marks, and whether
those are there. -/
def commentBody : List Char → List Char × Bool
  | '*' :: '/' :: _ => (['*', '/'], true)
  | c :: cs => (c :: (commentBody cs).1, (commentBody cs).2)
  | [] => ([], false)

/-- A block comment, given what follows its opening marks. -/
def scanBlockComment (cs : List Char) : Scan :=
  let body := commentBody cs
  .verbatim (if body.2 then .comment else .error .unterminatedComment) ('/' :: '*' :: body.1)

/-- An operator sign that begins with `c`. Two characters are taken if they are a sign. -/
def scanOperator (c : Char) (cs : List Char) : Scan :=
  let single := Scan.verbatim
    (if (Sign.ofText? (String.ofList [c])).isSome then .operator
     else .error (.unknownOperator (String.ofList [c]))) [c]
  match cs with
  | d :: _ =>
    if (Sign.ofText? (String.ofList [c, d])).isSome then .verbatim .operator [c, d] else single
  | [] => single

/-- Whether a name that is not quoted can begin with `c`. -/
def beginsName (c : Char) : Bool := isAlphabetic c || c == '_'

/-- Whether a name that is not quoted can go on with `c`. -/
def continuesName (c : Char) : Bool := isAlphabetic c || isNumeric c || c == '_' || c == '$'

/-- A word that begins with `c`: a keyword or a name. -/
def scanWord (c : Char) (cs : List Char) : Scan :=
  let word := c :: cs.takeWhile continuesName
  .verbatim (if (Keyword.ofText? (String.ofList word)).isSome then .keyword else .identifier) word

/-- The token at the start of the text that has `c` as its first character, before `cs`. -/
def scan (c : Char) (cs : List Char) : Scan :=
  if c = '\'' then scanString cs
  else if c = '"' then scanQuotedName cs
  else if c.isDigit then scanNumber (c :: cs)
  else if c = '#' ∨ c = '-' ∧ cs.head? = some '-' then scanLineComment (c :: cs)
  else if c = '/' ∧ cs.head? = some '*' then scanBlockComment cs.tail
  else if (Mark.ofChar? c).isSome then .verbatim .punctuator [c]
  else if Sign.begins c then scanOperator c cs
  else if beginsName c then scanWord c cs
  else .verbatim (.error (.unknownCharacter c)) [c]

/-! ## Every token takes a character -/

theorem length_pos_scanNumber {c : Char} (h : c.isDigit) (cs : List Char) :
    0 < (scanNumber (c :: cs)).length := by
  unfold scanNumber
  simp only [List.takeWhile_cons_of_pos h]
  split <;> simp [Scan.verbatim]

theorem length_pos_scanOperator (c : Char) (cs : List Char) :
    0 < (scanOperator c cs).length := by
  unfold scanOperator
  cases cs with
  | nil => simp [Scan.verbatim]
  | cons d cs => simp only; split <;> simp [Scan.verbatim]

theorem length_pos_scanLineComment {c : Char} (h : c ≠ '\n') (cs : List Char) :
    0 < (scanLineComment (c :: cs)).length := by
  simp [scanLineComment, Scan.verbatim, h]

theorem length_pos_scan (c : Char) (cs : List Char) : 0 < (scan c cs).length := by
  unfold scan
  repeat' split
  · simp [scanString]
  · simp [scanQuotedName]
  · next h => exact length_pos_scanNumber h cs
  · next h =>
    refine length_pos_scanLineComment ?_ cs
    rcases h with rfl | ⟨rfl, -⟩ <;> decide
  · simp [scanBlockComment, Scan.verbatim]
  · simp [Scan.verbatim]
  · exact length_pos_scanOperator c cs
  · simp [scanWord, Scan.verbatim]
  · simp [Scan.verbatim]

/-! ## The tokens of a text -/

/-- The token at a cursor, behind any blanks, and the cursor behind the token. -/
def next (c : Cursor) : Token × Cursor :=
  let c := c.skipBlanks
  match c.rest with
  | [] => (.atEnd c.position, c)
  | first :: rest =>
    let s := scan first rest
    (⟨s.kind, String.ofList s.literal, c.position⟩, c.advance s.length)

theorem next_rest_lt {c : Cursor} (h : (next c).1.isFinish = false) :
    (next c).2.rest.length < c.rest.length := by
  have hle := c.skipBlanks_rest_length_le
  unfold next at h ⊢
  dsimp only at h ⊢
  split at h
  · simp at h
  · next first rest hrest =>
    have hpos := length_pos_scan first rest
    rw [hrest] at hle
    simp only [hrest, Cursor.advance_rest, List.length_drop] at hle ⊢
    simp only [List.length_cons] at hle ⊢
    omega

/-- The tokens from a cursor on, without the one at the end of the text. -/
def tokens (c : Cursor) : List Token :=
  if (next c).1.isFinish then [] else (next c).1 :: tokens (next c).2
termination_by c.rest.length
decreasing_by exact next_rest_lt (by simp_all)

/-- The token at the end of the text that the cursor is in. -/
def last (c : Cursor) : Token :=
  if (next c).1.isFinish then (next c).1 else last (next c).2
termination_by c.rest.length
decreasing_by exact next_rest_lt (by simp_all)

end Token

end RecordQuery
