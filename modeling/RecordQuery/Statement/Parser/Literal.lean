import RecordQuery.Statement.TokenReader
import RecordQuery.Text.Uppercase

/-! # Reading literals, casts and relations

The parts that the WITH and the WHERE clause share. A sign belongs to the number behind it: a
minus stays in the text of the number and a plus does not. -/

namespace RecordQuery

open Text

/-- Whether the token is a sign that a number can have. -/
def Token.isNumberSign (t : Token) : Bool := t.isSign .minus || t.isSign .plus

namespace Parse

/-- Takes a number with its sign, if it has one. -/
def number (what : Expectation) : Parse NumberLiteral := do
  if (← peek).isNumberSign then
    let sign ← take
    let digits ← accept Token.isNumber what
    return ⟨if sign.isSign .minus then "-" ++ digits.literal else digits.literal, sign⟩
  else
    let digits ← accept Token.isNumber what
    return ⟨digits.literal, digits⟩

/-- Takes a number or a string. -/
def literal : Parse Literal := do
  let next ← peek
  if next.kind == .string then
    return .string (.ofToken (← take))
  else if next.isNumber || next.isNumberSign then
    return .number (← number .literal)
  else
    fail .literal

/-- Takes the sign of a relation between a bin and a literal. -/
def relation : Parse Relation := do
  let next ← peek
  match if next.kind == .operator then Relation.ofText? next.literal else none with
  | some r =>
    let _ ← take
    return r
  | none => fail .comparison

/-- Takes a cast. The name of its type is given in upper case. -/
def cast : Parse Cast := do
  let token ← keyword .CAST
  let _ ← mark .openParen
  let value ← string .stringLiteral
  let _ ← keyword .AS
  let typeName ← name .typeName
  let _ ← mark .closeParen
  return ⟨value, uppercase typeName.text, token⟩

end Parse

end RecordQuery
