import RecordQuery.Statement.Parser.Condition
import RecordQuery.Statement.Parser.Index

/-! # Reading a statement

The clauses of a statement are read one after the other. A clause that cannot be read does not
keep the next ones from being read: the reader moves on to the keyword of a clause. So one
reading reports what is wrong in every clause, and a statement comes out only if nothing is. -/

namespace RecordQuery

open Text

namespace Parse

/-- Takes the names of bins, with commas between them. -/
def binNames : Parse (List Name) := fun r =>
  if h : r.peek.isName then
    let first := Name.ofToken r.peek
    if r.advance.peek.isMark .comma then
      have : r.advance.advance.remaining < r.remaining :=
        Nat.lt_of_le_of_lt r.advance.remaining_advance_le
          (r.remaining_advance_lt (Token.isFinish_of_isName h))
      let rest := binNames r.advance.advance
      ⟨rest.value.map (first :: ·), rest.next, Nat.le_trans rest.le (Nat.le_of_lt this)⟩
    else
      ⟨some [first], r.advance, r.remaining_advance_le⟩
  else
    fail .binName r
termination_by r => r.remaining

/-- Takes what is selected of each record. -/
def selectList : Parse SelectList := do
  if (← peek).isSign .star then
    let _ ← take
    return .star
  else
    return .bins (← binNames)

/-- Takes the name of a set behind that of its namespace. -/
def setName : Parse (Option Name) := do
  if (← peek).isMark .dot then
    let _ ← take
    return some (← name .setName)
  else
    return none

/-- Takes the FROM clause. -/
def source : Parse Source := do
  let _ ← keyword .FROM
  let space ← name .namespaceName
  return ⟨space, ← setName⟩

end Parse

namespace TokenReader

/-- Reads with `p`. If that fails, moves on to the next clause. -/
def attempt (p : Parse α) (r : TokenReader) : Option α × TokenReader :=
  match (p r).value with
  | some a => (some a, (p r).next)
  | none => (none, (p r).next.skipToClause)

/-- Reads a clause with `p`, which is given the keyword of the clause, if that is the next
token. The value is `some none` if there is no such clause. -/
def attemptClause (c : Clause) (p : Token → Parse α) (r : TokenReader) :
    Option (Option α) × TokenReader :=
  if r.peek.isKeyword c.keyword then
    let (value, next) := (r.advance.enter c).attempt (p r.peek)
    (value.map some, next)
  else
    (some none, r)

/-- Passes over a semicolon. -/
def skipSemicolon (r : TokenReader) : TokenReader :=
  if r.peek.isMark .semicolon then r.advance else r

/-- Reads a statement from the current token on. What is wrong is added to the errors. -/
def readStatement (r : TokenReader) : Option Statement × TokenReader :=
  if r.current.isKeyword .SELECT then
    let token := r.current
    let (selection, r) := (r.enter .select).attempt Parse.selectList
    let (source, r) := (r.enter .source).attempt Parse.source
    let (index, r) := r.attemptClause .index fun _ => Parse.index
    let (condition, r) := r.attemptClause .condition Parse.condition
    let r := r.skipSemicolon
    if r.peek.isFinish then
      match selection, source, index, condition with
      | some selection, some source, some index, some condition =>
        (some ⟨selection, source, index, condition, token⟩, r)
      | _, _, _, _ => (none, r)
    else
      (none, r.report (.trailing r.peek) r.peek.position)
  else
    let r := r.enter .select
    (none, r.report (.expected (.keyword .SELECT) r.current) r.current.position)

/-- Reads a statement from the current token on, and hands out the errors if there are any. -/
def parse (r : TokenReader) : Except (List SyntaxError) Statement × TokenReader :=
  match r.readStatement with
  | (some statement, r) =>
    if r.errors.isEmpty then (.ok statement, r) else (.error r.errors, { r with errors := [] })
  | (none, r) =>
    let r := if r.errors.isEmpty then r.report .unparsed r.current.position else r
    (.error r.errors, { r with errors := [] })

end TokenReader

/-- Reads a text as one statement, or says all that is wrong with it. -/
def Statement.parse (text : String) : Except (List SyntaxError) Statement :=
  (TokenReader.ofString text).parse.1

end RecordQuery
