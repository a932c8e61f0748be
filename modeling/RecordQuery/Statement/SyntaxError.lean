import RecordQuery.Diagnostic.Report
import RecordQuery.Token.Basic

/-! # Syntax errors

Why a text is not a statement. An error has a cause, the place of the token that it is about,
and the clause that was being read. The wording is made from the cause alone. -/

namespace RecordQuery

open Text

/-- The clauses of a statement. -/
inductive Clause
  | select | source | index | condition
deriving DecidableEq

/-- The keyword that opens the clause. -/
def Clause.keyword : Clause → Keyword
  | select => .SELECT
  | source => .FROM
  | index => .WITH
  | condition => .WHERE

/-- What the grammar allows at a place. -/
inductive Expectation
  | keyword (k : Keyword)
  | mark (m : Mark)
  | binName | namespaceName | setName | variableName | typeName
  | indexRelation
  | literal | numericLiteral | stringPattern | stringLiteral
  | comparison
  | predicate
  | connective
  | collectionPart
  | operatorAfter (bin : String)
deriving DecidableEq

namespace Expectation

/-- The words for what is allowed. -/
def text : Expectation → String
  | keyword k => k.text
  | mark m => "'" ++ m.text ++ "'"
  | binName => "bin name"
  | namespaceName => "namespace name"
  | setName => "set name"
  | variableName => "variable name"
  | typeName => "type name"
  | indexRelation => "index relation (=, CONTAINS, WITHIN or BETWEEN)"
  | literal => "literal"
  | numericLiteral => "numeric literal"
  | stringPattern => "string pattern"
  | stringLiteral => "string literal"
  | comparison => "comparison operator"
  | predicate => "predicate"
  | connective => "AND, OR or ')'"
  | collectionPart => "CONTAINS, MAPKEYS or MAPVALUES"
  | operatorAfter bin => "operator after '" ++ bin ++ "'"

/-- Whether a name is what is allowed. -/
def isName : Expectation → Bool
  | binName | namespaceName | setName | variableName | typeName => true
  | _ => false

end Expectation

/-- The causes of a syntax error. -/
inductive SyntaxError.Cause
  /-- A token that is wrong by itself. -/
  | lexical (fault : Fault)
  /-- A token that the grammar does not allow. -/
  | expected (what : Expectation) (found : Token)
  /-- A token behind the end of the statement. -/
  | trailing (found : Token)
  /-- No statement, and no error to blame for it. -/
  | unparsed
deriving DecidableEq

/-- The words of a cause. A reserved word in the place of a name gets words of its own. -/
def SyntaxError.Cause.message : SyntaxError.Cause → String
  | lexical fault => fault.message
  | expected what found =>
    if what.isName && found.isReserved then
      "'" ++ asciiUpper found.literal ++ "' is a reserved keyword and cannot be used as a "
        ++ what.text ++ ". Use double quotes to escape it: \"" ++ found.literal ++ "\""
    else
      "expected " ++ what.text ++ ", got " ++ found.text
  | trailing found => "unexpected token " ++ found.text ++ " after end of statement"
  | unparsed => "unable to parse statement"

/-- One reason why a text is not a statement. -/
structure SyntaxError where
  cause : SyntaxError.Cause
  position : Position
  clause : Option Clause
deriving DecidableEq

namespace SyntaxError

/-- The name of the clause, empty before the first one. -/
def context (e : SyntaxError) : String :=
  match e.clause with
  | some c => c.keyword.text
  | none => ""

/-- The error in words. -/
def diagnostic (e : SyntaxError) : Diagnostic := ⟨e.cause.message, e.position, e.context⟩

/-- The errors found in `source`, in words. -/
def report (source : String) (errors : List SyntaxError) : Report :=
  ⟨source, errors.map diagnostic⟩

end SyntaxError

end RecordQuery
