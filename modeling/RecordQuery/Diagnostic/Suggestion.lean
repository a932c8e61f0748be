import RecordQuery.Diagnostic.Basic

/-! # Suggestions

Each diagnostic of a report comes with advice. The advice is found by phrases that occur in
the message; the first entry of the table that has one of them is taken. -/

namespace RecordQuery

open Text

/-- Whether `phrase` occurs in a text. -/
def occursIn (phrase : List Char) : List Char → Bool
  | [] => phrase.isEmpty
  | c :: cs => phrase.isPrefixOf (c :: cs) || occursIn phrase cs

/-- Phrases of messages, and the advice that each of them calls for. -/
def adviceTable : List (List String × String) := [
  (["reserved keyword"],
    "Enclose the name in double quotes to use a reserved word as a bin name."),
  (["unterminated string literal"],
    "String literals are enclosed in single quotes. Write '' for a quote inside a string."),
  (["expected GEOJSON", "expected CAST"],
    "Geo operands are written as CAST('<geojson>' AS GEOJSON)."),
  (["expected numeric literal"],
    "A number is expected here. Make sure you're providing a number without quotes."),
  (["expected literal"],
    "A value is expected here: a number, or a string enclosed in single quotes."),
  (["expected AND, OR or ')'"],
    "Predicates are combined with AND or OR. Check for a missing operator or an extra value."),
  (["expected predicate"],
    "The WHERE clause ends early. A predicate such as bin = value is expected after WHERE, " ++
      "AND, OR, NOT and '('."),
  (["expected ')'"],
    "You're missing a closing parenthesis."),
  (["expected '('"],
    "You're missing an opening parenthesis."),
  (["expected operator", "expected comparison operator"],
    "A comparison (=, ==, !=, <>, <, <=, >, >=) or one of CONTAINS, WITHIN, MAPKEYS, " ++
      "MAPVALUES, LIKE is expected here."),
  (["expected index relation"],
    "A WITH clause supports =, CONTAINS, WITHIN and BETWEEN ... AND ..."),
  (["expected FROM"],
    "A SELECT statement reads FROM namespace or FROM namespace.set."),
  (["SELET"],
    "Did you mean 'SELECT'?"),
  (["WERE", "WHRE"],
    "Did you mean 'WHERE'?"),
  (["unexpected token"],
    "Check for a clause written after the end of the statement, or a missing keyword.")]

/-- The advice where no entry of the table fits. -/
def generalAdvice : String :=
  "Check syntax near this location. Common issues include missing keywords, unclosed " ++
    "parentheses or quotes, and misplaced clauses."

/-- The advice for a diagnostic. -/
def Diagnostic.suggestion (d : Diagnostic) : String :=
  let fits := fun entry : List String × String =>
    entry.1.any fun phrase => occursIn phrase.toList d.message.toList
  ((adviceTable.find? fits).map (·.2)).getD generalAdvice

end RecordQuery
