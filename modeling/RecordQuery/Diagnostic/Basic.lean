import RecordQuery.Text.Lines
import RecordQuery.Text.Position

/-! # Diagnostics

A diagnostic says what is wrong at one place of a text, and in which clause. It can be shown
with the line that it is about and a caret under the column. -/

namespace RecordQuery

open Text

/-- A message about a place in a text. The context is the name of a clause, or empty. -/
structure Diagnostic where
  message : String
  position : Position
  context : String
deriving DecidableEq

/-- The line `n` of a text, counted from 1. -/
def lineAt? (source : String) (n : Nat) : Option String :=
  if n = 0 then none else ((lines source.toList)[n - 1]?).map String.ofList

/-- A caret behind `n` blanks. -/
def caret (n : Nat) : String := String.ofList (List.replicate n ' ' ++ ['^'])

namespace Diagnostic

/-- The diagnostic in one line. -/
def text (d : Diagnostic) : String :=
  let place := d.message ++ " at " ++ d.position.text
  if d.context = "" then place else place ++ " (in " ++ d.context ++ " clause)"

/-- The diagnostic above the line of `source` that it is about and a caret. -/
def textIn (d : Diagnostic) (source : String) : String :=
  match lineAt? source d.position.line with
  | some line => d.text ++ "\n" ++ line ++ "\n" ++ caret (d.position.column - 1)
  | none => d.text

end Diagnostic

end RecordQuery
