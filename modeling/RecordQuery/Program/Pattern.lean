import RecordQuery.Program.PatternFlags
import RecordQuery.Text.Lowercase

/-! # Patterns

A pattern may be written between two slashes with letters behind the last one, as in
`/sparta.*/ie`. The letters say how it is matched. Anything else is a pattern as it is. -/

namespace RecordQuery

open Text

/-- A pattern and how it is matched. -/
structure Pattern where
  body : String
  flags : PatternFlags
deriving DecidableEq

namespace Pattern

/-- The flags of a pattern that says nothing: a line end is not a common character. -/
def plainFlags : PatternFlags := { PatternFlags.none with newline := true }

/-- The text before the last slash, and the text behind it. -/
def splitAtLastSlash (cs : List Char) : Option (List Char × List Char) :=
  let suffix := (cs.reverse.takeWhile (· != '/')).reverse
  if suffix.length = cs.length then none
  else some (cs.take (cs.length - suffix.length - 1), suffix)

/-- The flags that the text behind the last slash asks for, by the letters that it has in lower
case. -/
def flagsOfSuffix (cs : List Char) : PatternFlags :=
  let letters := cs.flatMap lowercaseChar
  { extended := letters.contains 'e'
    ignoreCase := letters.contains 'i'
    noSubmatch := letters.contains '?'
    newline := !letters.contains 's'
    unnamed := 0 }

/-- The pattern that a string stands for. -/
def ofChars (cs : List Char) : Pattern :=
  match cs with
  | '/' :: rest =>
    match splitAtLastSlash rest with
    | some (body, suffix) => ⟨String.ofList body, flagsOfSuffix suffix⟩
    | none => ⟨String.ofList cs, plainFlags⟩
  | _ => ⟨String.ofList cs, plainFlags⟩

/-- The pattern that a string stands for. -/
def ofString (s : String) : Pattern := ofChars s.toList

end Pattern

end RecordQuery
