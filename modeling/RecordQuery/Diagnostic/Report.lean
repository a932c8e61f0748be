import RecordQuery.Diagnostic.Suggestion

/-! # Reports

All diagnostics about one text, in the order in which they were found. -/

namespace RecordQuery

/-- The diagnostics about a text. -/
structure Report where
  source : String
  entries : List Diagnostic
deriving DecidableEq

namespace Report

/-- The report that finds nothing wrong with `source`. -/
def empty (source : String) : Report := ⟨source, []⟩

/-- The report with one diagnostic more, at its end. -/
def push (r : Report) (d : Diagnostic) : Report := { r with entries := r.entries ++ [d] }

/-- The number of diagnostics. -/
def length (r : Report) : Nat := r.entries.length

/-- Whether nothing is wrong. -/
def isEmpty (r : Report) : Bool := r.entries.isEmpty

/-- The first diagnostic, in one line. -/
def text (r : Report) : String :=
  match r.entries with
  | [] => "AQL parse error"
  | d :: _ => d.text

/-- The line of `source` that `d` is about, with its number, above a caret. -/
def excerpt (source : String) (d : Diagnostic) : String :=
  match lineAt? source d.position.line with
  | some line =>
    let label := "Line " ++ toString d.position.line ++ ": "
    label ++ line ++ "\n" ++ caret (label.length + (d.position.column - 1)) ++ "\n"
  | none => ""

/-- The paragraph on the diagnostic `d`, which is number `n` of the report. -/
def paragraph (source : String) (n : Nat) (d : Diagnostic) : String :=
  let clause := if d.context = "" then "" else "Clause: " ++ d.context ++ "\n"
  "Error " ++ toString n ++ ": " ++ d.message ++ "\n" ++ clause ++ excerpt source d
    ++ "Suggestion: " ++ d.suggestion ++ "\n\n"

/-- The paragraphs on diagnostics that are numbered from `n` on. -/
def paragraphs (source : String) : Nat → List Diagnostic → String
  | _, [] => ""
  | n, d :: ds => paragraph source n d ++ paragraphs source (n + 1) ds

/-- The whole report; nothing if it is empty. -/
def fullText (r : Report) : String :=
  if r.isEmpty then
    ""
  else
    "AQL parsing failed with " ++ toString r.length ++ " error(s):\n\n"
      ++ paragraphs r.source 1 r.entries

end Report

end RecordQuery
