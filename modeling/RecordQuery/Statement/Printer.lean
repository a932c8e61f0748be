import RecordQuery.Statement.Basic

/-! # The text of a statement

Every part of a statement prints in one form, whatever spacing, comments and letter case it
was written with. Strings are quoted again; names are printed as they are. -/

namespace RecordQuery

open Text

/-- The string in its quotes. -/
def StringLiteral.text (s : StringLiteral) : String := singleQuoted s.value

/-- The literal as it is written. -/
def Literal.text : Literal → String
  | number n => n.text
  | string s => s.text

/-- The cast as it is written. -/
def Cast.text (c : Cast) : String := "CAST(" ++ c.value.text ++ " AS " ++ c.typeName ++ ")"

/-- The range as it is written. -/
def Bounds.text (b : Bounds) : String := "BETWEEN " ++ b.low.text ++ " AND " ++ b.high.text

/-- The sign or word for the relation. -/
def IndexLookup.text : IndexLookup → String
  | equal => "="
  | contains => "CONTAINS"
  | within => "WITHIN"
  | between => "BETWEEN"

/-- The operand as it is written. -/
def IndexArgument.text : IndexArgument → String
  | literal l => l.text
  | cast c => c.text
  | between b => b.text

/-- The question as it is written. A range brings its own word for the relation. -/
def IndexClause.text (e : IndexClause) : String :=
  let collection := match e.collection with
    | some c => c.text ++ " "
    | none => ""
  match e.operand with
  | .between b => collection ++ e.bin.text ++ " " ++ b.text
  | operand => collection ++ e.bin.text ++ " " ++ e.relation.text ++ " " ++ operand.text

/-- The call as it is written. -/
def MetadataCall.text (m : MetadataCall) : String :=
  match m.modulo with
  | some n => m.name.text ++ "(" ++ n.text ++ ")"
  | none => m.name.text ++ "()"

/-- The subject as it is written. -/
def Subject.text : Subject → String
  | bin name => name.text
  | metadata call => call.text

/-- The words of the operator. -/
def AtomicOperator.text : AtomicOperator → String
  | relation r => r.text
  | geo r => r.text
  | like => "LIKE"
  | iterate part (some quantifier) => quantifier.text ++ " " ++ part.text
  | iterate part none => part.text

/-- The predicate on an element, in its parentheses. -/
def Iteration.text (i : Iteration) : String :=
  "(" ++ i.element.text ++ " " ++ i.relation.text ++ " " ++ i.value.text ++ ")"

/-- The operand as it is written. -/
def Operand.text : Operand → String
  | literal l => l.text
  | cast c => c.text
  | iteration i => i.text

/-- The predicate as it is written. -/
def Atomic.text (a : Atomic) : String :=
  a.subject.text ++ " " ++ a.operator.text ++ " " ++ a.operand.text

/-- The entry as it is written. -/
def WhereEntry.text : WhereEntry → String
  | openParen _ => "("
  | closeParen _ => ")"
  | connective c => c.text
  | atomic a => a.text

/-- Entries in sequence. A blank stands before each, except behind an opening parenthesis,
before a closing one, and where `tight` says so for the first. -/
def WhereEntry.textAll (tight : Bool) : List WhereEntry → String
  | [] => ""
  | .closeParen t :: items => (closeParen t).text ++ textAll false items
  | item :: items =>
    let next := match item with
      | .openParen _ => true
      | _ => false
    (if tight then "" else " ") ++ item.text ++ textAll next items

/-- The clause as it is written, without its keyword. -/
def WhereClause.text (w : WhereClause) : String := WhereEntry.textAll true w.items

/-- The selection as it is written. -/
def SelectList.text : SelectList → String
  | star => "*"
  | bins names => ", ".intercalate (names.map (·.text))

/-- The statement as it is written. -/
def Statement.text (s : Statement) : String :=
  let index := match s.index with
    | some e => " WITH " ++ e.text
    | none => ""
  let condition := match s.condition with
    | some w => " WHERE " ++ w.text
    | none => ""
  "SELECT " ++ s.selection.text ++ " FROM " ++ s.source.fullName ++ index ++ condition

end RecordQuery
