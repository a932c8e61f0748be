import RecordQuery.Statement.Basic

/-! # Visiting a statement

A visitor is told of the WITH clause, of the WHERE clause and of the statement, in this order,
each when it is complete. What it does may fail, and then nothing more is told. -/

namespace RecordQuery

/-- What to do about the parts of a statement. -/
structure Visitor (m : Type → Type) where
  index : IndexClause → m Unit
  condition : WhereClause → m Unit
  statement : Statement → m Unit

/-- Tells a visitor of the parts of a statement. -/
def Statement.visit [Monad m] (v : Visitor m) (s : Statement) : m Unit := do
  if let some e := s.index then v.index e
  if let some w := s.condition then v.condition w
  v.statement s

end RecordQuery
