import RecordQuery.Compiler

/-! # What a visit puts together

A descriptor is made while the parts of a statement are visited. Each part is a step of its own
(`Assembly.run_index`, `Assembly.run_condition`, `Assembly.run_statement`): it fails, and with it
the visit, or it adds what it has made. So a statement is compiled by three steps in a row, and the
first that fails tells what is wrong (`Statement.compile_eq`). -/

namespace RecordQuery

/-- The filter of the WITH clause. -/
def Statement.filter (s : Statement) : Except CompileError (Option Filter) :=
  match s.index with
  | some e => some <$> e.filter
  | none => .ok none

/-- The entries of the WHERE clause, none if there is no such clause. -/
def Statement.entries (s : Statement) : List WhereEntry := s.condition.elim [] (·.items)

theorem WhereEntry.order_nil : order [] = .ok [] := rfl

theorem ok_bind (a : α) (f : α → Except ε β) : Except.ok a >>= f = f a := rfl

namespace Assembly

variable (schema : Schema) (a : Assembly)

/-- The step at a WITH clause. -/
theorem run_index (e : IndexClause) :
    ((assembler schema).index e).run a =
      (fun filter => ((), { a with filter := some filter })) <$> e.filter := by
  simp [assembler]

/-- The step at a WHERE clause. -/
theorem run_condition (w : WhereClause) :
    ((assembler schema).condition w).run a =
      (fun items => ((), { a with items })) <$> WhereEntry.order w.items := by
  simp [assembler]

/-- The step at the statement itself, which takes up what the others have made. -/
theorem run_statement (s : Statement) :
    ((assembler schema).statement s).run a =
      (fun program => ((), { a with
        filter := none
        descriptor := ⟨s.selection.projection, s.source.space.text, s.source.set.map (·.text),
          a.filter, if program.isEmpty then none else some program⟩ })) <$>
        Program.ofItems (schema.typeTable? s.source.fullName) a.items := by
  simp [assembler]

end Assembly

/-- A statement is compiled clause by clause, and its program is made last. -/
theorem Statement.compile_eq (schema : Schema) (s : Statement) : s.compile schema = do
    let filter ← s.filter
    let items ← WhereEntry.order s.entries
    let program ← Program.ofItems (schema.typeTable? s.source.fullName) items
    return {
      projection := s.selection.projection
      space := s.source.space.text
      set := s.source.set.map (·.text)
      filter
      predicate := if program.isEmpty then none else some program } := by
  unfold compile visit filter entries
  cases s.index with
  | none =>
    cases s.condition with
    | none => simp [Assembly.run_statement, Assembly.start, WhereEntry.order_nil, ok_bind]
    | some w =>
      simp [Assembly.run_statement, Assembly.run_condition, Assembly.start, ok_bind]
  | some e =>
    cases s.condition with
    | none =>
      simp [Assembly.run_statement, Assembly.run_index, Assembly.start, WhereEntry.order_nil,
        ok_bind]
    | some w =>
      simp [Assembly.run_statement, Assembly.run_condition, Assembly.run_index, Assembly.start]

end RecordQuery
