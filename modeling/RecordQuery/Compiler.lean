import RecordQuery.Descriptor.Basic
import RecordQuery.Filter.OfIndex
import RecordQuery.Program.Ordering
import RecordQuery.Statement.Parser
import RecordQuery.Statement.Visitor

/-! # From statements to descriptors

A statement is compiled against the types of the bins of its source, by a visitor that puts a
descriptor together (`assembler`). The WITH clause comes first, then the parentheses of the WHERE
clause, then its predicates in the order of computation, which is also their order in the text. -/

namespace RecordQuery

/-- Why a text has no descriptor: it is no statement, or one that cannot be compiled. -/
inductive QueryError
  | unreadable (errors : List SyntaxError)
  | uncompilable (error : CompileError)
deriving DecidableEq

/-- The instructions for an entry. -/
def OrderedItem.compile (types : Option TypeTable) :
    OrderedItem → Except CompileError (List Instruction)
  | atomic a => (a.fragment types).result
  | connective c => .ok [.ofConnective c]

/-- The program for entries in the order of computation. -/
def Program.ofItems (types : Option TypeTable) :
    List OrderedItem → Except CompileError Program
  | [] => .ok []
  | item :: items => do
    let first ← item.compile types
    let rest ← ofItems types items
    return first ++ rest

/-- The names of the bins that are selected. -/
def SelectList.projection : SelectList → Projection
  | star => .allBins
  | bins names => .bins (names.map (·.text))

/-- What a visitor has made of the parts of a statement so far. -/
structure Assembly where
  filter : Option Filter
  items : List OrderedItem
  descriptor : Descriptor

/-- The assembly before the visit. -/
def Assembly.start : Assembly := ⟨none, [], ⟨.allBins, "", none, none, none⟩⟩

/-- Puts the descriptor of a statement together. A program without instructions is none. -/
def assembler (schema : Schema) : Visitor (StateT Assembly (Except CompileError)) where
  index e := do
    let filter ← e.filter
    modify fun a => { a with filter := some filter }
  condition w := do
    let items ← WhereEntry.order w.items
    modify fun a => { a with items }
  statement s := do
    let program ← Program.ofItems (schema.typeTable? s.source.fullName) (← get).items
    modify fun a => { a with
      filter := none
      descriptor := {
        projection := s.selection.projection
        space := s.source.space.text
        set := s.source.set.map (·.text)
        filter := a.filter
        predicate := if program.isEmpty then none else some program } }

/-- The descriptor of a statement. -/
def Statement.compile (schema : Schema) (s : Statement) : Except CompileError Descriptor := do
  let (_, a) ← (s.visit (assembler schema)).run .start
  return a.descriptor

/-- The descriptor of the statement that a text is. -/
def compile (schema : Schema) (text : String) : Except QueryError Descriptor :=
  match Statement.parse text with
  | .error errors => .error (.unreadable errors)
  | .ok s =>
    match s.compile schema with
    | .error e => .error (.uncompilable e)
    | .ok d => .ok d

end RecordQuery
