import RecordQuery.Filter.Basic
import RecordQuery.Program.Fragment

/-! # The filter of a WITH clause

Only some relations go with some operands. A question for equality is always put to the index
over the plain bin, whatever the clause says that the index is built over. -/

namespace RecordQuery

/-- The value that a literal stands for in a filter. -/
def Literal.probeValue : Literal → Except CompileError ProbeValue
  | number n => .integer <$> readWord n.text
  | string s => .ok (.string s.value)

/-- The region that a cast stands for. -/
def Cast.region (c : Cast) : Except CompileError String :=
  if c.isGeoJson then .ok c.value.value else .error (.expectedGeoJsonCast c.typeName)

/-- The filter that asks what the expression asks. -/
def IndexClause.filter (e : IndexClause) : Except CompileError Filter := do
  let collection := e.collection.getD .scalar
  match e.relation, e.operand with
  | .equal, .literal l => return ⟨e.bin.text, .scalar, .equal (← l.probeValue)⟩
  | .contains, .literal l => return ⟨e.bin.text, collection, .contains (← l.probeValue)⟩
  | .contains, .cast c => return ⟨e.bin.text, collection, .geoContains (← c.region)⟩
  | .within, .cast c => return ⟨e.bin.text, collection, .geoWithin (← c.region)⟩
  | .between, .between b =>
    let low ← readWord b.low.text
    let high ← readWord b.high.text
    return ⟨e.bin.text, collection, .range low high⟩
  | _, _ => throw (.unsupportedIndexExpression e.text e.token.position)

end RecordQuery
