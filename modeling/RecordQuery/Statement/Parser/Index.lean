import RecordQuery.Statement.Parser.Literal

/-! # Reading the WITH clause

The words `LIST`, `MAPKEYS` and `MAPVALUES` are not reserved, so one that stands first can say
what the index is built over or be the name of the bin. It is the name if a relation follows. -/

namespace RecordQuery

namespace Token

/-- What the token says that the index is built over. -/
def indexCollection? (t : Token) : Option IndexCollection :=
  match t.keyword? with
  | some .LIST => some .list
  | some .MAPKEYS => some .mapKeys
  | some .MAPVALUES => some .mapValues
  | _ => none

/-- Whether a relation can begin with the token. -/
def beginsIndexRelation (t : Token) : Bool :=
  t.kind == .operator || t.isKeyword .CONTAINS || t.isKeyword .WITHIN || t.isKeyword .BETWEEN

/-- The relation that the token stands for. -/
def indexRelation? (t : Token) : Option IndexLookup :=
  if t.isSign .equal || t.isSign .doubleEqual then some .equal
  else if t.isKeyword .CONTAINS then some .contains
  else if t.isKeyword .WITHIN then some .within
  else if t.isKeyword .BETWEEN then some .between
  else none

end Token

namespace Parse

/-- Takes the two ends of a range, behind the word `BETWEEN`. -/
def bounds (between : Token) : Parse Bounds := do
  let low ← number .numericLiteral
  let _ ← keyword .AND
  let high ← number .numericLiteral
  return ⟨low, high, between⟩

/-- Takes what the relation of the token `sign` asks for. Whether an index can answer it is
not looked at here. -/
def indexArgument (sign : Token) (relation : IndexLookup) : Parse IndexArgument := do
  if relation == .between then
    return .between (← bounds sign)
  else if (← peek).isKeyword .CAST then
    return .cast (← cast)
  else
    return .literal (← literal)

/-- Takes the relation and the operand of a WITH clause that begins with `first` and is
about `bin`. -/
def indexTail (first : Token) (collection : Option IndexCollection) (bin : Name) :
    Parse IndexClause := do
  match (← peek).indexRelation? with
  | some relation =>
    let sign ← take
    let operand ← indexArgument sign relation
    return ⟨collection, bin, relation, operand, first⟩
  | none => fail .indexRelation

/-- Takes a WITH clause from the name of its bin on. It may stand in parentheses. -/
def indexBody (first : Token) (collection : Option IndexCollection) : Parse IndexClause := do
  if (← peek).isMark .openParen then
    let _ ← take
    let bin ← name .binName
    let e ← indexTail first collection bin
    let _ ← mark .closeParen
    return e
  else
    let bin ← name .binName
    indexTail first collection bin

/-- Takes a WITH clause. -/
def index : Parse IndexClause := do
  let first ← peek
  match first.indexCollection? with
  | some collection =>
    let word ← take
    if (← peek).beginsIndexRelation then
      indexTail first none (.ofToken word)
    else
      indexBody first (some collection)
  | none => indexBody first none

end Parse

end RecordQuery
