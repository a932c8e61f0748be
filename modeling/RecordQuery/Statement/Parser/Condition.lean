import RecordQuery.Statement.Parser.Literal

/-! # Reading the WHERE clause

A WHERE clause is read as a flat sequence. Where a predicate is awaited, there may be any
number of opening parentheses and `NOT`s before it; behind it, any number of closing
parentheses, and then `AND`, `OR` or the end. Whether the parentheses match is not looked at
here. -/

namespace RecordQuery

namespace Parse

/-! ## Predicates -/

/-- Takes a predicate on the elements of a collection. -/
def iteration : Parse Iteration := do
  let token ← mark .openParen
  let element ← name .variableName
  let relation ← relation
  let value ← literal
  let _ ← mark .closeParen
  return ⟨element, relation, value, token⟩

/-- Takes the number that a digest is taken modulo. No other fact has one. -/
def modulo (name : MetadataName) : Parse (Option NumberLiteral) :=
  if name == .digest then some <$> number .numericLiteral else Parse.pure none

/-- Takes the rest of a predicate on the fact `name`, which the token `first` names. -/
def metadataPredicate (first : Token) (name : MetadataName) : Parse Atomic := do
  let _ ← mark .openParen
  let modulo ← modulo name
  let _ ← mark .closeParen
  let relation ← relation
  let value ← number .numericLiteral
  return ⟨.metadata ⟨name, modulo, first⟩, .relation relation, .literal (.number value), first⟩

/-- Takes the rest of a predicate that walks over a part of the bin that `bin` names. -/
def iterationPredicate (bin : Token) (part : CollectionPart) (quantifier : Option Quantifier) :
    Parse Atomic := do
  let i ← iteration
  return ⟨.bin (.ofToken bin), .iterate part quantifier, .iteration i, bin⟩

/-- Takes the rest of a predicate that compares the bin that `bin` names to a region or
point. -/
def regionPredicate (bin : Token) (relation : RegionRelation) : Parse Atomic := do
  let c ← cast
  return ⟨.bin (.ofToken bin), .geo relation, .cast c, bin⟩

/-- Takes the rest of a predicate that relates the bin that `bin` names to a literal. -/
def relationPredicate (bin : Token) : Parse Atomic := do
  let relation ← relation
  let value ← literal
  return ⟨.bin (.ofToken bin), .relation relation, .literal value, bin⟩

/-- Takes the rest of a predicate that matches the bin that `bin` names with a pattern. -/
def likePredicate (bin : Token) : Parse Atomic := do
  let pattern ← string .stringPattern
  return ⟨.bin (.ofToken bin), .like, .literal (.string pattern), bin⟩

/-- Takes the rest of a predicate on the bin that `bin` names, behind a quantifier. -/
def quantifiedPredicate (bin : Token) (quantifier : Quantifier) : Parse Atomic := do
  match (← peek).keyword? with
  | some .CONTAINS =>
    let _ ← take
    iterationPredicate bin .list (some quantifier)
  | some .MAPKEYS =>
    let _ ← take
    iterationPredicate bin .mapKeys (some quantifier)
  | some .MAPVALUES =>
    let _ ← take
    iterationPredicate bin .mapValues (some quantifier)
  | _ => fail .collectionPart

/-- Takes the rest of a predicate on the bin that `bin` names. The next token decides of what
form it is. -/
def binPredicate (bin : Token) : Parse Atomic := do
  let next ← peek
  if next.kind == .operator then
    relationPredicate bin
  else match next.keyword? with
    | some .ANY =>
      let _ ← take
      quantifiedPredicate bin .any
    | some .ALL =>
      let _ ← take
      quantifiedPredicate bin .all
    | some .CONTAINS =>
      let _ ← take
      if (← peek).isKeyword .CAST then regionPredicate bin .contains
      else iterationPredicate bin .list none
    | some .MAPKEYS =>
      let _ ← take
      iterationPredicate bin .mapKeys none
    | some .MAPVALUES =>
      let _ ← take
      iterationPredicate bin .mapValues none
    | some .WITHIN =>
      let _ ← take
      regionPredicate bin .within
    | some .LIKE =>
      let _ ← take
      likePredicate bin
    | _ => fail (.operatorAfter bin.literal)

/-- Takes the rest of the predicate that begins with the token `first`. A name that is not a
keyword and stands before a parenthesis may be that of a fact about the record. -/
def predicateAfter (first : Token) : Parse Atomic := do
  let next ← peek
  match if first.kind == .identifier && next.isMark .openParen
      then MetadataName.ofText? first.literal else none with
  | some name => metadataPredicate first name
  | none => binPredicate first

/-! ## The sequence -/

/-- Takes one entry of the sequence, and says whether a predicate is awaited behind it. -/
def item (awaiting : Bool) : Parse (WhereEntry × Bool) := do
  let next ← peek
  if awaiting then
    if next.isMark .openParen then
      return (.openParen (← take), true)
    else if next.isKeyword .NOT then
      let _ ← take
      return (.connective .not, true)
    else
      let first ← accept Token.isName .predicate
      return (.atomic (← predicateAfter first), false)
  else
    if next.isMark .closeParen then
      return (.closeParen (← take), false)
    else if next.isKeyword .AND then
      let _ ← take
      return (.connective .and, true)
    else if next.isKeyword .OR then
      let _ ← take
      return (.connective .or, true)
    else
      fail .connective

theorem consumes_item (awaiting : Bool) (r : TokenReader) : Consumes (item awaiting) r := by
  unfold Consumes item
  rw [peek_bind]
  split
  · split
    · next h => exact (Consumes.take (Token.isFinish_of_isMark h)).bind _
    · split
      · next h => exact (Consumes.take (Token.isFinish_of_isKeyword h)).bind _
      · exact (Consumes.accept (fun _ => Token.isFinish_of_isName) _ r).bind _
  · split
    · next h => exact (Consumes.take (Token.isFinish_of_isMark h)).bind _
    · split
      · next h => exact (Consumes.take (Token.isFinish_of_isKeyword h)).bind _
      · split
        · next h => exact (Consumes.take (Token.isFinish_of_isKeyword h)).bind _
        · exact Consumes.fail _ r

/-- Takes the entries of the sequence up to a semicolon or the end. -/
def items (awaiting : Bool) : Parse (List WhereEntry) := fun r =>
  if r.peek.isFinish || r.peek.isMark .semicolon then
    (if awaiting then fail .predicate else Parse.pure []) r
  else
    match h : (item awaiting r).value with
    | none => ⟨none, (item awaiting r).next, (item awaiting r).le⟩
    | some (first, more) =>
      have := consumes_item awaiting r _ h
      let rest := items more (item awaiting r).next
      ⟨rest.value.map (first :: ·), rest.next, Nat.le_trans rest.le (item awaiting r).le⟩
termination_by r => r.remaining

/-- Takes a WHERE clause, behind its keyword. -/
def condition (token : Token) : Parse WhereClause := do
  return ⟨← items true, token⟩

end Parse

end RecordQuery
