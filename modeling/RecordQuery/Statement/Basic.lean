import RecordQuery.IndexCollection
import RecordQuery.Statement.Relation
import RecordQuery.Text.Quoted
import RecordQuery.Token.Basic

/-! # Statements

A statement as it is written. The tree is shallow: a WHERE clause is the sequence of
parentheses, connectives and predicates in source order, and which connective binds which
predicates is found later. Every node keeps the token that it begins with.

A tree may pair a subject, an operator and an operand that no statement can mean; compiling
it tells. -/

namespace RecordQuery

open Text

/-! ## Names and literals -/

/-- The name of a bin, a namespace, a set, a variable or a type. -/
structure Name where
  text : String
  token : Token
deriving DecidableEq

/-- The name that a token spells. -/
def Name.ofToken (t : Token) : Name := ⟨t.literal, t⟩

/-- A string, without its quotes. -/
structure StringLiteral where
  value : String
  token : Token
deriving DecidableEq

/-- The string of a token whose literal still has its quotes. -/
def StringLiteral.ofToken (t : Token) : StringLiteral :=
  ⟨String.ofList (unquoted '\'' t.literal.toList), t⟩

/-- A number as it is written, with its minus sign. -/
structure NumberLiteral where
  text : String
  token : Token
deriving DecidableEq

/-- Whether the number has neither fraction nor exponent. -/
def NumberLiteral.isInteger (n : NumberLiteral) : Bool :=
  n.text.toList.all fun c => c != '.' && c != 'e' && c != 'E'

/-- A number or a string. -/
inductive Literal
  | number (n : NumberLiteral)
  | string (s : StringLiteral)
deriving DecidableEq

/-- The text that the literal stands for, without quotes. -/
def Literal.raw : Literal → String
  | number n => n.text
  | string s => s.value

/-- A string that is read as another type. -/
structure Cast where
  value : StringLiteral
  typeName : String
  token : Token
deriving DecidableEq

/-- Whether the string is to be read as a region or point. -/
def Cast.isGeoJson (c : Cast) : Bool := c.typeName == "GEOJSON"

/-! ## The WITH clause -/

/-- The ways to ask an index. -/
inductive IndexLookup
  | equal | contains | within | between
deriving DecidableEq

/-- The two ends of a range of numbers. -/
structure Bounds where
  low : NumberLiteral
  high : NumberLiteral
  token : Token
deriving DecidableEq

/-- What the index is asked for. -/
inductive IndexArgument
  | literal (l : Literal)
  | cast (c : Cast)
  | between (b : Bounds)
deriving DecidableEq

/-- A question to a secondary index, and what the index is built over if that is said. -/
structure IndexClause where
  collection : Option IndexCollection
  bin : Name
  relation : IndexLookup
  operand : IndexArgument
  token : Token
deriving DecidableEq

/-! ## The WHERE clause -/

/-- The facts about a record that can stand in for a bin. -/
inductive MetadataName
  | digest | lastUpdate | recordSize | timeToLive
deriving DecidableEq

namespace MetadataName

/-- All names. -/
def all : List MetadataName := [digest, lastUpdate, recordSize, timeToLive]

/-- The name as it is written. -/
def text : MetadataName → String
  | digest => "DIGEST"
  | lastUpdate => "LUT"
  | recordSize => "RECSIZE"
  | timeToLive => "TTL"

/-- The name spelled `s`, in any ASCII case. -/
def ofText? (s : String) : Option MetadataName :=
  all.find? fun m => m.text == asciiUpper s

end MetadataName

/-- A fact about a record. A digest is taken modulo a number. -/
structure MetadataCall where
  name : MetadataName
  modulo : Option NumberLiteral
  token : Token
deriving DecidableEq

/-- What a predicate is about. -/
inductive Subject
  | bin (name : Name)
  | metadata (call : MetadataCall)
deriving DecidableEq

/-- How a predicate relates its subject and its operand. -/
inductive AtomicOperator
  | relation (r : Relation)
  | geo (r : RegionRelation)
  | like
  | iterate (part : CollectionPart) (quantifier : Option Quantifier)
deriving DecidableEq

/-- A predicate on one element of a collection. -/
structure Iteration where
  element : Name
  relation : Relation
  value : Literal
  token : Token
deriving DecidableEq

/-- What a predicate relates its subject to. -/
inductive Operand
  | literal (l : Literal)
  | cast (c : Cast)
  | iteration (i : Iteration)
deriving DecidableEq

/-- A predicate without connectives. -/
structure Atomic where
  subject : Subject
  operator : AtomicOperator
  operand : Operand
  token : Token
deriving DecidableEq

/-- One entry of a WHERE clause. -/
inductive WhereEntry
  | openParen (t : Token)
  | closeParen (t : Token)
  | connective (c : Connective)
  | atomic (a : Atomic)
deriving DecidableEq

/-- A WHERE clause, in source order. -/
structure WhereClause where
  items : List WhereEntry
  token : Token
deriving DecidableEq

/-! ## The statement -/

/-- What is selected of each record. -/
inductive SelectList
  | star
  | bins (names : List Name)
deriving DecidableEq

/-- Where the records come from: a namespace, or one set of it. -/
structure Source where
  space : Name
  set : Option Name
deriving DecidableEq

/-- The name of the source by which a schema knows it. -/
def Source.fullName (s : Source) : String :=
  match s.set with
  | some set => s.space.text ++ "." ++ set.text
  | none => s.space.text

/-- A SELECT statement. -/
structure Statement where
  selection : SelectList
  source : Source
  index : Option IndexClause
  condition : Option WhereClause
  token : Token
deriving DecidableEq

end RecordQuery
