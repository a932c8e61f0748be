import RecordQuery.Program.PatternFlags
import RecordQuery.Statement.Relation
import RecordQuery.Text.Quoted

/-! # Programs

The store checks a record by running a program on a stack. An operand is pushed; a relation
takes its two operands and pushes a truth value; a connective takes as many truth values as
its arity says and pushes one. So a program is a predicate in the order in which it is
computed: `foo > 2 AND bar <= 3` is `foo 2 > bar 3 <= AND`. -/

namespace RecordQuery

open Text

/-- The kind of value that an instruction works on. -/
inductive OperandKind
  | integer | string | geoJson | list | map
deriving DecidableEq

namespace OperandKind

/-- All kinds. -/
def all : List OperandKind := [integer, string, geoJson, list, map]

/-- The name of the kind. -/
def text : OperandKind → String
  | integer => "INTEGER"
  | string => "STRING"
  | geoJson => "GEOJSON"
  | list => "LIST"
  | map => "MAP"

end OperandKind

/-- A literal in a program. -/
inductive Value
  | integer (n : Int64)
  | string (s : String)
  | geoJson (s : String)
deriving DecidableEq

namespace Value

/-- The kind of the literal. -/
def kind : Value → OperandKind
  | integer _ => .integer
  | string _ => .string
  | geoJson _ => .geoJson

/-- The literal as it is written. -/
def text : Value → String
  | integer n => toString n.toInt
  | string s => singleQuoted s
  | geoJson s => "GEOJSON " ++ singleQuoted s

end Value

/-- A fact about a record. -/
inductive Metadata
  | digestModulo (n : Int32)
  | lastUpdate
  | deviceSize
  | voidTime
deriving DecidableEq

/-- The fact as it is written. -/
def Metadata.text : Metadata → String
  | digestModulo n => "DIGEST(" ++ toString n.toInt ++ ")"
  | lastUpdate => "LUT()"
  | deviceSize => "RECSIZE()"
  | voidTime => "TTL()"

/-- An instruction of a program. -/
inductive Instruction
  /-- Push the value of a bin. -/
  | bin (name : String) (kind : OperandKind)
  /-- Push the element that a walk has come to. -/
  | element (name : String) (kind : OperandKind)
  /-- Push a literal. -/
  | value (v : Value)
  /-- Push a fact about the record. -/
  | metadata (m : Metadata)
  /-- Compare two operands of a kind. -/
  | equality (op : Equality) (kind : OperandKind)
  /-- Order two integers. -/
  | comparison (op : Comparison)
  /-- Relate two regions or points. -/
  | geo (r : RegionRelation)
  /-- Match a string with a pattern. -/
  | regex (flags : PatternFlags)
  /-- Walk over a collection with the predicate that follows. -/
  | iterate (part : CollectionPart) (quantifier : Quantifier) (element : String)
  /-- Combine truth values. -/
  | logical (op : Connective) (arity : UInt64)
deriving DecidableEq

namespace Instruction

/-- The instruction for a connective, with the arity that it has. -/
def ofConnective (c : Connective) : Instruction := logical c (.ofNat c.arity)

/-- The instruction for a relation between operands of a kind. -/
def ofRelation (r : Relation) (kind : OperandKind) : Instruction :=
  match r with
  | .equality op => equality op kind
  | .comparison op => comparison op

/-- Whether the instruction pushes a value and does nothing else. -/
def isOperand : Instruction → Bool
  | bin _ _ | element _ _ | value _ | metadata _ => true
  | _ => false

/-- The kind of the value that the instruction pushes, if it says so. -/
def operandKind? : Instruction → Option OperandKind
  | bin _ kind => some kind
  | element _ kind => some kind
  | value v => some v.kind
  | _ => none

/-- The instruction as it is printed. -/
def text : Instruction → String
  | bin name _ => name
  | element name _ => name
  | value v => v.text
  | metadata m => m.text
  | equality op _ => op.text
  | comparison op => op.text
  | geo r => r.text
  | regex _ => "LIKE"
  | iterate part quantifier name => quantifier.text ++ " " ++ part.text ++ "(" ++ name ++ ")"
  | logical op _ => op.text

end Instruction

/-- A program. -/
abbrev Program := List Instruction

/-- The instructions with blanks between them. -/
def Program.text (p : Program) : String := " ".intercalate (p.map Instruction.text)

end RecordQuery
