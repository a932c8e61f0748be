/-! # Relations and connectives

The operators of a WHERE clause: what a predicate says about one record, how it walks over a
collection, and how predicates are combined. They occur in the statement as it is written and
again in the program that it is compiled to. -/

namespace RecordQuery

/-- Equality and its denial. -/
inductive Equality
  | equal | notEqual
deriving DecidableEq

namespace Equality

/-- The way the relation is printed. -/
def text : Equality → String
  | equal => "="
  | notEqual => "!="

/-- The relation that the operator `s` stands for. Each has two spellings. -/
def ofText? (s : String) : Option Equality :=
  if s = "=" ∨ s = "==" then some equal
  else if s = "!=" ∨ s = "<>" then some notEqual
  else none

end Equality

/-- The order of two numbers. -/
inductive Comparison
  | greater | greaterEq | less | lessEq
deriving DecidableEq

namespace Comparison

/-- The way the relation is printed. -/
def text : Comparison → String
  | greater => ">"
  | greaterEq => ">="
  | less => "<"
  | lessEq => "<="

/-- The relation that the operator `s` stands for. -/
def ofText? (s : String) : Option Comparison :=
  [greater, greaterEq, less, lessEq].find? fun c => c.text == s

end Comparison

/-- A relation between a bin and a literal. -/
inductive Relation
  | equality (op : Equality)
  | comparison (op : Comparison)
deriving DecidableEq

namespace Relation

/-- The way the relation is printed. -/
def text : Relation → String
  | equality op => op.text
  | comparison op => op.text

/-- The relation that the operator `s` stands for. -/
def ofText? (s : String) : Option Relation :=
  match Equality.ofText? s with
  | some op => some (equality op)
  | none => (Comparison.ofText? s).map comparison

end Relation

/-- The relations between two regions or points. -/
inductive RegionRelation
  | contains | within
deriving DecidableEq

/-- The way the relation is printed. -/
def RegionRelation.text : RegionRelation → String
  | contains => "CONTAINS"
  | within => "WITHIN"

/-- The part of a collection that is walked over, element by element. -/
inductive CollectionPart
  | list | mapKeys | mapValues
deriving DecidableEq

/-- The word that asks for the part. -/
def CollectionPart.text : CollectionPart → String
  | list => "CONTAINS"
  | mapKeys => "MAPKEYS"
  | mapValues => "MAPVALUES"

/-- Whether every element has to match, or one. -/
inductive Quantifier
  | all | any
deriving DecidableEq

/-- The word for the quantifier. -/
def Quantifier.text : Quantifier → String
  | all => "ALL"
  | any => "ANY"

/-- The connectives of predicates. -/
inductive Connective
  | not | and | or
deriving DecidableEq

namespace Connective

/-- The word for the connective. -/
def text : Connective → String
  | not => "NOT"
  | and => "AND"
  | or => "OR"

/-- The number of predicates that it combines. -/
def arity : Connective → Nat
  | not => 1
  | and => 2
  | or => 2

end Connective

end RecordQuery
