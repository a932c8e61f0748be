import RecordQuery.Json.Basic
import RecordQuery.Program.Basic
import RecordQuery.Word

/-! # Programs in JSON

Of several alternatives each is an object with its name as the only member, or the name alone
if there is nothing more to tell. The parts of an instruction have names too; members that are
no part of it are passed over. -/

namespace RecordQuery

namespace Json

/-- Reads a word of 64 bits with a sign. -/
def int64? (j : Json) : Option Int64 :=
  j.integer?.bind word64?

/-- Reads a word of 32 bits with a sign. -/
def int32? (j : Json) : Option Int32 :=
  j.integer?.bind word32?

/-- Reads a word of 64 bits without a sign. -/
def uint64? (j : Json) : Option UInt64 :=
  j.integer?.bind unsignedWord64?

/-- The alternative `name` with its content. -/
def alternative (name : String) (content : Json) : Json := object [(name, content)]

/-- Reads the name of one of `all`. -/
def oneOf? (all : List α) (name : α → String) (j : Json) : Option α :=
  j.tag?.bind fun tag => all.find? fun a => name a == tag

end Json

open Json

/-! ## Kinds, relations and literals -/

/-- The kind as its name. -/
def OperandKind.toJson (k : OperandKind) : Json := .string k.text

/-- Reads the name of a kind. -/
def OperandKind.ofJson? : Json → Option OperandKind := oneOf? all text

/-- The literal in JSON. -/
def Value.toJson : Value → Json
  | integer n => alternative "Integer" (.integer n.toInt)
  | string s => alternative "String" (.string s)
  | geoJson s => alternative "GeoJson" (.string s)

/-- Reads a literal. -/
def Value.ofJson? (j : Json) : Option Value :=
  match j.alternative? with
  | some ("Integer", some content) => content.int64?.map integer
  | some ("String", some content) => content.string?.map string
  | some ("GeoJson", some content) => content.string?.map geoJson
  | _ => none

/-- The fact in JSON. -/
def Metadata.toJson : Metadata → Json
  | digestModulo n => alternative "DigestModulo" (.integer n.toInt)
  | lastUpdate => .string "LastUpdate"
  | deviceSize => .string "DeviceSize"
  | voidTime => .string "VoidTime"

/-- Reads a fact. -/
def Metadata.ofJson? (j : Json) : Option Metadata :=
  match j.tag? with
  | some "LastUpdate" => some lastUpdate
  | some "DeviceSize" => some deviceSize
  | some "VoidTime" => some voidTime
  | _ =>
    match j.alternative? with
    | some ("DigestModulo", some content) => content.int32?.map digestModulo
    | _ => none

/-- The name of the relation in JSON. -/
def Equality.jsonName : Equality → String
  | equal => "Equal"
  | notEqual => "NotEqual"

/-- Reads the name of a relation. -/
def Equality.ofJson? : Json → Option Equality := oneOf? [equal, notEqual] jsonName

/-- The name of the relation in JSON. -/
def Comparison.jsonName : Comparison → String
  | greater => "Greater"
  | greaterEq => "GreaterEq"
  | less => "Less"
  | lessEq => "LessEq"

/-- Reads the name of a relation. -/
def Comparison.ofJson? : Json → Option Comparison :=
  oneOf? [greater, greaterEq, less, lessEq] jsonName

/-- The name of the relation in JSON. -/
def RegionRelation.jsonName : RegionRelation → String
  | contains => "Contains"
  | within => "Within"

/-- Reads the name of a relation. -/
def RegionRelation.ofJson? : Json → Option RegionRelation := oneOf? [contains, within] jsonName

/-- The name of the part in JSON. -/
def CollectionPart.jsonName : CollectionPart → String
  | list => "LIST"
  | mapKeys => "MAPKEYS"
  | mapValues => "MAPVALUES"

/-- Reads the name of a part. -/
def CollectionPart.ofJson? : Json → Option CollectionPart :=
  oneOf? [list, mapKeys, mapValues] jsonName

/-- Reads the name of a quantifier. -/
def Quantifier.ofJson? : Json → Option Quantifier := oneOf? [all, any] text

/-- The name of the connective in JSON. -/
def Connective.jsonName : Connective → String
  | not => "Not"
  | and => "And"
  | or => "Or"

/-- Reads the name of a connective. -/
def Connective.ofJson? : Json → Option Connective := oneOf? [not, and, or] jsonName

/-! ## Instructions -/

namespace Instruction

/-- The instruction in JSON. -/
def toJson : Instruction → Json
  | bin name kind => alternative "Bin" (.object [("name", .string name), ("kind", kind.toJson)])
  | element name kind =>
    alternative "Var" (.object [("name", .string name), ("kind", kind.toJson)])
  | value v => alternative "Value" v.toJson
  | metadata m => alternative "Meta" m.toJson
  | equality op kind =>
    alternative "Equality" (.object [("op", .string op.jsonName), ("kind", kind.toJson)])
  | comparison op => alternative "Comparison" (.string op.jsonName)
  | geo r => alternative "Geo" (.string r.jsonName)
  | regex flags => alternative "Regex" (.string flags.text)
  | iterate part quantifier name =>
    alternative "Iterate" (.object [("collection", .string part.jsonName),
      ("mode", .string quantifier.text), ("var", .string name)])
  | logical op arity =>
    alternative "Logical" (.object [("op", .string op.jsonName),
      ("arity", .integer arity.toNat)])

/-- Reads the parts of a named value. -/
def namedValue? (make : String → OperandKind → Instruction) (content : Json) :
    Option Instruction := do
  let members ← content.object?
  return make (← require? members "name" string?) (← require? members "kind" OperandKind.ofJson?)

/-- Reads the parts of an equality. -/
def equality? (content : Json) : Option Instruction := do
  let members ← content.object?
  return equality (← require? members "op" Equality.ofJson?)
    (← require? members "kind" OperandKind.ofJson?)

/-- Reads the parts of a walk. -/
def iterate? (content : Json) : Option Instruction := do
  let members ← content.object?
  return iterate (← require? members "collection" CollectionPart.ofJson?)
    (← require? members "mode" Quantifier.ofJson?) (← require? members "var" string?)

/-- Reads the parts of a connective. -/
def logical? (content : Json) : Option Instruction := do
  let members ← content.object?
  return logical (← require? members "op" Connective.ofJson?)
    (← require? members "arity" uint64?)

/-- Reads an instruction. -/
def ofJson? (j : Json) : Option Instruction :=
  match j.alternative? with
  | some ("Bin", some content) => namedValue? bin content
  | some ("Var", some content) => namedValue? element content
  | some ("Value", some content) => (Value.ofJson? content).map value
  | some ("Meta", some content) => (Metadata.ofJson? content).map metadata
  | some ("Equality", some content) => equality? content
  | some ("Comparison", some content) => (Comparison.ofJson? content).map comparison
  | some ("Geo", some content) => (RegionRelation.ofJson? content).map geo
  | some ("Regex", some content) => (content.string?.bind PatternFlags.ofText?).map regex
  | some ("Iterate", some content) => iterate? content
  | some ("Logical", some content) => logical? content
  | _ => none

end Instruction

namespace Program

/-- The program in JSON. -/
def toJson (p : Program) : Json := .array (p.map Instruction.toJson)

/-- Reads a program. -/
def ofJson? : Json → Option Program := list? Instruction.ofJson?

end Program

end RecordQuery
