import RecordQuery.CompileError
import RecordQuery.Decimal.Truncation
import RecordQuery.Program.Basic
import RecordQuery.Program.Pattern
import RecordQuery.Schema.Basic
import RecordQuery.Statement.Printer

/-! # The instructions of a predicate

A predicate without connectives becomes a fragment of a program: an operand, a literal and a
relation, and before them a walk if it is about the elements of a collection. The type of the
bin in the schema decides how the literal is read. A bin that the schema does not know holds
strings.

If the predicate cannot be compiled, the instructions made before that came to light are kept
beside the error. -/

namespace RecordQuery

/-- Instructions, and the error that ended their making, if there is one. -/
structure Fragment where
  instructions : List Instruction
  failure : Option CompileError
deriving DecidableEq

namespace Fragment

/-- The fragment that is cut off by an error before its first instruction. -/
def failed (e : CompileError) : Fragment := ⟨[], some e⟩

/-- The instructions `made`, and then those of `rest` or its error. -/
def extend (made : List Instruction) (rest : Except CompileError (List Instruction)) :
    Fragment :=
  match rest with
  | .ok instructions => ⟨made ++ instructions, none⟩
  | .error e => ⟨made, some e⟩

/-- The instructions, if all were made. -/
def result (f : Fragment) : Except CompileError (List Instruction) :=
  match f.failure with
  | some e => .error e
  | none => .ok f.instructions

end Fragment

/-- Reads a number as a word. -/
def readWord (text : String) : Except CompileError Int64 :=
  match wordOfText? text with
  | some w => .ok w
  | none => .error (.invalidNumber text)

/-- Reads a number as a half word. -/
def readHalfWord (text : String) : Except CompileError Int32 := do
  match word32? (← readWord text).toInt with
  | some w => return w
  | none => throw (.invalidNumber text)

/-- The type of a bin or variable. -/
def typeIn (types : Option TypeTable) (name : String) : ParticleType :=
  (types.bind (·.get? name)).getD .string

/-- The literal that a text stands for beside a value of the type that `name` has. A collection
has no literals. -/
def literalValue (types : Option TypeTable) (name raw : String) : Except CompileError Value :=
  match typeIn types name with
  | .integer | .double => Value.integer <$> readWord raw
  | .string => .ok (.string raw)
  | .geoJson => .ok (.geoJson raw)
  | .list => .error (.unsupportedBinType name ParticleType.list.text)
  | .map => .error (.unsupportedBinType name ParticleType.map.text)

/-- The fact that a call names. A digest without a modulus has the empty text in its place. -/
def MetadataCall.compile (m : MetadataCall) : Except CompileError Metadata :=
  match m.name with
  | .digest => .digestModulo <$> readHalfWord ((m.modulo.map (·.text)).getD "")
  | .lastUpdate => .ok .lastUpdate
  | .recordSize => .ok .deviceSize
  | .timeToLive => .ok .voidTime

/-- The kind of collection that is walked over. If the schema does not say, the part of it that
is asked for tells. -/
def containerKind (types : Option TypeTable) (bin : String) (part : CollectionPart) : OperandKind :=
  match typeIn types bin, part with
  | .list, _ => .list
  | .map, _ => .map
  | _, .list => .list
  | _, _ => .map

/-- The kind of value that a literal is written as. -/
def Literal.kind : Literal → OperandKind
  | number _ => .integer
  | string _ => .string

namespace Fragment

/-- A fact about the record in relation to a number. -/
def ofMetadata (call : MetadataCall) (relation : Relation) (literal : Literal) : Fragment :=
  match call.compile with
  | .error e => failed e
  | .ok m => extend [.metadata m] do
    return [.value (.integer (← readWord literal.raw)), .ofRelation relation .integer]

/-- A bin in relation to a literal. -/
def ofBin (types : Option TypeTable) (bin raw : String) (relation : Instruction) : Fragment :=
  extend [] do
    let v ← literalValue types bin raw
    return [.bin bin v.kind, .value v, relation]

/-- The elements of a bin in relation to a literal. -/
def ofIteration (types : Option TypeTable) (bin : String) (part : CollectionPart)
    (quantifier : Quantifier) (i : Iteration) : Fragment :=
  extend
    [.iterate part quantifier i.element.text, .bin bin (containerKind types bin part)] do
      let v ← literalValue types (Schema.variableName bin i.element.text) i.value.raw
      return [.element i.element.text v.kind, .value v, .ofRelation i.relation i.value.kind]

/-- A bin in relation to a region or point. -/
def ofGeo (bin : String) (relation : RegionRelation) (c : Cast) : Fragment :=
  if c.isGeoJson then
    ⟨[.bin bin .geoJson, .value (.geoJson c.value.value), .geo relation], none⟩
  else
    failed (.expectedGeoJsonCast c.typeName)

/-- A bin matched with a pattern. -/
def ofPattern (bin : String) (p : Pattern) : Fragment :=
  ⟨[.bin bin .string, .value (.string p.body), .regex p.flags], none⟩

end Fragment

namespace Atomic

/-- The fragment of a predicate that no fragment is for. -/
def refused (a : Atomic) : Fragment :=
  .failed (.unsupportedPredicate a.text a.token.position)

/-- The fragment of a predicate on the bins of a source with the given types. A string has an
equal but no order. -/
def fragment (types : Option TypeTable) (a : Atomic) : Fragment :=
  match a.subject, a.operator, a.operand with
  | .metadata call, .relation r, .literal l => .ofMetadata call r l
  | .bin bin, .relation (.equality op), .literal l =>
    .ofBin types bin.text l.raw (.equality op l.kind)
  | .bin bin, .relation (.comparison op), .literal (.number n) =>
    .ofBin types bin.text n.text (.comparison op)
  | .bin bin, .iterate part quantifier, .iteration i =>
    match i.relation, i.value with
    | .comparison _, .string _ => a.refused
    | _, _ => .ofIteration types bin.text part (quantifier.getD .all) i
  | .bin bin, .geo r, .cast c => .ofGeo bin.text r c
  | .bin bin, .like, .literal (.string s) => .ofPattern bin.text (.ofString s.value)
  | _, _, _ => a.refused

end Atomic

end RecordQuery
