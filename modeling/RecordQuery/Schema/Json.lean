import RecordQuery.Json.Parser
import RecordQuery.Json.Printer
import RecordQuery.Schema.Basic

/-! # Schemas in JSON

A schema is an object of the sources, each an object of the bins with the names of their types.
If a name is repeated, the last member counts.

There are two readers. `ofConfiguration` reads what people write: a type may have any of its
names, in any case, and a name that is unknown is told. `ofJson?` reads what `toJson` writes. -/

namespace RecordQuery

/-- Why a document is not a schema. -/
inductive SchemaError
  | wrongForm
  | unknownType (tag bin source : String)
deriving DecidableEq

/-- The words of an error. -/
def SchemaError.message : SchemaError → String
  | wrongForm => "invalid schema: expected an object of objects of type names"
  | unknownType tag bin source =>
    "invalid schema: unknown type '" ++ tag ++ "' for bin '" ++ bin ++ "' in '" ++ source ++ "'"

/-- Reads an object as a dictionary. -/
def Json.dictionary? (read : Json → Option α) (j : Json) : Option (Dictionary α) := do
  let members ← j.object?
  let entries ← members.mapM fun m => (read m.2).map (m.1, ·)
  return .ofList entries

/-- The dictionary as an object. -/
def Dictionary.toJson (write : α → Json) (d : Dictionary α) : Json :=
  .object (d.entries.map fun e => (e.1, write e.2))

namespace ParticleType

/-- The type as its name. -/
def toJson (t : ParticleType) : Json := .string t.text

/-- Reads the name of a type as `toJson` writes it. -/
def ofJson? (j : Json) : Option ParticleType := do
  let tag ← j.tag?
  all.find? fun t => t.text == tag

end ParticleType

namespace Schema

/-- The schema as an object. -/
def toJson (s : Schema) : Json := s.sources.toJson (·.toJson ParticleType.toJson)

/-- Reads an object of the form that `toJson` writes. -/
def ofJson? (j : Json) : Option Schema :=
  (j.dictionary? (·.dictionary? ParticleType.ofJson?)).map Schema.mk

/-- The type of a bin, from any of its names. -/
def typeOfTag (source bin tag : String) : Except SchemaError ParticleType :=
  match ParticleType.ofText? tag with
  | some t => .ok t
  | none => .error (.unknownType tag bin source)

/-- The schema of a dictionary of names of types. The first unknown one is told, in the order
of the names of sources and bins. -/
def ofTags (tags : Dictionary (Dictionary String)) : Except SchemaError Schema := do
  let sources ← tags.entries.mapM fun source => do
    let bins ← source.2.entries.mapM fun bin => do
      return (bin.1, ← typeOfTag source.1 bin.1 bin.2)
    return (source.1, Dictionary.ofList bins)
  return ⟨.ofList sources⟩

/-- Reads a schema as people write it. -/
def ofConfiguration (j : Json) : Except SchemaError Schema :=
  match j.dictionary? (·.dictionary? Json.string?) with
  | some tags => ofTags tags
  | none => .error .wrongForm

/-- Reads a document with a schema as people write it. -/
def ofConfigurationText (text : String) : Except SchemaError Schema :=
  match Json.parse? text with
  | some j => ofConfiguration j
  | none => .error .wrongForm

/-- Reads a document with a schema as `toJson` writes it. -/
def ofText? (text : String) : Option Schema := (Json.parse? text).bind ofJson?

end Schema

end RecordQuery
