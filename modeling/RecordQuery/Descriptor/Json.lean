import RecordQuery.Descriptor.Basic
import RecordQuery.Program.Json

/-! # Descriptors in JSON

Filters and descriptors are written as objects. Where a descriptor has no set, no filter or no
predicate, `null` is written; when it is read, the member may also be missing. -/

namespace RecordQuery

open Json

/-! ## Filters -/

/-- The part as its name. -/
def IndexCollection.toJson (c : IndexCollection) : Json := .string c.text

/-- Reads the name of a part. -/
def IndexCollection.ofJson? : Json → Option IndexCollection := oneOf? all text

/-- The value in JSON. -/
def ProbeValue.toJson : ProbeValue → Json
  | integer n => alternative "Integer" (.integer n.toInt)
  | string s => alternative "String" (.string s)

/-- Reads a value. -/
def ProbeValue.ofJson? (j : Json) : Option ProbeValue :=
  match j.alternative? with
  | some ("Integer", some content) => content.int64?.map integer
  | some ("String", some content) => content.string?.map string
  | _ => none

namespace Probe

/-- The question in JSON. -/
def toJson : Probe → Json
  | equal v => alternative "Equal" v.toJson
  | contains v => alternative "Contains" v.toJson
  | range low high =>
    alternative "Range" (.object [("low", .integer low.toInt), ("high", .integer high.toInt)])
  | geoContains region => alternative "GeoContains" (.string region)
  | geoWithin region => alternative "GeoWithin" (.string region)

/-- Reads the two ends of a range. -/
def range? (content : Json) : Option Probe := do
  let members ← content.object?
  return range (← require? members "low" int64?) (← require? members "high" int64?)

/-- Reads a question. -/
def ofJson? (j : Json) : Option Probe :=
  match j.alternative? with
  | some ("Equal", some content) => (ProbeValue.ofJson? content).map equal
  | some ("Contains", some content) => (ProbeValue.ofJson? content).map contains
  | some ("Range", some content) => range? content
  | some ("GeoContains", some content) => content.string?.map geoContains
  | some ("GeoWithin", some content) => content.string?.map geoWithin
  | _ => none

end Probe

namespace Filter

/-- The filter in JSON. -/
def toJson (f : Filter) : Json :=
  .object [("bin", .string f.bin), ("collection", f.collection.toJson),
    ("relation", f.probe.toJson)]

/-- Reads a filter. -/
def ofJson? (j : Json) : Option Filter := do
  let members ← j.record? ["bin", "collection", "relation"]
  return ⟨← require? members "bin" string?,
    ← require? members "collection" IndexCollection.ofJson?,
    ← require? members "relation" Probe.ofJson?⟩

end Filter

/-! ## Descriptors -/

namespace Projection

/-- The projection in JSON. -/
def toJson : Projection → Json
  | allBins => .string "AllBins"
  | bins names => alternative "Bins" (.array (names.map .string))

/-- Reads a projection. -/
def ofJson? (j : Json) : Option Projection :=
  match j.tag? with
  | some "AllBins" => some allBins
  | _ =>
    match j.alternative? with
    | some ("Bins", some content) => (content.list? string?).map bins
    | _ => none

end Projection

namespace Descriptor

/-- A part that may be missing. -/
def partJson (write : α → Json) : Option α → Json
  | some a => write a
  | none => .null

/-- The descriptor in JSON. -/
def toJson (d : Descriptor) : Json :=
  .object [("projection", d.projection.toJson), ("namespace", .string d.space),
    ("set", partJson .string d.set), ("filter", partJson Filter.toJson d.filter),
    ("predicate", partJson Program.toJson d.predicate)]

/-- Reads a descriptor. -/
def ofJson? (j : Json) : Option Descriptor := do
  let members ← j.record? ["projection", "namespace", "set", "filter", "predicate"]
  return ⟨← require? members "projection" Projection.ofJson?,
    ← require? members "namespace" string?, ← optional? members "set" string?,
    ← optional? members "filter" Filter.ofJson?,
    ← optional? members "predicate" Program.ofJson?⟩

end Descriptor

end RecordQuery
