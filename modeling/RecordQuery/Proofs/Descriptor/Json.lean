import RecordQuery.Descriptor.Json
import RecordQuery.Proofs.Program.Json

/-! # Descriptors that are written and read again

A descriptor is read from the value and from the document that are written for it
(`Descriptor.reads_back`). The values for a filter and for a program are objects and arrays, never
`null`, so a part that is there is not taken for one that is missing. -/

namespace RecordQuery

open Json

theorem Json.string?_string (s : String) : string? (.string s) = some s := rfl

theorem Json.string_ne_null (s : String) : Json.string s ≠ .null := by simp

theorem Program.toJson_ne_null (p : Program) : p.toJson ≠ .null := by simp [toJson]

/-! ## Filters -/

theorem IndexCollection.ofJson?_toJson (c : IndexCollection) : ofJson? c.toJson = some c := by
  cases c <;> decide

theorem ProbeValue.ofJson?_toJson (v : ProbeValue) : ofJson? v.toJson = some v := by
  cases v with
  | integer n => exact congrArg (Option.map integer) (int64?_integer n)
  | string s => rfl

namespace Probe

theorem range?_members (low high : Int64) :
    range? (.object [("low", .integer low.toInt), ("high", .integer high.toInt)]) =
      some (range low high) := by
  simp [range?, object?, require?, int64?_integer]

theorem ofJson?_toJson (p : Probe) : ofJson? p.toJson = some p := by
  cases p with
  | equal v => exact congrArg (Option.map equal) v.ofJson?_toJson
  | contains v => exact congrArg (Option.map contains) v.ofJson?_toJson
  | range low high => exact range?_members low high
  | geoContains region => rfl
  | geoWithin region => rfl

theorem within_toJson (p : Probe) (depth : Nat) : p.toJson.Within (depth + 2) := by
  cases p with
  | equal v => cases v <;> simp [toJson, ProbeValue.toJson, alternative]
  | contains v => cases v <;> simp [toJson, ProbeValue.toJson, alternative]
  | _ => simp [toJson, alternative]

end Probe

namespace Filter

theorem ofJson?_toJson (f : Filter) : ofJson? f.toJson = some f := by
  simp [ofJson?, toJson, record?, require?, string?, f.collection.ofJson?_toJson,
    f.probe.ofJson?_toJson]

theorem toJson_ne_null (f : Filter) : f.toJson ≠ .null := by simp [toJson]

theorem within_toJson (f : Filter) (depth : Nat) : f.toJson.Within (depth + 3) := by
  simp [toJson, IndexCollection.toJson, f.probe.within_toJson]

end Filter

/-! ## Descriptors -/

theorem Projection.ofJson?_toJson (p : Projection) : ofJson? p.toJson = some p := by
  cases p with
  | allBins => decide
  | bins names =>
    exact congrArg (Option.map bins) (list?_array_map string?_string names)

namespace Descriptor

/-- Reads a document. -/
def ofText? (text : String) : Option Descriptor := (parse? text).bind ofJson?

section

variable {α : Type} {read : Json → Option α} {write : α → Json}

theorem optional?_partJson (hnull : ∀ a, write a ≠ .null) (h : ∀ a, read (write a) = some a)
    {part : Option α} {members : List (String × Json)} {name : String}
    (hm : member? members name = some (partJson write part)) :
    optional? members name read = some part := by
  cases part with
  | none => rw [optional?, hm, partJson]
  | some a =>
    rw [optional?, hm, partJson]
    split
    · next he => cases he
    · next he => exact absurd (Option.some.inj he) (hnull a)
    · next j _ he => rw [← Option.some.inj he, h, Option.map_some]

theorem within_partJson {depth : Nat} (h : ∀ a, (write a).Within depth) (part : Option α) :
    (partJson write part).Within depth := by
  cases part with
  | none => exact within_null
  | some a => exact h a

end

/-- The members of the object that is written for the descriptor. -/
def members (d : Descriptor) : List (String × Json) :=
  [("projection", d.projection.toJson), ("namespace", .string d.space),
    ("set", partJson .string d.set), ("filter", partJson Filter.toJson d.filter),
    ("predicate", partJson Program.toJson d.predicate)]

/-- A descriptor is read from the value that is written for it. -/
theorem ofJson?_toJson (d : Descriptor) : ofJson? d.toJson = some d := by
  have hprojection : require? d.members "projection" Projection.ofJson? = some d.projection := by
    simp [members, require?, d.projection.ofJson?_toJson]
  have hspace : require? d.members "namespace" string? = some d.space := by
    simp [members, require?, string?]
  have hm : member? d.members "set" = some (partJson .string d.set) := by simp [members]
  have hset : optional? d.members "set" string? = some d.set :=
    optional?_partJson string_ne_null string?_string hm
  have hfilter : optional? d.members "filter" Filter.ofJson? = some d.filter :=
    optional?_partJson Filter.toJson_ne_null Filter.ofJson?_toJson (by simp [members])
  have hpredicate : optional? d.members "predicate" Program.ofJson? = some d.predicate :=
    optional?_partJson Program.toJson_ne_null Program.ofJson?_toJson (by simp [members])
  change (do
    return ⟨← require? d.members "projection" Projection.ofJson?,
      ← require? d.members "namespace" string?, ← optional? d.members "set" string?,
      ← optional? d.members "filter" Filter.ofJson?,
      ← optional? d.members "predicate" Program.ofJson?⟩) = some d
  rw [hprojection, hspace, hset, hfilter, hpredicate]
  rfl

theorem within_toJson (d : Descriptor) (depth : Nat) : d.toJson.Within (depth + 4) := by
  have hprojection : d.projection.toJson.Within (depth + 3) := by
    cases d.projection <;> simp [Projection.toJson, alternative]
  have hset : (partJson .string d.set).Within (depth + 3) :=
    within_partJson within_string d.set
  have hfilter : (partJson Filter.toJson d.filter).Within (depth + 3) :=
    within_partJson (fun f => f.within_toJson depth) d.filter
  have hpredicate : (partJson Program.toJson d.predicate).Within (depth + 3) :=
    within_partJson (fun p => p.within_toJson depth) d.predicate
  simp [toJson, hprojection, hset, hfilter, hpredicate]

/-- A descriptor is read from the document that is written for it. -/
theorem ofText?_text (d : Descriptor) : ofText? d.toJson.text = some d := by
  rw [ofText?, parse?_text (d.within_toJson 123), Option.bind_some, d.ofJson?_toJson]

/-- Every descriptor is read as it was written, and so is one that was read from a value in
another spelling. -/
theorem reads_back :
    (∀ d : Descriptor, ofJson? d.toJson = some d ∧ ofText? d.toJson.text = some d) ∧
      ∀ (j : Json) (d : Descriptor), ofJson? j = some d →
        ofJson? d.toJson = some d ∧ ofText? d.toJson.text = some d := by
  refine ⟨fun d => ⟨d.ofJson?_toJson, d.ofText?_text⟩, ?_⟩
  intro j d _
  exact ⟨d.ofJson?_toJson, d.ofText?_text⟩

/-- A descriptor whose parts are listed in order, with `null` for a missing part, flags in any
order and flags that have no name. -/
def respelled : Json :=
  .array [.object [("AllBins", .null)], .string "ns", .null,
    .array [.string "b", .string "LIST", .object [("Range",
      .object [("high", .integer 9), ("low", .integer (-9)), ("step", .bool true)])]],
    .array [.object [("Regex", .string "NEWLINE|0x30| ICASE")],
      .object [("Meta", .object [("LastUpdate", .null)])],
      .object [("Logical", .object [("arity", .integer 2), ("op", .string "And")])]]]

/-- The descriptor that `respelled` stands for. -/
def plain : Descriptor :=
  ⟨.allBins, "ns", none, some ⟨"b", .list, .range (-9) 9⟩,
    some [.regex ⟨false, true, false, true, 3⟩, .metadata .lastUpdate, .logical .and 2]⟩

theorem reads_back_respelled :
    ofJson? respelled = some plain ∧
      ofJson? plain.toJson = some plain ∧ ofText? plain.toJson.text = some plain := by
  have h : ofJson? respelled = some plain := by decide +kernel
  exact ⟨h, reads_back.2 respelled plain h⟩

end Descriptor

end RecordQuery
