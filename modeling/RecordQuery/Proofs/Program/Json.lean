import RecordQuery.Program.Json
import RecordQuery.Proofs.Json.Printing
import RecordQuery.Proofs.Program.PatternFlags

/-! # Programs that are written and read again

Each part of an instruction is read in JSON as it was written, and so is a program of any length
(`Program.ofJson?_toJson`). What is written of an instruction nests two levels deep at most. -/

namespace RecordQuery

open Json

namespace Json

theorem int64?_integer (n : Int64) : int64? (.integer n.toInt) = some n := word64?_toInt n

theorem int32?_integer (n : Int32) : int32? (.integer n.toInt) = some n := word32?_toInt n

theorem uint64?_integer (n : UInt64) : uint64? (.integer n.toNat) = some n := by
  rw [uint64?, integer?, Option.bind_some, unsignedWord64?_toNat]

end Json

/-! ## Kinds, relations and literals -/

theorem OperandKind.ofJson?_toJson (k : OperandKind) : ofJson? k.toJson = some k := by
  cases k <;> decide

/-- Each kind of value has a member of its own, so none is read as another. -/
theorem Value.ofJson?_toJson (v : Value) : ofJson? v.toJson = some v := by
  cases v with
  | integer n => exact congrArg (Option.map integer) (int64?_integer n)
  | string s => rfl
  | geoJson s => rfl

theorem Metadata.ofJson?_toJson (m : Metadata) : ofJson? m.toJson = some m := by
  cases m with
  | digestModulo n => exact congrArg (Option.map digestModulo) (int32?_integer n)
  | lastUpdate => rfl
  | deviceSize => rfl
  | voidTime => rfl

theorem Equality.ofJson?_jsonName (op : Equality) : ofJson? (.string op.jsonName) = some op := by
  cases op <;> decide

theorem Comparison.ofJson?_jsonName (op : Comparison) :
    ofJson? (.string op.jsonName) = some op := by
  cases op <;> decide

theorem RegionRelation.ofJson?_jsonName (r : RegionRelation) :
    ofJson? (.string r.jsonName) = some r := by
  cases r <;> decide

theorem CollectionPart.ofJson?_jsonName (p : CollectionPart) :
    ofJson? (.string p.jsonName) = some p := by
  cases p <;> decide

theorem Quantifier.ofJson?_text (q : Quantifier) : ofJson? (.string q.text) = some q := by
  cases q <;> decide

theorem Connective.ofJson?_jsonName (c : Connective) : ofJson? (.string c.jsonName) = some c := by
  cases c <;> decide

/-! ## Instructions -/

namespace Instruction

theorem namedValue?_members (make : String → OperandKind → Instruction) (name : String)
    (kind : OperandKind) :
    namedValue? make (.object [("name", .string name), ("kind", kind.toJson)]) =
      some (make name kind) := by
  simp [namedValue?, object?, require?, string?, kind.ofJson?_toJson]

/-- An equality is told by its relation and by how its literal was written. -/
theorem equality?_members (op : Equality) (kind : OperandKind) :
    equality? (.object [("op", .string op.jsonName), ("kind", kind.toJson)]) =
      some (equality op kind) := by
  simp [equality?, object?, require?, op.ofJson?_jsonName, kind.ofJson?_toJson]

theorem iterate?_members (part : CollectionPart) (quantifier : Quantifier) (name : String) :
    iterate? (.object [("collection", .string part.jsonName), ("mode", .string quantifier.text),
      ("var", .string name)]) = some (iterate part quantifier name) := by
  simp [iterate?, object?, require?, string?, part.ofJson?_jsonName,
    quantifier.ofJson?_text]

/-- The arity of a connective is read as it is written, right or wrong. -/
theorem logical?_members (op : Connective) {j : Json} {arity : UInt64}
    (h : uint64? j = some arity) :
    logical? (.object [("op", .string op.jsonName), ("arity", j)]) = some (logical op arity) := by
  simp [logical?, object?, require?, op.ofJson?_jsonName, h]

/-- An instruction is read as it was written. -/
theorem ofJson?_toJson (i : Instruction) : ofJson? i.toJson = some i := by
  cases i with
  | bin name kind => exact namedValue?_members bin name kind
  | element name kind => exact namedValue?_members element name kind
  | value v => exact congrArg (Option.map value) v.ofJson?_toJson
  | metadata m => exact congrArg (Option.map metadata) m.ofJson?_toJson
  | equality op kind => exact equality?_members op kind
  | comparison op => exact congrArg (Option.map comparison) op.ofJson?_jsonName
  | geo r => exact congrArg (Option.map geo) r.ofJson?_jsonName
  | regex flags => exact congrArg (Option.map regex) flags.ofText?_text
  | iterate part quantifier name => exact iterate?_members part quantifier name
  | logical op arity => exact logical?_members op (uint64?_integer arity)

theorem within_toJson (i : Instruction) (depth : Nat) : i.toJson.Within (depth + 2) := by
  cases i with
  | value v => cases v <;> simp [toJson, Value.toJson, alternative]
  | metadata m => cases m <;> simp [toJson, Metadata.toJson, alternative]
  | _ => simp [toJson, alternative, OperandKind.toJson]

end Instruction

/-! ## Programs -/

namespace Json

theorem list?_array_map {α : Type} {read : Json → Option α} {write : α → Json}
    (h : ∀ a, read (write a) = some a) (as : List α) :
    (array (as.map write)).list? read = some as := by
  have hread : read ∘ write = fun a => pure a := funext h
  change (as.map write).mapM read = some as
  rw [List.mapM_map, hread, List.mapM_pure, List.map_id']
  rfl

end Json

namespace Program

theorem ofJson?_toJson (p : Program) : ofJson? (toJson p) = some p :=
  list?_array_map Instruction.ofJson?_toJson p

theorem within_toJson (p : Program) (depth : Nat) : (toJson p).Within (depth + 3) := by
  intro j hj
  obtain ⟨i, -, rfl⟩ := List.mem_map.mp hj
  exact i.within_toJson depth

end Program

end RecordQuery
