import RecordQuery.IndexCollection
import RecordQuery.ParticleType

/-! # Unknown names

What to say where a name should be that of a type or of an index collection, and is not. -/

namespace RecordQuery

/-- A name that stands for nothing. -/
inductive UnknownName
  | particleType (name : String)
  | indexCollection (name : String)
deriving DecidableEq

/-- The words for an unknown name. -/
def UnknownName.message : UnknownName → String
  | particleType name => "unknown particle type '" ++ name ++ "'"
  | indexCollection name => "unknown index collection type '" ++ name ++ "'"

/-- The type named `s`, in any case. -/
def ParticleType.ofName (s : String) : Except UnknownName ParticleType :=
  match ofText? s with
  | some t => .ok t
  | none => .error (.particleType s)

/-- The index collection named `s`, in any case. -/
def IndexCollection.ofName (s : String) : Except UnknownName IndexCollection :=
  match ofText? s with
  | some c => .ok c
  | none => .error (.indexCollection s)

end RecordQuery
