import RecordQuery.Filter.Basic
import RecordQuery.Program.Basic

/-! # Descriptors

A descriptor is what the store is given for a statement: what to return of which records, a
filter for an index, and a program that checks each record. -/

namespace RecordQuery

/-- What is returned of each record. -/
inductive Projection
  | allBins
  | bins (names : List String)
deriving DecidableEq

/-- The names of the bins, unless all are returned. -/
def Projection.binNames? : Projection → Option (List String)
  | allBins => none
  | bins names => some names

/-- The projection as it is printed. -/
def Projection.text : Projection → String
  | allBins => "*"
  | bins names => ", ".intercalate names

/-- A query as the store takes it. -/
structure Descriptor where
  projection : Projection
  space : String
  set : Option String
  filter : Option Filter
  predicate : Option Program
deriving DecidableEq

namespace Descriptor

/-- The qualified name of the source. -/
def source (d : Descriptor) : String :=
  match d.set with
  | some set => d.space ++ "." ++ set
  | none => d.space

/-- The query as it is printed. -/
def text (d : Descriptor) : String :=
  let filter := match d.filter with
    | some f => " WITH " ++ f.text
    | none => ""
  let predicate := match d.predicate with
    | some p => " PREDICATE [" ++ p.text ++ "]"
    | none => ""
  "SELECT " ++ d.projection.text ++ " FROM " ++ d.source ++ filter ++ predicate

end Descriptor

end RecordQuery
