import RecordQuery.IndexCollection
import RecordQuery.Text.Quoted

/-! # Filters

A filter asks a secondary index for the records to look at. -/

namespace RecordQuery

open Text

/-- The value that an index is asked for. -/
inductive ProbeValue
  | integer (n : Int64)
  | string (s : String)
deriving DecidableEq

/-- The value as it is written. -/
def ProbeValue.text : ProbeValue → String
  | integer n => toString n.toInt
  | string s => singleQuoted s

/-- How an index is asked. -/
inductive Probe
  | equal (v : ProbeValue)
  | contains (v : ProbeValue)
  | range (low high : Int64)
  | geoContains (region : String)
  | geoWithin (region : String)
deriving DecidableEq

/-- A question to the index over a bin. -/
structure Filter where
  bin : String
  collection : IndexCollection
  probe : Probe
deriving DecidableEq

namespace Filter

/-- A region in a filter. It stands between quotes as it is. -/
def regionText (region : String) : String := "CAST('" ++ region ++ "' AS GEOJSON)"

/-- The question as it is printed. -/
def text (f : Filter) : String :=
  let collection := if f.collection = .scalar then "" else f.collection.text ++ " "
  collection ++ f.bin ++ match f.probe with
    | .equal v => " = " ++ v.text
    | .contains v => " CONTAINS " ++ v.text
    | .range low high => " BETWEEN " ++ toString low.toInt ++ " AND " ++ toString high.toInt
    | .geoContains region => " CONTAINS " ++ regionText region
    | .geoWithin region => " WITHIN " ++ regionText region

end Filter

end RecordQuery
