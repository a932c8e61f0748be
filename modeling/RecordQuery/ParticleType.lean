import RecordQuery.Text.Uppercase

/-! # Types of stored values

The type of a value in a bin, as the store counts it and as a schema names it. A name is read
in any case, and some types have more than one. -/

namespace RecordQuery

open Text

/-- The type of a stored value. -/
inductive ParticleType
  | integer | double | string | geoJson | map | list
deriving DecidableEq

namespace ParticleType

/-- All types. -/
def all : List ParticleType := [integer, double, string, geoJson, map, list]

/-- The name of the type. -/
def text : ParticleType → String
  | integer => "INTEGER"
  | double => "DOUBLE"
  | string => "STRING"
  | geoJson => "GEOJSON"
  | map => "MAP"
  | list => "LIST"

/-- The number that the store has for the type. -/
def id : ParticleType → Nat
  | integer => 1
  | double => 2
  | string => 3
  | map => 19
  | list => 20
  | geoJson => 23

/-- The type that has the number `n` in the store. -/
def ofId? (n : Nat) : Option ParticleType :=
  all.find? fun t => t.id == n

/-- All names of the type, in upper case. -/
def names : ParticleType → List String
  | integer => ["INTEGER", "INT", "LONG"]
  | double => ["DOUBLE", "FLOAT"]
  | string => ["STRING", "TEXT"]
  | geoJson => ["GEOJSON"]
  | map => ["MAP"]
  | list => ["LIST"]

/-- The type named `s`, in any case. -/
def ofText? (s : String) : Option ParticleType :=
  all.find? fun t => t.names.contains (uppercase s)

/-- Whether values of the type are numbers. -/
def isNumeric : ParticleType → Bool
  | integer | double => true
  | _ => false

/-- Whether values of the type hold other values. -/
def isCollection : ParticleType → Bool
  | list | map => true
  | _ => false

theorem ofId?_id (t : ParticleType) : ofId? t.id = some t := by
  cases t <;> decide

end ParticleType

end RecordQuery
