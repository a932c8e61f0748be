import RecordQuery.Text.Uppercase

/-! # What an index is built over

A secondary index is built over the values of a bin, or over the parts of the collections
that a bin holds. -/

namespace RecordQuery

open Text

/-- The part of a bin that an index is built over. -/
inductive IndexCollection
  | scalar | list | mapKeys | mapValues
deriving DecidableEq

namespace IndexCollection

/-- All parts. -/
def all : List IndexCollection := [scalar, list, mapKeys, mapValues]

/-- The name of the part. -/
def text : IndexCollection → String
  | scalar => "DEFAULT"
  | list => "LIST"
  | mapKeys => "MAPKEYS"
  | mapValues => "MAPVALUES"

/-- The part named `s`, in any case. -/
def ofText? (s : String) : Option IndexCollection :=
  all.find? fun c => c.text == uppercase s

end IndexCollection

end RecordQuery
