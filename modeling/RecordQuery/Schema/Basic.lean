import RecordQuery.Dictionary
import RecordQuery.ParticleType

/-! # Schemas

A schema knows the types of the bins of each source, by the source's qualified name. The type
of the variable that walks over a collection is kept under the name of the bin and that of the
variable, with a point between them. -/

namespace RecordQuery

/-- The types of the bins of one source. -/
abbrev TypeTable := Dictionary ParticleType

/-- The types of the bins of all sources. -/
structure Schema where
  sources : Dictionary TypeTable
deriving DecidableEq

namespace Schema

/-- The schema that knows no source. -/
def empty : Schema := ⟨.empty⟩

/-- The types of the bins of a source. -/
def typeTable? (s : Schema) (source : String) : Option TypeTable := s.sources.get? source

/-- The type of a bin of a source. -/
def typeOf? (s : Schema) (source bin : String) : Option ParticleType :=
  (s.typeTable? source).bind (·.get? bin)

/-- The names of the sources, in order. -/
def sourceNames (s : Schema) : List String := s.sources.names

/-- The number of sources. -/
def size (s : Schema) : Nat := s.sources.size

/-- Whether the schema knows no source. -/
def isEmpty (s : Schema) : Bool := s.size == 0

/-- The schema with the type of a bin set. -/
def add (s : Schema) (source bin : String) (type : ParticleType) : Schema :=
  ⟨s.sources.insert source (((s.typeTable? source).getD .empty).insert bin type)⟩

/-- The name under which the type of a variable is kept. -/
def variableName (bin element : String) : String := bin ++ "." ++ element

/-- The schema with the type of a variable set. -/
def addVariable (s : Schema) (source bin element : String) (type : ParticleType) : Schema :=
  s.add source (variableName bin element) type

/-- A source with its bins and their types. -/
def sourceText (source : String × TypeTable) : String :=
  source.1 ++ "("
    ++ ", ".intercalate (source.2.entries.map fun bin => bin.1 ++ " " ++ bin.2.text) ++ ")"

/-- The sources, a line each. -/
def text (s : Schema) : String := "\n".intercalate (s.sources.entries.map sourceText)

end Schema

end RecordQuery
