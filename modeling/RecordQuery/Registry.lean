import RecordQuery.Compiler

/-! # Compilers and their registry

A compiler is an object with a schema of its own. A registry hands compilers out: one and the
same for equal schemas, unless one is asked for that is shared with nobody. Compilers are told
apart by the number under which they were made. -/

namespace RecordQuery

/-- A compiler for a schema. -/
structure Compiler where
  number : Nat
  schema : Schema
deriving DecidableEq

/-- The descriptor of the statement that a text is. -/
def Compiler.compile (c : Compiler) (text : String) : Except QueryError Descriptor :=
  RecordQuery.compile c.schema text

/-- The compilers that are shared, and the number of compilers made so far. -/
structure Registry where
  shared : List Compiler
  made : Nat
deriving DecidableEq

namespace Registry

/-- The registry before the first compiler. -/
def empty : Registry := ⟨[], 0⟩

/-- Makes a compiler that is shared with nobody. -/
def standalone (r : Registry) (schema : Schema) : Compiler × Registry :=
  (⟨r.made, schema⟩, { r with made := r.made + 1 })

/-- Hands out the compiler that all share who ask for an equal schema. -/
def acquire (r : Registry) (schema : Schema) : Compiler × Registry :=
  match r.shared.find? (·.schema == schema) with
  | some c => (c, r)
  | none =>
    let c : Compiler := ⟨r.made, schema⟩
    (c, ⟨r.shared ++ [c], r.made + 1⟩)

/-- Hands out the compiler for a schema to a caller who looks for it twice: in the registry as it
was `seen` while others might read it too, and if there was none, in the registry as it is now. -/
def acquireLooked (seen r : Registry) (schema : Schema) : Compiler × Registry :=
  match seen.shared.find? (·.schema == schema) with
  | some c => (c, r)
  | none => r.acquire schema

end Registry

end RecordQuery
