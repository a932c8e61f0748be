import RecordQuery.Text.Position

/-! # Compile errors

Why a statement has no descriptor. The first cause that is met is told. -/

namespace RecordQuery

open Text

/-- The causes that keep a statement from being compiled. An index counts the entries of the
WHERE clause from 0. -/
inductive CompileError
  | mismatchedParentheses (index : Nat)
  | expectedGeoJsonCast (found : String)
  | unsupportedPredicate (predicate : String) (position : Position)
  | unsupportedIndexExpression (expression : String) (position : Position)
  | invalidNumber (text : String)
  | unsupportedBinType (bin type : String)
deriving DecidableEq

/-- The words of a cause. -/
def CompileError.message : CompileError → String
  | mismatchedParentheses index =>
    "mismatched parentheses at WHERE token #" ++ toString index
  | expectedGeoJsonCast found => "expected GEOJSON type cast, got " ++ found
  | unsupportedPredicate predicate p =>
    "unsupported predicate: " ++ predicate ++ " at " ++ p.text
  | unsupportedIndexExpression expression p =>
    "unsupported index expression: " ++ expression ++ " at " ++ p.text
  | invalidNumber text => "invalid numeric literal '" ++ text ++ "'"
  | unsupportedBinType bin type =>
    "bin '" ++ bin ++ "' of type " ++ type ++ " cannot be used here"

end RecordQuery
