import RecordQuery.Text.Blank

/-! # Decimal numerals

The texts that stand for a number: an integer with a sign, or a decimal with a point, an
exponent, or both, and the words for what is no finite number. A sign may be plus or minus, and
digits are needed on one side of the point only. -/

namespace RecordQuery

/-- The number `± mantissa * 10 ^ exponent`. -/
structure Decimal where
  negative : Bool
  mantissa : Nat
  exponent : Int
deriving DecidableEq

/-- What a numeral stands for. -/
inductive Numeral
  | finite (d : Decimal)
  | infinite (negative : Bool)
  | notANumber
deriving DecidableEq

namespace Decimal

/-- The value of a digit. -/
def digitValue (c : Char) : Nat := c.toNat - '0'.toNat

/-- The value of decimal digits. -/
def digitsValue (cs : List Char) : Nat :=
  cs.foldl (fun n c => 10 * n + digitValue c) 0

/-- The value of the digits of an exponent. Once it has reached `2 ^ 16`, further digits are
passed over. -/
def exponentValue (cs : List Char) : Nat :=
  cs.foldl (fun n c => if n < 0x10000 then 10 * n + digitValue c else n) 0

/-- Whether a text begins with a minus sign, and the text behind its sign. -/
def takeSign : List Char → Bool × List Char
  | '-' :: cs => (true, cs)
  | '+' :: cs => (false, cs)
  | cs => (false, cs)

/-- The integer that a text of digits with an optional sign stands for. -/
def integer? (cs : List Char) : Option Int :=
  let (negative, digits) := takeSign cs
  if digits.isEmpty || !digits.all Char.isDigit then none
  else some (if negative then -(digitsValue digits : Int) else digitsValue digits)

/-- The digits behind a point at the start of a text, and the text behind them. -/
def takeFraction : List Char → List Char × List Char
  | '.' :: cs => (cs.takeWhile Char.isDigit, cs.dropWhile Char.isDigit)
  | cs => ([], cs)

/-- The exponent that is all of a text; nothing is the exponent zero. -/
def exponent? : List Char → Option Int
  | [] => some 0
  | c :: cs =>
    let (negative, digits) := takeSign cs
    if (c == 'e' || c == 'E') && !digits.isEmpty && digits.all Char.isDigit then
      some (if negative then -(exponentValue digits : Int) else exponentValue digits)
    else
      none

/-- The decimal that a text without a sign stands for. -/
def unsigned? (negative : Bool) (cs : List Char) : Option Decimal :=
  let whole := cs.takeWhile Char.isDigit
  let (fraction, rest) := takeFraction (cs.dropWhile Char.isDigit)
  if (whole ++ fraction).isEmpty then none
  else (exponent? rest).map fun e =>
    ⟨negative, digitsValue (whole ++ fraction), e - fraction.length⟩

end Decimal

namespace Numeral

/-- What a text stands for as a number. The words are read in any ASCII case. -/
def ofChars? (cs : List Char) : Option Numeral :=
  let (negative, cs) := Decimal.takeSign cs
  match Decimal.unsigned? negative cs with
  | some d => some (finite d)
  | none =>
    let word := String.ofList (cs.map Char.toLower)
    if word = "inf" ∨ word = "infinity" then some (infinite negative)
    else if word = "nan" then some notANumber
    else none

end Numeral

end RecordQuery
