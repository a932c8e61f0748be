import RecordQuery.Decimal.Basic

/-! # The nearest double

A double has a significand of 53 bits. The double nearest to a number is found in exact
arithmetic: the number is divided by the value of its last bit and rounded to an integer, a
tie going to the even neighbour.

The exponent of a double is taken as unbounded here. The true bounds matter for numbers above
`2 ^ 1024` and below `2 ^ -1021` only, and neither have an integer part that fits a word. -/

namespace RecordQuery

/-- The number `significand * 2 ^ exponent`. -/
structure Binary where
  significand : Nat
  exponent : Int
deriving DecidableEq

/-- The integer nearest to `num / den`; a tie goes to the even neighbour. -/
def roundDiv (num den : Nat) : Nat :=
  let q := num / den
  let r := num % den
  if 2 * r < den then q
  else if den < 2 * r then q + 1
  else if q % 2 = 0 then q else q + 1

/-- The exponent `e` for which `num / den` lies from `2 ^ e` up to, but not including,
`2 ^ (e + 1)`. -/
def binaryExponent (num den : Nat) : Int :=
  if den ≤ num then (num / den).log2 else -(((den - 1) / num).log2 + 1 : Nat)

namespace Binary

/-- The number of bits of a significand. -/
def precision : Nat := 53

/-- The nearest double to the positive number `num / den`. -/
def nearest (num den : Nat) : Binary :=
  let last := binaryExponent num den - (precision - 1)
  if 0 ≤ last then ⟨roundDiv num (den <<< last.toNat), last⟩
  else ⟨roundDiv (num <<< (-last).toNat) den, last⟩

/-- The integer part. -/
def floor (b : Binary) : Nat :=
  if 0 ≤ b.exponent then b.significand <<< b.exponent.toNat
  else b.significand >>> (-b.exponent).toNat

end Binary

namespace Decimal

/-- The integer part of the double nearest to the decimal, cut off toward zero. -/
def truncate (d : Decimal) : Int :=
  if d.mantissa = 0 then 0
  else
    let magnitude :=
      if 0 ≤ d.exponent then Binary.nearest (d.mantissa * Nat.pow 10 d.exponent.toNat) 1
      else Binary.nearest d.mantissa (Nat.pow 10 (-d.exponent).toNat)
    if d.negative then -(magnitude.floor : Int) else magnitude.floor

end Decimal

end RecordQuery
