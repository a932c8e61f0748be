/-! # Hexadecimal digits

Letters are read in both cases and written in lower case. -/

namespace RecordQuery.Text

/-- The value of a hexadecimal digit. -/
def hexDigitValue? (c : Char) : Option Nat :=
  if '0' ≤ c ∧ c ≤ '9' then some (c.toNat - '0'.toNat)
  else if 'a' ≤ c ∧ c ≤ 'f' then some (c.toNat - 'a'.toNat + 10)
  else if 'A' ≤ c ∧ c ≤ 'F' then some (c.toNat - 'A'.toNat + 10)
  else none

/-- The number `n` in hexadecimal digits. -/
def hexDigits (n : Nat) : List Char := Nat.toDigits 16 n

/-- A digit that is written is read as its value. -/
theorem hexDigitValue?_digitChar {n : Nat} (h : n < 16) :
    hexDigitValue? (Nat.digitChar n) = some n := by
  revert n
  decide

end RecordQuery.Text
