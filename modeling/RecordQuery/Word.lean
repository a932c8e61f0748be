/-! # Words

The integers that the store counts in. A word has the range of its size; an integer outside
of that range is no word. -/

namespace RecordQuery

/-- The word of 64 bits with a sign that has the value `n`. -/
def word64? (n : Int) : Option Int64 :=
  if Int64.minValue.toInt ≤ n ∧ n ≤ Int64.maxValue.toInt then some (.ofInt n) else none

/-- The word of 32 bits with a sign that has the value `n`. -/
def word32? (n : Int) : Option Int32 :=
  if Int32.minValue.toInt ≤ n ∧ n ≤ Int32.maxValue.toInt then some (.ofInt n) else none

/-- The word of 64 bits without a sign that has the value `n`. -/
def unsignedWord64? (n : Int) : Option UInt64 :=
  if 0 ≤ n ∧ n < UInt64.size then some (.ofNat n.toNat) else none

/-! ## Every word is the word of its value -/

theorem word64?_toInt (n : Int64) : word64? n.toInt = some n := by
  rw [word64?, if_pos ⟨n.minValue_le_toInt, n.toInt_le⟩, Int64.ofInt_toInt]

theorem word32?_toInt (n : Int32) : word32? n.toInt = some n := by
  rw [word32?, if_pos ⟨n.minValue_le_toInt, n.toInt_le⟩, Int32.ofInt_toInt]

theorem unsignedWord64?_toNat (n : UInt64) : unsignedWord64? n.toNat = some n := by
  have hn : (n.toNat : Int) < UInt64.size := Int.ofNat_lt.mpr n.toNat_lt_size
  rw [unsignedWord64?, if_pos ⟨Int.natCast_nonneg _, hn⟩, Int.toNat_natCast, UInt64.ofNat_toNat]

end RecordQuery
