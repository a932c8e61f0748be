import RecordQuery.Decimal.Truncation
import RecordQuery.Proofs.Decimal.Numeral

/-! # The word that is read from a number

A number is to be cut off toward zero. Its text is read as an integer if it is written as one.
Otherwise the number is rounded to a double before it is cut off, which gives the same word just if
the nearest double has the same integer part (`WrittenNumber.wordOfText?_text_iff`). -/

namespace RecordQuery

open Text Decimal Binary

/-- The number, cut off toward zero. -/
def integerPart (q : ℚ) : ℤ := if q < 0 then ⌈q⌉ else ⌊q⌋

/-! ## Words -/

theorem map_toInt_word64? {n : ℤ} (hl : -2 ^ 63 ≤ n) (hu : n < 2 ^ 63) (m : ℤ) :
    (word64? m).map Int64.toInt = some n ↔ m = n := by
  unfold word64?
  rw [Int64.toInt_minValue, Int64.toInt_maxValue]
  split
  · next h =>
    rw [Option.map_some, Int64.toInt_ofInt_of_le h.1 (Int.lt_of_le_sub_one h.2), Option.some.injEq]
  · next h =>
    refine iff_of_false (by simp) ?_
    rintro rfl
    exact h ⟨hl, Int.le_sub_one_of_lt hu⟩

namespace WrittenNumber

variable (n : WrittenNumber)

/-! ## The parts of a number -/

theorem magnitude_nonneg : 0 ≤ n.magnitude := by
  unfold magnitude base
  cases n.fraction with
  | none => simp only [Option.elim_none]; positivity
  | some cs => simp only [Option.elim_some]; positivity

theorem integerPart_value :
    integerPart n.value = if n.negative then -⌊n.magnitude⌋ else ⌊n.magnitude⌋ := by
  have h := n.magnitude_nonneg
  unfold value integerPart
  cases n.negative with
  | false => simp [not_lt.mpr h]
  | true =>
    rcases h.eq_or_lt with h | h
    · simp [← h]
    · simp [h, Int.ceil_neg]

theorem magnitude_of_isInteger (h : n.IsInteger) : n.magnitude = digitsValue n.whole := by
  simp [magnitude, base, h.1, h.2]

/-- An exponent that is not that large is read as it is written. -/
theorem read_eq (h : ∀ e ∈ n.exponent, digitsValue e.digits < 10 * 2 ^ 16) :
    n.exponent.elim 0 (·.read) = n.exponent.elim 0 (·.value) := by
  cases he : n.exponent with
  | none => rfl
  | some e => simp [WrittenExponent.read, WrittenExponent.value, exponentValue_eq (h e he)]

theorem readMagnitude_eq (h : ∀ e ∈ n.exponent, digitsValue e.digits < 10 * 2 ^ 16) :
    n.readMagnitude = n.magnitude := by
  rw [readMagnitude, n.read_eq h, magnitude]

/-! ## Reading -/

theorem wordOfText?_text_of_isInteger (h : n.IsInteger) (hl : -2 ^ 63 ≤ integerPart n.value)
    (hu : integerPart n.value < 2 ^ 63) :
    (wordOfText? n.text).map Int64.toInt = some (integerPart n.value) := by
  have hpart := n.integerPart_value
  rw [n.magnitude_of_isInteger h, Int.floor_natCast] at hpart
  obtain ⟨w, hw, hn⟩ := Option.map_eq_some_iff.mp ((map_toInt_word64? hl hu _).mpr rfl)
  simp only [wordOfText?, trim_text, integer?_text n h, Option.bind_some, ← hpart, hw]
  exact congrArg some hn

theorem wordOfText?_text_of_not_isInteger (h : ¬ n.IsInteger) :
    wordOfText? n.text = word64? n.decimal.truncate := by
  simp only [wordOfText?, trim_text, integer?_text_eq_none n h, Option.bind_none, ofChars?_text]

/-- A number is read as its integer part just if it is written as an integer, or the double nearest
to it has the same integer part. -/
theorem wordOfText?_text_iff (hl : -2 ^ 63 ≤ integerPart n.value)
    (hu : integerPart n.value < 2 ^ 63) :
    (wordOfText? n.text).map Int64.toInt = some (integerPart n.value) ↔
      n.IsInteger ∨ ∃ x, IsNearest n.readMagnitude x ∧ ⌊x⌋ = ⌊n.magnitude⌋ := by
  by_cases h : n.IsInteger
  · exact iff_of_true (n.wordOfText?_text_of_isInteger h hl hu) (.inl h)
  obtain ⟨x, hx, ht⟩ := n.decimal.exists_isNearest
  rw [magnitude_decimal] at hx
  have hpart : n.decimal.truncate = integerPart n.value ↔ ⌊x⌋ = ⌊n.magnitude⌋ := by
    rw [ht, integerPart_value, show n.decimal.negative = n.negative from rfl]
    cases n.negative <;> simp
  rw [n.wordOfText?_text_of_not_isInteger h, map_toInt_word64? hl hu, hpart, or_iff_right h]
  constructor
  · exact fun he => ⟨x, hx, he⟩
  · rintro ⟨y, hy, he⟩
    rwa [hx.unique hy]

/-- A number whose digits make an integer below `2 ^ 53`, and whose exponent does not move the point
past the last of them, is read as its integer part. -/
theorem wordOfText?_text_of_lt (hm : digitsValue (n.whole ++ n.fraction.getD []) < 2 ^ precision)
    (he : ∀ e ∈ n.exponent, digitsValue e.digits < 10 * 2 ^ 16)
    (hp : n.exponent.elim 0 (·.value) ≤ (n.fraction.getD []).length) :
    (wordOfText? n.text).map Int64.toInt = some (integerPart n.value) := by
  have hmag : n.decimal.magnitude = n.magnitude := n.magnitude_decimal.trans (n.readMagnitude_eq he)
  have hexp : n.decimal.exponent ≤ 0 := by
    rw [decimal, n.read_eq he]
    exact sub_nonpos.mpr hp
  obtain ⟨j, hj⟩ := Int.eq_ofNat_of_zero_le (neg_nonneg.mpr hexp)
  have hq : n.decimal.magnitude = (n.decimal.mantissa : ℚ) / (10 ^ j : Nat) := by
    rw [Decimal.magnitude, ← neg_neg n.decimal.exponent, hj, zpow_neg, zpow_natCast, div_eq_mul_inv]
    push_cast
    rfl
  have hle : ⌊n.magnitude⌋ ≤ n.decimal.mantissa := by
    rw [← hmag, hq]
    exact_mod_cast Nat.div_le_self _ _
  have h₀ : 0 ≤ ⌊n.magnitude⌋ := Int.floor_nonneg.mpr n.magnitude_nonneg
  have hlt : n.decimal.mantissa < 2 ^ 53 := hm
  have hpart := n.integerPart_value
  refine (n.wordOfText?_text_iff ?_ ?_).mpr (.inr ?_)
  · split at hpart <;> omega
  · split at hpart <;> omega
  · obtain ⟨x, hx, -⟩ := n.decimal.exists_isNearest
    refine ⟨x, n.magnitude_decimal ▸ hx, ?_⟩
    rw [hq] at hx
    rw [← hmag, hq]
    exact hx.floor_eq hm (Nat.pow_pos (by decide))

end WrittenNumber

/-- The numbers of a statement are plain (`NumberLiteral.SpelledBy.isPlain`). A plain number is a
written one, and is read as its integer part just in the cases that are named: it is written as an
integer, or the nearest double has the same integer part. -/
theorem NumberLiteral.IsPlain.wordOfText?_eq_iff {l : NumberLiteral} (h : l.IsPlain) :
    (∃ n : WrittenNumber, l.text = n.text) ∧
    ∀ n : WrittenNumber, l.text = n.text →
      -2 ^ 63 ≤ integerPart n.value → integerPart n.value < 2 ^ 63 →
      ((wordOfText? l.text).map Int64.toInt = some (integerPart n.value) ↔
        n.IsInteger ∨ ∃ x, IsNearest n.readMagnitude x ∧ ⌊x⌋ = ⌊n.magnitude⌋) := by
  refine ⟨h.exists_writtenNumber, fun n hn hl hu => ?_⟩
  rw [hn]
  exact n.wordOfText?_text_iff hl hu

/-- The number `12.5e1`. -/
def WrittenNumber.tenfold : WrittenNumber :=
  ⟨false, ['1', '2'], some ['5'], some ⟨'e', [], ['1'], .inl rfl, .inl rfl, by decide⟩, by decide,
    by decide⟩

theorem NumberLiteral.IsPlain.wordOfText?_tenfold :
    NumberLiteral.IsPlain ⟨"12.5e1", .forgotten⟩ ∧ integerPart WrittenNumber.tenfold.value = 125 ∧
    ∃ x, IsNearest WrittenNumber.tenfold.readMagnitude x ∧ ⌊x⌋ = 125 := by
  have hspelled := @NumberLiteral.SpelledBy.unsigned ⟨.float, "12.5e1", .start⟩ rfl
  have hplain := hspelled.isPlain (c := .ofString "12.5e1") (by decide +kernel)
  have h : NumberLiteral.IsPlain ⟨"12.5e1", .forgotten⟩ := hplain
  have hm : WrittenNumber.tenfold.magnitude = 125 := by
    have h₁ : digitsValue ['1', '2'] = 12 := rfl
    have h₂ : digitsValue ['5'] = 5 := rfl
    have h₃ : digitsValue ['1'] = 1 := rfl
    norm_num [WrittenNumber.magnitude, WrittenNumber.base, WrittenNumber.tenfold,
      WrittenExponent.value, WrittenExponent.signed, h₁, h₂, h₃]
  have hv : integerPart WrittenNumber.tenfold.value = 125 := by
    rw [WrittenNumber.integerPart_value, hm]
    norm_num [WrittenNumber.tenfold]
  have hw : (wordOfText? "12.5e1").map Int64.toInt = some 125 := by decide +kernel
  have hi : ¬ WrittenNumber.tenfold.IsInteger := fun h => Option.some_ne_none _ h.1
  have := (h.wordOfText?_eq_iff.2 WrittenNumber.tenfold (by decide) (by rw [hv]; decide)
    (by rw [hv]; decide)).mp (by rw [hv]; exact hw)
  obtain ⟨x, hx, hf⟩ := this.resolve_left hi
  exact ⟨h, hv, x, hx, hf.trans (by rw [hm]; norm_num)⟩

/-- The number `0.99999999999999999999`. -/
def WrittenNumber.nines : WrittenNumber :=
  ⟨false, ['0'], some (List.replicate 20 '9'), none, by decide, by decide⟩

/-- A number that is too near to one is read as one, though its integer part is zero. -/
theorem WrittenNumber.wordOfText?_nines :
    NumberLiteral.IsPlain ⟨nines.text, .forgotten⟩ ∧ integerPart nines.value = 0 ∧
      (wordOfText? nines.text).map Int64.toInt = some 1 := by
  refine ⟨⟨_, ⟨⟨.float, nines.text, .start⟩, by decide +kernel, rfl, rfl⟩, .inl rfl⟩, ?_,
    by decide +kernel⟩
  have h₀ : digitsValue ['0'] = 0 := rfl
  have h₉ : digitsValue (List.replicate 20 '9') = 10 ^ 20 - 1 := by decide +kernel
  rw [integerPart_value]
  norm_num [magnitude, base, nines, h₀, h₉]

end RecordQuery
