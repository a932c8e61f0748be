import RecordQuery.Program.Fragment
import RecordQuery.Proofs.Decimal.Truncation

/-! # Integers at the ends of the range

A text of digits, with a sign or without, is read as the word of its value, and refused if there
is no such word, with one exception (`WrittenInteger.readWord_text_iff`). An integer that is no word
is tried as a double, and a double that is no word is refused. Above the range that makes no
difference: the least integer there is a double, so nothing is rounded below it. The greatest
double below the range is farther away: what is not nearer to it than to the least word is rounded
to the least word, and read as that. -/

namespace RecordQuery

open Text Decimal Binary

/-! ## Doubles at the ends of the range -/

namespace Binary

/-- Rounding does not pass a double. -/
theorem IsNearest.le_of_isDouble {a x z : ℚ} (h : IsNearest a x) (hz : IsDouble z) (hza : z ≤ a) :
    z ≤ x := by
  by_contra hx
  have hle := h.le z hz
  rw [abs_of_nonneg (by linarith), abs_of_nonneg (by linarith)] at hle
  linarith

/-- Between `2 ^ 63` and `2 ^ 63 + 2 ^ 11` there is no double. -/
theorem IsDouble.le_of_lt {x : ℚ} (h : IsDouble x) (hx : x < 2 ^ 63 + 2 ^ 11) : x ≤ 2 ^ 63 := by
  obtain ⟨s, rfl, ⟨z, rfl⟩ | hs⟩ := h.scaled 11
  · have hz : (z : ℚ) < (2 ^ 52 + 1 : ℤ) := by
      push_cast
      norm_num at hx ⊢
      linarith
    have hz : z ≤ 2 ^ 52 := Int.lt_add_one_iff.mp (by exact_mod_cast hz)
    have hz : (z : ℚ) ≤ 2 ^ 52 := by exact_mod_cast hz
    norm_num at hz ⊢
    linarith
  · norm_num [precision] at hs ⊢
    linarith

variable {m : Nat} {x : ℚ}

theorem IsNearest.le_floor (h : IsNearest m x) (hm : 2 ^ 63 ≤ m) : 2 ^ 63 ≤ ⌊x⌋ := by
  have hd : IsDouble (2 ^ 63) := ⟨⟨1, 63⟩, by decide, by norm_num [value]⟩
  have := h.le_of_isDouble hd (by exact_mod_cast hm)
  exact Int.le_floor.mpr (by exact_mod_cast this)

/-- What is as near to `2 ^ 63` as to the next double is rounded to `2 ^ 63`. -/
theorem IsNearest.floor_eq_of_le (h : IsNearest m x) (hl : 2 ^ 63 ≤ m) (hu : m ≤ 2 ^ 63 + 2 ^ 10) :
    ⌊x⌋ = 2 ^ 63 := by
  -- From `2 ^ 63` on, `2 ^ 11` is the distance between doubles.
  obtain ⟨t, ht⟩ : ∃ t : ℚ, m = t * 2 ^ (11 : ℤ) := ⟨m / 2 ^ 11, by norm_num⟩
  have hl : (2 : ℚ) ^ 52 ≤ t := by
    have : (2 : ℚ) ^ 63 ≤ m := by exact_mod_cast hl
    rw [ht] at this
    norm_num at this ⊢
    linarith
  have hu : t ≤ 2 ^ 52 + 1 / 2 := by
    have : (m : ℚ) ≤ 2 ^ 63 + 2 ^ 10 := by exact_mod_cast hu
    rw [ht] at this
    norm_num at this ⊢
    linarith
  have hnear : |t - (2 ^ 52 : Nat)| ≤ 1 / 2 := by
    push_cast
    rw [abs_of_nonneg (by linarith)]
    linarith
  have hlt : t < 2 ^ precision := lt_of_le_of_lt hu (by norm_num [precision])
  rw [ht] at h
  rw [h.unique (isNearest_of_rounded 11 hl hlt hnear fun _ => by decide)]
  norm_num

/-- What is nearer to the next double is rounded past `2 ^ 63`. -/
theorem IsNearest.lt_floor (h : IsNearest m x) (hm : 2 ^ 63 + 2 ^ 10 < m) : 2 ^ 63 < ⌊x⌋ := by
  have hm : (2 : ℚ) ^ 63 + 2 ^ 10 < m := by exact_mod_cast hm
  have hnext : IsDouble (2 ^ 63 + 2 ^ 11) := ⟨⟨2 ^ 52 + 1, 11⟩, by decide, by norm_num [value]⟩
  have hx : 2 ^ 63 + 2 ^ 11 ≤ x := by
    by_contra hx
    have hle := h.le _ hnext
    have hx := h.isDouble.le_of_lt (not_le.mp hx)
    rw [abs_of_pos (by linarith), le_abs] at hle
    rcases hle with hle | hle <;> linarith
  have : (2 ^ 63 + 2 ^ 11 : ℤ) ≤ ⌊x⌋ := Int.le_floor.mpr (by exact_mod_cast hx)
  omega

end Binary

/-! ## Integers as they are written -/

/-- Digits behind an optional sign. -/
structure WrittenInteger where
  sign : List Char
  digits : List Char
  sign_eq : sign = [] ∨ sign = ['+'] ∨ sign = ['-']
  isDigits : IsDigits digits

namespace WrittenInteger

variable (n : WrittenInteger)

def text : String := String.ofList (n.sign ++ n.digits)

/-- The integer with the sign of the text. -/
def signed (m : ℤ) : ℤ := if n.sign = ['-'] then -m else m

def value : ℤ := n.signed (digitsValue n.digits)

theorem signed_of_eq {n : WrittenInteger} (h : n.sign = ['-']) (m : ℤ) : n.signed m = -m := if_pos h

theorem signed_of_ne {n : WrittenInteger} (h : n.sign ≠ ['-']) (m : ℤ) : n.signed m = m := if_neg h

/-- The integer is a word. -/
def IsWord : Prop := -2 ^ 63 ≤ n.value ∧ n.value ≤ 2 ^ 63 - 1

/-- The integer is below all words, and the least word is the double nearest to it. -/
def IsJustBelow : Prop := -2 ^ 63 - 2 ^ 10 ≤ n.value ∧ n.value < -2 ^ 63

instance : Decidable n.IsWord := inferInstanceAs (Decidable (_ ∧ _))

instance : Decidable n.IsJustBelow := inferInstanceAs (Decidable (_ ∧ _))

/-! ## Reading -/

theorem takeSign_text : takeSign n.text.toList = (decide (n.sign = ['-']), n.digits) := by
  rw [text, String.toList_ofList]
  exact n.isDigits.takeSign_sign_append n.sign_eq

theorem integer?_text : integer? n.text.toList = some n.value := by
  have hne : n.digits.isEmpty = false := by simpa using n.isDigits.1
  have hall : n.digits.all Char.isDigit = true := List.all_eq_true.mpr n.isDigits.2
  simp only [integer?, takeSign_text, hne, hall, value, signed, decide_eq_true_eq, Bool.not_true,
    Bool.or_self, Bool.false_eq_true, if_false]

/-- The digits, as a number with the sign of the text. -/
def number : WrittenNumber :=
  ⟨decide (n.sign = ['-']), n.digits, none, none, n.isDigits, by simp⟩

theorem ofChars?_text : Numeral.ofChars? n.text.toList = some (.finite n.number.decimal) := by
  have hu : n.number.unsignedChars = n.digits := List.append_nil _
  have := n.number.unsigned?_unsignedChars
  rw [hu] at this
  simp only [Numeral.ofChars?, takeSign_text]
  rw [show unsigned? (decide (n.sign = ['-'])) n.digits = some n.number.decimal from this]

theorem trim_text : trim n.text.toList = n.text.toList := by
  refine trim_eq_self fun c hc => ?_
  rw [text, String.toList_ofList, List.mem_append] at hc
  rcases hc with hc | hc
  · rcases n.sign_eq with h | h | h <;> simp [h] at hc <;> subst hc <;> decide
  · exact Token.isBlank_of_isDigit (n.isDigits.2 c hc)

/-- What is not read as an integer is rounded to a double. -/
theorem exists_isNearest_truncate :
    ∃ x, IsNearest (digitsValue n.digits) x ∧ n.number.decimal.truncate = n.signed ⌊x⌋ := by
  obtain ⟨x, hx, ht⟩ := n.number.decimal.exists_isNearest
  refine ⟨x, ?_, ?_⟩
  · simpa [Decimal.magnitude, WrittenNumber.decimal, number] using hx
  · rw [ht, signed]
    simp [WrittenNumber.decimal, number]

theorem wordOfText?_text : wordOfText? n.text =
    (word64? n.value).or (word64? n.number.decimal.truncate) := by
  simp only [wordOfText?, trim_text, integer?_text, Option.bind_some, ofChars?_text]
  cases word64? n.value <;> rfl

/-! ## Which integers are refused -/

theorem map_toInt_of_isWord (h : n.IsWord) : Int64.toInt <$> readWord n.text = .ok n.value := by
  have hw := (map_toInt_word64? h.1 (Int.lt_of_le_sub_one h.2) n.value).mpr rfl
  obtain ⟨w, hw, hn⟩ := Option.map_eq_some_iff.mp hw
  rw [readWord, wordOfText?_text, hw]
  exact congrArg Except.ok hn

/-- An integer that is no word is judged by its double. -/
theorem wordOfText?_text_of_not_isWord (h : ¬ n.IsWord) :
    ∃ x, IsNearest (digitsValue n.digits) x ∧ wordOfText? n.text = word64? (n.signed ⌊x⌋) := by
  obtain ⟨x, hx, ht⟩ := n.exists_isNearest_truncate
  have hw : word64? n.value = none := if_neg fun hv => h hv
  refine ⟨x, hx, ?_⟩
  rw [wordOfText?_text, hw, ht]
  rfl

theorem wordOfText?_text_of_isJustBelow (h : n.IsJustBelow) :
    wordOfText? n.text = some Int64.minValue := by
  obtain ⟨hl, hu⟩ := h
  obtain ⟨x, hx, hw⟩ := n.wordOfText?_text_of_not_isWord fun h => absurd h.1 (not_le.mpr hu)
  rw [value] at hl hu
  by_cases hs : n.sign = ['-']
  · rw [signed_of_eq hs] at hl hu
    have hf := hx.floor_eq_of_le (by omega) (by omega)
    rw [hw, signed_of_eq hs, hf]
    rfl
  · rw [signed_of_ne hs] at hu
    omega

theorem wordOfText?_text_of_outside (hw : ¬ n.IsWord) (hb : ¬ n.IsJustBelow) :
    wordOfText? n.text = none := by
  obtain ⟨x, hx, he⟩ := n.wordOfText?_text_of_not_isWord hw
  rw [he, word64?, Int64.toInt_minValue, Int64.toInt_maxValue]
  refine if_neg ?_
  rintro ⟨hl, hu⟩
  -- What is that far below the range is rounded to no word, and above it rounding stays there.
  rw [IsWord, value] at hw
  rw [IsJustBelow, value] at hb
  by_cases hs : n.sign = ['-']
  · rw [signed_of_eq hs] at hw hb hl
    have := hx.lt_floor (by omega)
    omega
  · rw [signed_of_ne hs] at hw hb hu
    have := hx.le_floor (by omega)
    omega

/-- An integer is read as its word, and refused if there is none, unless it is just below all words.
It is read as the least word then. -/
theorem readWord_text_iff :
    (Int64.toInt <$> readWord n.text =
        (if n.IsWord then .ok n.value else .error (.invalidNumber n.text)) ↔ ¬ n.IsJustBelow) ∧
      (n.IsJustBelow → readWord n.text = .ok Int64.minValue) := by
  have hjust (hb : n.IsJustBelow) : readWord n.text = .ok Int64.minValue := by
    rw [readWord, n.wordOfText?_text_of_isJustBelow hb]
  refine ⟨?_, hjust⟩
  by_cases hw : n.IsWord
  · rw [if_pos hw]
    exact iff_of_true (n.map_toInt_of_isWord hw) fun hb => absurd hw.1 (not_le.mpr hb.2)
  · rw [if_neg hw]
    refine ⟨fun h hb => ?_, fun hb => ?_⟩
    · rw [hjust hb] at h
      cases h
    · rw [readWord, n.wordOfText?_text_of_outside hw hb]
      rfl

/-- The integer `-9223372036854775809`. -/
def beyondLeast : WrittenInteger :=
  ⟨['-'], "9223372036854775809".toList, .inr (.inr rfl), by decide⟩

/-- The integer before the least word is no word, but is read as the least one. -/
theorem readWord_beyondLeast :
    beyondLeast.text = "-9223372036854775809" ∧ ¬ beyondLeast.IsWord ∧
      readWord beyondLeast.text = .ok Int64.minValue := by
  decide +kernel

end WrittenInteger

end RecordQuery
