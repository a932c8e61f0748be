import Mathlib.Algebra.Order.Field.Power
import Mathlib.Data.Rat.Floor
import Mathlib.Tactic.FieldSimp
import Mathlib.Tactic.Linarith
import Mathlib.Tactic.Positivity
import RecordQuery.Decimal.Rounding

/-! # The double nearest to a number

What it is to be the nearest double is said of the values alone (`Binary.IsNearest`): no other
double is nearer, and in the middle between two the even one is taken. There is one such double for
every positive number, and `Binary.nearest` finds it. As there, the exponent of a double has no
bounds. -/

namespace RecordQuery

/-! ## Rounding to an integer -/

/-- The rounded quotient is not off by more than a half, and by a half only if it is even. -/
theorem roundDiv_spec (num : Nat) {den : Nat} (hd : 0 < den) :
    |(num : ℚ) / den - roundDiv num den| ≤ 1 / 2 ∧
      (|(num : ℚ) / den - roundDiv num den| = 1 / 2 → Even (roundDiv num den)) := by
  have hd' : (0 : ℚ) < den := by exact_mod_cast hd
  have hq : (num : ℚ) / den = (num / den : Nat) + (num % den : Nat) / (den : ℚ) := by
    field_simp
    exact_mod_cast (Nat.div_add_mod num den).symm
  have hr : (num % den : Nat) < (den : ℚ) := by exact_mod_cast Nat.mod_lt num hd
  unfold roundDiv
  simp only
  rw [hq]
  generalize num / den = q
  generalize num % den = r at *
  split
  · next h =>
    have h : (r : ℚ) / den < 1 / 2 := by
      rw [div_lt_div_iff₀ hd' two_pos]
      exact_mod_cast (by omega : r * 2 < 1 * den)
    have h₀ : 0 ≤ (r : ℚ) / den := by positivity
    rw [add_sub_cancel_left, abs_of_nonneg h₀]
    exact ⟨h.le, fun he => absurd he h.ne⟩
  · next h =>
    split
    · next h' =>
      have h' : 1 / 2 < (r : ℚ) / den := by
        rw [div_lt_div_iff₀ two_pos hd']
        exact_mod_cast (by omega : 1 * den < r * 2)
      have h₁ : (r : ℚ) / den < 1 := (div_lt_one hd').mpr hr
      push_cast
      rw [abs_of_nonpos (by linarith)]
      exact ⟨by linarith, fun he => by linarith⟩
    · next h' =>
      have h' : (r : ℚ) / den = 1 / 2 := by
        rw [div_eq_div_iff hd'.ne' two_ne_zero]
        exact_mod_cast (by omega : r * 2 = 1 * den)
      rw [h']
      split
      · next he =>
        rw [add_sub_cancel_left, abs_of_pos one_half_pos]
        exact ⟨le_rfl, fun _ => Nat.even_iff.mpr he⟩
      · next he =>
        have hn : (q : ℚ) + 1 / 2 - (q + 1 : Nat) = -(1 / 2) := by
          push_cast
          ring
        rw [hn, abs_neg, abs_of_pos one_half_pos]
        exact ⟨le_rfl, fun _ => Nat.even_add_one.mpr fun h => he (Nat.even_iff.mp h)⟩

/-- No integer is nearer than one that is not off by more than a half. -/
theorem abs_sub_le_of_le_half {t : ℚ} {m : Nat} (h : |t - m| ≤ 1 / 2) (z : ℤ) :
    |t - m| ≤ |t - z| ∧ (z ≠ m → |t - z| = |t - m| → |t - m| = 1 / 2) := by
  by_cases hz : z = m
  · subst hz
    exact ⟨le_rfl, fun h => absurd rfl h⟩
  · have hone : (1 : ℚ) ≤ |(z : ℚ) - m| := by
      exact_mod_cast Int.one_le_abs (sub_ne_zero.mpr hz)
    have htri : |(z : ℚ) - m| ≤ |t - m| + |t - z| := by
      rw [abs_sub_comm t (z : ℚ), add_comm]
      exact abs_sub_le _ _ _
    exact ⟨by linarith, fun _ he => by linarith⟩

theorem binaryExponent_spec {num den : Nat} (hn : 0 < num) (hd : 0 < den) :
    (2 : ℚ) ^ binaryExponent num den ≤ num / den ∧
      (num : ℚ) / den < 2 ^ (binaryExponent num den + 1) := by
  have hd' : (0 : ℚ) < den := by exact_mod_cast hd
  unfold binaryExponent
  split
  · next h =>
    have hq : num / den ≠ 0 := (Nat.div_pos h hd).ne'
    rw [le_div_iff₀ hd', div_lt_iff₀ hd', zpow_natCast, ← Nat.cast_succ, zpow_natCast]
    constructor
    · exact_mod_cast (Nat.mul_le_mul_right den (Nat.log2_self_le hq)).trans
        (Nat.div_mul_le_self num den)
    · have := (Nat.div_lt_iff_lt_mul hd).mp (Nat.lt_log2_self (n := num / den))
      exact_mod_cast this
  · next h =>
    have hp : (den - 1) / num ≠ 0 := (Nat.div_pos (by omega) hn).ne'
    generalize hl : ((den - 1) / num).log2 = l
    have hlow : num * 2 ^ l < den := by
      have := (Nat.mul_le_mul_left num (Nat.log2_self_le hp)).trans (Nat.mul_div_le (den - 1) num)
      rw [hl] at this
      omega
    have hhigh : den ≤ num * 2 ^ (l + 1) := by
      have := (Nat.div_lt_iff_lt_mul hn).mp (Nat.lt_log2_self (n := (den - 1) / num))
      rw [hl, mul_comm] at this
      omega
    have hsucc : -((l + 1 : Nat) : ℤ) + 1 = -(l : ℤ) := by
      push_cast
      ring
    rw [hsucc, zpow_neg, zpow_neg, zpow_natCast, zpow_natCast, inv_eq_one_div, inv_eq_one_div,
      div_le_div_iff₀ (by positivity) hd', div_lt_div_iff₀ hd' (by positivity), one_mul]
    exact ⟨by exact_mod_cast hhigh, by exact_mod_cast hlow⟩

namespace Binary

/-! ## Doubles -/

/-- The number that the significand and the exponent stand for. -/
def value (b : Binary) : ℚ := b.significand * 2 ^ b.exponent

/-- The doubles that are not negative. -/
def IsDouble (x : ℚ) : Prop := ∃ b : Binary, b.significand < 2 ^ precision ∧ b.value = x

/-- The last bit of the significand is not set, when the first one is. -/
def IsEven (x : ℚ) : Prop :=
  ∃ b : Binary, 2 ^ (precision - 1) ≤ b.significand ∧ b.significand < 2 ^ precision ∧
    Even b.significand ∧ b.value = x

/-- No other double is nearer to `a` than `x`, and if one is as near then `x` is even. -/
structure IsNearest (a x : ℚ) : Prop where
  isDouble : IsDouble x
  le : ∀ y, IsDouble y → |a - x| ≤ |a - y|
  isEven : ∀ y, IsDouble y → y ≠ x → |a - y| = |a - x| → IsEven x

/-- A significand that has grown by a bit loses its last one. -/
theorem value_carry (k : ℤ) :
    value ⟨2 ^ (precision - 1), k + 1⟩ = ((2 ^ precision : Nat) : ℚ) * 2 ^ k := by
  rw [value, zpow_add_one₀ two_ne_zero]
  simp only [precision]
  push_cast
  ring

theorem isDouble_of_le {m : Nat} {k : ℤ} (h : m ≤ 2 ^ precision) : IsDouble (m * 2 ^ k) := by
  rcases h.lt_or_eq with h | rfl
  · exact ⟨⟨m, k⟩, h, rfl⟩
  · exact ⟨_, Nat.pow_lt_pow_right one_lt_two (by decide), value_carry k⟩

theorem isEven_of_even {m : Nat} {k : ℤ} (hl : 2 ^ (precision - 1) ≤ m) (hu : m ≤ 2 ^ precision)
    (he : Even m) : IsEven (m * 2 ^ k) := by
  rcases hu.lt_or_eq with hu | rfl
  · exact ⟨⟨m, k⟩, hl, hu, he, rfl⟩
  · exact ⟨_, le_rfl, Nat.pow_lt_pow_right one_lt_two (by decide),
      Nat.even_pow.mpr ⟨even_two, by decide⟩, value_carry k⟩

/-- Measured by the last bit of a double of full length, any other double is an integer, or smaller
than one of full length. -/
theorem IsDouble.scaled {y : ℚ} (h : IsDouble y) (k : ℤ) :
    ∃ s : ℚ, y = s * 2 ^ k ∧ ((∃ z : ℤ, s = z) ∨ s < 2 ^ (precision - 1)) := by
  obtain ⟨⟨m, j⟩, hm, rfl⟩ := h
  refine ⟨m * 2 ^ (j - k), ?_, ?_⟩
  · rw [value, mul_assoc, ← zpow_add₀ two_ne_zero, sub_add_cancel]
  · by_cases hj : k ≤ j
    · obtain ⟨n, hn⟩ := Int.eq_ofNat_of_zero_le (sub_nonneg.mpr hj)
      refine .inl ⟨m * 2 ^ n, ?_⟩
      rw [hn, zpow_natCast]
      push_cast
      rfl
    · right
      have hpow : (2 : ℚ) ^ (j - k) ≤ 2 ^ (-1 : ℤ) := zpow_le_zpow_right₀ one_le_two (by omega)
      have hm : (m : ℚ) < 2 ^ precision := by exact_mod_cast hm
      calc (m : ℚ) * 2 ^ (j - k) ≤ m * 2 ^ (-1 : ℤ) :=
            mul_le_mul_of_nonneg_left hpow (Nat.cast_nonneg m)
        _ < 2 ^ precision * 2 ^ (-1 : ℤ) := mul_lt_mul_of_pos_right hm (by positivity)
        _ = 2 ^ (precision - 1) := by norm_num [precision]

/-- Rounding a number to the bits of a double finds the nearest one. -/
theorem isNearest_of_rounded {t : ℚ} {m : Nat} (k : ℤ) (hl : 2 ^ (precision - 1) ≤ t)
    (hu : t < 2 ^ precision) (hm : |t - m| ≤ 1 / 2) (he : |t - m| = 1 / 2 → Even m) :
    IsNearest (t * 2 ^ k) (m * 2 ^ k) := by
  have hk : (0 : ℚ) < 2 ^ k := by positivity
  obtain ⟨h₁, h₂⟩ := abs_le.mp hm
  have hlm : 2 ^ (precision - 1) ≤ m := by
    have : ((2 ^ (precision - 1) : Nat) : ℚ) < (m + 1 : Nat) := by
      push_cast
      linarith
    exact Nat.lt_succ_iff.mp (by exact_mod_cast this)
  have hum : m ≤ 2 ^ precision := by
    have : (m : ℚ) < (2 ^ precision + 1 : Nat) := by
      push_cast
      linarith
    exact Nat.lt_succ_iff.mp (by exact_mod_cast this)
  have scale (s : ℚ) : |t * 2 ^ k - s * 2 ^ k| = |t - s| * 2 ^ k := by
    rw [← sub_mul, abs_mul, abs_of_pos hk]
  -- A double with smaller bits is below all of full length, so the least of these is nearer.
  have below {s : ℚ} (hs : s < 2 ^ (precision - 1)) : |t - m| < |t - s| := by
    have hle := (abs_sub_le_of_le_half hm (2 ^ (precision - 1) : Nat)).1
    push_cast at hle
    rw [abs_of_nonneg (sub_nonneg.mpr hl)] at hle
    have hpos : 0 < t - s := by linarith
    rw [abs_of_pos hpos]
    linarith
  refine ⟨isDouble_of_le hum, fun y hy => ?_, fun y hy hne heq => ?_⟩
  · obtain ⟨s, rfl, ⟨z, rfl⟩ | hs⟩ := hy.scaled k
    · rw [scale, scale]
      exact mul_le_mul_of_nonneg_right (abs_sub_le_of_le_half hm z).1 hk.le
    · rw [scale, scale]
      exact mul_le_mul_of_nonneg_right (below hs).le hk.le
  · obtain ⟨s, rfl, ⟨z, rfl⟩ | hs⟩ := hy.scaled k
    · rw [scale, scale] at heq
      have hz : z ≠ m := by
        rintro rfl
        exact hne rfl
      have := (abs_sub_le_of_le_half hm z).2 hz (mul_right_cancel₀ hk.ne' heq)
      exact isEven_of_even hlm hum (he this)
    · rw [scale, scale] at heq
      exact absurd (mul_right_cancel₀ hk.ne' heq) (below hs).ne'

/-! ## The nearest double -/

/-- What is rounded to find the nearest double is the number, measured by the last bit. -/
theorem exists_nearest_eq (num : Nat) {den : Nat} (hd : 0 < den) :
    let k := binaryExponent num den - (precision - 1)
    ∃ n d, 0 < d ∧ nearest num den = ⟨roundDiv n d, k⟩ ∧ (num : ℚ) / den = n / d * 2 ^ k := by
  intro k
  have hd' : (den : ℚ) ≠ 0 := by exact_mod_cast hd.ne'
  by_cases h : 0 ≤ k
  · have heq : nearest num den = ⟨roundDiv num (den <<< k.toNat), k⟩ := if_pos h
    obtain ⟨j, hj⟩ := Int.eq_ofNat_of_zero_le h
    refine ⟨_, _, ?_, heq, ?_⟩
    · rw [Nat.shiftLeft_eq]
      positivity
    · rw [hj, Nat.shiftLeft_eq, Int.toNat_natCast, zpow_natCast]
      push_cast
      field_simp
  · have heq : nearest num den = ⟨roundDiv (num <<< (-k).toNat) den, k⟩ := if_neg h
    obtain ⟨j, hj⟩ := Int.eq_ofNat_of_zero_le (neg_nonneg.mpr (not_le.mp h).le)
    refine ⟨_, _, hd, heq, ?_⟩
    rw [hj, Nat.shiftLeft_eq, Int.toNat_natCast, ← neg_neg k, hj, zpow_neg, zpow_natCast]
    push_cast
    field_simp

/-- The nearest double is the number, measured by the last bit, rounded to an integer. -/
theorem exists_rounded {num den : Nat} (hn : 0 < num) (hd : 0 < den) :
    ∃ (t : ℚ) (m : Nat) (k : ℤ), nearest num den = ⟨m, k⟩ ∧ (num : ℚ) / den = t * 2 ^ k ∧
      2 ^ (precision - 1) ≤ t ∧ t < 2 ^ precision ∧ |t - m| ≤ 1 / 2 ∧
      (|t - m| = 1 / 2 → Even m) := by
  obtain ⟨n, d, hd', heq, hq⟩ := exists_nearest_eq num hd
  obtain ⟨hl, hu⟩ := binaryExponent_spec hn hd
  obtain ⟨hm, he⟩ := roundDiv_spec n hd'
  have hk : (0 : ℚ) < 2 ^ (binaryExponent num den - (precision - 1)) := by positivity
  have hfirst : (2 : ℚ) ^ binaryExponent num den =
      2 ^ (precision - 1) * 2 ^ (binaryExponent num den - (precision - 1)) := by
    rw [← zpow_natCast, ← zpow_add₀ two_ne_zero]
    congr 1
    simp [precision]
  have hpast : (2 : ℚ) ^ (binaryExponent num den + 1) =
      2 ^ precision * 2 ^ (binaryExponent num den - (precision - 1)) := by
    rw [zpow_add_one₀ two_ne_zero, hfirst]
    simp only [precision]
    ring
  rw [hfirst, hq] at hl
  rw [hpast, hq] at hu
  exact ⟨_, _, _, heq, hq, le_of_mul_le_mul_right hl hk, lt_of_mul_lt_mul_right hu hk.le, hm, he⟩

theorem isNearest_nearest {num den : Nat} (hn : 0 < num) (hd : 0 < den) :
    IsNearest (num / den) (nearest num den).value := by
  obtain ⟨t, m, k, heq, hq, hl, hu, hm, he⟩ := exists_rounded hn hd
  rw [heq, hq]
  exact isNearest_of_rounded k hl hu hm he

/-- What is between two numbers that are as near as each other is nearer than they are. -/
theorem abs_sub_lt_of_between {a x y z : ℚ} (h : |a - x| = |a - y|) (hx : x < z) (hy : z < y) :
    |a - z| < |a - x| := by
  have hmid : a - x = y - a := by
    rcases abs_eq_abs.mp h with h | h <;> linarith
  rw [abs_of_pos (by linarith : 0 < a - x), abs_lt]
  constructor <;> linarith

/-- Of two doubles, the smaller one has not the greater last bit. -/
theorem exponent_le {m n : Nat} {k j : ℤ} (hm : 2 ^ (precision - 1) ≤ m) (hn : n < 2 ^ precision)
    (h : (m : ℚ) * 2 ^ k < n * 2 ^ j) : k ≤ j := by
  by_contra hj
  have hpow : (2 : ℚ) ^ j ≤ 2 ^ (k - 1) := zpow_le_zpow_right₀ one_le_two (by omega)
  have hm : (2 : ℚ) ^ (precision - 1) ≤ m := by exact_mod_cast hm
  have hn : (n : ℚ) ≤ 2 ^ precision := by exact_mod_cast hn.le
  have : (n : ℚ) * 2 ^ j ≤ m * 2 ^ k :=
    calc (n : ℚ) * 2 ^ j ≤ 2 ^ precision * 2 ^ (k - 1) := by gcongr
      _ = 2 ^ (precision - 1) * 2 ^ k := by
        rw [zpow_sub_one₀ two_ne_zero]
        simp only [precision]
        ring
      _ ≤ m * 2 ^ k := by gcongr
  exact absurd h (not_lt.mpr this)

/-- There is only one nearest double: of two doubles that are next to each other, one is odd. -/
theorem IsNearest.unique {a x y : ℚ} (hx : IsNearest a x) (hy : IsNearest a y) : x = y := by
  by_contra hne
  wlog hlt : x < y generalizing x y
  · exact this hy hx (Ne.symm hne) (lt_of_le_of_ne (not_lt.mp hlt) (Ne.symm hne))
  have heq : |a - x| = |a - y| := le_antisymm (hx.le y hy.isDouble) (hy.le x hx.isDouble)
  obtain ⟨⟨m, k⟩, hl, hu, he, rfl⟩ := hx.isEven y hy.isDouble (Ne.symm hne) heq.symm
  obtain ⟨⟨n, j⟩, -, hu', he', rfl⟩ := hy.isEven _ hx.isDouble hne heq
  simp only [value] at *
  have hk : (0 : ℚ) < 2 ^ k := by positivity
  obtain ⟨i, hi⟩ := Int.eq_ofNat_of_zero_le (sub_nonneg.mpr (exponent_le hl hu' hlt))
  obtain rfl : j = i + k := by omega
  rw [zpow_add₀ two_ne_zero, zpow_natCast, ← mul_assoc] at hlt heq
  have hmn : m < n * 2 ^ i := by exact_mod_cast lt_of_mul_lt_mul_right hlt hk.le
  -- The double behind `m * 2 ^ k` is no nearer, so it is not before the other one.
  have hnext : n * 2 ^ i ≤ m + 1 := by
    by_contra hlt'
    have h₁ : (m : ℚ) * 2 ^ k < (m + 1 : Nat) * 2 ^ k :=
      mul_lt_mul_of_pos_right (by exact_mod_cast Nat.lt_succ_self m) hk
    have h₂ : ((m + 1 : Nat) : ℚ) * 2 ^ k < n * 2 ^ i * 2 ^ k :=
      mul_lt_mul_of_pos_right (by exact_mod_cast not_le.mp hlt') hk
    exact absurd (hx.le _ (isDouble_of_le hu)) (not_le.mpr (abs_sub_lt_of_between heq h₁ h₂))
  have hodd : n * 2 ^ i = m + 1 := by omega
  have heven : Even (m + 1) := hodd ▸ he'.mul_right _
  exact Nat.even_add_one.mp heven he

/-- The nearest double is off by one in `2 ^ 53` at the most. -/
theorem IsNearest.abs_sub_mul_le {a x : ℚ} (h : IsNearest a x) (ha : 0 < a) :
    |a - x| * 2 ^ precision ≤ a := by
  have hnum : 0 < a.num.toNat := Int.pos_iff_toNat_pos.mp (Rat.num_pos.mpr ha)
  have hden : 0 < a.den := a.den_pos
  obtain ⟨t, m, k, heq, hq, hl, -, hm, -⟩ := exists_rounded hnum hden
  have ha' : (a.num.toNat : ℚ) / a.den = a := by
    have : (a.num.toNat : ℤ) = a.num := Int.toNat_of_nonneg (Rat.num_pos.mpr ha).le
    rw [← Int.cast_natCast, this, Rat.num_div_den]
  have hx := h.unique (ha' ▸ isNearest_nearest hnum hden)
  have hk : (0 : ℚ) < 2 ^ k := by positivity
  rw [ha'] at hq
  rw [hx, heq, value, hq, ← sub_mul, abs_mul, abs_of_pos hk]
  calc |t - m| * 2 ^ k * 2 ^ precision ≤ 1 / 2 * 2 ^ k * 2 ^ precision := by gcongr
    _ = 2 ^ (precision - 1) * 2 ^ k := by
      simp only [precision]
      ring
    _ ≤ t * 2 ^ k := by gcongr

/-! ## The integer part -/

theorem floor_value (b : Binary) : ⌊b.value⌋ = b.floor := by
  unfold floor value
  split
  · next h =>
    obtain ⟨n, hn⟩ := Int.eq_ofNat_of_zero_le h
    rw [hn, Nat.shiftLeft_eq, Int.toNat_natCast, zpow_natCast]
    exact_mod_cast Int.floor_natCast (R := ℚ) (b.significand * 2 ^ n)
  · next h =>
    obtain ⟨n, hn⟩ := Int.eq_ofNat_of_zero_le (neg_nonneg.mpr (not_le.mp h).le)
    rw [← neg_neg b.exponent, hn, Nat.shiftRight_eq_div_pow, Int.neg_neg, Int.toNat_natCast,
      zpow_neg, zpow_natCast, ← div_eq_mul_inv]
    exact_mod_cast Rat.floor_natCast_div_natCast b.significand (2 ^ n)

theorem IsNearest.eq_zero {x : ℚ} (h : IsNearest 0 x) : x = 0 := by
  have := h.le 0 ⟨⟨0, 0⟩, Nat.two_pow_pos _, by simp [value]⟩
  simpa using this

theorem isNearest_zero : IsNearest 0 0 := by
  refine ⟨⟨⟨0, 0⟩, Nat.two_pow_pos _, by simp [value]⟩, fun y _ => by simp, fun y _ hne h => ?_⟩
  exact absurd (by simpa using h) hne

/-- A quotient whose numerator has no more bits than a double keeps its integer part: the nearest
double is too near to it to have passed the next integer. -/
theorem IsNearest.floor_eq {n d : Nat} {x : ℚ} (h : IsNearest (n / d) x) (hn : n < 2 ^ precision)
    (hd : 0 < d) : ⌊x⌋ = ⌊(n : ℚ) / d⌋ := by
  have hd' : (0 : ℚ) < d := by exact_mod_cast hd
  rcases n.eq_zero_or_pos with rfl | hpos
  · rw [Nat.cast_zero, zero_div] at h ⊢
    rw [h.eq_zero]
  have ha : 0 < (n : ℚ) / d := by positivity
  have hfloor : ⌊(n : ℚ) / d⌋ = (n / d : Nat) := by
    exact_mod_cast Rat.floor_natCast_div_natCast n d
  have hle := Int.floor_le ((n : ℚ) / d)
  rw [hfloor, Int.cast_natCast] at hle
  rw [hfloor, Int.floor_eq_iff, Int.cast_natCast]
  constructor
  · have hdouble : IsDouble (n / d : Nat) :=
      ⟨⟨n / d, 0⟩, (Nat.div_le_self n d).trans_lt hn, by simp [value]⟩
    have hnear := h.le _ hdouble
    rw [abs_of_nonneg (sub_nonneg.mpr hle)] at hnear
    have := (le_abs_self _).trans hnear
    linarith
  · by_contra hx
    have hnext : 1 / (d : ℚ) ≤ (n / d : Nat) + 1 - n / d := by
      have : n + 1 ≤ (n / d + 1) * d := Nat.lt_mul_of_div_lt (Nat.lt_succ_self _) hd
      have : (n : ℚ) + 1 ≤ ((n / d : Nat) + 1) * d := by exact_mod_cast this
      rw [le_sub_iff_add_le, ← add_div, div_le_iff₀ hd']
      linarith
    have hfar : 1 / (d : ℚ) ≤ |n / d - x| := by
      rw [abs_sub_comm]
      exact le_abs.mpr (.inl (by linarith))
    have hn' : (n : ℚ) < 2 ^ precision := by exact_mod_cast hn
    have : (n : ℚ) / d < n / d :=
      calc (n : ℚ) / d < 2 ^ precision / d := div_lt_div_of_pos_right hn' hd'
        _ = 1 / d * 2 ^ precision := by ring
        _ ≤ |n / d - x| * 2 ^ precision := by gcongr
        _ ≤ n / d := h.abs_sub_mul_le ha
    exact lt_irrefl _ this

end Binary

namespace Decimal

open Binary

/-- The number without its sign. -/
def magnitude (d : Decimal) : ℚ := d.mantissa * 10 ^ d.exponent

theorem exists_truncate_eq {d : Decimal} (h : d.mantissa ≠ 0) :
    ∃ num den : Nat, 0 < num ∧ 0 < den ∧ d.magnitude = num / den ∧
      d.truncate =
        if d.negative then -((nearest num den).floor : ℤ) else (nearest num den).floor := by
  have hm : 0 < d.mantissa := Nat.pos_of_ne_zero h
  unfold truncate magnitude
  rw [if_neg h]
  split
  · next he =>
    obtain ⟨n, hn⟩ := Int.eq_ofNat_of_zero_le he
    refine ⟨_, 1, ?_, one_pos, ?_, rfl⟩
    · exact Nat.mul_pos hm (Nat.pow_pos (by decide))
    · rw [hn, Int.toNat_natCast, zpow_natCast, Nat.pow_eq]
      push_cast
      ring
  · next he =>
    obtain ⟨n, hn⟩ := Int.eq_ofNat_of_zero_le (neg_nonneg.mpr (not_le.mp he).le)
    refine ⟨_, _, hm, Nat.pow_pos (by decide), ?_, rfl⟩
    rw [← neg_neg d.exponent, hn, Int.neg_neg, Int.toNat_natCast, zpow_neg, zpow_natCast]
    push_cast
    ring

theorem exists_isNearest (d : Decimal) : ∃ x, IsNearest d.magnitude x ∧
    d.truncate = if d.negative then -⌊x⌋ else ⌊x⌋ := by
  by_cases h : d.mantissa = 0
  · refine ⟨0, ?_, ?_⟩
    · simpa [magnitude, h] using isNearest_zero
    · simp [truncate, h]
  · obtain ⟨num, den, hnum, hden, hm, ht⟩ := exists_truncate_eq h
    exact ⟨_, hm ▸ isNearest_nearest hnum hden, by rw [floor_value, ht]⟩

end Decimal

end RecordQuery
