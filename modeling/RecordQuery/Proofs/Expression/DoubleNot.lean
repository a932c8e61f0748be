import Mathlib.Data.Nat.Bits
import RecordQuery.Proofs.Expression.Ordering

/-! # What a `NOT` before a `NOT` does to the value

A `NOT` right before another comes out in front of its own operand, so it is applied to what was
computed before. What is computed is then the value of another expression
(`Expression.misread`): there the `NOT` stands before the left operand of the connective that
precedes it. Such `NOT`s can cancel each other, and `Expression.value_misread_iff` says exactly
when they do. Every predicate stands in an expression once, so the two operands of a connective
can be given their values independently (`Expression.independent_operands`); that is why no other
coincidence can make the values agree. -/

namespace RecordQuery
namespace Expression

/-! ## The expression that is computed -/

/-- The number of `NOT`s that come out before the first predicate. -/
def lead : Expression → Nat
  | atomic _ => 0
  | group _ _ e => e.lead
  | not e => if e.isNot then e.lead + 1 else e.lead
  | and l _ | or l _ => l.lead

/-- The expression in which each `NOT` that comes out too early stands where it is applied. Those
that come out before the first predicate are left out. -/
def misread : Expression → Expression
  | atomic a => atomic a
  | group s t e => group s t e.misread
  | not e => if e.isNot then e.misread else not e.misread
  | and l r => and (negated r.lead l.misread) r.misread
  | or l r => or (negated r.lead l.misread) r.misread

/-- The early `NOT`s cancel in the expression, if one more is applied to its value or not. -/
def Cancels : Expression → Bool → Prop
  | atomic _, flipped => flipped = false
  | group _ _ e, flipped => e.Cancels flipped
  | not e, flipped => e.Cancels (flipped ^^ e.isNot)
  | and l r, flipped | or l r, flipped => flipped = false ∧ l.Cancels r.lead.bodd ∧ r.Cancels false

/-- No `NOT` comes out before the first predicate, and those that come out too early later on
cancel each other. -/
def NotsCancel (e : Expression) : Prop := e.lead = 0 ∧ e.Cancels false

theorem count_negated (n : Nat) (e : Expression) : (negated n e).count = e.count := by
  induction n generalizing e with
  | zero => rfl
  | succ n ih => exact ih (not e)

theorem value_negated (ν : Nat → Bool) (n : Nat) (e : Expression) (k : Nat) :
    (negated n e).value ν k = (n.bodd ^^ e.value ν k) := by
  induction n generalizing e with
  | zero => simp [negated]
  | succ n ih => rw [negated, ih, value, Nat.bodd_succ]; cases n.bodd <;> simp

theorem count_misread (e : Expression) : e.misread.count = e.count := by
  induction e with
  | atomic a => rfl
  | group _ _ e ih => exact ih
  | not e ih => by_cases h : e.isNot = true <;> simp [misread, count, h, ih]
  | and l r ihl ihr | or l r ihl ihr => simp [misread, count, count_negated, ihl, ihr]

/-! ## Values depend on the predicates of the expression alone -/

theorem value_congr (e : Expression) {ν ν' : Nat → Bool} {k : Nat}
    (h : ∀ i, k ≤ i → i < k + e.count → ν i = ν' i) : e.value ν k = e.value ν' k := by
  induction e generalizing k with
  | atomic a => exact h k (Nat.le_refl k) (Nat.lt_succ_self k)
  | group _ _ e ih => exact ih h
  | not e ih => exact congrArg (! ·) (ih h)
  | and l r ihl ihr | or l r ihl ihr =>
    simp only [count] at h
    have hl : l.value ν k = l.value ν' k := ihl fun i h1 h2 => h i h1 (by omega)
    have hr : r.value ν (k + l.count) = r.value ν' (k + l.count) :=
      ihr fun i h1 h2 => h i (by omega) (by omega)
    simp only [value, hl, hr]

/-- The truth values `ν` before `m` and `ν'` from there on. -/
def splice (m : Nat) (ν ν' : Nat → Bool) : Nat → Bool := fun i => if i < m then ν i else ν' i

theorem value_splice_left (e : Expression) (ν ν' : Nat → Bool) {k m : Nat}
    (h : k + e.count ≤ m) : e.value (splice m ν ν') k = e.value ν k :=
  e.value_congr fun i _ hi => if_pos (by omega)

theorem value_splice_right (e : Expression) (ν ν' : Nat → Bool) (m : Nat) :
    e.value (splice m ν ν') m = e.value ν' m :=
  e.value_congr fun i hi _ => if_neg (by omega)

/-- An expression has either truth value for some truth values of its predicates. -/
theorem exists_value_eq (e : Expression) (k : Nat) (b : Bool) :
    ∃ ν : Nat → Bool, e.value ν k = b := by
  induction e generalizing k b with
  | atomic a => exact ⟨fun _ => b, rfl⟩
  | group _ _ e ih => exact ih k b
  | not e ih =>
    obtain ⟨ν, h⟩ := ih k (!b)
    exact ⟨ν, by rw [value, h, Bool.not_not]⟩
  | and l r ihl ihr | or l r ihl ihr =>
    obtain ⟨ν, hl⟩ := ihl k b
    obtain ⟨ν', hr⟩ := ihr (k + l.count) b
    refine ⟨splice (k + l.count) ν ν', ?_⟩
    rw [value, value_splice_left l ν ν' (Nat.le_refl _), value_splice_right, hl, hr]
    cases b <;> rfl

/-! ## When the values agree -/

/-- Two functions of truth values, of which any values can be had together. -/
def Independent (f g f' g' : (Nat → Bool) → Bool) : Prop :=
  ∀ ν ν', ∃ μ, f μ = f ν ∧ f' μ = f' ν ∧ g μ = g ν' ∧ g' μ = g' ν'

/-- Conjunctions of independent parts that can be true and false agree, or differ everywhere, only
if their parts agree. -/
theorem and_eq_iff {f g f' g' : (Nat → Bool) → Bool} {c : Bool} (hi : Independent f g f' g')
    (hf : ∀ b, ∃ ν, f ν = b) (hg : ∀ b, ∃ ν, g ν = b) (hg' : ∀ b, ∃ ν, g' ν = b) :
    (∀ ν, (f' ν && g' ν) = ((f ν && g ν) ^^ c)) ↔
      c = false ∧ (∀ ν, f' ν = f ν) ∧ ∀ ν, g' ν = g ν := by
  constructor
  · intro h
    have hc : c = false := by
      obtain ⟨ν, hν⟩ := hf false
      obtain ⟨ν', hν'⟩ := hg' false
      obtain ⟨μ, h1, -, -, h4⟩ := hi ν ν'
      have := h μ
      simpa [h1, h4, hν, hν', eq_comm] using this
    subst hc
    simp only [Bool.xor_false] at h
    -- Both parts to the right are true for some `ν'`, so the parts to the left agree, and
    -- conversely.
    obtain ⟨ν₁, hν₁⟩ := hf true
    obtain ⟨ν₂, hν₂⟩ := hg true
    have h₁₂ : f' ν₁ = true ∧ g' ν₂ = true := by
      obtain ⟨μ, h1, h2, h3, h4⟩ := hi ν₁ ν₂
      simpa [h1, h2, h3, h4, hν₁, hν₂] using h μ
    refine ⟨rfl, fun ν => ?_, fun ν => ?_⟩
    · obtain ⟨μ, h1, h2, h3, h4⟩ := hi ν ν₂
      simpa [h1, h2, h3, h4, hν₂, h₁₂] using h μ
    · obtain ⟨μ, h1, h2, h3, h4⟩ := hi ν₁ ν
      simpa [h1, h2, h3, h4, hν₁, h₁₂] using h μ
  · rintro ⟨rfl, h1, h2⟩ ν
    simp [h1, h2]

theorem or_eq_iff {f g f' g' : (Nat → Bool) → Bool} {c : Bool} (hi : Independent f g f' g')
    (hf : ∀ b, ∃ ν, f ν = b) (hg : ∀ b, ∃ ν, g ν = b) (hg' : ∀ b, ∃ ν, g' ν = b) :
    (∀ ν, (f' ν || g' ν) = ((f ν || g ν) ^^ c)) ↔
      c = false ∧ (∀ ν, f' ν = f ν) ∧ ∀ ν, g' ν = g ν := by
  have onto : ∀ {h : (Nat → Bool) → Bool}, (∀ b, ∃ ν, h ν = b) → ∀ b, ∃ ν, (!h ν) = b := by
    intro h hh b
    obtain ⟨ν, hν⟩ := hh (!b)
    exact ⟨ν, by rw [hν, Bool.not_not]⟩
  have hi' : Independent (! f ·) (! g ·) (! f' ·) (! g' ·) := by
    intro ν ν'
    obtain ⟨μ, h1, h2, h3, h4⟩ := hi ν ν'
    exact ⟨μ, by simp [h1], by simp [h2], by simp [h3], by simp [h4]⟩
  have key : ∀ x y : Bool, ((!x) = (!y ^^ c)) ↔ (x = (y ^^ c)) := by decide +revert
  have h := and_eq_iff (c := c) hi' (onto hf) (onto hg) (onto hg')
  simpa only [← Bool.not_or, key, Bool.not_inj_iff] using h

theorem xor_eq_iff (a b c : Bool) : (a ^^ b) = c ↔ b = (c ^^ a) := by decide +revert

/-- The two operands of a connective can be given any values that they can have. -/
theorem independent_operands (l r : Expression) (k n : Nat) :
    Independent (l.value · k) (r.value · (k + l.count))
      ((negated n l.misread).value · k) (r.misread.value · (k + l.count)) := by
  intro ν ν'
  have hm : (negated n l.misread).count = l.count := by rw [count_negated, count_misread]
  exact ⟨splice (k + l.count) ν ν', value_splice_left l ν ν' (Nat.le_refl _),
    value_splice_left _ ν ν' (Nat.le_of_eq (by rw [hm])), value_splice_right r ν ν' _,
    value_splice_right _ ν ν' _⟩

/-- The expression that is computed has the right value, or the wrong one if `flipped`, for all
truth values of its predicates just if the early `NOT`s cancel. -/
theorem value_misread_iff (e : Expression) (flipped : Bool) (k : Nat) :
    (∀ ν, e.misread.value ν k = (e.value ν k ^^ flipped)) ↔ e.Cancels flipped := by
  induction e generalizing flipped k with
  | atomic a =>
    constructor
    · intro h
      simpa [misread, value, Cancels, eq_comm] using h fun _ => false
    · intro h ν
      rw [show flipped = false from h, Bool.xor_false]
      rfl
  | group _ _ e ih => exact ih flipped k
  | not e ih =>
    rw [Cancels, ← ih _ k]
    by_cases h : e.isNot = true
    · simp [misread, value, h]
    · simp [misread, value, h]
  | and l r ihl ihr =>
    have h := and_eq_iff (c := flipped) (independent_operands l r k r.lead)
      (l.exists_value_eq k) (r.exists_value_eq _) (r.misread.exists_value_eq _)
    simp only [value_negated, xor_eq_iff] at h
    simpa only [misread, value, value_negated, count_negated, count_misread, Cancels,
      ← ihl _ k, ← ihr _ (k + l.count), Bool.xor_false] using h
  | or l r ihl ihr =>
    have h := or_eq_iff (c := flipped) (independent_operands l r k r.lead)
      (l.exists_value_eq k) (r.exists_value_eq _) (r.misread.exists_value_eq _)
    simp only [value_negated, xor_eq_iff] at h
    simpa only [misread, value, value_negated, count_negated, count_misread, Cancels,
      ← ihl _ k, ← ihr _ (k + l.count), Bool.xor_false] using h

theorem notsCancel_of_not_hasDoubleNot {e : Expression} (h : ¬ e.HasDoubleNot) :
    e.NotsCancel := by
  induction e with
  | atomic a => exact ⟨rfl, rfl⟩
  | group _ _ e ih => exact ih h
  | not e ih =>
    obtain ⟨hn, he⟩ := not_or.mp h
    obtain ⟨hl, hc⟩ := ih he
    have hn : e.isNot = false := by simpa using hn
    exact ⟨by rw [lead, hn]; exact hl, by rw [Cancels, hn]; exact hc⟩
  | and l r ihl ihr | or l r ihl ihr =>
    obtain ⟨hl, hr⟩ := not_or.mp h
    refine ⟨(ihl hl).1, rfl, ?_, (ihr hr).2⟩
    rw [(ihr hr).1]
    exact (ihl hl).2

end Expression
end RecordQuery
