import RecordQuery.Proofs.Statement.Spelling
import RecordQuery.Proofs.Statement.Taking

/-! # Reading literals, casts and relations

Each function of the parser reads a node from a reader just if it takes tokens that spell the
node. -/

namespace RecordQuery

open Text TokenReader

namespace Parse

variable {r r' : TokenReader}

/-! ## Literals, casts and relations -/

/-- A number is read from its digits, with a sign before them or without. -/
theorem reads_number {what : Expectation} {n : NumberLiteral} :
    Reads (number what) r n r' ↔ ∃ ts, n.SpelledBy ts ∧ r.Takes ts r' := by
  unfold number
  rw [reads_peek_bind]
  constructor
  · by_cases hs : r.peek.isNumberSign = true
    · simp only [hs, if_true, reads_bind, reads_take (Token.isFinish_of_isNumberSign hs),
        reads_accept fun _ => Token.isFinish_of_isNumber, reads_pure]
      rintro ⟨sign, m, ht, digits, _, ⟨hd, hm⟩, rfl, rfl⟩
      rw [ht.1.1] at hs
      refine ⟨[sign, digits], ?_, ht.append hm⟩
      by_cases hm : sign.isSign .minus = true
      · rw [if_pos hm]
        exact .minus hm hd
      · rw [if_neg hm]
        exact .plus (by simpa [Token.isNumberSign, hm] using hs) hd
    · simp only [hs, Bool.false_eq_true, if_false, reads_bind,
        reads_accept fun _ => Token.isFinish_of_isNumber, reads_pure]
      rintro ⟨digits, _, ⟨hd, ht⟩, rfl, rfl⟩
      exact ⟨_, .unsigned hd, ht⟩
  · rintro ⟨_, ⟨hd⟩ | ⟨hs, hd⟩ | ⟨hs, hd⟩, ht⟩
    · simp only [ht.1.1, Token.isNumberSign_of_isNumber hd, Bool.false_eq_true, if_false,
        reads_bind, reads_accept fun _ => Token.isFinish_of_isNumber, reads_pure]
      exact ⟨_, _, ⟨hd, ht⟩, rfl, rfl⟩
    · obtain ⟨m, ht, hm⟩ := takes_cons_cons.mp ht
      have hs' := Token.isNumberSign_of_isSign_plus hs
      simp only [ht.1.1, hs', if_true, reads_bind, reads_take (ht.1.1 ▸ ht.1.2),
        reads_accept fun _ => Token.isFinish_of_isNumber, reads_pure]
      exact ⟨_, m, ht, _, _, ⟨hd, hm⟩, by simp [Token.isSign_of_ne hs], rfl⟩
    · obtain ⟨m, ht, hm⟩ := takes_cons_cons.mp ht
      have hs' := Token.isNumberSign_of_isSign_minus hs
      simp only [ht.1.1, hs', if_true, reads_bind, reads_take (ht.1.1 ▸ ht.1.2),
        reads_accept fun _ => Token.isFinish_of_isNumber, reads_pure]
      exact ⟨_, m, ht, _, _, ⟨hd, hm⟩, by simp [hs], rfl⟩

theorem first_of_number {n : NumberLiteral} {ts : List Token} (h : n.SpelledBy ts) :
    ∃ t us, ts = t :: us ∧ (t.isNumber || t.isNumberSign) = true := by
  cases h with
  | unsigned hd => exact ⟨_, _, rfl, by simp [hd]⟩
  | plus hs _ => exact ⟨_, _, rfl, by simp [Token.isNumberSign_of_isSign_plus hs]⟩
  | minus hs _ => exact ⟨_, _, rfl, by simp [Token.isNumberSign_of_isSign_minus hs]⟩

/-- A literal is read as a string or as a number by its first token. -/
theorem reads_literal {l : Literal} :
    Reads literal r l r' ↔ ∃ ts, l.SpelledBy ts ∧ r.Takes ts r' := by
  unfold literal
  rw [reads_peek_bind]
  constructor
  · split
    · next hs =>
      have hs : r.peek.kind = .string := beq_iff_eq.mp hs
      simp only [reads_bind, reads_take (Token.isFinish_of_kind hs nofun), reads_pure]
      rintro ⟨t, _, ht, rfl, rfl⟩
      exact ⟨_, .string (ht.1.1 ▸ hs), ht⟩
    · split
      · simp only [reads_bind, reads_number, reads_pure]
        rintro ⟨n, _, ⟨ts, hn, ht⟩, rfl, rfl⟩
        exact ⟨ts, .number hn, ht⟩
      · exact fun h => (not_reads_fail h).elim
  · rintro ⟨_, @⟨n, ts, hn⟩ | hs, ht⟩
    · obtain ⟨t, us, rfl, hd⟩ := first_of_number hn
      have hs : (t.kind == .string) = false := by
        rcases Bool.or_eq_true_iff.mp hd with h | h
        · rcases Token.kind_of_isNumber h with h | h <;> simp [h]
        · simp [Token.kind_of_isNumberSign h]
      simp only [ht.1.1, hs, hd, Bool.false_eq_true, if_false, if_true, reads_bind, reads_number,
        reads_pure]
      exact ⟨n, _, ⟨_, hn, ht⟩, rfl, rfl⟩
    · have hf := Token.isFinish_of_kind hs nofun
      rw [← ht.1.1] at hf hs
      simp only [hs, beq_self_eq_true, if_true, reads_bind, reads_take hf, reads_pure]
      exact ⟨_, _, ht, rfl, rfl⟩

theorem first_of_literal {l : Literal} {ts : List Token} (h : l.SpelledBy ts) :
    ∃ t us, ts = t :: us ∧ t.kind ≠ .keyword := by
  cases h with
  | string ht => exact ⟨_, _, rfl, by simp [ht]⟩
  | number hn =>
    obtain ⟨t, us, rfl, h⟩ := first_of_number hn
    refine ⟨t, us, rfl, ?_⟩
    rcases Bool.or_eq_true_iff.mp h with h | h
    · rcases Token.kind_of_isNumber h with h | h <;> simp [h]
    · simp [Token.kind_of_isNumberSign h]

theorem reads_relation {rel : Relation} :
    Reads relation r rel r' ↔ ∃ t, rel.SpelledBy t ∧ r.Takes [t] r' := by
  unfold relation
  rw [reads_peek_bind]
  constructor
  · split
    · next r₁ h =>
      have hk : r.peek.kind = .operator := by
        by_cases hk : r.peek.kind = .operator
        · exact hk
        · simp [hk] at h
      simp only [reads_bind, reads_take (Token.isFinish_of_kind hk nofun), reads_pure]
      rintro ⟨t, _, ht, rfl, rfl⟩
      obtain rfl := ht.1.1
      exact ⟨_, ⟨hk, by simpa [hk] using h⟩, ht⟩
    · exact fun h => (not_reads_fail h).elim
  · rintro ⟨t, ⟨hk, hr⟩, ht⟩
    have hf := Token.isFinish_of_kind hk nofun
    rw [← ht.1.1] at hf
    simp only [ht.1.1, hk, hr, beq_self_eq_true, if_true, reads_bind, reads_take hf, reads_pure]
    exact ⟨_, _, ht, trivial, rfl⟩

/-- A cast is read from its six tokens. -/
theorem reads_cast {c : Cast} : Reads cast r c r' ↔ ∃ ts, c.SpelledBy ts ∧ r.Takes ts r' := by
  unfold cast
  simp only [reads_bind, reads_keyword, reads_mark, reads_string, reads_name, reads_pure]
  constructor
  · rintro ⟨t₁, r₁, ⟨h₁, k₁⟩, t₂, r₂, ⟨h₂, k₂⟩, _, r₃, ⟨t₃, rfl, h₃, k₃⟩, t₄, r₄, ⟨h₄, k₄⟩,
      _, r₅, ⟨t₅, rfl, h₅, k₅⟩, t₆, r₆, ⟨h₆, k₆⟩, rfl, rfl⟩
    exact ⟨_, .mk h₁ h₂ h₃ h₄ h₅ h₆,
      k₁.append (k₂.append (k₃.append (k₄.append (k₅.append k₆))))⟩
  · rintro ⟨_, ⟨h₁, h₂, h₃, h₄, h₅, h₆⟩, ht⟩
    obtain ⟨r₁, k₁, ht⟩ := takes_cons_cons.mp ht
    obtain ⟨r₂, k₂, ht⟩ := takes_cons_cons.mp ht
    obtain ⟨r₃, k₃, ht⟩ := takes_cons_cons.mp ht
    obtain ⟨r₄, k₄, ht⟩ := takes_cons_cons.mp ht
    obtain ⟨r₅, k₅, k₆⟩ := takes_cons_cons.mp ht
    exact ⟨_, r₁, ⟨h₁, k₁⟩, _, r₂, ⟨h₂, k₂⟩, _, r₃, ⟨_, rfl, h₃, k₃⟩, _, r₄, ⟨h₄, k₄⟩,
      _, r₅, ⟨_, rfl, h₅, k₅⟩, _, _, ⟨h₆, k₆⟩, rfl, rfl⟩

theorem first_of_cast {c : Cast} {ts : List Token} (h : c.SpelledBy ts) :
    ∃ t us, ts = t :: us ∧ t.isKeyword .CAST = true := by
  cases h with
  | mk hc => exact ⟨_, _, rfl, hc⟩

end Parse

end RecordQuery
