import RecordQuery.Statement.Parser

/-! # The tests of a token

A token that passes one of the tests of the parser has the kind that the test asks for, so it
passes no test that asks for another kind, or for another word, sign or mark. -/

namespace RecordQuery
namespace Token

variable {t : Token}

/-- The token at the end of the text is of a kind of its own. -/
theorem isFinish_of_kind {k : Kind} (h : t.kind = k) (hk : k ≠ .finish) :
    t.isFinish = false := by
  simpa [isFinish, h] using hk

theorem isFinish_of_isNumber (h : t.isNumber = true) : t.isFinish = false := by
  simp only [isNumber, Bool.or_eq_true, beq_iff_eq] at h
  rcases h with h | h <;> exact isFinish_of_kind h nofun

theorem kind_of_isSign {o : Sign} (h : t.isSign o = true) : t.kind = .operator := by
  simp only [isSign, sign?] at h
  split at h
  · assumption
  · cases h

theorem isFinish_of_isSign {o : Sign} (h : t.isSign o = true) : t.isFinish = false :=
  isFinish_of_kind (kind_of_isSign h) nofun

theorem kind_of_isMark {m : Mark} (h : t.isMark m = true) : t.kind = .punctuator := by
  simp only [isMark, mark?] at h
  split at h
  · assumption
  · cases h

theorem kind_of_isKeyword {k : Keyword} (h : t.isKeyword k = true) : t.kind = .keyword := by
  simp only [isKeyword, keyword?] at h
  split at h
  · assumption
  · cases h

/-- A token is one keyword at most. -/
theorem keyword?_of_isKeyword {k : Keyword} (h : t.isKeyword k = true) : t.keyword? = some k :=
  beq_iff_eq.mp h

theorem isSign_of_ne {o o' : Sign} (h : t.isSign o = true) (hne : o ≠ o') :
    t.isSign o' = false := by
  simpa [isSign, beq_iff_eq.mp h] using hne

theorem isMark_of_ne {m m' : Mark} (h : t.isMark m = true) (hne : m ≠ m') :
    t.isMark m' = false := by
  simpa [isMark, beq_iff_eq.mp h] using hne

theorem isKeyword_of_ne {k k' : Keyword} (h : t.isKeyword k = true) (hne : k ≠ k') :
    t.isKeyword k' = false := by
  simpa [isKeyword, beq_iff_eq.mp h] using hne

theorem isKeyword_inj {k k' : Keyword} (h : t.isKeyword k = true) (h' : t.isKeyword k' = true) :
    k = k' :=
  Option.some.inj ((beq_iff_eq.mp h).symm.trans (beq_iff_eq.mp h'))

theorem isSign_of_kind (h : t.kind ≠ .operator) (o : Sign) : t.isSign o = false := by
  simp [isSign, sign?, h]

theorem isMark_of_kind (h : t.kind ≠ .punctuator) (m : Mark) : t.isMark m = false := by
  simp [isMark, mark?, h]

theorem isKeyword_of_kind (h : t.kind ≠ .keyword) (k : Keyword) : t.isKeyword k = false := by
  simp [isKeyword, keyword?, h]

theorem isMark_of_isFinish (h : t.isFinish = true) (m : Mark) : t.isMark m = false :=
  isMark_of_kind (by simp [beq_iff_eq.mp h]) m

theorem isKeyword_of_isFinish (h : t.isFinish = true) (k : Keyword) : t.isKeyword k = false :=
  isKeyword_of_kind (by simp [beq_iff_eq.mp h]) k

theorem isNumberSign_of_kind (h : t.kind ≠ .operator) : t.isNumberSign = false := by
  simp [isNumberSign, isSign_of_kind h]

theorem kind_of_isNumber (h : t.isNumber = true) : t.kind = .integer ∨ t.kind = .float := by
  simpa [isNumber] using h

/-- Digits are told from a sign by their kind. -/
theorem isNumberSign_of_isNumber (h : t.isNumber = true) : t.isNumberSign = false := by
  rcases kind_of_isNumber h with h | h <;> exact isNumberSign_of_kind (by simp [h])

/-- The sign of a number is an operator. -/
theorem kind_of_isNumberSign (h : t.isNumberSign = true) : t.kind = .operator := by
  simp only [isNumberSign, Bool.or_eq_true] at h
  rcases h with h | h <;> exact kind_of_isSign h

theorem isFinish_of_isNumberSign (h : t.isNumberSign = true) : t.isFinish = false :=
  isFinish_of_kind (kind_of_isNumberSign h) nofun

theorem isNumberSign_of_isSign_plus (h : t.isSign .plus = true) : t.isNumberSign = true := by
  simp [isNumberSign, h]

theorem isNumberSign_of_isSign_minus (h : t.isSign .minus = true) : t.isNumberSign = true := by
  simp [isNumberSign, h]

/-- Names are identifiers, or keywords that need no quotes. -/
theorem kind_of_isName (h : t.isName = true) : t.kind = .identifier ∨ t.kind = .keyword := by
  unfold isName at h
  split at h
  · next hk => exact .inl hk
  · next hk => exact .inr hk
  · cases h

/-- A reserved word is no name, unless it is quoted, and then it is no keyword. -/
theorem isKeyword_of_isName {k : Keyword} (h : t.isName = true) (hk : k.isReserved = true) :
    t.isKeyword k = false := by
  rw [← Bool.not_eq_true]
  intro hw
  simp [isName, kind_of_isKeyword hw, isReserved, keyword?_of_isKeyword hw, hk] at h

theorem isMark_of_isName (h : t.isName = true) (m : Mark) : t.isMark m = false := by
  rcases kind_of_isName h with h | h <;> exact isMark_of_kind (by simp [h]) m

end Token
end RecordQuery
