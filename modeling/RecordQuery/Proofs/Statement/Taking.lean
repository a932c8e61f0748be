import RecordQuery.Proofs.Token.Tests

/-! # Taking tokens

What a function reads from a reader is said by the tokens that it takes: `TokenReader.Takes`
relates two readers and the tokens between them, and `Parse.Reads` says that a function gives a
result and leaves a certain reader behind. For each function on tokens the two are related, first
here for those that the others are made of. -/

namespace RecordQuery

namespace TokenReader

/-- The reader is at `r'` when it has taken the tokens `ts`. The token at the end of the text is
not among them. -/
def Takes (r : TokenReader) : List Token → TokenReader → Prop
  | [], r' => r' = r
  | t :: ts, r' => (r.peek = t ∧ t.isFinish = false) ∧ r.advance.Takes ts r'

theorem takes_cons {r r' : TokenReader} {t : Token} {ts : List Token} :
    r.Takes (t :: ts) r' ↔ (r.peek = t ∧ t.isFinish = false) ∧ r.advance.Takes ts r' := Iff.rfl

/-- Tokens are taken one after the other, so there is a reader between any two parts of them. -/
theorem takes_append {r r' : TokenReader} {ts us : List Token} :
    r.Takes (ts ++ us) r' ↔ ∃ m, r.Takes ts m ∧ m.Takes us r' := by
  induction ts generalizing r with
  | nil => exact ⟨fun h => ⟨r, rfl, h⟩, fun ⟨_, rfl, h⟩ => h⟩
  | cons t ts ih =>
    simp only [List.cons_append, takes_cons, ih]
    constructor
    · rintro ⟨h, m, hm, hr⟩
      exact ⟨m, ⟨h, hm⟩, hr⟩
    · rintro ⟨m, ⟨h, hm⟩, hr⟩
      exact ⟨h, m, hm, hr⟩

theorem Takes.append {r m r' : TokenReader} {ts us : List Token} (h : r.Takes ts m)
    (h' : m.Takes us r') : r.Takes (ts ++ us) r' :=
  takes_append.mpr ⟨m, h, h'⟩

theorem takes_head {r r' : TokenReader} {t : Token} {ts : List Token} :
    r.Takes (t :: ts) r' ↔ ∃ m, r.Takes [t] m ∧ m.Takes ts r' := by
  rw [← takes_append, List.singleton_append]

/-- One token is taken off only if another follows, so that rewriting ends. -/
theorem takes_cons_cons {r r' : TokenReader} {t u : Token} {ts : List Token} :
    r.Takes (t :: u :: ts) r' ↔ ∃ m, r.Takes [t] m ∧ m.Takes (u :: ts) r' :=
  takes_head

end TokenReader

namespace Parse

open TokenReader

/-- The function reads `a` from the reader `r`, which is then at `r'`. -/
def Reads (p : Parse α) (r : TokenReader) (a : α) (r' : TokenReader) : Prop :=
  (p r).value = some a ∧ (p r).next = r'

variable {r r' : TokenReader}

theorem reads_pure {a b : α} : Reads (Pure.pure a : Parse α) r b r' ↔ b = a ∧ r' = r := by
  show some a = some b ∧ r = r' ↔ _
  simp [eq_comm]

/-- What two functions in a row read: the first leaves a reader, and the second reads on from there.
-/
theorem reads_bind {p : Parse α} {f : α → Parse β} {b : β} :
    Reads (p >>= f) r b r' ↔ ∃ a m, Reads p r a m ∧ Reads (f a) m b r' := by
  unfold Reads
  rw [value_bind]
  cases ha : (p r).value with
  | none => simp
  | some a =>
    rw [next_bind_of_some ha]
    constructor
    · exact fun h => ⟨a, _, ⟨rfl, rfl⟩, h⟩
    · rintro ⟨_, _, ⟨⟨⟩, rfl⟩, h⟩
      exact h

theorem reads_bind_pure {p : Parse α} {f : α → β} {b : β} :
    Reads (p >>= fun a => Pure.pure (f a)) r b r' ↔ ∃ a, Reads p r a r' ∧ b = f a := by
  simp only [reads_bind, reads_pure]
  constructor
  · rintro ⟨a, m, h, rfl, rfl⟩
    exact ⟨a, h, rfl⟩
  · rintro ⟨a, h, rfl⟩
    exact ⟨a, r', h, rfl, rfl⟩

theorem reads_map {p : Parse α} {f : α → β} {b : β} :
    Reads (f <$> p) r b r' ↔ ∃ a, Reads p r a r' ∧ b = f a :=
  reads_bind_pure

/-- To look at the next token takes nothing. -/
theorem reads_peek_bind {f : Token → Parse α} {a : α} :
    Reads (peek >>= f) r a r' ↔ Reads (f r.peek) r a r' := Iff.rfl

theorem not_reads_fail {what : Expectation} {a : α} : ¬ Reads (fail what) r a r' :=
  fun h => nomatch h.1

theorem reads_take (hf : r.peek.isFinish = false) {t : Token} :
    Reads take r t r' ↔ r.Takes [t] r' := by
  show some r.peek = some t ∧ r.advance = r' ↔ (r.peek = t ∧ t.isFinish = false) ∧ r' = r.advance
  constructor
  · rintro ⟨h, rfl⟩
    cases h
    exact ⟨⟨rfl, hf⟩, rfl⟩
  · rintro ⟨⟨rfl, -⟩, rfl⟩
    exact ⟨rfl, rfl⟩

/-- A token is read just if the test allows it and it is taken. No test allows the end of the text.
-/
theorem reads_accept {test : Token → Bool} (hf : ∀ t, test t = true → t.isFinish = false)
    {what : Expectation} {t : Token} :
    Reads (accept test what) r t r' ↔ test t = true ∧ r.Takes [t] r' := by
  unfold accept
  rw [reads_peek_bind]
  split
  · next h =>
    rw [reads_take (hf _ h)]
    constructor
    · intro ht
      exact ⟨ht.1.1 ▸ h, ht⟩
    · exact fun ht => ht.2
  · next h =>
    constructor
    · exact fun hr => (not_reads_fail hr).elim
    · rintro ⟨ht, ⟨rfl, -⟩, -⟩
      exact absurd ht h

/-! ## Words, names and strings -/

/-- A keyword that has been looked at is taken, and then the rest is read. -/
theorem reads_take_bind {k : Keyword} (hk : r.peek.isKeyword k = true) {f : Token → Parse α}
    {a : α} : Reads (take >>= f) r a r' ↔
      ∃ t m, t.isKeyword k = true ∧ r.Takes [t] m ∧ Reads (f t) m a r' := by
  simp only [reads_bind, reads_take (Token.isFinish_of_isKeyword hk)]
  constructor
  · rintro ⟨t, m, ht, h⟩
    exact ⟨t, m, ht.1.1 ▸ hk, ht, h⟩
  · rintro ⟨t, m, -, ht, h⟩
    exact ⟨t, m, ht, h⟩

theorem reads_keyword {k : Keyword} {t : Token} :
    Reads (keyword k) r t r' ↔ t.isKeyword k = true ∧ r.Takes [t] r' :=
  reads_accept fun _ => Token.isFinish_of_isKeyword

theorem reads_mark {m : Mark} {t : Token} :
    Reads (mark m) r t r' ↔ t.isMark m = true ∧ r.Takes [t] r' :=
  reads_accept fun _ => Token.isFinish_of_isMark

/-- A name is read just from one token that is a name, and it is made of that token. -/
theorem reads_name {what : Expectation} {n : Name} :
    Reads (name what) r n r' ↔ ∃ t, n = .ofToken t ∧ t.isName = true ∧ r.Takes [t] r' := by
  unfold name
  simp only [reads_bind, reads_accept fun _ => Token.isFinish_of_isName, reads_pure]
  constructor
  · rintro ⟨t, m, h, rfl, rfl⟩
    exact ⟨t, rfl, h⟩
  · rintro ⟨t, rfl, h⟩
    exact ⟨t, r', h, rfl, rfl⟩

theorem reads_string {what : Expectation} {s : StringLiteral} :
    Reads (string what) r s r' ↔ ∃ t, s = .ofToken t ∧ t.kind = .string ∧ r.Takes [t] r' := by
  unfold string
  have hf (t : Token) (h : (t.kind == .string) = true) : t.isFinish = false :=
    Token.isFinish_of_kind (beq_iff_eq.mp h) nofun
  simp only [reads_bind, reads_accept hf, reads_pure, beq_iff_eq]
  constructor
  · rintro ⟨t, m, h, rfl, rfl⟩
    exact ⟨t, rfl, h⟩
  · rintro ⟨t, rfl, h⟩
    exact ⟨t, r', h, rfl, rfl⟩

end Parse

end RecordQuery
