import RecordQuery.Proofs.Statement.Reports

/-! # How a reader proceeds

While it reads the clauses of a statement, a reader does three things only: it passes a token, it
enters a clause, or it refuses the next token (`TokenReader.Proceeds`). When it has read them, it
is at the end of the text, or it reports that the statement goes on
(`TokenReader.ends_readStatement`). -/

namespace RecordQuery

namespace TokenReader

/-- The reader `r'` is reached from `r` by passing tokens, entering clauses, and refusing the next
token. -/
inductive Proceeds (r : TokenReader) : TokenReader → Prop
  | refl : Proceeds r r
  | advance {m : TokenReader} (h : Proceeds r m) : Proceeds r m.advance
  | enter {m : TokenReader} (h : Proceeds r m) (c : Clause) : Proceeds r (m.enter c)
  | refuse {m : TokenReader} (h : Proceeds r m) (what : Expectation) :
    Proceeds r (m.report (.expected what m.peek) m.peek.position)

/-- The reader `r'` is at the end of the text, or it has reported the next token as one that stands
behind the end of the statement. -/
inductive Ends (r : TokenReader) : TokenReader → Prop
  | finished {m : TokenReader} (h : Proceeds r m) (hf : m.peek.isFinish = true) : Ends r m
  | surplus {m : TokenReader} (h : Proceeds r m) (hf : m.peek.isFinish = false) :
    Ends r (m.report (.trailing m.peek) m.peek.position)

variable {r r' m : TokenReader}

theorem Proceeds.trans (h : Proceeds r m) (h' : Proceeds m r') : Proceeds r r' := by
  induction h' with
  | refl => exact h
  | advance _ ih => exact ih.advance
  | enter _ c ih => exact ih.enter c
  | refuse _ what ih => exact ih.refuse what

theorem Proceeds.skipToClause (h : Proceeds r m) : Proceeds r m.skipToClause := by
  induction m using skipToClause.induct with
  | case1 m hf =>
    rw [TokenReader.skipToClause, if_pos hf]
    exact h
  | case2 m hf ih =>
    rw [TokenReader.skipToClause, if_neg hf]
    exact ih h.advance

theorem Takes.proceeds {ts : List Token} (h : r.Takes ts r') : Proceeds r r' := by
  induction ts generalizing r with
  | nil =>
    cases h
    exact .refl
  | cons t ts ih => exact Proceeds.refl.advance.trans (ih h.2)

end TokenReader

open TokenReader

theorem Parse.Leaves.proceeds {r r' : TokenReader} {o : Option α} (h : Leaves r o r') :
    Proceeds r r' := by
  cases h with
  | read ht _ => exact ht.proceeds
  | refused ht _ => exact ht.proceeds.refuse _

namespace TokenReader

variable {r m : TokenReader}

theorem proceeds_source (r : TokenReader) : Proceeds r (Parse.source r).next := by
  by_cases hf : r.peek.isKeyword .FROM = true
  · exact Proceeds.refl.advance.trans (leaves_source hf).proceeds
  · rw [(source_of_not_from (Bool.eq_false_iff.mpr hf)).2]
    exact Proceeds.refl.refuse _

theorem Proceeds.attempt {p : Parse α} (h : Proceeds r m) (hp : Proceeds m (p m).next) :
    Proceeds r (m.attempt p).2 := by
  unfold TokenReader.attempt
  split
  · exact h.trans hp
  · exact (h.trans hp).skipToClause

theorem Proceeds.attemptClause {c : Clause} {p : Token → Parse α} (h : Proceeds r m)
    (hp : ∀ t m, Parse.Stops (p t) m) : Proceeds r (m.attemptClause c p).2 := by
  by_cases hk : m.peek.isKeyword c.keyword = true
  · rw [attemptClause_of_isKeyword hk]
    exact (h.advance.enter c).attempt (hp m.peek _).proceeds
  · rw [attemptClause_of_not_isKeyword (Bool.eq_false_iff.mpr hk)]
    exact h

theorem Proceeds.ends_concluded (h : Proceeds r m) : Ends r m.concluded := by
  have hs : Proceeds r m.skipSemicolon := by
    unfold skipSemicolon
    split
    · exact h.advance
    · exact h
  unfold TokenReader.concluded
  split
  · next hf => exact .finished hs hf
  · next hf => exact .surplus hs (Bool.eq_false_iff.mpr hf)

/-- However a statement is read, only these things are done. -/
theorem ends_readStatement (hk : r.current.isKeyword .SELECT = true) :
    Ends r r.readStatement.2 := by
  rw [(readStatement_eq hk).1]
  have hx := (Proceeds.refl.enter (r := r) .select).attempt (Parse.stops_selectList _).proceeds
  have hy := (hx.enter .source).attempt (proceeds_source _)
  have hz := hy.attemptClause (c := .index) fun _ => Parse.stops_index
  exact (hz.attemptClause Parse.stops_condition).ends_concluded

/-- Where no statement begins, none is read. -/
theorem readStatement_of_not_select (hk : r.current.isKeyword .SELECT = false) :
    r.readStatement = (none, (r.enter .select).report (.expected (.keyword .SELECT) r.current)
      r.current.position) := by
  unfold readStatement
  rw [hk, if_neg Bool.false_ne_true]
  rfl

end TokenReader

end RecordQuery
