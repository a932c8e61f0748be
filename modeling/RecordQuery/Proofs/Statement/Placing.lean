import RecordQuery.Proofs.Statement.Proceeding
import RecordQuery.Proofs.Statement.Session
import RecordQuery.Proofs.Token.Coverage

/-! # Where errors are found

Every error is found at a place of the text where something begins: a token that the grammar does
not allow, a fault of the lexer, or the end of the text (`Statement.marksIn_of_parse`).

A reader does few things while it reads. It passes a token, it enters a clause, and it reports the
token that it has or the one ahead (`TokenReader.Reaches`). What these keep true of the places that
the reader holds is true of it when it has read (`TokenReader.Places`). -/

namespace RecordQuery

open Text

/-! ## Places of a text -/

/-- The position is that of a place in the text `s`, and no blank stands there. -/
structure Text.Position.MarksIn (p : Position) (s : String) : Prop where
  eq_after : p = Position.start.after (s.toList.take p.offset)
  isBlank : ∀ c, s.toList[p.offset]? = some c → isBlank c = false

theorem Text.Cursor.StandsIn.marksIn {c : Cursor} {s : String} (h : c.StandsIn s) :
    c.skipBlanks.position.MarksIn s where
  eq_after := h.skipBlanks.position
  isBlank := by
    intro b hb
    have hr := h.skipBlanks.getElem? 0
    rw [Nat.add_zero, hb, Cursor.skipBlanks_rest, ← List.head?_eq_getElem?] at hr
    have := List.head?_dropWhile_not isBlank c.rest
    rw [← hr] at this
    exact this

namespace Token

variable {s : String}

theorem marksIn_of_mem_tokens {c : Cursor} (h : c.StandsIn s) {t : Token} (ht : t ∈ tokens c) :
    t.position.MarksIn s := by
  induction c using tokens.induct with
  | case1 c hf =>
    rw [tokens, if_pos hf] at ht
    cases ht
  | case2 c hf ih =>
    rw [tokens, if_neg hf] at ht
    cases ht with
    | head => exact next_position c ▸ h.marksIn
    | tail _ ht => exact ih (next_standsIn h) ht

theorem marksIn_last {c : Cursor} (h : c.StandsIn s) : (last c).position.MarksIn s := by
  induction c using last.induct with
  | case1 c hf =>
    rw [last, if_pos hf, next_position]
    exact h.marksIn
  | case2 c hf ih =>
    rw [last, if_neg hf]
    exact ih (next_standsIn h)

end Token

namespace TokenStream

theorem finish_ofTokens (p : Position) (ts : List Token) : (ofTokens p ts).finish = p := by
  induction ts with
  | nil => rfl
  | cons t ts ih =>
    rw [ofTokens, List.foldr_cons, ← ofTokens, cons]
    split
    · exact ih
    · unfold withFault
      split <;> exact ih
    · exact ih

theorem position_of_fault? {t : Token} {m : Misread} (h : t.fault? = some m) :
    m.position = t.position := by
  unfold Token.fault? at h
  split at h
  · cases h; rfl
  · cases h

end TokenStream

/-! ## What a reader does -/

namespace TokenReader

/-- The reader `r'` is reached from `r` by passing tokens, entering clauses, and reporting the
token that is current or the next one. -/
inductive Reaches (r : TokenReader) : TokenReader → Prop
  | refl : Reaches r r
  | advance {m : TokenReader} (h : Reaches r m) : Reaches r m.advance
  | enter {m : TokenReader} (h : Reaches r m) (c : Clause) : Reaches r (m.enter c)
  | reportCurrent {m : TokenReader} (h : Reaches r m) (cause : SyntaxError.Cause) :
    Reaches r (m.report cause m.current.position)
  | reportPeek {m : TokenReader} (h : Reaches r m) (cause : SyntaxError.Cause) :
    Reaches r (m.report cause m.peek.position)

variable {r r' m : TokenReader}

theorem Proceeds.reaches (h : Proceeds r r') : Reaches r r' := by
  induction h with
  | refl => exact .refl
  | advance _ ih => exact ih.advance
  | enter _ c ih => exact ih.enter c
  | refuse _ what ih => exact ih.reportPeek _

theorem Ends.reaches (h : Ends r r') : Reaches r r' := by
  cases h with
  | finished h _ => exact h.reaches
  | surplus h _ => exact h.reaches.reportPeek _

/-- However a statement is read, only these things are done. -/
theorem reaches_readStatement (r : TokenReader) : Reaches r r.readStatement.2 := by
  by_cases hk : r.current.isKeyword .SELECT = true
  · exact (ends_readStatement hk).reaches
  · rw [readStatement_of_not_select (Bool.eq_false_iff.mpr hk)]
    exact (Reaches.refl.enter .select).reportCurrent _

/-! ## The places that a reader holds -/

/-- All that the reader holds, in front of it and among its errors, is at a place of which `P` is
true. -/
structure Places (P : Position → Prop) (r : TokenReader) : Prop where
  current : P r.current.position
  tokens : ∀ s ∈ r.ahead, P s.token.position
  faults : ∀ s ∈ r.ahead, ∀ m ∈ s.faults, P m.position
  trailing : ∀ m ∈ r.trailing, P m.position
  finish : P r.finish
  errors : ∀ e ∈ r.errors, P e.position

namespace Places

variable {P : Position → Prop}

theorem peek (h : Places P r) : P r.peek.position := by
  unfold TokenReader.peek
  split
  · exact h.finish
  · next s rest hs => exact h.tokens s (hs ▸ List.mem_cons_self)

theorem upcoming (h : Places P r) : ∀ m ∈ r.upcoming, P m.position := by
  unfold TokenReader.upcoming
  split
  · exact h.trailing
  · next s rest hs => exact h.faults s (hs ▸ List.mem_cons_self)

theorem report (h : Places P r) {p : Position} (hp : P p) (cause : SyntaxError.Cause) :
    Places P (r.report cause p) where
  __ := h
  errors := List.forall_mem_append.mpr ⟨h.errors, by simpa using hp⟩

theorem reportUpcoming (h : Places P r) : Places P r.reportUpcoming where
  __ := h
  errors := List.forall_mem_append.mpr ⟨h.errors, by simpa using h.upcoming⟩

theorem enter (h : Places P r) (c : Clause) : Places P (r.enter c) where
  __ := h

theorem advance (h : Places P r) : Places P r.advance := by
  have hp := h.peek
  unfold TokenReader.peek at hp
  unfold TokenReader.advance
  split at hp
  · exact { h with current := hp }
  · next s rest hs =>
    refine reportUpcoming ?_
    exact { h with
      current := hp
      tokens := fun t ht => h.tokens t (hs ▸ List.mem_cons_of_mem s ht)
      faults := fun t ht => h.faults t (hs ▸ List.mem_cons_of_mem s ht) }

theorem of_reaches (h : Places P r) (hr : Reaches r r') : Places P r' := by
  induction hr with
  | refl => exact h
  | advance _ ih => exact ih.advance
  | enter _ c ih => exact ih.enter c
  | reportCurrent _ cause ih => exact ih.report ih.current cause
  | reportPeek _ cause ih => exact ih.report ih.peek cause

/-- A reader of tokens that are at such places, with the end of their text at one, holds no other
place at first. -/
theorem ofTokens {p : Position} {ts : List Token} (hp : P p) (h : ∀ t ∈ ts, P t.position) :
    Places P (ofStream (.ofTokens p ts)) := by
  have hf : ∀ m ∈ (TokenStream.ofTokens p ts).faults, P m.position := by
    intro m hm
    rw [TokenStream.faults_ofTokens] at hm
    obtain ⟨t, ht, hm⟩ := List.mem_filterMap.mp hm
    exact TokenStream.position_of_fault? hm ▸ h t ht
  unfold TokenStream.faults at hf
  rw [List.forall_mem_append] at hf
  refine (reportUpcoming ?_).advance
  constructor
  case current | finish => exact (TokenStream.finish_ofTokens p ts).symm ▸ hp
  case tokens =>
    intro s hs
    have ht : s.token ∈ (TokenStream.ofTokens p ts).tokens := List.mem_map_of_mem hs
    rw [TokenStream.tokens_ofTokens] at ht
    exact h _ (List.mem_of_mem_filter ht)
  case faults => exact fun s hs m hm => hf.1 m (List.mem_flatMap_of_mem hs hm)
  case trailing => exact hf.2
  case errors => exact List.forall_mem_nil _

end Places
end TokenReader

open TokenReader

/-- Every error of a text is at a place in it, and no blank stands there. -/
theorem Statement.marksIn_of_parse {text : String} {errors : List SyntaxError}
    (h : Statement.parse text = .error errors) : ∀ e ∈ errors, e.position.MarksIn text := by
  have hs := Cursor.StandsIn.ofString text
  have hr : Places (·.MarksIn text) (ofString text) :=
    .ofTokens (Token.marksIn_last hs) fun t ht => Token.marksIn_of_mem_tokens hs ht
  obtain ⟨rfl, -⟩ := errors_of_parse h
  exact (hr.of_reaches (reaches_readStatement _)).errors

end RecordQuery
