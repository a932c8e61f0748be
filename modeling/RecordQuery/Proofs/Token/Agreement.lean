import Mathlib.Data.List.Forall2
import RecordQuery.Proofs.Token.Alone
import RecordQuery.Proofs.Token.Stream

/-! # Tokens that agree

Two tokens agree if they have the same kind and the same literal, wherever they stand; a reserved
word may also be written in another case. No test of the parser tells such tokens apart, and a text
has the same tokens wherever it stands in another one, up to agreement. -/

namespace RecordQuery

open Text

namespace Token

structure Agrees (t u : Token) : Prop where
  kind : t.kind = u.kind
  literal : t.literal = u.literal ∨
    ∃ k : Keyword, k.isReserved = true ∧ t.isKeyword k = true ∧ u.isKeyword k = true

/-- The tokens agree, one by one. -/
def AllAgree : List Token → List Token → Prop := List.Forall₂ Agrees

variable {t u : Token}

namespace Agrees

theorem of_eq (hk : t.kind = u.kind) (hl : t.literal = u.literal) : t.Agrees u := ⟨hk, .inl hl⟩

theorem refl (t : Token) : t.Agrees t := of_eq rfl rfl

theorem symm (h : t.Agrees u) : u.Agrees t :=
  ⟨h.kind.symm, h.literal.imp Eq.symm fun ⟨k, hr, ht, hu⟩ => ⟨k, hr, hu, ht⟩⟩

theorem trans {v : Token} (h : t.Agrees u) (h' : u.Agrees v) : t.Agrees v := by
  refine ⟨h.kind.trans h'.kind, ?_⟩
  rcases h.literal with hl | ⟨k, hr, ht, hu⟩
  · refine h'.literal.imp hl.trans fun ⟨k, hr, hu, hv⟩ => ⟨k, hr, ?_, hv⟩
    rw [Token.isKeyword, Token.keyword?, h.kind, hl]
    exact hu
  · refine .inr ⟨k, hr, ht, ?_⟩
    rcases h'.literal with hl | ⟨k', -, hu', hv⟩
    · rw [Token.isKeyword, Token.keyword?, ← h'.kind, ← hl]
      exact hu
    · obtain rfl := isKeyword_inj hu hu'
      exact hv

/-- Keywords are matched in any case, so agreeing tokens are the same keyword. -/
theorem keyword? (h : t.Agrees u) : t.keyword? = u.keyword? := by
  rcases h.literal with hl | ⟨k, -, ht, hu⟩
  · rw [Token.keyword?, Token.keyword?, h.kind, hl]
  · rw [keyword?_of_isKeyword ht, keyword?_of_isKeyword hu]

theorem isKeyword (h : t.Agrees u) (k : Keyword) : t.isKeyword k = u.isKeyword k := by
  rw [Token.isKeyword, Token.isKeyword, h.keyword?]

theorem isReserved (h : t.Agrees u) : t.isReserved = u.isReserved := by
  rw [Token.isReserved, Token.isReserved, h.keyword?]

theorem opensClause (h : t.Agrees u) : t.opensClause = u.opensClause := by
  rw [Token.opensClause, Token.opensClause, h.keyword?]

/-- Only reserved words may be written in another case. -/
theorem literal_eq (h : t.Agrees u) (hr : t.isReserved = false) : t.literal = u.literal := by
  rcases h.literal with hl | ⟨k, hk, ht, -⟩
  · exact hl
  · simp [Token.isReserved, keyword?_of_isKeyword ht, hk] at hr

theorem literal_eq_of_kind (h : t.Agrees u) (hk : t.kind ≠ .keyword) : t.literal = u.literal :=
  h.literal_eq (by simp [Token.isReserved, Token.keyword?, hk])

theorem sign? (h : t.Agrees u) : t.sign? = u.sign? := by
  by_cases hk : t.kind = .operator
  · rw [Token.sign?, Token.sign?, ← h.kind, h.literal_eq_of_kind (by simp [hk])]
  · rw [Token.sign?, Token.sign?, ← h.kind, if_neg hk, if_neg hk]

theorem mark? (h : t.Agrees u) : t.mark? = u.mark? := by
  by_cases hk : t.kind = .punctuator
  · rw [Token.mark?, Token.mark?, ← h.kind, h.literal_eq_of_kind (by simp [hk])]
  · rw [Token.mark?, Token.mark?, ← h.kind, if_neg hk, if_neg hk]

theorem isSign (h : t.Agrees u) (o : Sign) : t.isSign o = u.isSign o := by
  rw [Token.isSign, Token.isSign, h.sign?]

theorem isMark (h : t.Agrees u) (m : Mark) : t.isMark m = u.isMark m := by
  rw [Token.isMark, Token.isMark, h.mark?]

/-- Neither the kind nor the keyword tells agreeing tokens apart, and nothing else makes a name. -/
theorem isName (h : t.Agrees u) : t.isName = u.isName := by
  rw [Token.isName, Token.isName, h.kind, h.isReserved]

theorem isNumber (h : t.Agrees u) : t.isNumber = u.isNumber := by
  rw [Token.isNumber, Token.isNumber, h.kind]

theorem isFinish (h : t.Agrees u) : t.isFinish = u.isFinish := by
  rw [Token.isFinish, Token.isFinish, h.kind]

theorem matters (h : t.Agrees u) : t.matters = u.matters := by
  rw [Token.matters, Token.matters, h.kind]

/-- The words for collections are matched in any case too, and are not reserved. -/
theorem indexCollection? (h : t.Agrees u) : t.indexCollection? = u.indexCollection? := by
  rw [Token.indexCollection?, Token.indexCollection?, h.keyword?]

theorem beginsIndexRelation (h : t.Agrees u) : t.beginsIndexRelation = u.beginsIndexRelation := by
  simp only [Token.beginsIndexRelation, h.kind, h.isKeyword]

theorem indexRelation? (h : t.Agrees u) : t.indexRelation? = u.indexRelation? := by
  simp only [Token.indexRelation?, h.isSign, h.isKeyword]

/-- A name is no reserved word, so its case matters. -/
theorem literal_eq_of_isName (h : t.Agrees u) (hn : t.isName = true) : t.literal = u.literal := by
  rcases h.literal with hl | ⟨k, hk, ht, -⟩
  · exact hl
  · exact absurd ht (by simp [isKeyword_of_isName hn hk])

theorem literal_eq_of_isNumber (h : t.Agrees u) (hn : t.isNumber = true) :
    t.literal = u.literal := by
  refine h.literal_eq_of_kind fun hk => ?_
  rcases kind_of_isNumber hn with hn | hn <;> simp [hn] at hk

end Agrees

/-! ## Lists of tokens that agree -/

namespace AllAgree

variable {ts us : List Token}

theorem refl (ts : List Token) : AllAgree ts ts := by
  induction ts with
  | nil => exact .nil
  | cons t ts ih => exact .cons (.refl t) ih

theorem symm (h : AllAgree ts us) : AllAgree us ts :=
  (List.Forall₂.imp (fun _ _ => Agrees.symm) h).flip

theorem trans {vs : List Token} (h : AllAgree ts us) (h' : AllAgree us vs) : AllAgree ts vs := by
  induction h generalizing vs with
  | nil => exact h'
  | cons h _ ih =>
    cases h' with
    | cons h₁ h' => exact .cons (h.trans h₁) (ih h')

theorem append {ts' us' : List Token} (h : AllAgree ts us) (h' : AllAgree ts' us') :
    AllAgree (ts ++ ts') (us ++ us') :=
  List.rel_append h h'

/-- What agrees with the one half of a list and what agrees with the other half. -/
theorem exists_append {ts'} (h : AllAgree (ts ++ ts') us) :
    ∃ vs ws, us = vs ++ ws ∧ AllAgree ts vs ∧ AllAgree ts' ws := by
  induction ts generalizing us with
  | nil => exact ⟨[], us, rfl, .nil, h⟩
  | cons t ts ih =>
    cases h with
    | cons ht h =>
      obtain ⟨vs, ws, rfl, hv, hw⟩ := ih h
      exact ⟨_ :: vs, ws, rfl, .cons ht hv, hw⟩

/-- What agrees with a list has a token in the place of each token of it. -/
theorem exists_append_cons {ts'} (h : AllAgree (ts ++ t :: ts') us) :
    ∃ vs v ws, us = vs ++ v :: ws ∧ AllAgree ts vs ∧ t.Agrees v ∧ AllAgree ts' ws := by
  obtain ⟨vs, _, rfl, hvs, _ | ⟨ht, hws⟩⟩ := h.exists_append
  exact ⟨vs, _, _, rfl, hvs, ht, hws⟩

/-- The tokens that the parser gets to see agree with each other as all tokens do. -/
theorem filter_matters (h : AllAgree ts us) :
    AllAgree (ts.filter Token.matters) (us.filter Token.matters) :=
  List.rel_filter (fun _ _ h => by simp [h.matters]) h

end AllAgree

/-! ## The tokens of a text at two places -/

/-- From two places in front of the same text the same tokens are read. The induction is on the
cursor, since a token may take any number of characters. -/
theorem agree_tokens (cs : List Char) (p q : Position) :
    AllAgree (tokens ⟨p, cs⟩) (tokens ⟨q, cs⟩) := by
  suffices h : ∀ c : Cursor, ∀ q, AllAgree (tokens c) (tokens ⟨q, c.rest⟩) from h ⟨p, cs⟩ q
  intro c
  induction c using cursor_induction with
  | finish p =>
    intro q
    rw [tokens_nil, tokens_nil]
    exact .nil
  | blank p b cs hb ih =>
    intro q
    rw [tokens_blank p hb, tokens_blank q hb]
    exact ih _
  | token p c cs hc ih =>
    intro q
    rw [tokens_cons p hc, tokens_cons q hc]
    exact .cons (.of_eq rfl rfl) (ih _)

end Token

end RecordQuery
