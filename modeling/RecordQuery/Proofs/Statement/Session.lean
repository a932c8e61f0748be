import RecordQuery.Proofs.Statement.Reports

/-! # Reading on and on

A reader can be asked for a statement more than once: by `parse`, which hands the errors out, or
by `readStatement`, which leaves them with the reader. Whatever it was asked before, it does not
fail in silence (`TokenReader.accounts_afterAll`). Every function that gives no result has added an
error (`TokenReader.Adds`), so `parse` never has to make one up. -/

namespace RecordQuery

namespace TokenReader

variable {r r' m : TokenReader} {must must' : Prop}

/-! ## Errors that are added -/

/-- From `r` to `r'` errors have been added, each with something to blame for it; one at least if
`must` is so. -/
def Adds (must : Prop) (r r' : TokenReader) : Prop :=
  ∃ es, r'.errors = r.errors ++ es ∧ (∀ e ∈ es, e.cause ≠ .unparsed) ∧ (must → es ≠ [])

namespace Adds

theorem of_errors_eq (h : r'.errors = r.errors) : Adds False r r' :=
  ⟨[], by rw [h, List.append_nil], List.forall_mem_nil _, False.elim⟩

theorem trans (h : Adds must r m) (h' : Adds must' m r') : Adds (must ∨ must') r r' := by
  obtain ⟨es, he, hc, hn⟩ := h
  obtain ⟨es', he', hc', hn'⟩ := h'
  refine ⟨es ++ es', by rw [he', he, List.append_assoc],
    List.forall_mem_append.mpr ⟨hc, hc'⟩, ?_⟩
  intro h
  cases h with
  | inl h => exact List.append_ne_nil_of_left_ne_nil (hn h) es'
  | inr h => exact List.append_ne_nil_of_right_ne_nil es (hn' h)

theorem mono (h : Adds must r r') (hm : must' → must) : Adds must' r r' := by
  obtain ⟨es, he, hc, hn⟩ := h
  exact ⟨es, he, hc, fun h => hn (hm h)⟩

theorem after (h : Adds must m r') (h' : Adds False r m) : Adds must r r' :=
  (h'.trans h).mono .inr

theorem before (h : Adds must r m) (h' : Adds False m r') : Adds must r r' :=
  (h.trans h').mono .inl

end Adds

theorem adds_report {cause : SyntaxError.Cause} (hc : cause ≠ .unparsed) (p : Text.Position) :
    Adds must r (r.report cause p) :=
  ⟨_, rfl, by simpa using hc, fun _ => List.cons_ne_nil _ _⟩

theorem adds_expected (what : Expectation) (found : Token) (p : Text.Position) :
    Adds must r (r.report (.expected what found) p) := by
  apply adds_report
  exact nofun

theorem adds_reportUpcoming (r : TokenReader) : Adds False r r.reportUpcoming := by
  refine ⟨_, rfl, ?_, False.elim⟩
  intro e he
  obtain ⟨m, -, rfl⟩ := List.mem_map.mp he
  exact nofun

theorem adds_advance (r : TokenReader) : Adds False r r.advance := by
  unfold advance
  split
  · exact .of_errors_eq rfl
  · exact (adds_reportUpcoming _).after (.of_errors_eq rfl)

theorem adds_skipToClause (r : TokenReader) : Adds False r r.skipToClause := by
  induction r using skipToClause.induct with
  | case1 r h =>
    rw [skipToClause, if_pos h]
    exact .of_errors_eq rfl
  | case2 r h ih =>
    rw [skipToClause, if_neg h]
    exact ih.after r.adds_advance

theorem Takes.adds {ts : List Token} (h : r.Takes ts r') : Adds False r r' := by
  induction ts generalizing r with
  | nil =>
    cases h
    exact .of_errors_eq rfl
  | cons t ts ih => exact (ih h.2).after r.adds_advance

end TokenReader

open TokenReader

/-- A function that stops without a result has added an error. -/
theorem Parse.Leaves.adds {r r' : TokenReader} {o : Option α} (h : Leaves r o r') :
    Adds (o = none) r r' := by
  cases h with
  | read ht ho => exact ht.adds.mono nofun
  | refused ht ho => exact (adds_expected _ _ _).after ht.adds

namespace TokenReader

variable {r r' m : TokenReader}

/-! ## Clauses -/

theorem adds_source (r : TokenReader) :
    Adds ((Parse.source r).value = none) r (Parse.source r).next := by
  by_cases hf : r.peek.isKeyword .FROM = true
  · exact (leaves_source hf).adds.after r.adds_advance
  · rw [(source_of_not_from (Bool.eq_false_iff.mpr hf)).2]
    exact adds_expected _ _ _

theorem adds_attempt {p : Parse α} (h : Adds ((p r).value = none) r (p r).next) :
    Adds ((r.attempt p).1 = none) r (r.attempt p).2 := by
  unfold attempt
  split
  · next a ha => exact h.mono fun hn => by cases hn
  · next ha => exact (h.before (adds_skipToClause _)).mono fun _ => ha

theorem adds_attemptClause {c : Clause} {p : Token → Parse α}
    (h : ∀ t m, Parse.Stops (p t) m) :
    Adds ((r.attemptClause c p).1 = none) r (r.attemptClause c p).2 := by
  by_cases hk : r.peek.isKeyword c.keyword = true
  · rw [attemptClause_of_isKeyword hk]
    have ht := adds_attempt (h r.peek (r.advance.enter c)).adds
    have he : Adds False r.advance (r.advance.enter c) := .of_errors_eq rfl
    exact ((ht.after he).after r.adds_advance).mono fun hn => Option.map_eq_none_iff.mp hn
  · rw [attemptClause_of_not_isKeyword (Bool.eq_false_iff.mpr hk)]
    exact (Adds.of_errors_eq rfl).mono nofun

theorem adds_concluded (r : TokenReader) :
    Adds (¬ r.skipSemicolon.peek.isFinish = true) r r.concluded := by
  have hs : Adds False r r.skipSemicolon := by
    unfold skipSemicolon
    split
    · exact r.adds_advance
    · exact .of_errors_eq rfl
  unfold concluded
  split
  · next hf => exact hs.mono fun hn => hn hf
  · refine (adds_report ?_ _).after hs
    exact nofun

/-- A reading that yields no statement has added an error. -/
theorem adds_readStatement (r : TokenReader) :
    Adds (r.readStatement.1 = none) r r.readStatement.2 := by
  by_cases hk : r.current.isKeyword .SELECT = true
  · obtain ⟨hend, hsome⟩ := readStatement_eq hk
    let x := (r.enter .select).attempt Parse.selectList
    let y := (x.2.enter .source).attempt Parse.source
    let z := y.2.attemptClause .index fun _ => Parse.index
    let w := z.2.attemptClause .condition Parse.condition
    have hx : Adds (x.1 = none) r x.2 :=
      (adds_attempt (Parse.stops_selectList _).adds).after (.of_errors_eq rfl)
    have hy : Adds (y.1 = none) x.2 y.2 :=
      (adds_attempt (adds_source _)).after (.of_errors_eq rfl)
    have hz : Adds (z.1 = none) y.2 z.2 := adds_attemptClause fun _ => Parse.stops_index
    have hw : Adds (w.1 = none) z.2 w.2 := adds_attemptClause Parse.stops_condition
    rw [hend]
    apply ((((hx.trans hy).trans hz).trans hw).trans w.2.adds_concluded).mono
    intro hn
    by_contra hall
    simp only [not_or, not_not, ← Option.isSome_iff_ne_none] at hall
    obtain ⟨⟨⟨⟨h₁, h₂⟩, h₃⟩, h₄⟩, hf⟩ := hall
    have := hsome hf h₁ h₂ h₃ h₄
    rw [hn] at this
    cases this
  · have he : Adds False r (r.enter .select) := .of_errors_eq rfl
    unfold readStatement
    rw [if_neg hk]
    exact (adds_expected _ _ _).after he

/-- Either a statement comes out and there is no error, or there are errors and they are handed
out as they are. -/
theorem parse_cases (r : TokenReader) :
    (∃ s, r.readStatement = (some s, r.readStatement.2) ∧ r.readStatement.2.errors = [] ∧
      r.parse = (.ok s, r.readStatement.2)) ∨
    (r.readStatement.2.errors ≠ [] ∧
      r.parse = (.error r.readStatement.2.errors, { r.readStatement.2 with errors := [] })) := by
  have h := r.adds_readStatement
  unfold parse
  cases hr : r.readStatement with
  | mk o r' =>
    rw [hr] at h
    cases o with
    | some s =>
      by_cases he : r'.errors = []
      · exact .inl ⟨s, rfl, he, by simp [he]⟩
      · exact .inr ⟨he, by simp [he]⟩
    | none =>
      obtain ⟨es, he, -, hne⟩ := h
      have he : r'.errors ≠ [] := by
        rw [he]
        exact List.append_ne_nil_of_right_ne_nil _ (hne rfl)
      exact .inr ⟨he, by simp [he]⟩

/-- The errors that are handed out are those of the reading. -/
theorem errors_of_parse {es : List SyntaxError} (h : r.parse.1 = .error es) :
    es = r.readStatement.2.errors ∧ es ≠ [] := by
  rcases r.parse_cases with ⟨s, -, -, hp⟩ | ⟨hne, hp⟩
  · rw [hp] at h
    cases h
  · rw [hp] at h
    cases h
    exact ⟨rfl, hne⟩

theorem errors_parse (r : TokenReader) : r.parse.2.errors = [] := by
  rcases r.parse_cases with ⟨s, -, he, hp⟩ | ⟨-, hp⟩
  · rw [hp, he]
  · rw [hp]

/-! ## Calls -/

/-- What a reader can be asked for: a statement or the errors, or a statement alone. -/
inductive Call
  | parse | readStatement

/-- The reader behind a call. -/
def after (r : TokenReader) : Call → TokenReader
  | .parse => r.parse.2
  | .readStatement => r.readStatement.2

/-- The reader behind a sequence of calls. -/
def afterAll (r : TokenReader) (calls : List Call) : TokenReader := calls.foldl after r

/-- Every error that is pending has something to blame for it. -/
def Blames (r : TokenReader) : Prop := ∀ e ∈ r.errors, e.cause ≠ .unparsed

theorem Adds.blames {must : Prop} (h : Adds must r r') (hr : r.Blames) : r'.Blames := by
  obtain ⟨es, he, hc, -⟩ := h
  unfold Blames
  rw [he]
  exact List.forall_mem_append.mpr ⟨hr, hc⟩

theorem blames_ofString (text : String) : (ofString text).Blames := by
  have h : Adds False ⟨_, _, _, _, _, []⟩ (ofString text) :=
    (adds_advance _).after (adds_reportUpcoming _)
  exact h.blames (List.forall_mem_nil _)

theorem Blames.after (h : r.Blames) (call : Call) : (r.after call).Blames := by
  cases call with
  | readStatement => exact r.adds_readStatement.blames h
  | parse =>
    unfold Blames TokenReader.after
    rw [errors_parse]
    exact List.forall_mem_nil _

theorem Blames.afterAll (h : r.Blames) (calls : List Call) : (r.afterAll calls).Blames := by
  induction calls generalizing r with
  | nil => exact h
  | cons call calls ih => exact ih (h.after call)

/-- Whatever the reader is asked for next, it does not fail in silence. -/
structure Accounts (r : TokenReader) : Prop where
  /-- A reading without a statement adds an error. -/
  unread : r.readStatement.1 = none → ∃ e es, r.readStatement.2.errors = r.errors ++ e :: es
  /-- What is handed out are the errors of the reading, and there are some. -/
  refused : ∀ es, r.parse.1 = .error es →
    es ≠ [] ∧ es = r.readStatement.2.errors ∧ ∀ e ∈ es, e.cause ≠ .unparsed
  /-- A statement is handed out only if no error is pending. -/
  accepted : ∀ s, r.parse.1 = .ok s → r.readStatement = (some s, r.parse.2)
  /-- No error is pending behind the call. -/
  settled : r.parse.2.errors = []

theorem Blames.accounts (h : r.Blames) : Accounts r where
  unread := by
    intro hn
    obtain ⟨es, he, -, hne⟩ := r.adds_readStatement
    obtain ⟨e, es, rfl⟩ := List.exists_cons_of_ne_nil (hne hn)
    exact ⟨e, es, he⟩
  refused := by
    intro es hes
    obtain ⟨rfl, hne⟩ := errors_of_parse hes
    exact ⟨hne, rfl, h.after .readStatement⟩
  accepted := by
    intro s hs
    rcases r.parse_cases with ⟨s', hr, -, hp⟩ | ⟨-, hp⟩
    · rw [hp] at hs ⊢
      cases hs
      exact hr
    · rw [hp] at hs
      cases hs
  settled := r.errors_parse

/-- Whatever a reader of a text was asked for, it does not fail in silence when it is asked for a
statement next. -/
theorem accounts_afterAll (text : String) (calls : List Call) :
    ((ofString text).afterAll calls).Accounts :=
  ((blames_ofString text).afterAll calls).accounts

/-- A reader that was asked twice, and failed, is asked once more. -/
theorem accounts_afterAll_select :
    let r := (ofString "SELECT a b").afterAll [.readStatement, .parse]
    r.readStatement.1 = none ∧ ∃ e es, r.readStatement.2.errors = r.errors ++ e :: es := by
  intro r
  have h : r.readStatement.1 = none := by decide +kernel
  exact ⟨h, (accounts_afterAll "SELECT a b" [.readStatement, .parse]).unread h⟩

end TokenReader

end RecordQuery
