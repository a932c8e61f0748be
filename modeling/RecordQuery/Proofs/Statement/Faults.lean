import RecordQuery.Proofs.Statement.Findings

/-! # Which faults of a text are reported

No fault is lost while a reader proceeds: it has been reported, or it is still ahead
(`TokenReader.Proceeds.mem_findings`). So every fault of a text that is refused is reported, as the
only thing that is reported at its place, unless the reading has stopped before it
(`Statement.errorsAt_of_parse`). It stops at a token that is one too many, and at the second token
of a text that does not begin with SELECT; what is behind is never looked at. -/

namespace RecordQuery

open Text

/-- The errors at the offset `n`. -/
def SyntaxError.errorsAt (n : Nat) (errors : List SyntaxError) : List SyntaxError :=
  errors.filter (·.position.offset = n)

theorem SyntaxError.eq_of_finding {e : SyntaxError} {fault : Fault} {p : Position}
    (h : e.finding = ⟨some fault, p⟩) : e = ⟨.lexical fault, p, e.clause⟩ := by
  rcases e with ⟨cause, position, clause⟩
  cases cause with
  | lexical fault' =>
    cases h
    rfl
  | _ => cases h

/-- A token stands behind the end of the statement. -/
def SyntaxError.Cause.isTrailing : SyntaxError.Cause → Bool
  | trailing _ => true
  | _ => false

/-- The reading of the text has stopped before the offset `n`: at a token that is reported as one
too many, or at the second token of a text that does not begin with SELECT. -/
def Statement.StopsBefore (text : String) (errors : List SyntaxError) (n : Nat) : Prop :=
  (∃ e ∈ errors, e.cause.isTrailing = true ∧ e.position.offset < n) ∨
  (∀ first ∈ (Token.visible text).head?, first.isKeyword .SELECT = false) ∧
    ∃ second ∈ (Token.visible text).tail.head?, second.position.offset < n

instance (text : String) (errors : List SyntaxError) (n : Nat) :
    Decidable (Statement.StopsBefore text errors n) :=
  inferInstanceAs (Decidable (_ ∨ _))

open SyntaxError (errorsAt)

namespace TokenReader

variable {r r' : TokenReader} {a : Finding} {e : SyntaxError}

/-! ## Nothing is lost -/

theorem mem_findings_advance (h : a ∈ r.findings) (ha : a.fault? ≠ none) :
    a ∈ r.advance.findings := by
  rcases r.findings_advance with he | he
  · rwa [he]
  · rw [he]
    rcases List.mem_append.mp h with h | h
    · exact List.mem_append_left _ h
    · rcases List.mem_cons.mp h with rfl | h
      · exact absurd rfl ha
      · exact List.mem_append_right _ h

theorem mem_findings_refuse {cause : SyntaxError.Cause} (hc : cause.fault? = none)
    (h : a ∈ r.findings) : a ∈ (r.report cause r.peek.position).findings := by
  rw [findings_refuse r cause hc]
  rcases List.mem_append.mp h with h | h
  · exact List.mem_append_left _ h
  · exact List.mem_append_right _ (List.mem_cons_of_mem _ h)

/-- A fault that has been found is not lost. -/
theorem Proceeds.mem_findings (hr : Proceeds r r') (h : a ∈ r.findings) (ha : a.fault? ≠ none) :
    a ∈ r'.findings := by
  induction hr with
  | refl => exact h
  | advance _ ih => exact mem_findings_advance ih ha
  | enter _ c ih => exact ih
  | refuse _ what ih => exact mem_findings_refuse rfl ih

theorem Ends.mem_findings (hr : Ends r r') (h : a ∈ r.findings) (ha : a.fault? ≠ none) :
    a ∈ r'.findings := by
  cases hr with
  | finished hr _ => exact hr.mem_findings h ha
  | surplus hr _ => exact mem_findings_refuse rfl (hr.mem_findings h ha)

theorem mem_findings_opened {text : String} {t : Token} {fault : Fault}
    (ht : t ∈ Token.tokens (.ofString text)) (hk : t.kind = .error fault) :
    ⟨some fault, t.position⟩ ∈ (TokenStream.ofString text).opened.findings := by
  have hs : t.finding? = some ⟨some fault, t.position⟩ := by simp [Token.finding?, hk]
  unfold TokenStream.opened
  rw [findings_reportUpcoming]
  show _ ∈ (TokenStream.ofString text).findings
  rw [TokenStream.ofString, TokenStream.findings_ofTokens]
  exact List.mem_append_left _ (List.mem_filterMap.mpr ⟨t, ht, hs⟩)

/-! ## Reported or still ahead -/

/-- A fault is reported once if it is before the next token, and otherwise nothing has been
reported at its place yet. -/
theorem InOrder.errorsAt_cases (h : r.InOrder) (ha : a ∈ r.findings) (hf : a.fault? ≠ none) :
    (a.position.offset < r.peek.position.offset ∧
      ∃ e, errorsAt a.position.offset r.errors = [e] ∧ e.finding = a) ∨
    (r.ahead ≠ [] ∧ r.peek.position.offset < a.position.offset ∧
      errorsAt a.position.offset r.errors = []) := by
  rcases List.mem_append.mp ha with hm | hm
  · left
    obtain ⟨e, he, rfl⟩ := List.mem_map.mp hm
    have hone := Finding.filter_eq_singleton (List.pairwise_append.mp h).1 hm hf
    rw [List.filter_map] at hone
    obtain ⟨e', he', hfinding⟩ := List.map_eq_singleton_iff.mp hone
    exact ⟨h.offset_lt_peek he hf, e', he', hfinding⟩
  · right
    have hb : a ∈ r.beyond := by
      rcases List.mem_cons.mp hm with rfl | hm
      · exact absurd rfl hf
      · exact hm
    have hlt := h.peek_lt hb hf
    refine ⟨?_, hlt, ?_⟩
    · intro hnil
      rw [beyond, hnil] at hb
      cases hb
    · apply List.filter_eq_nil_iff.mpr
      intro e he
      have hbefore := Nat.lt_of_le_of_lt (h.offset_le_peek he) hlt
      simpa using Nat.ne_of_lt hbefore

/-! ## Where the reading stops -/

theorem Proceeds.ahead_suffix (h : Proceeds r r') : r'.ahead <:+ r.ahead := by
  induction h with
  | refl => exact List.suffix_refl _
  | @advance m _ ih => exact m.ahead_advance_suffix.trans ih
  | enter _ c ih => exact ih
  | refuse _ what ih => exact ih

/-- Only at the end of a statement is a token reported as one too many. -/
theorem Proceeds.isTrailing_eq_false (h : Proceeds r r')
    (hr : ∀ e ∈ r.errors, e.cause.isTrailing = false) :
    ∀ e ∈ r'.errors, e.cause.isTrailing = false := by
  induction h with
  | refl => exact hr
  | @advance m _ ih =>
    unfold TokenReader.advance
    split
    · exact ih
    · intro e he
      rcases List.mem_append.mp he with he | he
      · exact ih e he
      · obtain ⟨m, -, rfl⟩ := List.mem_map.mp he
        rfl
  | enter _ c ih => exact ih
  | refuse _ what ih =>
    intro e he
    rcases List.mem_append.mp he with he | he
    · exact ih e he
    · rw [List.mem_singleton.mp he]
      rfl

theorem isTrailing_eq_false_opened (st : TokenStream) :
    ∀ e ∈ st.opened.errors, e.cause.isTrailing = false := by
  intro e he
  obtain ⟨m, -, rfl⟩ := List.mem_map.mp he
  rfl

theorem isFinish_peek_of_ahead_ne_nil (h : r.ahead ≠ [])
    (hf : ∀ s ∈ r.ahead, s.token.isFinish = false) : r.peek.isFinish = false := by
  unfold TokenReader.peek
  cases ha : r.ahead with
  | nil => exact absurd ha h
  | cons s steps => exact hf s (ha ▸ List.mem_cons_self)

/-- A reading that has not come to the end of the text has reported the next token as one too many,
and no other. -/
theorem Ends.trailing_iff (h : Ends r r') (hr : ∀ e ∈ r.errors, e.cause.isTrailing = false)
    (hf : ∀ s ∈ r.ahead, s.token.isFinish = false) (n : Nat) :
    (∃ e ∈ r'.errors, e.cause.isTrailing = true ∧ e.position.offset < n) ↔
      r'.ahead ≠ [] ∧ r'.peek.position.offset < n := by
  cases h with
  | finished h hfin =>
    constructor
    · intro htrailing
      obtain ⟨e, he, hc, hlt⟩ := htrailing
      rw [h.isTrailing_eq_false hr e he] at hc
      cases hc
    · intro hnext
      have hnot := isFinish_peek_of_ahead_ne_nil hnext.1 fun s hs =>
        hf s (h.ahead_suffix.mem hs)
      rw [hfin] at hnot
      cases hnot
  | @surplus m h hfin =>
    have hne : m.ahead ≠ [] := by
      intro hnil
      rw [TokenReader.peek, hnil] at hfin
      cases hfin
    constructor
    · intro htrailing
      obtain ⟨e, he, hc, hlt⟩ := htrailing
      rcases List.mem_append.mp he with he | he
      · rw [h.isTrailing_eq_false hr e he] at hc
        cases hc
      · rw [List.mem_singleton.mp he] at hlt
        exact ⟨hne, hlt⟩
    · intro hnext
      exact ⟨_, List.mem_append_right _ List.mem_cons_self, rfl, hnext.2⟩

end TokenReader

open TokenReader

namespace Statement

variable {text : String} {a : Finding}

theorem isFinish_of_mem_opened (text : String) :
    ∀ s ∈ (TokenStream.ofString text).opened.ahead, s.token.isFinish = false := by
  intro s hs
  have hm : s.token ∈ Token.visible text := faces_opened text ▸ List.mem_map_of_mem hs
  exact Token.isFinish_of_mem_visible hm

/-- Its first token is passed when the reading of a text begins. -/
theorem proceeds_opened (text : String) :
    Proceeds (TokenStream.ofString text).opened (ofString text) := Proceeds.refl.advance

theorem isTrailing_eq_false_ofString (text : String) :
    ∀ e ∈ (ofString text).errors, e.cause.isTrailing = false :=
  (proceeds_opened text).isTrailing_eq_false (isTrailing_eq_false_opened _)

theorem visible_of_select (hk : (ofString text).current.isKeyword .SELECT = true) :
    ∃ first rest, Token.visible text = first :: rest := by
  have hopened := faces_opened text
  cases hv : Token.visible text with
  | nil =>
    rw [hv] at hopened
    rw [current_ofString_eq_peek, Token.isKeyword_of_isFinish hopened.isFinish_peek] at hk
    cases hk
  | cons first rest => exact ⟨first, rest, rfl⟩

/-- A text that begins with SELECT is read up to a token that is one too many. -/
theorem stopsBefore_of_select (hk : (ofString text).current.isKeyword .SELECT = true) (n : Nat) :
    StopsBefore text (ofString text).readStatement.2.errors n ↔
      (ofString text).readStatement.2.ahead ≠ [] ∧
        (ofString text).readStatement.2.peek.position.offset < n := by
  have hahead := (proceeds_opened text).ahead_suffix
  rw [← (ends_readStatement hk).trailing_iff (isTrailing_eq_false_ofString text)
    fun s hs => isFinish_of_mem_opened text s (hahead.mem hs)]
  constructor
  · intro h
    rcases h with h | ⟨hfirst, -⟩
    · exact h
    · obtain ⟨first, rest, hv⟩ := visible_of_select hk
      rw [current_ofString hv, hfirst first (hv ▸ rfl)] at hk
      cases hk
  · exact .inl

/-- Any other text is read up to its second token. -/
theorem stopsBefore_of_not_select (hk : (ofString text).current.isKeyword .SELECT = false)
    (n : Nat) : StopsBefore text (ofString text).readStatement.2.errors n ↔
      (ofString text).ahead ≠ [] ∧ (ofString text).peek.position.offset < n := by
  have hf := faces_ofString text
  constructor
  · intro h
    rcases h with ⟨e, he, hc, -⟩ | ⟨-, second, hsecond, hlt⟩
    · rw [readStatement_of_not_select hk] at he
      rcases List.mem_append.mp he with he | he
      · rw [isTrailing_eq_false_ofString text e he] at hc
        cases hc
      · rw [List.mem_singleton.mp he] at hc
        cases hc
    · obtain ⟨rest, hv⟩ := List.head?_eq_some_iff.mp hsecond
      rw [hv] at hf
      refine ⟨?_, by rwa [hf.peek]⟩
      intro hnil
      rw [Faces, hnil] at hf
      cases hf
  · intro hnext
    obtain ⟨hne, hlt⟩ := hnext
    right
    constructor
    · intro first hfirst
      obtain ⟨rest, hv⟩ := List.head?_eq_some_iff.mp hfirst
      rwa [current_ofString hv] at hk
    · cases hv : (Token.visible text).tail with
      | nil =>
        rw [hv] at hf
        exact absurd (List.map_eq_nil_iff.mp hf) hne
      | cons second rest =>
        rw [hv] at hf
        exact ⟨second, rfl, by rwa [hf.peek] at hlt⟩

/-- The fault `a` is reported, and nothing else at its place, unless the reading has stopped before
it; then nothing at all is reported there. -/
def AccountsFor (text : String) (errors : List SyntaxError) (a : Finding) : Prop :=
  (¬ StopsBefore text errors a.position.offset ∧
    ∃ e, errorsAt a.position.offset errors = [e] ∧ e.finding = a) ∨
  (StopsBefore text errors a.position.offset ∧ errorsAt a.position.offset errors = [])

theorem AccountsFor.of_cases {errors : List SyntaxError} {r : TokenReader} (h : r.InOrder)
    (ha : a ∈ r.findings) (hf : a.fault? ≠ none)
    (hstop : StopsBefore text errors a.position.offset ↔
      r.ahead ≠ [] ∧ r.peek.position.offset < a.position.offset)
    (he : errorsAt a.position.offset errors = errorsAt a.position.offset r.errors) :
    AccountsFor text errors a := by
  unfold AccountsFor
  rw [he]
  rcases h.errorsAt_cases ha hf with ⟨hlt, hone⟩ | ⟨hne, hlt, hnone⟩
  · left
    refine ⟨?_, hone⟩
    intro h
    exact Nat.lt_asymm hlt (hstop.mp h).2
  · exact .inr ⟨hstop.mpr ⟨hne, hlt⟩, hnone⟩

theorem accountsFor_of_select (hk : (ofString text).current.isKeyword .SELECT = true)
    (ha : a ∈ (TokenStream.ofString text).opened.findings) (hf : a.fault? ≠ none) :
    AccountsFor text (ofString text).readStatement.2.errors a := by
  have hends := ends_readStatement hk
  have hm := hends.mem_findings ((proceeds_opened text).mem_findings ha hf) hf
  have hin := (inOrder_ofString text).of_ends hends
  exact .of_cases hin hm hf (stopsBefore_of_select hk _) rfl

/-- Nothing else is found at the place of a fault, so the first token is not there. -/
theorem offset_current_ne (ha : a ∈ (TokenStream.ofString text).opened.findings)
    (hf : a.fault? ≠ none) : (ofString text).current.position.offset ≠ a.position.offset := by
  intro ho
  rw [current_ofString_eq_peek] at ho
  have hm : ⟨none, (TokenStream.ofString text).opened.peek.position⟩ ∈ [a] := by
    rw [← Finding.filter_eq_singleton (inOrder_opened text) ha hf]
    exact List.mem_filter.mpr ⟨List.mem_append_right _ List.mem_cons_self, by simpa using ho⟩
  exact hf (List.mem_singleton.mp hm ▸ rfl)

theorem accountsFor_of_not_select (hk : (ofString text).current.isKeyword .SELECT = false)
    (ha : a ∈ (TokenStream.ofString text).opened.findings) (hf : a.fault? ≠ none) :
    AccountsFor text (ofString text).readStatement.2.errors a := by
  have hm := (proceeds_opened text).mem_findings ha hf
  apply AccountsFor.of_cases (inOrder_ofString text) hm hf (stopsBefore_of_not_select hk _)
  rw [readStatement_of_not_select hk]
  simp [errorsAt, report, enter, List.filter_append, offset_current_ne ha hf]

theorem accountsFor_of_parse {errors : List SyntaxError} (h : Statement.parse text = .error errors)
    (ha : a ∈ (TokenStream.ofString text).opened.findings) (hf : a.fault? ≠ none) :
    AccountsFor text errors a := by
  obtain ⟨rfl, -⟩ := errors_of_parse h
  cases hk : (ofString text).current.isKeyword .SELECT with
  | false => exact accountsFor_of_not_select hk ha hf
  | true => exact accountsFor_of_select hk ha hf

/-- A fault of a text that is refused is reported exactly once, as the only thing at its place,
unless the reading has stopped before it; then nothing at all is reported there. -/
theorem errorsAt_of_parse {errors : List SyntaxError} {t : Token} {fault : Fault}
    (h : Statement.parse text = .error errors) (ht : t ∈ Token.tokens (.ofString text))
    (hk : t.kind = .error fault) :
    ((∃ clause, errorsAt t.position.offset errors = [⟨.lexical fault, t.position, clause⟩]) ↔
      ¬ StopsBefore text errors t.position.offset) ∧
    (StopsBefore text errors t.position.offset → errorsAt t.position.offset errors = []) := by
  have hacc := accountsFor_of_parse h (mem_findings_opened ht hk) nofun
  rcases hacc with ⟨hstop, e, he, hfound⟩ | ⟨hstop, he⟩
  · rw [SyntaxError.eq_of_finding hfound] at he
    exact ⟨⟨fun _ => hstop, fun _ => ⟨_, he⟩⟩, fun h => absurd h hstop⟩
  · constructor
    · constructor
      · intro hone
        obtain ⟨clause, hone⟩ := hone
        rw [he] at hone
        cases hone
      · intro hnot
        exact absurd hstop hnot
    · intro _
      exact he

/-- Something is wrong in three clauses of this statement, and there are faults in two of them. -/
def brokenClauses : String := "SELECT a, FROM ~ ns WITH b WHERE c ? 1"

theorem errorsAt_of_parse_brokenClauses :
    ∃ errors t, Statement.parse brokenClauses = .error errors ∧
      t ∈ Token.tokens (.ofString brokenClauses) ∧ t.kind = .error (.unknownCharacter '?') ∧
      ¬ StopsBefore brokenClauses errors t.position.offset ∧
      ∃ clause, errorsAt t.position.offset errors =
        [⟨.lexical (.unknownCharacter '?'), t.position, clause⟩] := by
  let t : Token := ⟨.error (.unknownCharacter '?'), "?", ⟨35, 1, 36⟩⟩
  have ht : t ∈ Token.tokens (.ofString brokenClauses) := by decide +kernel
  have hp : (Statement.parse brokenClauses).mapError
      (fun errors => decide (StopsBefore brokenClauses errors t.position.offset)) =
        .error false := by decide +kernel
  obtain ⟨errors, h, hstop⟩ := mapError_eq_error_iff.mp hp
  have hnot := of_decide_eq_false hstop
  exact ⟨errors, t, h, ht, rfl, hnot, (errorsAt_of_parse h ht rfl).1.mpr hnot⟩

/-- A fault behind a token that is one too many is not reported. -/
theorem exists_fault_unreported :
    ∃ errors, Statement.parse "SELECT * FROM ns x ~" = .error errors ∧
    ∃ t ∈ Token.tokens (.ofString "SELECT * FROM ns x ~"),
      t.kind = .error (.unknownCharacter '~') ∧
      ∀ e ∈ errors, e.cause ≠ .lexical (.unknownCharacter '~') := by
  let surplus : Token := ⟨.identifier, "x", ⟨17, 1, 18⟩⟩
  refine ⟨[⟨.trailing surplus, ⟨17, 1, 18⟩, some .source⟩], ?_,
    ⟨.error (.unknownCharacter '~'), "~", ⟨19, 1, 20⟩⟩, ?_, rfl, ?_⟩
  · decide +kernel
  · decide +kernel
  · intro e he
    rw [List.mem_singleton.mp he]
    exact nofun

end Statement

end RecordQuery
