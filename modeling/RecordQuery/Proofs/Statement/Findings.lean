import RecordQuery.Proofs.Statement.ClauseTexts
import RecordQuery.Proofs.Statement.Placing

/-! # What a reader finds, in the order of the text

A reader finds the faults of a text, its tokens, and at last its end. What it has reported of these
and what is still ahead of it make up one list (`TokenReader.findings`). To pass a token takes the
token off this list, and to refuse one puts it on twice; so the list stays in the order of the text
(`TokenReader.InOrder`), and the errors of a text come in that order too
(`Statement.offsets_of_parse`). -/

namespace RecordQuery

open Text

/-- What a reader finds at a place of a text: a fault, or a token or the end of the text. -/
structure Finding where
  fault? : Option Fault
  position : Position

namespace Finding

variable {a b : Finding} {fs gs : List Finding}

/-- `a` is found before `b`, or both are the same, and no fault. -/
def Precedes (a b : Finding) : Prop :=
  a.position.offset < b.position.offset ∨ a = b ∧ a.fault? = none

theorem Precedes.offset_le (h : Precedes a b) : a.position.offset ≤ b.position.offset := by
  rcases h with h | ⟨rfl, -⟩
  · exact Nat.le_of_lt h
  · exact Nat.le_refl _

theorem Precedes.refl (h : a.fault? = none) : Precedes a a := .inr ⟨rfl, h⟩

theorem Precedes.lt_of_left (h : Precedes a b) (ha : a.fault? ≠ none) :
    a.position.offset < b.position.offset :=
  h.resolve_right fun he => ha he.2

theorem Precedes.lt_of_right (h : Precedes a b) (hb : b.fault? ≠ none) :
    a.position.offset < b.position.offset :=
  h.resolve_right fun he => hb (he.1 ▸ he.2)

/-- Nothing else is found where a fault is found. -/
theorem filter_eq_singleton (h : fs.Pairwise Precedes) (ha : a ∈ fs) (hf : a.fault? ≠ none) :
    fs.filter (·.position.offset = a.position.offset) = [a] := by
  obtain ⟨xs, ys, rfl⟩ := List.append_of_mem ha
  obtain ⟨-, hys, hxs⟩ := List.pairwise_append.mp h
  have hbefore : xs.filter (·.position.offset = a.position.offset) = [] := by
    apply List.filter_eq_nil_iff.mpr
    intro x hx
    have hlt := (hxs x hx a List.mem_cons_self).lt_of_right hf
    simpa using Nat.ne_of_lt hlt
  have hbehind : ys.filter (·.position.offset = a.position.offset) = [] := by
    apply List.filter_eq_nil_iff.mpr
    intro y hy
    have hlt := (List.rel_of_pairwise_cons hys hy).lt_of_left hf
    simpa using Nat.ne_of_gt hlt
  rw [List.filter_append, hbefore, List.filter_cons_of_pos (by simp), hbehind]
  rfl

theorem pairwise_insert (h : (fs ++ a :: gs).Pairwise Precedes) (ha : a.fault? = none) :
    (fs ++ a :: a :: gs).Pairwise Precedes := by
  obtain ⟨hfs, hgs, hfg⟩ := List.pairwise_append.mp h
  apply List.pairwise_append.mpr
  refine ⟨hfs, .cons ?_ hgs, ?_⟩
  · intro b hb
    rcases List.mem_cons.mp hb with rfl | hb
    · exact .refl ha
    · exact List.rel_of_pairwise_cons hgs hb
  · intro f hf b hb
    rcases List.mem_cons.mp hb with rfl | hb
    · exact hfg f hf b List.mem_cons_self
    · exact hfg f hf b hb

end Finding

/-- The fault that is the cause. -/
def SyntaxError.Cause.fault? : SyntaxError.Cause → Option Fault
  | lexical fault => some fault
  | _ => none

/-- What is reported. -/
def SyntaxError.finding (e : SyntaxError) : Finding := ⟨e.cause.fault?, e.position⟩

def Misread.finding (m : Misread) : Finding := ⟨some m.fault, m.position⟩

/-- What the token is for a reader. A comment is nothing to it. -/
def Token.finding? (t : Token) : Option Finding :=
  match t.kind with
  | .comment => none
  | .error fault => some ⟨some fault, t.position⟩
  | _ => some ⟨none, t.position⟩

/-! ## Tokens in the order of the text -/

namespace Token

variable {c : Cursor} {s : String}

/-- The tokens from a cursor on and the end of the text stand one behind the other. -/
theorem ascending_tokens (h : c.StandsIn s) :
    (tokens c ++ [last c]).Pairwise (·.position.offset < ·.position.offset) ∧
      ∀ t ∈ tokens c ++ [last c], c.position.offset ≤ t.position.offset := by
  have hskip : c.position.offset ≤ (next c).1.position.offset := by
    rw [next_position]
    exact skipBlanks_offset c
  induction c using tokens.induct with
  | case1 c hf =>
    rw [tokens, last, if_pos hf, if_pos hf]
    simpa using hskip
  | case2 c hf ih =>
    have hlt := (next_taken h (Bool.eq_false_iff.mpr hf)).1
    obtain ⟨hasc, hge⟩ := ih (next_standsIn h) (by rw [next_position]; exact skipBlanks_offset _)
    rw [tokens, last, if_neg hf, if_neg hf, List.cons_append]
    constructor
    · refine .cons ?_ hasc
      intro t ht
      exact Nat.lt_of_lt_of_le hlt (hge t ht)
    · intro t ht
      rcases List.mem_cons.mp ht with rfl | ht
      · exact hskip
      · exact Nat.le_trans hskip (Nat.le_trans (Nat.le_of_lt hlt) (hge t ht))

theorem ascending_visible (text : String) :
    (visible text).Pairwise (·.position.offset < ·.position.offset) := by
  obtain ⟨hasc, -⟩ := ascending_tokens (Cursor.StandsIn.ofString text)
  exact (List.pairwise_append.mp hasc).1.filter _

theorem isFinish_of_mem_visible {t : Token} {text : String} (h : t ∈ visible text) :
    t.isFinish = false :=
  isFinish_of_mem_tokens (List.mem_of_mem_filter h)

end Token

namespace TokenStream

/-- All that a reader of the stream finds. -/
def findings (st : TokenStream) : List Finding :=
  st.steps.flatMap (fun s => s.faults.map Misread.finding ++ [⟨none, s.token.position⟩]) ++
    st.trailing.map Misread.finding ++ [⟨none, st.finish⟩]

theorem findings_cons (s : Step) (steps : List Step) (trailing : List Misread)
    (finish : Position) : findings ⟨s :: steps, trailing, finish⟩ =
      s.faults.map Misread.finding ++ ⟨none, s.token.position⟩ ::
        findings ⟨steps, trailing, finish⟩ := by
  simp [findings]

theorem findings_withFault (st : TokenStream) (m : Misread) :
    (st.withFault m).findings = m.finding :: st.findings := by
  rcases st with ⟨_ | ⟨step, steps⟩, trailing, finish⟩ <;> rfl

theorem findings_ofTokens (p : Position) (ts : List Token) :
    (ofTokens p ts).findings = ts.filterMap Token.finding? ++ [⟨none, p⟩] := by
  induction ts with
  | nil => rfl
  | cons t ts ih =>
    rw [ofTokens, List.foldr_cons, ← ofTokens, cons]
    split
    · next h =>
      have hn : t.finding? = none := by simp [Token.finding?, h]
      rw [List.filterMap_cons_none hn, ih]
    · next fault h =>
      have hs : t.finding? = some ⟨some fault, t.position⟩ := by simp [Token.finding?, h]
      rw [List.filterMap_cons_some hs, findings_withFault, ih]
      rfl
    · next hc he =>
      have hs : t.finding? = some ⟨none, t.position⟩ := by
        unfold Token.finding?
        split
        · contradiction
        · next h => exact absurd h (he _)
        · rfl
      rw [List.filterMap_cons_some hs, findings_cons, ih]
      rfl

theorem position_of_finding? {t : Token} {a : Finding} (h : t.finding? = some a) :
    a.position = t.position := by
  unfold Token.finding? at h
  split at h
  · cases h
  · cases h; rfl
  · cases h; rfl

/-- What is found in a text is in its order. -/
theorem pairwise_findings (text : String) :
    (ofString text).findings.Pairwise Finding.Precedes := by
  have hs := Cursor.StandsIn.ofString text
  obtain ⟨hasc, -⟩ := Token.ascending_tokens hs
  obtain ⟨htokens, -, hlast⟩ := List.pairwise_append.mp hasc
  rw [ofString, findings_ofTokens]
  apply List.pairwise_append.mpr
  refine ⟨?_, List.pairwise_singleton _ _, ?_⟩
  · refine htokens.filterMap _ ?_
    intro t u htu a ha b hb
    rw [← position_of_finding? ha, ← position_of_finding? hb] at htu
    exact .inl htu
  · intro a ha b hb
    obtain ⟨t, ht, hta⟩ := List.mem_filterMap.mp ha
    obtain rfl := List.mem_singleton.mp hb
    have hlt := hlast t ht _ (List.mem_singleton_self _)
    rw [← position_of_finding? hta] at hlt
    exact .inl hlt

end TokenStream

/-! ## What is found by a reader -/

namespace TokenReader

variable {r r' : TokenReader} {a : Finding}

/-- What is found behind the next token. -/
def beyond (r : TokenReader) : List Finding :=
  match r.ahead with
  | [] => []
  | _ :: steps => TokenStream.findings ⟨steps, r.trailing, r.finish⟩

/-- What has been reported, and then what is found from the next token on. -/
def findings (r : TokenReader) : List Finding :=
  r.errors.map SyntaxError.finding ++ ⟨none, r.peek.position⟩ :: r.beyond

/-- What is found is in the order of the text. -/
def InOrder (r : TokenReader) : Prop := r.findings.Pairwise Finding.Precedes

theorem findings_reportUpcoming (r : TokenReader) :
    r.reportUpcoming.findings =
      r.errors.map SyntaxError.finding ++ TokenStream.findings ⟨r.ahead, r.trailing, r.finish⟩ := by
  rcases r with ⟨current, _ | ⟨s, steps⟩, trailing, finish, clause, errors⟩
  · simp [findings, reportUpcoming, upcoming, peek, beyond, TokenStream.findings,
      SyntaxError.finding, SyntaxError.Cause.fault?, Misread.finding, Token.atEnd]
  · rw [TokenStream.findings_cons]
    simp [findings, reportUpcoming, upcoming, peek, beyond, SyntaxError.finding,
      SyntaxError.Cause.fault?, Misread.finding]

/-- To move on takes the next token off what is found, unless it is the end of the text. -/
theorem findings_advance (r : TokenReader) :
    r.advance.findings = r.findings ∨
      r.advance.findings = r.errors.map SyntaxError.finding ++ r.beyond := by
  rcases r with ⟨current, _ | ⟨s, steps⟩, trailing, finish, clause, errors⟩
  · exact .inl rfl
  · exact .inr (findings_reportUpcoming _)

theorem findings_refuse (r : TokenReader) (cause : SyntaxError.Cause) (hc : cause.fault? = none) :
    (r.report cause r.peek.position).findings = r.errors.map SyntaxError.finding ++
      ⟨none, r.peek.position⟩ :: ⟨none, r.peek.position⟩ :: r.beyond := by
  simp only [findings, report, List.map_append, List.map_cons, List.map_nil, SyntaxError.finding,
    hc, List.append_assoc]
  rfl

namespace InOrder

theorem advance (h : r.InOrder) : r.advance.InOrder := by
  unfold InOrder
  rcases r.findings_advance with he | he
  · rw [he]
    exact h
  · rw [he]
    exact h.sublist ((List.sublist_cons_self _ _).append_left _)

theorem refuse (h : r.InOrder) {cause : SyntaxError.Cause} (hc : cause.fault? = none) :
    (r.report cause r.peek.position).InOrder := by
  unfold InOrder
  rw [findings_refuse r cause hc]
  exact Finding.pairwise_insert h rfl

theorem of_proceeds (h : r.InOrder) (hr : Proceeds r r') : r'.InOrder := by
  induction hr with
  | refl => exact h
  | advance _ ih => exact ih.advance
  | enter _ c ih => exact ih
  | refuse _ what ih => exact ih.refuse rfl

theorem of_ends (h : r.InOrder) (hr : Ends r r') : r'.InOrder := by
  cases hr with
  | finished hr _ => exact h.of_proceeds hr
  | surplus hr _ => exact (h.of_proceeds hr).refuse rfl

/-- Nothing has been reported behind the next token. -/
theorem offset_le_peek {e : SyntaxError} (h : r.InOrder) (he : e ∈ r.errors) :
    e.position.offset ≤ r.peek.position.offset :=
  ((List.pairwise_append.mp h).2.2 _ (List.mem_map_of_mem he) _ List.mem_cons_self).offset_le

/-- The faults that have been reported are before the next token. -/
theorem offset_lt_peek {e : SyntaxError} (h : r.InOrder) (he : e ∈ r.errors)
    (hf : e.cause.fault? ≠ none) : e.position.offset < r.peek.position.offset :=
  ((List.pairwise_append.mp h).2.2 _ (List.mem_map_of_mem he) _ List.mem_cons_self).lt_of_left hf

/-- The faults that have not been reported are behind the next token. -/
theorem peek_lt (h : r.InOrder) (ha : a ∈ r.beyond) (hf : a.fault? ≠ none) :
    r.peek.position.offset < a.position.offset :=
  (List.rel_of_pairwise_cons (List.pairwise_append.mp h).2.1 ha).lt_of_right hf

/-- The errors are in the order of the text. -/
theorem errors (h : r.InOrder) :
    r.errors.Pairwise (·.position.offset ≤ ·.position.offset) := by
  have hp := (List.pairwise_append.mp h).1
  exact (List.pairwise_map.mp hp).imp Finding.Precedes.offset_le

end InOrder

theorem inOrder_opened (text : String) : (TokenStream.ofString text).opened.InOrder := by
  unfold InOrder TokenStream.opened
  rw [findings_reportUpcoming]
  exact TokenStream.pairwise_findings text

theorem inOrder_ofString (text : String) : (ofString text).InOrder :=
  (inOrder_opened text).advance

theorem faces_opened (text : String) :
    (TokenStream.ofString text).opened.Faces (Token.visible text) := by
  have ht : (TokenStream.ofString text).tokens = Token.visible text := by
    rw [TokenStream.ofString, TokenStream.tokens_ofTokens]
    rfl
  exact ht

/-- The reading of a text begins with all tokens but the first left. -/
theorem faces_ofString (text : String) : (ofString text).Faces (Token.visible text).tail := by
  have hopened := faces_opened text
  cases hv : Token.visible text with
  | nil =>
    rw [hv] at hopened
    have hsuffix := (TokenStream.ofString text).opened.ahead_advance_suffix
    rw [List.map_eq_nil_iff.mp hopened, List.suffix_nil] at hsuffix
    exact congrArg _ hsuffix
  | cons first rest =>
    rw [hv] at hopened
    exact hopened.advance

theorem current_ofString_eq_peek (text : String) :
    (ofString text).current = (TokenStream.ofString text).opened.peek := current_advance _

/-- The first token of a text is the current one when its reading begins. -/
theorem current_ofString {text : String} {first : Token} {rest : List Token}
    (h : Token.visible text = first :: rest) : (ofString text).current = first := by
  have hf := faces_opened text
  rw [h] at hf
  exact (current_ofString_eq_peek text).trans hf.peek

end TokenReader

open TokenReader

/-- The errors of a text that begins with SELECT come in the order of the text, so the first, which
stands for the whole report, is the earliest of all. -/
theorem Statement.offsets_of_parse {text : String} {first : Token} {errors : List SyntaxError}
    (hf : first ∈ (Token.visible text).head?) (hk : first.isKeyword .SELECT = true)
    (h : Statement.parse text = .error errors) :
    errors.Pairwise (·.position.offset ≤ ·.position.offset) ∧
    ∃ e ∈ errors.head?, (SyntaxError.report text errors).text = e.diagnostic.text ∧
      ∀ e' ∈ errors, e.position.offset ≤ e'.position.offset := by
  obtain ⟨rest, hv⟩ := List.head?_eq_some_iff.mp hf
  have hc : (ofString text).current.isKeyword .SELECT = true := by rwa [current_ofString hv]
  have hasc := ((inOrder_ofString text).of_ends (ends_readStatement hc)).errors
  obtain ⟨rfl, hne⟩ := errors_of_parse h
  obtain ⟨e, es, he⟩ := List.exists_cons_of_ne_nil hne
  rw [he] at hasc ⊢
  refine ⟨hasc, e, rfl, rfl, ?_⟩
  intro e' he'
  rcases List.mem_cons.mp he' with rfl | he'
  · exact Nat.le_refl _
  · exact List.rel_of_pairwise_cons hasc he'

/-- A statement with faults before its first word, between its clauses and behind its end, and with
something wrong in each of its clauses. -/
def faultyClauses : String :=
  "? SELECT a, ~ FROM ! ns. WITH b CONTAINS x ? WHERE 1e = 'open"

theorem Statement.offsets_of_parse_faultyClauses :
    ∃ first ∈ (Token.visible faultyClauses).head?, first.isKeyword .SELECT = true ∧
    ∃ errors, Statement.parse faultyClauses = .error errors ∧
      errors.map (·.position.offset) = [0, 12, 14, 19, 25, 41, 43, 51, 54, 56] ∧
      errors.Pairwise (·.position.offset ≤ ·.position.offset) ∧
      ∃ e ∈ errors.head?, (SyntaxError.report faultyClauses errors).text = e.diagnostic.text ∧
        ∀ e' ∈ errors, e.position.offset ≤ e'.position.offset := by
  let first : Token := ⟨.keyword, "SELECT", ⟨2, 1, 3⟩⟩
  have hf : first ∈ (Token.visible faultyClauses).head? := by decide +kernel
  have hk : first.isKeyword .SELECT = true := by decide
  have hp : (Statement.parse faultyClauses).mapError (·.map (·.position.offset)) =
      .error [0, 12, 14, 19, 25, 41, 43, 51, 54, 56] := by decide +kernel
  obtain ⟨errors, h, hoffsets⟩ := mapError_eq_error_iff.mp hp
  exact ⟨first, hf, hk, errors, h, hoffsets, Statement.offsets_of_parse hf hk h⟩

end RecordQuery
