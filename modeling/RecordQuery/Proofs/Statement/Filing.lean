import RecordQuery.Proofs.Statement.Findings

/-! # The clause that an error is filed under

The faults behind a token are reported when the token is passed, and filed under the clause that is
being read at that moment. FROM is passed when its clause has been entered, but SELECT, WITH and
WHERE are passed before theirs is. So what stands right behind one of these words is filed under
the clause before it, or under none, and everything else under the clause that it belongs to
(`Statement.clause_of_parse`). -/

namespace RecordQuery

open Text

namespace Token

variable {t : Token} {pre ts : List Token} {c : Clause}

/-- The clause that is opened last among the tokens. The words of a statement that open its clauses
do nothing else in it. -/
def lastClause (ts : List Token) : Option Clause := (ts.filterMap clause?).getLast?

/-- The last of the tokens is SELECT, WITH or WHERE. -/
def EndsInWord (ts : List Token) : Prop := ∃ t ∈ ts.getLast?, ∃ c ∈ t.clause?, c ≠ .source

instance (ts : List Token) : Decidable (EndsInWord ts) :=
  inferInstanceAs (Decidable (∃ t ∈ ts.getLast?, ∃ c ∈ t.clause?, c ≠ .source))

theorem lastClause_append (h : ∀ t ∈ ts, t.clause? = none) :
    lastClause (pre ++ ts) = lastClause pre := by
  rw [lastClause, List.filterMap_append, List.filterMap_eq_nil_iff.mpr h, List.append_nil,
    lastClause]

theorem lastClause_word (h : t.clause? = some c) : lastClause (pre ++ [t]) = some c := by
  rw [lastClause, List.filterMap_append, List.filterMap_cons_some h]
  simp

theorem endsInWord_iff : EndsInWord (pre ++ [t]) ↔ ∃ c ∈ t.clause?, c ≠ .source := by
  simp [EndsInWord]

/-- What stands behind the tokens is filed under `c`. -/
structure Filed (ts : List Token) (c : Option Clause) : Prop where
  eq_lastClause_iff : c = lastClause ts ↔ ¬ EndsInWord ts
  eq_of_endsInWord : EndsInWord ts → c = lastClause ts.dropLast

theorem Filed.nil : Filed [] none where
  eq_lastClause_iff := ⟨fun _ => nofun, fun _ => rfl⟩
  eq_of_endsInWord := nofun

theorem Filed.plain (h : t.clause? = none) : Filed (pre ++ [t]) (lastClause pre) := by
  have hw : ¬ EndsInWord (pre ++ [t]) := by simp [endsInWord_iff, h]
  refine ⟨⟨fun _ => hw, fun _ => ?_⟩, fun h => absurd h hw⟩
  exact (lastClause_append (by simpa using h)).symm

theorem Filed.source (h : t.clause? = some .source) : Filed (pre ++ [t]) (some .source) := by
  have hw : ¬ EndsInWord (pre ++ [t]) := by simp [endsInWord_iff, h]
  exact ⟨⟨fun _ => hw, fun _ => (lastClause_word h).symm⟩, fun h => absurd h hw⟩

theorem Filed.word (h : t.clause? = some c) (hc : c ≠ .source) (hne : lastClause pre ≠ some c) :
    Filed (pre ++ [t]) (lastClause pre) := by
  have hw : EndsInWord (pre ++ [t]) := endsInWord_iff.mpr ⟨c, h, hc⟩
  refine ⟨⟨fun he => ?_, fun hn => absurd hw hn⟩, fun _ => ?_⟩
  · rw [lastClause_word h] at he
    exact absurd he hne
  · rw [List.dropLast_concat]

/-! ## Tokens before a place -/

/-- The tokens before the offset `n`. -/
def before (n : Nat) (ts : List Token) : List Token := ts.filter (·.position.offset < n)

theorem before_append {n : Nat} (hpre : ∀ t ∈ pre, t.position.offset < n)
    (hts : ∀ t ∈ ts, n < t.position.offset) : before n (pre ++ ts) = pre := by
  have hnil : ts.filter (·.position.offset < n) = [] := by
    apply List.filter_eq_nil_iff.mpr
    intro t ht
    simpa using Nat.le_of_lt (hts t ht)
  rw [before, List.filter_append, hnil, List.append_nil]
  apply List.filter_eq_self.mpr
  intro t ht
  simpa using hpre t ht

end Token

open Token (lastClause EndsInWord Filed before)

namespace TokenReader

variable {r r' : TokenReader} {all pre ts : List Token} {t : Token} {c : Clause}

/-- The reader has passed the tokens `pre` of `all`, and what it has reported is filed. -/
structure Files (all pre : List Token) (r : TokenReader) : Prop where
  ascending : all.Pairwise (·.position.offset < ·.position.offset)
  tokens : all = pre ++ r.ahead.map (·.token)
  inOrder : r.InOrder
  errors : ∀ e ∈ r.errors, Filed (before e.position.offset all) e.clause

theorem errors_advance (hp : r.peek.isFinish = false) : r.advance.errors =
    r.errors ++ r.advance.upcoming.map fun m => ⟨.lexical m.fault, m.position, r.clause⟩ := by
  rcases r with ⟨current, _ | ⟨s, steps⟩, trailing, finish, clause, errors⟩
  · cases hp
  · rfl

theorem clause_advance (r : TokenReader) : r.advance.clause = r.clause := by
  unfold TokenReader.advance
  split <;> rfl

theorem mem_beyond {m : Misread} (hp : r.peek.isFinish = false) (hm : m ∈ r.advance.upcoming) :
    m.finding ∈ r.beyond := by
  rcases r with ⟨current, _ | ⟨s, _ | ⟨s', steps⟩⟩, trailing, finish, clause, errors⟩
  · cases hp
  · exact List.mem_append_left _ (List.mem_map_of_mem hm)
  · show _ ∈ TokenStream.findings ⟨s' :: steps, trailing, finish⟩
    rw [TokenStream.findings_cons]
    exact List.mem_append_left _ (List.mem_map_of_mem hm)

/-- The faults behind a token stand between it and the next one. -/
theorem upcoming_between (h : r.InOrder) (hp : r.peek.isFinish = false) {m : Misread}
    (hm : m ∈ r.advance.upcoming) : r.peek.position.offset < m.position.offset ∧
      m.position.offset < r.advance.peek.position.offset := by
  constructor
  · exact h.peek_lt (mem_beyond hp hm) nofun
  · have hreported : ⟨.lexical m.fault, m.position, r.clause⟩ ∈ r.advance.errors := by
      rw [errors_advance hp]
      exact List.mem_append_right _ (List.mem_map.mpr ⟨m, hm, rfl⟩)
    exact h.advance.offset_lt_peek hreported nofun

theorem tokens_ahead (hp : r.peek.isFinish = false) :
    r.ahead.map (·.token) = r.peek :: r.advance.ahead.map (·.token) := by
  rcases r with ⟨current, _ | ⟨s, steps⟩, trailing, finish, clause, errors⟩
  · cases hp
  · rfl

/-- The next token is the first of those ahead. -/
theorem offset_peek_le {ts : List Token} (hr : r.Faces ts)
    (h : ts.Pairwise (·.position.offset < ·.position.offset)) (ht : t ∈ ts) :
    r.peek.position.offset ≤ t.position.offset := by
  subst hr
  rcases r with ⟨current, _ | ⟨s, steps⟩, trailing, finish, clause, errors⟩
  · cases ht
  · rcases List.mem_cons.mp ht with rfl | ht
    · exact Nat.le_refl _
    · exact Nat.le_of_lt (List.rel_of_pairwise_cons h ht)

/-- What is reported when a token is passed is filed under the clause that is being read. -/
theorem Files.advance (h : Files all pre r) (hp : r.peek.isFinish = false)
    (hc : Filed (pre ++ [r.peek]) r.clause) : Files all (pre ++ [r.peek]) r.advance := by
  have htokens : all = pre ++ [r.peek] ++ r.advance.ahead.map (·.token) := by
    rw [List.append_assoc, List.singleton_append, ← tokens_ahead hp, ← h.tokens]
  have hasc := h.ascending
  rw [htokens] at hasc
  obtain ⟨hpassed, hahead, -⟩ := List.pairwise_append.mp hasc
  refine ⟨h.ascending, htokens, h.inOrder.advance, ?_⟩
  rw [errors_advance hp]
  intro e he
  rcases List.mem_append.mp he with he | he
  · exact h.errors e he
  · obtain ⟨m, hm, rfl⟩ := List.mem_map.mp he
    obtain ⟨hlow, hhigh⟩ := upcoming_between h.inOrder hp hm
    have hpre : ∀ t ∈ pre ++ [r.peek], t.position.offset < m.position.offset := by
      intro t ht
      rcases List.mem_append.mp ht with ht | ht
      · have hlt := (List.pairwise_append.mp hpassed).2.2 t ht _ (List.mem_singleton_self _)
        exact Nat.lt_trans hlt hlow
      · rw [List.mem_singleton.mp ht]
        exact hlow
    have hpost : ∀ t ∈ r.advance.ahead.map (·.token), m.position.offset < t.position.offset := by
      intro t ht
      exact Nat.lt_of_lt_of_le hhigh (offset_peek_le rfl hahead ht)
    rw [htokens, Token.before_append hpre hpost]
    exact hc

/-! ## What one token does -/

/-- The reader reads the clause that was opened last. -/
structure FilesUnder (all pre : List Token) (r : TokenReader) : Prop extends Files all pre r where
  clause : r.clause = lastClause pre

namespace FilesUnder

theorem plain (h : FilesUnder all pre r) (hp : r.peek.isFinish = false)
    (ht : r.peek.clause? = none) : FilesUnder all (pre ++ [r.peek]) r.advance where
  toFiles := h.toFiles.advance hp (h.clause ▸ .plain ht)
  clause := by
    rw [clause_advance, h.clause, Token.lastClause_append (by simpa using ht)]

/-- FROM is passed when its clause has been entered. -/
theorem source (h : FilesUnder all pre r) (hk : r.peek.isKeyword .FROM = true) :
    FilesUnder all (pre ++ [r.peek]) (r.enter .source).advance where
  toFiles := by
    have ht : r.peek.clause? = some .source := Token.clause?_of_isKeyword hk
    have he : Files all pre (r.enter .source) := ⟨h.ascending, h.tokens, h.inOrder, h.errors⟩
    exact he.advance (Token.isFinish_of_isKeyword hk) (.source ht)
  clause := by
    rw [clause_advance, Token.lastClause_word (Token.clause?_of_isKeyword hk)]
    rfl

/-- The clauses of SELECT, WITH and WHERE are entered when the word has been passed. -/
theorem word (h : FilesUnder all pre r) (hk : r.peek.isKeyword c.keyword = true)
    (hc : c ≠ .source) (hne : r.clause ≠ some c) :
    FilesUnder all (pre ++ [r.peek]) (r.advance.enter c) := by
  have ht : r.peek.clause? = some c := by
    rw [Token.clause?_of_isKeyword hk]
    cases c <;> rfl
  rw [h.clause] at hne
  have ha := h.toFiles.advance (Token.isFinish_of_isKeyword hk) (h.clause ▸ .word ht hc hne)
  exact ⟨⟨ha.ascending, ha.tokens, ha.inOrder, ha.errors⟩, (Token.lastClause_word ht).symm⟩

/-! ## Clauses -/

theorem takes (h : FilesUnder all pre r) (ht : r.Takes ts r')
    (hts : ∀ t ∈ ts, t.clause? = none) : FilesUnder all (pre ++ ts) r' := by
  induction ts generalizing r pre with
  | nil =>
    cases ht
    rwa [List.append_nil]
  | cons t ts ih =>
    obtain ⟨⟨rfl, hf⟩, ht⟩ := ht
    have hstep := h.plain hf (hts _ List.mem_cons_self)
    have hrest := ih hstep ht fun u hu => hts u (List.mem_cons_of_mem _ hu)
    rwa [List.append_assoc] at hrest

theorem leaves {a : α} (h : FilesUnder all pre r) (hl : Parse.Leaves r (some a) r') :
    ∃ pre', FilesUnder all pre' r' ∧ r'.clause = r.clause := by
  cases hl with
  | @read _ ts _ ht hts =>
    have h' := h.takes ht hts
    refine ⟨pre ++ ts, h', ?_⟩
    rw [h'.clause, h.clause, Token.lastClause_append hts]

theorem reads {p : Parse α} {a : α} (h : FilesUnder all pre r) (hp : Parse.Stops p r)
    (hr : Parse.Reads p r a r') : ∃ pre', FilesUnder all pre' r' ∧ r'.clause = r.clause := by
  unfold Parse.Stops at hp
  rw [hr.1, hr.2] at hp
  exact h.leaves hp

theorem reads_source {s : Source} (h : FilesUnder all pre r)
    (hr : Parse.Reads Parse.source (r.enter .source) s r') :
    ∃ pre', FilesUnder all pre' r' ∧ r'.clause = some .source := by
  obtain ⟨ts, hs, ht, -⟩ := Parse.reads_source.mp hr
  obtain ⟨word, us, rfl, hw⟩ := Parse.first_of_source hs
  have hk : (r.enter .source).peek.isKeyword .FROM = true := ht.1.1 ▸ hw
  have hl := leaves_source hk
  rw [hr.1, hr.2] at hl
  obtain ⟨pre', h', hc⟩ := (h.source hk).leaves hl
  rw [clause_advance] at hc
  exact ⟨pre', h', hc⟩

theorem readsClause {p : Token → Parse α} {o : Option α} (h : FilesUnder all pre r)
    (hp : ∀ t m, Parse.Stops (p t) m) (hr : r.ReadsClause c p o r') (hc : c ≠ .source)
    (hne : r.clause ≠ some c) :
    ∃ pre', FilesUnder all pre' r' ∧ (r'.clause = r.clause ∨ r'.clause = some c) := by
  cases o with
  | none =>
    obtain ⟨-, rfl⟩ := hr
    exact ⟨pre, h, .inl rfl⟩
  | some a =>
    obtain ⟨hk, hr⟩ := hr
    obtain ⟨pre', h', hc'⟩ := (h.word hk hc hne).reads (hp _ _) hr
    exact ⟨pre', h', .inr hc'⟩

theorem skipSemicolon (h : FilesUnder all pre r) : ∃ pre', FilesUnder all pre' r.skipSemicolon := by
  unfold TokenReader.skipSemicolon
  split
  · next hm => exact ⟨_, h.plain (Token.isFinish_of_isMark hm) (Token.clause?_of_isMark hm)⟩
  · exact ⟨pre, h⟩

theorem readStatement {s : Statement} (h : FilesUnder all pre (r.enter .select))
    (hr : r.readStatement = (some s, r')) : ∃ pre', FilesUnder all pre' r' := by
  obtain ⟨-, -, r₁, r₂, r₃, r₄, h₁, h₂, h₃, h₄, rfl, -⟩ := readStatement_eq_some.mp hr
  obtain ⟨pre₁, k₁, -⟩ := h.reads (Parse.stops_selectList _) h₁
  obtain ⟨pre₂, k₂, hc₂⟩ := k₁.reads_source h₂
  obtain ⟨pre₃, k₃, hc₃⟩ := k₂.readsClause (fun _ => Parse.stops_index) h₃ nofun (by simp [hc₂])
  have hne : r₃.clause ≠ some .condition := by
    rcases hc₃ with hc₃ | hc₃
    · simp [hc₃, hc₂]
    · simp [hc₃]
  obtain ⟨pre₄, k₄, -⟩ := k₃.readsClause Parse.stops_condition h₄ nofun hne
  exact k₄.skipSemicolon

end FilesUnder

/-- The faults before the first token have no token before them. -/
theorem before_of_mem_opened {text : String} {e : SyntaxError}
    (he : e ∈ (TokenStream.ofString text).opened.errors) :
    before e.position.offset (Token.visible text) = [] := by
  obtain ⟨m, -, rfl⟩ := List.mem_map.mp he
  have hlt := (inOrder_opened text).offset_lt_peek he nofun
  apply Token.before_append (nofun : ∀ t ∈ [], _)
  intro t ht
  have hle := offset_peek_le (faces_opened text) (Token.ascending_visible text) ht
  exact Nat.lt_of_lt_of_le hlt hle

theorem filesUnder_opened (text : String) :
    FilesUnder (Token.visible text) [] (TokenStream.ofString text).opened where
  ascending := Token.ascending_visible text
  tokens := (faces_opened text).symm
  inOrder := inOrder_opened text
  errors := by
    intro e he
    have hc : e.clause = none := by
      obtain ⟨m, -, rfl⟩ := List.mem_map.mp he
      rfl
    rw [before_of_mem_opened he, hc]
    exact .nil
  clause := rfl

end TokenReader

namespace Statement

open TokenReader

/-- Reads the text as if its faults were not in it. -/
def parseFaultless (text : String) : Except (List SyntaxError) Statement :=
  let c := Cursor.ofString text
  let ts := (Token.tokens c).filter fun t => t.fault?.isNone
  (ofStream (.ofTokens (Token.last c).position ts)).parse.1

theorem spelledBy_of_parseFaultless {text : String} {s : Statement}
    (h : parseFaultless text = .ok s) : s.SpelledBy (Token.visible text) := by
  have hfilter (ts : List Token) :
      (ts.filter fun t => t.fault?.isNone).filter Token.matters = ts.filter Token.matters := by
    rw [List.filter_filter]
    apply List.filter_congr
    intro t ht
    cases hk : t.kind <;> simp [Token.matters, Token.fault?, hk]
  unfold parseFaultless at h
  rw [TokenStream.parse_eq_ok_iff, TokenStream.tokens_ofTokens, hfilter] at h
  · exact h.2
  · intro t ht
    rw [TokenStream.tokens_ofTokens, hfilter] at ht
    exact Token.isFinish_of_mem_tokens (List.mem_of_mem_filter ht)

/-- What is wrong with a text that would be a statement without its faults is filed under the
clause that was opened last before it, unless it stands right behind SELECT, WITH or WHERE. There it
is filed under the clause before, or under none. -/
theorem clause_of_parse {text : String} {s : Statement} {errors : List SyntaxError}
    {e : SyntaxError} (hs : parseFaultless text = .ok s) (h : parse text = .error errors)
    (he : e ∈ errors) :
    let ts := before e.position.offset (Token.visible text)
    (e.clause = lastClause ts ↔ ¬ EndsInWord ts) ∧
      (EndsInWord ts → e.clause = lastClause ts.dropLast) := by
  have hsp := spelledBy_of_parseFaultless hs
  obtain ⟨word, rest, hv, hk⟩ : ∃ word rest, Token.visible text = word :: rest ∧
      word.isKeyword .SELECT = true := by
    generalize Token.visible text = us at hsp
    cases hsp with
    | mk hw => exact ⟨_, _, rfl, hw⟩
  have hf : ∀ t ∈ rest, t.isFinish = false := by
    intro t ht
    exact Token.isFinish_of_mem_visible (hv ▸ List.mem_cons_of_mem _ ht)
  have hfaces := faces_ofString text
  rw [hv] at hfaces
  rw [hv, ← current_ofString hv] at hsp
  obtain ⟨r', hr, -⟩ := hfaces.readStatement hsp hf
  have hfirst : (TokenStream.ofString text).opened.peek.isKeyword .SELECT = true := by
    rwa [← current_ofString_eq_peek, current_ofString hv]
  have hfiles := (filesUnder_opened text).word (c := .select) hfirst nofun nofun
  obtain ⟨pre, hfinal⟩ := hfiles.readStatement hr
  obtain ⟨rfl, -⟩ := errors_of_parse h
  rw [hr] at he
  have hfiled := hfinal.errors e he
  exact ⟨hfiled.eq_lastClause_iff, hfiled.eq_of_endsInWord⟩

/-- A statement with a fault behind each of its words, and one between a bin and its sign. -/
def scatteredFaults : String := "SELECT ? a FROM ? n WHERE ? c ? = 2"

theorem clause_of_parse_scatteredFaults :
    ∃ s errors, parseFaultless scatteredFaults = .ok s ∧
      parse scatteredFaults = .error errors ∧
      errors.map (·.clause) = [none, some .source, some .source, some .condition] ∧
      ∀ e ∈ errors, let ts := before e.position.offset (Token.visible scatteredFaults)
        (e.clause = lastClause ts ↔ ¬ EndsInWord ts) ∧
          (EndsInWord ts → e.clause = lastClause ts.dropLast) := by
  have hok : (parseFaultless scatteredFaults).toOption.isSome = true := by decide +kernel
  have hp : (parse scatteredFaults).mapError (·.map (·.clause)) =
      .error [none, some .source, some .source, some .condition] := by decide +kernel
  obtain ⟨s, hs⟩ := Option.isSome_iff_exists.mp hok
  obtain ⟨errors, h, hclauses⟩ := mapError_eq_error_iff.mp hp
  refine ⟨s, errors, eq_ok_of_toOption hs, h, hclauses, ?_⟩
  intro e he
  exact clause_of_parse (eq_ok_of_toOption hs) h he

/-- A fault behind WITH is filed under FROM. -/
theorem clause_faultBehindWith :
    (∃ s, parseFaultless "SELECT * FROM ns WITH ~ a = 1" = .ok s) ∧
    ∃ e, parse "SELECT * FROM ns WITH ~ a = 1" = .error [e] ∧
      e.clause = some .source ∧
      lastClause (before e.position.offset (Token.visible "SELECT * FROM ns WITH ~ a = 1")) =
        some .index := by
  have hok : (parseFaultless "SELECT * FROM ns WITH ~ a = 1").toOption.isSome = true := by
    decide +kernel
  obtain ⟨s, hs⟩ := Option.isSome_iff_exists.mp hok
  refine ⟨⟨s, eq_ok_of_toOption hs⟩,
    ⟨.lexical (.unknownCharacter '~'), ⟨22, 1, 23⟩, some .source⟩, ?_, rfl, ?_⟩
  · decide +kernel
  · decide +kernel

end Statement

end RecordQuery
