import RecordQuery.Proofs.Statement.Holding
import RecordQuery.Proofs.Statement.Parsing.Condition
import RecordQuery.Proofs.Statement.Parsing.Index

/-! # Reading a statement

The clauses of a statement are read one after the other, and each may be followed by the next
only, so what stands behind a clause never belongs to it. A text is read as a statement just if it
has no faults and its tokens spell the statement (`Statement.parse_eq_ok_iff`). -/

namespace RecordQuery

open TokenReader

namespace Parse

variable {r r' : TokenReader}

/-! ## The clauses before the WITH clause -/

theorem reads_binNames_of_isName (hn : r.peek.isName = true) {ns : List Name} :
    Reads binNames r ns r' ↔
      (r.advance.peek.isMark .comma = true ∧
        ∃ ns', Reads binNames r.advance.advance ns' r' ∧ ns = .ofToken r.peek :: ns') ∨
      (r.advance.peek.isMark .comma = false ∧ ns = [.ofToken r.peek] ∧ r' = r.advance) := by
  unfold Reads
  rw [binNames, dif_pos hn]
  by_cases hc : r.advance.peek.isMark .comma = true
  · simp only [hc, if_true, Option.map_eq_some_iff]
    constructor
    · rintro ⟨⟨ns', h, rfl⟩, hn⟩
      exact .inl ⟨trivial, ns', ⟨h, hn⟩, rfl⟩
    · rintro (⟨-, ns', ⟨h, hn⟩, rfl⟩ | ⟨⟨⟩, -⟩)
      exact ⟨⟨ns', h, rfl⟩, hn⟩
  · simp only [hc, Bool.false_eq_true, if_false]
    simp [eq_comm]

/-- A list of names ends where no comma follows. -/
theorem reads_binNames {ns : List Name} :
    Reads binNames r ns r' ↔
      ∃ ts, Name.AllSpelledBy ns ts ∧ r.Takes ts r' ∧ r'.peek.isMark .comma = false := by
  constructor
  · induction hr : r.remaining using Nat.strongRecOn generalizing r ns with
    | ind n ih =>
      intro h
      by_cases hn : r.peek.isName = true
      · have hf := Token.isFinish_of_isName hn
        rcases (reads_binNames_of_isName hn).mp h with ⟨hc, ns', h', rfl⟩ | ⟨hc, rfl, rfl⟩
        · have hlt : r.advance.advance.remaining < n :=
            hr ▸ Nat.lt_of_le_of_lt r.advance.remaining_advance_le (r.remaining_advance_lt hf)
          obtain ⟨ts, hns, ht, hend⟩ := ih _ hlt rfl h'
          exact ⟨_, .cons hn hc hns, ⟨⟨rfl, hf⟩, ⟨rfl, Token.isFinish_of_isMark hc⟩, ht⟩, hend⟩
        · exact ⟨_, .last hn, ⟨⟨rfl, hf⟩, rfl⟩, hc⟩
      · unfold Reads at h
        rw [binNames, dif_neg hn] at h
        exact (not_reads_fail h).elim
  · rintro ⟨ts, hns, ht, hend⟩
    induction hns generalizing r with
    | last hn =>
      obtain ⟨⟨rfl, -⟩, rfl⟩ := ht
      exact (reads_binNames_of_isName hn).mpr (.inr ⟨hend, rfl, rfl⟩)
    | cons hn hc _ ih =>
      obtain ⟨⟨rfl, -⟩, ⟨rfl, -⟩, ht⟩ := ht
      exact (reads_binNames_of_isName hn).mpr (.inl ⟨hc, _, ih ht, rfl⟩)

theorem first_of_names {ns : List Name} {ts : List Token} (h : Name.AllSpelledBy ns ts) :
    ∃ t us, ts = t :: us ∧ t.isName = true := by
  cases h with
  | last hn | cons hn => exact ⟨_, _, rfl, hn⟩

theorem reads_selectList {s : SelectList} :
    Reads selectList r s r' ↔ ∃ ts, s.SpelledBy ts ∧ r.Takes ts r' ∧
      (s ≠ .star → r'.peek.isMark .comma = false) := by
  unfold selectList
  rw [reads_peek_bind]
  by_cases hs : r.peek.isSign .star = true
  · rw [if_pos hs, reads_bind_pure]
    simp only [reads_take (Token.isFinish_of_isSign hs)]
    constructor
    · rintro ⟨t, ht, rfl⟩
      exact ⟨_, .star (ht.1.1 ▸ hs), ht, fun h => absurd rfl h⟩
    · rintro ⟨ts, ⟨_⟩ | ⟨hns⟩, ht, -⟩
      · exact ⟨_, ht, rfl⟩
      · obtain ⟨t, us, rfl, hn⟩ := first_of_names hns
        rw [ht.1.1] at hs
        rcases Token.kind_of_isName hn with h | h <;>
          cases h.symm.trans (Token.kind_of_isSign hs)
  · rw [if_neg hs, reads_bind_pure]
    simp only [reads_binNames]
    constructor
    · rintro ⟨ns, ⟨ts, hns, ht, hend⟩, rfl⟩
      exact ⟨ts, .bins hns, ht, fun _ => hend⟩
    · rintro ⟨ts, ⟨h⟩ | ⟨hns⟩, ht, hend⟩
      · exact absurd (ht.1.1 ▸ h) hs
      · exact ⟨_, ⟨ts, hns, ht, hend nofun⟩, rfl⟩

/-- A dot behind the namespace belongs to the source, so a name has to follow it. -/
theorem reads_setName {o : Option Name} :
    Reads setName r o r' ↔
      (o = none ∧ r.peek.isMark .dot = false ∧ r' = r) ∨
      ∃ dot t, o = some (.ofToken t) ∧ dot.isMark .dot = true ∧ t.isName = true ∧
        r.Takes [dot, t] r' := by
  unfold setName
  rw [reads_peek_bind]
  by_cases hd : r.peek.isMark .dot = true
  · simp only [hd, if_true, reads_bind, reads_take (Token.isFinish_of_isMark hd), reads_name,
      reads_pure]
    constructor
    · rintro ⟨dot, m, k₁, _, _, ⟨t, rfl, hn, k₂⟩, rfl, rfl⟩
      exact .inr ⟨dot, t, rfl, k₁.1.1 ▸ hd, hn, k₁.append k₂⟩
    · rintro (⟨-, ⟨⟩, -⟩ | ⟨dot, t, rfl, -, hn, ht⟩)
      obtain ⟨m, k₁, k₂⟩ := takes_cons_cons.mp ht
      exact ⟨dot, m, k₁, _, _, ⟨t, rfl, hn, k₂⟩, rfl, rfl⟩
  · simp only [hd, Bool.false_eq_true, if_false, reads_pure]
    constructor
    · rintro ⟨rfl, rfl⟩
      exact .inl ⟨rfl, trivial, rfl⟩
    · rintro (⟨rfl, -, rfl⟩ | ⟨dot, t, rfl, hd', -, ht⟩)
      · exact ⟨rfl, rfl⟩
      · exact absurd (ht.1.1 ▸ hd') hd

/-- A source is read from its tokens, and no dot may follow a namespace that stands alone. -/
theorem reads_source {s : Source} :
    Reads source r s r' ↔ ∃ ts, s.SpelledBy ts ∧ r.Takes ts r' ∧
      (s.set = none → r'.peek.isMark .dot = false) := by
  unfold source
  simp only [reads_bind, reads_keyword, reads_name, reads_setName, reads_pure]
  constructor
  · rintro ⟨word, r₁, ⟨hw, k₁⟩, _, r₂, ⟨t, rfl, ht, k₂⟩, o, _,
      ⟨rfl, hd, rfl⟩ | ⟨dot, u, rfl, hd, hu, k₃⟩, rfl, rfl⟩
    · exact ⟨_, .space hw ht, k₁.append k₂, fun _ => hd⟩
    · exact ⟨_, .set hw ht hd hu, k₁.append (k₂.append k₃), nofun⟩
  · rintro ⟨_, ⟨hw, ht⟩ | ⟨hw, ht, hd, hu⟩, k, hend⟩
    · obtain ⟨r₁, k₁, k₂⟩ := takes_cons_cons.mp k
      exact ⟨_, r₁, ⟨hw, k₁⟩, _, _, ⟨_, rfl, ht, k₂⟩, none, _, .inl ⟨rfl, hend rfl, rfl⟩, rfl, rfl⟩
    · obtain ⟨r₁, k₁, k⟩ := takes_cons_cons.mp k
      obtain ⟨r₂, k₂, k₃⟩ := takes_cons_cons.mp k
      exact ⟨_, r₁, ⟨hw, k₁⟩, _, r₂, ⟨_, rfl, ht, k₂⟩, some _, _,
        .inr ⟨_, _, rfl, hd, hu, k₃⟩, rfl, rfl⟩

theorem first_of_source {s : Source} {ts : List Token} (h : s.SpelledBy ts) :
    ∃ t us, ts = t :: us ∧ t.isKeyword .FROM = true := by
  cases h with
  | space hw | set hw => exact ⟨_, _, rfl, hw⟩

end Parse

/-! ## The clauses in sequence -/

namespace TokenReader

open Parse

variable {r r' : TokenReader}

theorem attempt_eq_some {p : Parse α} {a : α} :
    r.attempt p = (some a, r') ↔ Reads p r a r' := by
  unfold attempt Reads
  cases (p r).value with
  | none => simp
  | some b => simp

/-- The reader reads a clause that may be missing. -/
def ReadsClause (r : TokenReader) (c : Clause) (p : Token → Parse α) :
    Option α → TokenReader → Prop
  | some a, r' => r.peek.isKeyword c.keyword = true ∧ Reads (p r.peek) (r.advance.enter c) a r'
  | none, r' => r.peek.isKeyword c.keyword = false ∧ r' = r

theorem attemptClause_eq_some {c : Clause} {p : Token → Parse α} {o : Option α} :
    r.attemptClause c p = (some o, r') ↔ r.ReadsClause c p o r' := by
  unfold attemptClause
  by_cases hk : r.peek.isKeyword c.keyword = true
  · rw [if_pos hk]
    have h := @attempt_eq_some (r.advance.enter c) r' _ (p r.peek)
    cases ha : (r.advance.enter c).attempt (p r.peek) with
    | mk value next =>
      rw [ha] at h
      cases o with
      | none => cases value <;> simp [ReadsClause, hk]
      | some a =>
        rw [ReadsClause, ← h]
        cases value <;> simp [hk]
  · rw [if_neg hk]
    cases o with
    | none => simp [ReadsClause, hk, eq_comm]
    | some a => simp [ReadsClause, hk]

/-- A statement is read if its clauses are, one after the other, and nothing but a semicolon stands
behind them. -/
theorem readStatement_eq_some {s : Statement} :
    r.readStatement = (some s, r') ↔
      r.current.isKeyword .SELECT = true ∧ s.token = r.current ∧ ∃ r₁ r₂ r₃ r₄,
        Reads selectList (r.enter .select) s.selection r₁ ∧
        Reads source (r₁.enter .source) s.source r₂ ∧
        r₂.ReadsClause .index (fun _ => index) s.index r₃ ∧
        r₃.ReadsClause .condition condition s.condition r₄ ∧
        r' = r₄.skipSemicolon ∧ r'.peek.isFinish = true := by
  unfold readStatement
  by_cases hs : r.current.isKeyword .SELECT = true
  · simp only [hs, if_true, true_and, ← attempt_eq_some, ← attemptClause_eq_some]
    cases h₁ : (r.enter .select).attempt selectList with | mk o₁ r₁ =>
    simp only
    cases h₂ : (r₁.enter .source).attempt source with | mk o₂ r₂ =>
    simp only
    cases h₃ : r₂.attemptClause .index fun _ => index with | mk o₃ r₃ =>
    simp only
    cases h₄ : r₃.attemptClause .condition condition with | mk o₄ r₄ =>
    simp only
    constructor
    · split
      · next hf =>
        split
        · rintro ⟨⟩
          exact ⟨rfl, r₁, r₂, r₃, r₄, rfl, h₂, h₃, h₄, rfl, hf⟩
        · exact fun h => nomatch h
      · exact fun h => nomatch h
    · rintro ⟨ht, _, _, _, _, e₁, e₂, e₃, e₄, rfl, hf⟩
      cases e₁
      cases h₂.symm.trans e₂
      cases h₃.symm.trans e₃
      cases h₄.symm.trans e₄
      rw [if_pos hf, ← ht]
  · simp [hs]

/-! ## The tokens of a statement -/

theorem ReadsClause.index_passes {o : Option IndexClause}
    (h : r.ReadsClause .index (fun _ => index) o r') :
    ∃ ts, IndexClause.OptionSpelledBy o ts ∧ r.Passes ts r' := by
  cases o with
  | none =>
    obtain ⟨-, rfl⟩ := h
    exact ⟨[], .none, Takes.passes (rfl : TokenReader.Takes _ [] _)⟩
  | some e =>
    obtain ⟨hk, hr⟩ := h
    obtain ⟨ts, he, ht⟩ := reads_index.mp hr
    have hw : r.Takes [r.peek] r.advance := ⟨⟨rfl, Token.isFinish_of_isKeyword hk⟩, rfl⟩
    exact ⟨_, .some hk he, hw.passes.append ht.passes.of_enter⟩

theorem ReadsClause.condition_passes {o : Option WhereClause}
    (h : r.ReadsClause .condition condition o r') :
    ∃ ts, WhereClause.OptionSpelledBy o ts ∧ r.Passes ts r' := by
  cases o with
  | none =>
    obtain ⟨-, rfl⟩ := h
    exact ⟨[], .none, Takes.passes (rfl : TokenReader.Takes _ [] _)⟩
  | some w =>
    obtain ⟨hk, hr⟩ := h
    obtain ⟨ts, hw, ht, -⟩ := (reads_condition hk).mp hr
    have hp : r.Takes [r.peek] r.advance := ⟨⟨rfl, Token.isFinish_of_isKeyword hk⟩, rfl⟩
    exact ⟨_, .some hw, hp.passes.append ht.passes.of_enter⟩

theorem skipSemicolon_passes (r : TokenReader) :
    ∃ ts, Statement.EndedBy ts ∧ r.Passes ts r.skipSemicolon := by
  unfold skipSemicolon
  split
  · next h =>
    have ht : r.Takes [r.peek] r.advance := ⟨⟨rfl, Token.isFinish_of_isMark h⟩, rfl⟩
    exact ⟨_, .semicolon h, ht.passes⟩
  · exact ⟨[], .nothing, Takes.passes (rfl : TokenReader.Takes _ [] _)⟩

/-- What is read as a statement without an error is spelled by the tokens that the reader had
left. -/
theorem spelledBy_of_readStatement {s : Statement} (h : r.readStatement = (some s, r'))
    (he : r'.errors = []) (hf : ∀ s ∈ r.ahead, s.token.isFinish = false) :
    ∃ ts, s.SpelledBy (r.current :: ts) ∧ r.Holds ts := by
  obtain ⟨hk, hs, r₁, r₂, r₃, r₄, h₁, h₂, h₃, h₄, rfl, hend⟩ := readStatement_eq_some.mp h
  obtain ⟨ts, hts, k₁, -⟩ := reads_selectList.mp h₁
  obtain ⟨us, hus, k₂, -⟩ := reads_source.mp h₂
  obtain ⟨vs, hvs, k₃⟩ := h₃.index_passes
  obtain ⟨ws, hws, k₄⟩ := h₄.condition_passes
  obtain ⟨xs, hxs, k₅⟩ := r₄.skipSemicolon_passes
  have k := (((k₁.passes.of_enter.append k₂.passes.of_enter).append k₃).append k₄).append k₅
  have hsp := Statement.SpelledBy.mk hk hts hus hvs hws hxs
  rw [← hs] at hsp ⊢
  exact ⟨_, hsp, k.holds_of_isFinish hf hend he⟩

/-- A WITH clause is read if it is there, and passed over if the next token opens another clause. -/
theorem Faces.readsClause_index {o : Option IndexClause} {ts us : List Token}
    (h : r.Faces (ts ++ us)) (ho : IndexClause.OptionSpelledBy o ts)
    (hf : ∀ t ∈ ts, t.isFinish = false) (hus : ∀ t ∈ us.head?, t.isKeyword .WITH = false) :
    ∃ r', r.ReadsClause .index (fun _ => index) o r' ∧ r.Passes ts r' ∧ r'.Faces us := by
  cases ho with
  | none => exact ⟨r, ⟨h.isKeyword_peek hus, rfl⟩, Takes.passes (rfl : r.Takes [] r), h⟩
  | @some word e ts hw he =>
    obtain ⟨_, k₁, h⟩ := @Faces.takes r [word] _ h fun t ht => hf t (by simp_all)
    have hp := k₁.passes
    obtain ⟨⟨rfl, -⟩, rfl⟩ := k₁
    obtain ⟨r', k₂, h⟩ := (h.enter .index).takes fun t ht => hf t (by simp [ht])
    exact ⟨r', ⟨hw, reads_index.mpr ⟨ts, he, k₂⟩⟩, hp.append k₂.passes.of_enter, h⟩

/-- A WHERE clause ends where the statement does. -/
theorem Faces.endsClause {ts : List Token} (h : r.Faces ts) (ht : Statement.EndedBy ts) :
    EndsClause r := by
  cases ht with
  | nothing => simp [EndsClause, h.isFinish_peek]
  | semicolon hs => simp [EndsClause, h.peek, hs]

theorem Faces.readsClause_condition {o : Option WhereClause} {ts us : List Token}
    (h : r.Faces (ts ++ us)) (ho : WhereClause.OptionSpelledBy o ts)
    (hf : ∀ t ∈ ts, t.isFinish = false) (hus : Statement.EndedBy us) :
    ∃ r', r.ReadsClause .condition condition o r' ∧ r.Passes ts r' ∧ r'.Faces us := by
  cases ho with
  | none =>
    refine ⟨r, ⟨h.isKeyword_peek ?_, rfl⟩, Takes.passes (rfl : r.Takes [] r), h⟩
    cases hus with
    | nothing => exact nofun
    | semicolon hs =>
      rintro _ ⟨⟩
      exact Token.isKeyword_of_kind (by simp [Token.kind_of_isMark hs]) _
  | @some w ts hw =>
    cases hw with
    | @mk word es ts hk ha hes =>
      obtain ⟨_, k₁, h⟩ := @Faces.takes r [word] _ h fun t ht => hf t (by simp_all)
      have hp := k₁.passes
      obtain ⟨⟨rfl, -⟩, rfl⟩ := k₁
      obtain ⟨r', k₂, h⟩ := (h.enter .condition).takes fun t ht => hf t (by simp [ht])
      exact ⟨r', ⟨hk, (reads_condition hk).mpr ⟨ts, .mk hk ha hes, k₂, h.endsClause hus⟩⟩,
        hp.append k₂.passes.of_enter, h⟩

theorem Faces.skipSemicolon {ts : List Token} (h : r.Faces ts) (ht : Statement.EndedBy ts) :
    r.Passes ts r.skipSemicolon ∧ r.skipSemicolon.Faces [] := by
  unfold TokenReader.skipSemicolon
  cases ht with
  | nothing =>
    rw [if_neg (by simp [Token.isMark_of_isFinish h.isFinish_peek])]
    exact ⟨Takes.passes (rfl : r.Takes [] r), h⟩
  | @semicolon t hs =>
    obtain ⟨_, k, h'⟩ := @Faces.takes r [t] [] h fun u hu =>
      List.mem_singleton.mp hu ▸ Token.isFinish_of_isMark hs
    have hp := k.passes
    obtain ⟨⟨rfl, -⟩, rfl⟩ := k
    rw [if_pos hs]
    exact ⟨hp, h'⟩

theorem head?_ending {xs : List Token} (h : Statement.EndedBy xs) :
    ∀ t ∈ xs.head?, t.isMark .semicolon = true := by
  cases h with
  | nothing => exact nofun
  | semicolon hs =>
    rintro _ ⟨⟩
    exact hs

theorem head?_condition {o : Option WhereClause} {ws xs : List Token}
    (h : WhereClause.OptionSpelledBy o ws) (hxs : Statement.EndedBy xs) :
    ∀ t ∈ (ws ++ xs).head?, t.isKeyword .WHERE = true ∨ t.isMark .semicolon = true := by
  cases h with
  | none => exact fun t ht => .inr (head?_ending hxs t ht)
  | some hw =>
    cases hw with
    | mk hk =>
      rintro _ ⟨⟩
      exact .inl hk

theorem head?_index {o : Option IndexClause} {vs us : List Token}
    (h : IndexClause.OptionSpelledBy o vs) :
    ∀ t ∈ (vs ++ us).head?, t.isKeyword .WITH = true ∨ t ∈ us.head? := by
  cases h with
  | none => exact fun t ht => .inr ht
  | some hw =>
    rintro _ ⟨⟩
    exact .inl hw

/-- A statement is read from the tokens that spell it, whatever faults there are among them. -/
theorem Faces.readStatement {s : Statement} {ts : List Token} (h : r.Faces ts)
    (hs : s.SpelledBy (r.current :: ts)) (hf : ∀ t ∈ ts, t.isFinish = false) :
    ∃ r', r.readStatement = (some s, r') ∧ r.Passes ts r' := by
  generalize hc : r.current :: ts = us at hs
  cases hs with
  | @mk word selection source index condition ts us vs ws xs hw hts hus hvs hws hxs =>
    obtain ⟨rfl, rfl⟩ := hc
    simp only [List.mem_append, or_imp, forall_and] at hf
    obtain ⟨⟨⟨⟨hf₁, hf₂⟩, hf₃⟩, hf₄⟩, -⟩ := hf
    simp only [List.append_assoc] at h
    obtain ⟨r₁, k₁, h⟩ := (h.enter .select).takes hf₁
    have hcomma : r₁.peek.isMark .comma = false := by
      obtain ⟨t, us', rfl, ht⟩ := first_of_source hus
      exact h.isMark_peek (by simp [Token.isMark_of_kind, Token.kind_of_isKeyword ht])
    obtain ⟨r₂, k₂, h⟩ := (h.enter .source).takes hf₂
    have hdot : r₂.peek.isMark .dot = false := by
      refine h.isMark_peek fun t ht => ?_
      rcases head?_index hvs t ht with hk | ht
      · exact Token.isMark_of_kind (by simp [Token.kind_of_isKeyword hk]) _
      · rcases head?_condition hws hxs t ht with hk | hm
        · exact Token.isMark_of_kind (by simp [Token.kind_of_isKeyword hk]) _
        · exact Token.isMark_of_ne hm nofun
    obtain ⟨r₃, h₃, k₃, h⟩ := h.readsClause_index hvs hf₃ fun t ht => by
      rcases head?_condition hws hxs t ht with hk | hm
      · exact Token.isKeyword_of_ne hk nofun
      · exact Token.isKeyword_of_kind (by simp [Token.kind_of_isMark hm]) _
    obtain ⟨r₄, h₄, k₄, h⟩ := h.readsClause_condition hws hf₄ hxs
    obtain ⟨k₅, h⟩ := h.skipSemicolon hxs
    refine ⟨_, readStatement_eq_some.mpr ⟨hw, rfl, r₁, r₂, r₃, r₄,
      reads_selectList.mpr ⟨ts, hts, k₁, fun _ => hcomma⟩,
      reads_source.mpr ⟨us, hus, k₂, fun _ => hdot⟩, h₃, h₄, rfl, h.isFinish_peek⟩, ?_⟩
    exact (((k₁.passes.of_enter.append k₂.passes.of_enter).append k₃).append k₄).append k₅

/-- It is read without an error if there are no faults. -/
theorem Holds.readStatement {s : Statement} {ts : List Token} (h : r.Holds ts)
    (hs : s.SpelledBy (r.current :: ts)) (hf : ∀ t ∈ ts, t.isFinish = false) :
    ∃ r', r.readStatement = (some s, r') ∧ r'.errors = [] := by
  obtain ⟨r', hr, hp⟩ := Faces.readStatement h.tokens hs hf
  rw [← List.append_nil ts] at h
  exact ⟨r', hr, ((hp.holds_iff []).mp h).errors⟩

theorem parse_eq_ok_iff {s : Statement} :
    r.parse.1 = .ok s ↔ ∃ r', r.readStatement = (some s, r') ∧ r'.errors = [] := by
  unfold parse
  cases h : r.readStatement with | mk o r₁ =>
  cases o with
  | none => simp
  | some s₁ =>
    by_cases he : r₁.errors = []
    · simp only [he, List.isEmpty_nil, if_true]
      constructor
      · rintro ⟨⟩
        exact ⟨r₁, rfl, he⟩
      · rintro ⟨_, ⟨⟩, -⟩
        rfl
    · simp only [List.isEmpty_iff, he, if_false]
      constructor
      · exact fun h => nomatch h
      · rintro ⟨_, ⟨⟩, h⟩
        exact absurd h he

end TokenReader

/-! ## The tokens of a text -/

namespace TokenStream

open TokenReader

/-- The reader before the first token of the stream. -/
def opened (st : TokenStream) : TokenReader :=
  (TokenReader.mk (.atEnd st.finish) st.steps st.trailing st.finish none []).reportUpcoming

theorem holds_opened {st : TokenStream} {ts : List Token} :
    st.opened.Holds ts ↔ st.tokens = ts ∧ st.faults = [] := by
  rcases st with ⟨_ | ⟨step, steps⟩, trailing, finish⟩
  · constructor
    · rintro ⟨ht, he, -⟩
      exact ⟨ht, List.map_eq_nil_iff.mp he⟩
    · rintro ⟨ht, he⟩
      exact ⟨ht, List.map_eq_nil_iff.mpr he, rfl⟩
  · have hs : faults ⟨step :: steps, trailing, finish⟩ =
        step.faults ++ (steps.flatMap (·.faults) ++ trailing) := by
      simp [faults]
    rw [hs, List.append_eq_nil_iff]
    constructor
    · rintro ⟨ht, he, hu⟩
      exact ⟨ht, List.map_eq_nil_iff.mp he, hu⟩
    · rintro ⟨ht, he, hu⟩
      exact ⟨ht, List.map_eq_nil_iff.mpr he, hu⟩

/-- A stream is read as a statement just if it has no faults and its tokens spell the
statement. -/
theorem parse_eq_ok_iff {st : TokenStream} (hf : ∀ t ∈ st.tokens, t.isFinish = false)
    {s : Statement} :
    (ofStream st).parse.1 = .ok s ↔ st.faults = [] ∧ s.SpelledBy st.tokens := by
  rw [TokenReader.parse_eq_ok_iff]
  cases hs : st.steps with
  | nil =>
    have hc : (ofStream st).current = .atEnd st.finish := by
      unfold ofStream
      rw [hs]
      rfl
    constructor
    · rintro ⟨r', h, -⟩
      have hk := (readStatement_eq_some.mp h).1
      rw [hc] at hk
      exact absurd (Token.kind_of_isKeyword hk) nofun
    · rintro ⟨-, h⟩
      rw [tokens, hs] at h
      cases h
  | cons step steps =>
    have hp : st.opened.peek = step.token := by
      unfold opened
      rw [hs]
      rfl
    have hc : (ofStream st).current = step.token := (current_advance st.opened).trans hp
    have ht : st.tokens = step.token :: steps.map (·.token) := by rw [tokens, hs]; rfl
    have hfin := hf step.token (by simp [ht])
    have holds {ts : List Token} : (ofStream st).Holds ts ↔
        st.tokens = step.token :: ts ∧ st.faults = [] :=
      (holds_cons hp hfin).symm.trans holds_opened
    constructor
    · rintro ⟨r', h, he⟩
      obtain ⟨ts, hsp, hh⟩ := spelledBy_of_readStatement h he fun s hm => by
        have := st.opened.ahead_advance_suffix.mem hm
        exact hf _ (List.mem_map_of_mem this)
      obtain ⟨ht, hfaults⟩ := holds.mp hh
      rw [hc, ← ht] at hsp
      exact ⟨hfaults, hsp⟩
    · rintro ⟨hfaults, hsp⟩
      have hh : (ofStream st).Holds (steps.map (·.token)) := holds.mpr ⟨ht, hfaults⟩
      rw [ht, ← hc] at hsp
      exact hh.readStatement hsp fun t hm => hf t (by simp_all)

end TokenStream

namespace Token

theorem isFinish_of_mem_tokens {c : Text.Cursor} {t : Token} (h : t ∈ tokens c) :
    t.isFinish = false := by
  fun_induction tokens c with
  | case1 c hf => cases h
  | case2 c hf ih =>
    rcases List.mem_cons.mp h with rfl | h
    · simpa using hf
    · exact ih h

end Token

theorem eq_ok_of_toOption {x : Except ε α} {a : α} (h : x.toOption = some a) : x = .ok a := by
  cases x with
  | error e => cases h
  | ok b => exact congrArg _ (Option.some.inj h)

theorem mapError_eq_error_iff {f : ε → ζ} {x : Except ε α} {e : ζ} :
    x.mapError f = .error e ↔ ∃ e', x = .error e' ∧ f e' = e := by
  constructor
  · intro h
    cases x with
    | error e' => exact ⟨e', rfl, Except.error.inj h⟩
    | ok a => cases h
  · intro h
    obtain ⟨e', rfl, rfl⟩ := h
    rfl

namespace Statement

/-- A text is a statement just if it has no faults and the tokens in it that matter spell the
statement. -/
theorem parse_eq_ok_iff {text : String} {s : Statement} :
    parse text = .ok s ↔
      (Token.tokens (.ofString text)).filterMap Token.fault? = [] ∧
      s.SpelledBy ((Token.tokens (.ofString text)).filter Token.matters) := by
  have hf : ∀ t ∈ (TokenStream.ofString text).tokens, t.isFinish = false := by
    intro t ht
    rw [TokenStream.ofString, TokenStream.tokens_ofTokens] at ht
    exact Token.isFinish_of_mem_tokens (List.mem_filter.mp ht).1
  refine (TokenStream.parse_eq_ok_iff hf).trans ?_
  rw [TokenStream.ofString, TokenStream.tokens_ofTokens, TokenStream.faults_ofTokens]

/-- In the WHERE clause of a text operands and connectives alternate. -/
theorem alternates_of_parse {text : String} {s : Statement} {w : WhereClause}
    (h : parse text = .ok s) (hw : s.condition = some w) :
    WhereEntry.alternates true w.items = true := by
  obtain ⟨-, h⟩ := parse_eq_ok_iff.mp h
  generalize (Token.tokens _).filter _ = ts at h
  cases h with
  | mk _ _ _ _ hws =>
    cases hw
    cases hws with
    | some hw =>
      cases hw with
      | mk _ ha => exact ha

end Statement

end RecordQuery
