import RecordQuery.Proofs.Statement.Reports

/-! # Statements made of the texts of their clauses

A statement is written by putting the texts of its clauses behind their keywords. What is wrong
with the text of a clause shows when it is the only one that can be wrong; the question is whether
it still shows behind other texts (`Statement.reports_joined_iff`). -/

namespace RecordQuery

open Text TokenReader

open Token (AllAgree)

/-! ## Texts of clauses -/

/-- The tokens of the text that the parser gets to see. -/
def Token.visible (s : String) : List Token := (tokens (.ofString s)).filter matters

/-- The text of one clause, without its keyword: it has no faults, no semicolon, and no word that
begins a statement or a clause. -/
structure ClauseText (s : String) : Prop where
  faultless : ∀ t ∈ Token.tokens (.ofString s), t.fault? = none
  isMark : ∀ t ∈ Token.tokens (.ofString s), t.isMark .semicolon = false
  isKeyword : ∀ t ∈ Token.tokens (.ofString s),
    ∀ k ∈ [Keyword.SELECT, .FROM, .WITH, .WHERE], t.isKeyword k = false

/-- The text ends in a comment that only the end of a line would end, so that what follows the text
is part of the comment. -/
def EndsOpen (s : String) : Prop := Token.EndsInComment s.toList (Token.tokens (.ofString s))

instance (s : String) : Decidable (ClauseText s) :=
  decidable_of_iff ((∀ t ∈ Token.tokens (.ofString s), t.fault? = none) ∧
    (∀ t ∈ Token.tokens (.ofString s), t.isMark .semicolon = false) ∧
    ∀ t ∈ Token.tokens (.ofString s),
      ∀ k ∈ [Keyword.SELECT, .FROM, .WITH, .WHERE], t.isKeyword k = false)
    ⟨fun ⟨h₁, h₂, h₃⟩ => ⟨h₁, h₂, h₃⟩, fun ⟨h₁, h₂, h₃⟩ => ⟨h₁, h₂, h₃⟩⟩

instance (s : String) : Decidable (EndsOpen s) :=
  inferInstanceAs (Decidable (∃ t ∈ (Token.tokens (.ofString s)).getLast?, t.kind = .comment ∧
    t.literal.toList.head? ≠ some '/' ∧ t.literal.toList <:+ s.toList))

namespace Statement

/-- The statement with these texts for its four clauses. -/
def joined (selection source index condition : String) : String :=
  "SELECT " ++ selection ++ " FROM " ++ source ++ " WITH " ++ index ++ " WHERE " ++ condition

/-- Reading the text reports something in the context of the clause. -/
def Reports (text : String) (k : Clause) : Prop :=
  ∃ es, parse text = .error es ∧ ∃ e ∈ es, e.context = k.keyword.text

instance (text : String) (k : Clause) : Decidable (Reports text k) :=
  match h : parse text with
  | .ok _ => isFalse fun ⟨_, he, _⟩ => nomatch h.symm.trans he
  | .error es => decidable_of_iff (∃ e ∈ es, e.context = k.keyword.text)
    ⟨fun he => ⟨es, h, he⟩, fun ⟨_, he, hm⟩ => Except.error.inj (h.symm.trans he) ▸ hm⟩

end Statement

namespace Token

theorem opensClause_eq_false {t : Token}
    (h : ∀ k ∈ [Keyword.SELECT, .FROM, .WITH, .WHERE], t.isKeyword k = false) :
    t.opensClause = false := by
  unfold opensClause
  split
  · next k hk =>
    have hk : t.isKeyword k = true := beq_iff_eq.mpr hk
    cases k with
    | FROM | WITH | WHERE => rw [h _ (by simp)] at hk; cases hk
    | _ => rfl
  · rfl

theorem tokens_clauseWord {k : Keyword} (hk : k = .SELECT ∨ k.opensClause = true) :
    tokens (.ofString k.text) = [⟨.keyword, k.text, .start⟩] := by
  cases k with
  | SELECT | FROM | WITH | WHERE => decide +kernel
  | _ => rcases hk with hk | hk <;> cases hk

theorem sealed_clauseWord {k : Keyword} (hk : k = .SELECT ∨ k.opensClause = true) :
    Sealed k.text := by
  constructor
  · rw [tokens_clauseWord hk]
    simp [fault?]
  · rw [EndsInComment, tokens_clauseWord hk]
    rintro ⟨_, ⟨⟩, ⟨⟩, -⟩

/-- A text that stands at the start has its own tokens before those of the text behind it. -/
theorem Sealed.agree {s : String} (h : Sealed s) {rest : List Char} {us : List Token}
    (hr : AllAgree (tokens ⟨.start, rest⟩) us) :
    AllAgree (tokens ⟨.start, s.toList ++ ' ' :: rest⟩) (tokens (.ofString s) ++ us) :=
  (h.agree_tokens .start .start rest).trans ((AllAgree.refl _).append hr)

/-- The word `k` as a token. -/
def ofKeyword (k : Keyword) : Token := ⟨.keyword, k.text, .start⟩

theorem isKeyword_ofKeyword (k : Keyword) : (ofKeyword k).isKeyword k = true := by
  simp [ofKeyword, isKeyword, keyword?, Keyword.ofText?_text]

theorem AllAgree.forall_mem {P : Token → Prop} (hP : ∀ {t u : Token}, t.Agrees u → P t → P u)
    {ts us : List Token} (h : AllAgree ts us) (hts : ∀ t ∈ ts, P t) : ∀ u ∈ us, P u := by
  induction h with
  | nil => exact hts
  | cons h _ ih =>
    obtain ⟨ht, hts⟩ := List.forall_mem_cons.mp hts
    exact List.forall_mem_cons.mpr ⟨hP h ht, ih hts⟩

theorem Agrees.fault?_eq_none {t u : Token} (h : t.Agrees u) (ht : t.fault? = none) :
    u.fault? = none := by
  unfold fault? at ht ⊢
  rw [← h.kind]
  split at ht
  · cases ht
  · rfl

end Token

theorem TokenReader.Plain.agree {ts us : List Token} (hts : Plain ts) (h : AllAgree ts us) :
    Plain us :=
  Token.AllAgree.forall_mem (fun ht ⟨⟨hf, ho⟩, hs⟩ => ⟨⟨ht.isFinish.symm.trans hf,
    ht.opensClause.symm.trans ho⟩, (ht.isMark _).symm.trans hs⟩) h hts

/-- No semicolon is among the tokens of a clause. -/
theorem TokenReader.Plain.isMark_cons {word : Token} {ts : List Token} {k : Keyword}
    (h : Plain ts) (hw : word.isKeyword k = true) :
    ∀ t ∈ word :: ts, t.isMark .semicolon = false :=
  List.forall_mem_cons.mpr ⟨Token.isMark_of_kind (by simp [Token.kind_of_isKeyword hw]) _,
    fun t ht => (h t ht).2⟩

namespace ClauseText

variable {s : String}

theorem plain (h : ClauseText s) : Plain (Token.visible s) := by
  intro t ht
  have hm := List.mem_of_mem_filter ht
  exact ⟨⟨Token.isFinish_of_mem_tokens hm, Token.opensClause_eq_false (h.isKeyword t hm)⟩,
    h.isMark t hm⟩

theorem isSealed (h : ClauseText s) (ho : ¬ EndsOpen s) : Token.Sealed s := ⟨h.faultless, ho⟩

end ClauseText

namespace Statement

variable {selection source index condition : String}

theorem toList_joined (selection source index condition : String) :
    (joined selection source index condition).toList =
      Keyword.SELECT.text.toList ++ ' ' :: (selection.toList ++ ' ' ::
        (Keyword.FROM.text.toList ++ ' ' :: (source.toList ++ ' ' ::
          (Keyword.WITH.text.toList ++ ' ' :: (index.toList ++ ' ' ::
            (Keyword.WHERE.text.toList ++ ' ' :: condition.toList)))))) := by
  unfold joined
  simp only [String.toList_append, List.append_assoc]
  rfl

/-- The tokens of the clauses and those of their keywords, one after the other. -/
theorem agree_joined (hp : Token.Sealed selection) (hf : Token.Sealed source)
    (hw : Token.Sealed index) :
    AllAgree (Token.tokens (.ofString (joined selection source index condition)))
      (Token.ofKeyword .SELECT :: (Token.tokens (.ofString selection) ++
        Token.ofKeyword .FROM :: (Token.tokens (.ofString source) ++
          Token.ofKeyword .WITH :: (Token.tokens (.ofString index) ++
            Token.ofKeyword .WHERE :: Token.tokens (.ofString condition))))) := by
  have word {k : Keyword} (hk : k = .SELECT ∨ k.opensClause = true)
      {rest : List Char} {us : List Token} (h : AllAgree (Token.tokens ⟨.start, rest⟩) us) :
      AllAgree (Token.tokens ⟨.start, k.text.toList ++ ' ' :: rest⟩)
        (Token.ofKeyword k :: us) := by
    have := (Token.sealed_clauseWord hk).agree h
    rwa [Token.tokens_clauseWord hk] at this
  rw [Cursor.ofString, toList_joined]
  exact word (.inl rfl) (hp.agree (word (.inr rfl) (hf.agree (word (.inr rfl)
    (hw.agree (word (.inr rfl) (.refl _)))))))

/-- The tokens of a statement that is made of texts without faults. -/
theorem exists_visible_joined (hp : ClauseText selection) (hpo : ¬ EndsOpen selection)
    (hf : ClauseText source) (hfo : ¬ EndsOpen source) (hw : ClauseText index)
    (hwo : ¬ EndsOpen index) (hh : ClauseText condition) :
    let text := joined selection source index condition
    (Token.tokens (.ofString text)).filterMap Token.fault? = [] ∧
    ∃ select from' with' where' ps fs ws hs, Token.visible text =
        select :: (ps ++ from' :: (fs ++ with' :: (ws ++ where' :: hs))) ∧
      (select.isKeyword .SELECT = true ∧ from'.isKeyword .FROM = true ∧
        with'.isKeyword .WITH = true ∧ where'.isKeyword .WHERE = true) ∧
      AllAgree (Token.visible selection) ps ∧ AllAgree (Token.visible source) fs ∧
      AllAgree (Token.visible index) ws ∧ AllAgree (Token.visible condition) hs := by
  intro text
  have ht : AllAgree _ (Token.tokens (.ofString text)) :=
    (agree_joined (hp.isSealed hpo) (hf.isSealed hfo) (hw.isSealed hwo)).symm
  have word (k : Keyword) : (Token.ofKeyword k).fault? = none := rfl
  refine ⟨List.filterMap_eq_nil_iff.mpr (ht.forall_mem Token.Agrees.fault?_eq_none ?_), ?_⟩
  · simp only [List.forall_mem_cons, List.forall_mem_append, word, true_and]
    exact ⟨hp.faultless, hf.faultless, hw.faultless, hh.faultless⟩
  · have hv : AllAgree (Token.ofKeyword .SELECT :: (Token.visible selection ++
        Token.ofKeyword .FROM :: (Token.visible source ++
          Token.ofKeyword .WITH :: (Token.visible index ++
            Token.ofKeyword .WHERE :: Token.visible condition)))) (Token.visible text) := by
      have := ht.filter_matters
      have word (k : Keyword) : (Token.ofKeyword k).matters = true := rfl
      simp only [List.filter_cons, List.filter_append, word, if_true] at this
      exact this
    generalize Token.visible text = ts at hv
    obtain _ | ⟨h₁, hv₁⟩ := hv
    obtain ⟨ps, _, _, rfl, hps, h₂, hv₂⟩ := AllAgree.exists_append_cons hv₁
    obtain ⟨fs, _, _, rfl, hfs, h₃, hv₃⟩ := hv₂.exists_append_cons
    obtain ⟨ws, _, hs, rfl, hws, h₄, hhs⟩ := hv₃.exists_append_cons
    refine ⟨_, _, _, _, ps, fs, ws, hs, rfl, ⟨?_, ?_, ?_, ?_⟩, hps, hfs, hws, hhs⟩
    · exact (h₁.isKeyword _).symm.trans (Token.isKeyword_ofKeyword _)
    · exact (h₂.isKeyword _).symm.trans (Token.isKeyword_ofKeyword _)
    · exact (h₃.isKeyword _).symm.trans (Token.isKeyword_ofKeyword _)
    · exact (h₄.isKeyword _).symm.trans (Token.isKeyword_ofKeyword _)

end Statement

/-! ## From the text to the reader -/

theorem SyntaxError.context_eq_iff {e : SyntaxError} {k : Clause} :
    e.context = k.keyword.text ↔ e.clause = some k := by
  unfold context
  cases e.clause with
  | none => cases k <;> simp [Clause.keyword, Keyword.text]
  | some c => cases c <;> cases k <;> simp [Clause.keyword, Keyword.text]

namespace TokenReader

theorem concerns_parse {r : TokenReader} {k : Clause}
    (h : r.readStatement.2.errors = [] → r.readStatement.1.isSome = true) :
    (∃ es, r.parse.1 = .error es ∧ Concerns es k) ↔ Concerns r.readStatement.2.errors k := by
  unfold parse
  rcases hr : r.readStatement with ⟨o, r'⟩
  rw [hr] at h
  by_cases he : r'.errors = []
  · obtain ⟨s, rfl⟩ := Option.isSome_iff_exists.mp (h he)
    simp [he, Concerns]
  · cases o <;> simp [he]

theorem meets_ofStream {st : TokenStream} {t : Token} {ts : List Token}
    (hs : st.tokens = t :: ts) (hf : st.faults = []) :
    (ofStream st).current = t ∧ (ofStream st).Meets none ts [] := by
  have ho : st.opened.Holds (t :: ts) := TokenStream.holds_opened.mpr ⟨hs, hf⟩
  have h : st.opened.Meets none (t :: ts) [] := ⟨rfl, ho.tokens, ho.errors, ho.unseen⟩
  exact ⟨(current_advance st.opened).trans h.peek, h.advance⟩

end TokenReader

theorem WhereClause.OptionSpelledBy.eq_nil {o : Option WhereClause} {ts : List Token}
    (h : OptionSpelledBy o ts) (ht : ∀ t ∈ ts, t.isKeyword .WHERE = false) : ts = [] := by
  cases h with
  | none => rfl
  | some hw =>
    cases hw with
    | mk hk _ _ => exact absurd (ht _ (List.mem_cons_self ..)) (by simp [hk])

namespace Statement

variable {text selection source index condition : String} {k : Clause}

theorem reports_iff : Reports text k ↔ ∃ es, parse text = .error es ∧ Concerns es k := by
  simp only [Reports, Concerns, SyntaxError.context_eq_iff]

theorem exists_parse_iff : (∃ s, parse text = .ok s) ↔
    (Token.tokens (.ofString text)).filterMap Token.fault? = [] ∧
      ∃ s : Statement, s.SpelledBy (Token.visible text) := by
  simp only [parse_eq_ok_iff, exists_and_left, Token.visible]

/-- What is reported about the last two clauses of a text with these tokens. -/
theorem reports_of_visible {select from' with' where' : Token} {ps fs ws hs : List Token}
    (hf : (Token.tokens (.ofString text)).filterMap Token.fault? = [])
    (ht : Token.visible text =
      select :: (ps ++ from' :: (fs ++ with' :: (ws ++ where' :: hs))))
    (hk : select.isKeyword .SELECT = true) (hk₁ : from'.isKeyword .FROM = true)
    (hk₂ : with'.isKeyword .WITH = true) (hk₃ : where'.isKeyword .WHERE = true)
    (hps : Plain ps) (hfs : Plain fs) (hws : Plain ws) (hhs : Plain hs) :
    (Reports text .index ↔ (¬ ∃ e : IndexClause, e.SpelledBy ws) ∧
      ¬ (SelectList.Overrun ps ∨ Source.Overrun fs)) ∧
    (Reports text .condition ↔ (¬ ∃ w : WhereClause, w.SpelledBy (where' :: hs)) ∧
      ¬ (SelectList.Overrun ps ∨ Source.Overrun fs) ∧ ¬ IndexClause.Overrun ws) := by
  have hst : (TokenStream.ofString text).tokens = _ := (TokenStream.tokens_ofTokens _ _).trans ht
  have hsf : (TokenStream.ofString text).faults = [] :=
    (TokenStream.faults_ofTokens _ _).trans hf
  obtain ⟨rfl, h⟩ := meets_ofStream hst hsf
  obtain ⟨hv, hi, hc⟩ := h.concerns_readStatement hk hk₁ hk₂ hk₃ hps hfs hws hhs
  rw [reports_iff, reports_iff, parse, ofString, concerns_parse hv, concerns_parse hv]
  exact ⟨hi, hc⟩

/-! ## A clause behind others that are in order -/

/-- The tokens behind the source spell the other clauses. -/
theorem SpelledBy.after_star {select star from' space : Token} {ts : List Token} {s : Statement}
    (h : s.SpelledBy (select :: star :: from' :: space :: ts)) (hs : star.isSign .star = true)
    (ht : ∀ t ∈ ts.head?, t.isMark .dot = false) :
    ∃ vs ws xs, IndexClause.OptionSpelledBy s.index vs ∧
      WhereClause.OptionSpelledBy s.condition ws ∧ EndedBy xs ∧ ts = vs ++ ws ++ xs := by
  generalize hall : select :: star :: from' :: space :: ts = all at h
  cases h with | @mk _ _ _ index condition _ _ vs ws xs _ hsel hsrc hvs hws hxs =>
  cases hsel with
  | star _ =>
    cases hsrc with
    | space _ _ =>
      simp only [List.cons_append, List.nil_append, List.cons.injEq] at hall
      exact ⟨vs, ws, xs, hvs, hws, hxs, hall.2.2.2.2⟩
    | set _ _ hd _ =>
      simp only [List.cons_append, List.nil_append, List.cons.injEq] at hall
      obtain ⟨-, -, -, -, rfl⟩ := hall
      rw [List.head?_cons] at ht
      exact absurd (ht _ rfl) (by simp [hd])
  | bins hns =>
    obtain ⟨t, us, rfl, hn⟩ := Parse.first_of_names hns
    simp only [List.cons_append, List.cons.injEq] at hall
    obtain ⟨-, rfl, -⟩ := hall
    rcases Token.kind_of_isName hn with h | h <;> cases h.symm.trans (Token.kind_of_isSign hs)

/-- The tokens of a statement that selects everything are those of its last clauses. -/
theorem exists_spelledBy_star {select star from' space : Token} {ts : List Token}
    (hk : select.isKeyword .SELECT = true) (hs : star.isSign .star = true)
    (hf : from'.isKeyword .FROM = true) (hn : space.isName = true)
    (ht : ∀ t ∈ ts.head?, t.isMark .dot = false) :
    (∃ s : Statement, s.SpelledBy (select :: star :: from' :: space :: ts)) ↔
      ∃ index condition vs ws xs, IndexClause.OptionSpelledBy index vs ∧
        WhereClause.OptionSpelledBy condition ws ∧ EndedBy xs ∧ ts = vs ++ ws ++ xs := by
  constructor
  · rintro ⟨s, h⟩
    exact ⟨s.index, s.condition, h.after_star hs ht⟩
  · rintro ⟨index, condition, vs, ws, xs, hvs, hws, hxs, rfl⟩
    exact ⟨_, .mk hk (.star hs) (.space hf hn) hvs hws hxs⟩

/-- Neither a clause nor a semicolon can stand where no token opens the one or is the other. -/
theorem EndedBy.eq_nil {ts : List Token} (h : EndedBy ts)
    (ht : ∀ t ∈ ts, t.isMark .semicolon = false) : ts = [] := by
  cases h with
  | nothing => rfl
  | semicolon hm => exact absurd (ht _ (List.mem_singleton_self _)) (by simp [hm])

theorem exists_spelledBy_index {word : Token} {ws : List Token}
    (hw : word.isKeyword .WITH = true) (hws : Plain ws) :
    (∃ index condition vs us xs, IndexClause.OptionSpelledBy index vs ∧
      WhereClause.OptionSpelledBy condition us ∧ EndedBy xs ∧ word :: ws = vs ++ us ++ xs) ↔
      ∃ e : IndexClause, e.SpelledBy ws := by
  constructor
  · rintro ⟨index, condition, vs, us, xs, hvs, hus, hxs, h⟩
    have hmark := hws.isMark_cons hw
    have hwhere : ∀ t ∈ word :: ws, t.isKeyword .WHERE = false :=
      List.forall_mem_cons.mpr ⟨Token.isKeyword_of_ne hw nofun,
        fun t ht => (hws.stray ht).isKeyword_where⟩
    rw [h] at hmark hwhere
    obtain rfl := hxs.eq_nil fun t ht => hmark t (by simp [ht])
    obtain rfl := hus.eq_nil fun t ht => hwhere t (by simp [ht])
    rw [List.append_nil, List.append_nil] at h
    cases hvs with
    | none => cases h
    | some _ he => exact ⟨_, (List.cons.inj h).2 ▸ he⟩
  · rintro ⟨e, he⟩
    exact ⟨some e, none, _, _, _, .some hw he, .none, .nothing, by simp⟩

theorem exists_spelledBy_condition {word : Token} {hs : List Token}
    (hw : word.isKeyword .WHERE = true) (hhs : Plain hs) :
    (∃ index condition vs us xs, IndexClause.OptionSpelledBy index vs ∧
      WhereClause.OptionSpelledBy condition us ∧ EndedBy xs ∧ word :: hs = vs ++ us ++ xs) ↔
      ∃ w : WhereClause, w.SpelledBy (word :: hs) := by
  constructor
  · rintro ⟨index, condition, vs, us, xs, hvs, hus, hxs, h⟩
    have hmark := hhs.isMark_cons hw
    rw [h] at hmark
    obtain rfl := hxs.eq_nil fun t ht => hmark t (by simp [ht])
    rw [List.append_nil] at h
    cases hvs with
    | none =>
      cases hus with
      | none => cases h
      | some hw =>
        rw [List.nil_append] at h
        exact ⟨_, h ▸ hw⟩
    | some hk _ =>
      obtain rfl := (List.cons.inj h).1
      exact nomatch Token.isKeyword_inj hk hw
  · rintro ⟨w, hw⟩
    exact ⟨none, some w, _, _, _, .none, .some hw, .nothing, by simp⟩

theorem exists_spelledBy_congr {ts us : List Token} (h : AllAgree ts us) :
    (∃ s : Statement, s.SpelledBy ts) ↔ ∃ s : Statement, s.SpelledBy us :=
  ⟨fun ⟨_, hs⟩ => (hs.agree h).imp fun _ h => h.1,
    fun ⟨_, hs⟩ => (hs.agree h.symm).imp fun _ h => h.1⟩

/-- A text has its own tokens behind a beginning. -/
theorem agree_append {beginning : String} (hb : Token.Sealed beginning) (rest : String) :
    AllAgree (Token.tokens (.ofString beginning) ++ Token.tokens (.ofString rest))
      (Token.tokens (.ofString (beginning ++ " " ++ rest))) := by
  have hl : (beginning ++ " " ++ rest).toList = beginning.toList ++ ' ' :: rest.toList := by
    simp
  rw [Cursor.ofString.eq_def (beginning ++ " " ++ rest), hl]
  exact (hb.agree (.refl _)).symm

theorem agree_visible_append {beginning : String} (hb : Token.Sealed beginning) (rest : String) :
    AllAgree (Token.visible beginning ++ Token.visible rest)
      (Token.visible (beginning ++ " " ++ rest)) := by
  have h := (agree_append hb rest).filter_matters
  rwa [List.filter_append] at h

/-- A text can be read behind a beginning just if its tokens are the rest of a statement. -/
theorem exists_parse_append {beginning rest : String} (hb : Token.Sealed beginning)
    (hr : ∀ t ∈ Token.tokens (.ofString rest), t.fault? = none) :
    (∃ s, parse (beginning ++ " " ++ rest) = .ok s) ↔
      ∃ s : Statement, s.SpelledBy (Token.visible beginning ++ Token.visible rest) := by
  have hf := (agree_append hb rest).forall_mem Token.Agrees.fault?_eq_none
    (List.forall_mem_append.mpr ⟨hb.faultless, hr⟩)
  rw [exists_parse_iff, and_iff_right (List.filterMap_eq_nil_iff.mpr hf)]
  exact (exists_spelledBy_congr (agree_visible_append hb rest)).symm

/-- The tokens of a text that selects everything, up to the word that opens a clause. -/
theorem tokens_star {k : Clause} (hk : k = .index ∨ k = .condition) :
    Token.tokens (.ofString ("SELECT * FROM ns " ++ k.keyword.text)) =
      [⟨.keyword, "SELECT", .start⟩, ⟨.operator, "*", ⟨7, 1, 8⟩⟩, ⟨.keyword, "FROM", ⟨9, 1, 10⟩⟩,
        ⟨.identifier, "ns", ⟨14, 1, 15⟩⟩, ⟨.keyword, k.keyword.text, ⟨17, 1, 18⟩⟩] := by
  rcases hk with rfl | rfl <;> decide +kernel

theorem sealed_star {k : Clause} (hk : k = .index ∨ k = .condition) :
    Token.Sealed ("SELECT * FROM ns " ++ k.keyword.text) := by
  constructor
  · rw [tokens_star hk]
    simp [Token.fault?]
  · rw [Token.EndsInComment, tokens_star hk]
    rintro ⟨_, ⟨⟩, ⟨⟩, -⟩

theorem agree_visible_star {k : Clause} (hk : k = .index ∨ k = .condition) :
    AllAgree (Token.visible ("SELECT * FROM ns " ++ k.keyword.text))
      [⟨.keyword, "SELECT", .start⟩, ⟨.operator, "*", .start⟩, ⟨.keyword, "FROM", .start⟩,
        ⟨.identifier, "ns", .start⟩, Token.ofKeyword k.keyword] := by
  rw [Token.visible, tokens_star hk]
  exact .cons (.of_eq rfl rfl) (.cons (.of_eq rfl rfl) (.cons (.of_eq rfl rfl)
    (.cons (.of_eq rfl rfl) (.cons (.of_eq rfl rfl) .nil))))

theorem isMark_dot_of_mem_head? {k : Keyword} {ts : List Token} :
    ∀ t ∈ (Token.ofKeyword k :: ts).head?, t.isMark .dot = false := by
  rintro _ ⟨⟩
  exact Token.isMark_of_kind (by simp [Token.ofKeyword]) _

/-- What it takes for a text to be read as the only clause behind the source. -/
theorem exists_parse_star {k : Clause} (hk : k = .index ∨ k = .condition) {rest : String}
    (hr : ∀ t ∈ Token.tokens (.ofString rest), t.fault? = none) :
    (∃ s, parse ("SELECT * FROM ns " ++ k.keyword.text ++ " " ++ rest) = .ok s) ↔
      ∃ index condition vs us xs, IndexClause.OptionSpelledBy index vs ∧
        WhereClause.OptionSpelledBy condition us ∧ EndedBy xs ∧
        Token.ofKeyword k.keyword :: Token.visible rest = vs ++ us ++ xs := by
  rw [exists_parse_append (sealed_star hk) hr,
    exists_spelledBy_congr ((agree_visible_star hk).append (.refl _))]
  exact exists_spelledBy_star (by decide +kernel) (by decide +kernel) (by decide +kernel)
    (by decide +kernel) isMark_dot_of_mem_head?

/-- A text that is read behind the source has the tokens of the last clauses. -/
theorem exists_spelledBy_of_parse_star {k : Clause} (hk : k = .index ∨ k = .condition)
    {rest : String} {s : Statement}
    (h : parse ("SELECT * FROM ns " ++ k.keyword.text ++ " " ++ rest) = .ok s) :
    ∃ s' : Statement, s'.bare = s.bare ∧ ∃ vs us xs, IndexClause.OptionSpelledBy s'.index vs ∧
      WhereClause.OptionSpelledBy s'.condition us ∧ EndedBy xs ∧
      Token.ofKeyword k.keyword :: Token.visible rest = vs ++ us ++ xs := by
  have hv := (agree_visible_append (sealed_star hk) rest).symm.trans
    ((agree_visible_star hk).append (.refl _))
  obtain ⟨s', hs, hb⟩ := (parse_eq_ok_iff.mp h).2.agree hv
  exact ⟨s', hb, hs.after_star (by decide +kernel) isMark_dot_of_mem_head?⟩

theorem exists_parse_index (hw : ClauseText index) :
    (∃ s, parse ("SELECT * FROM ns WITH " ++ index) = .ok s) ↔
      ∃ e : IndexClause, e.SpelledBy (Token.visible index) :=
  (exists_parse_star (.inl rfl) hw.faultless).trans
    (exists_spelledBy_index (Token.isKeyword_ofKeyword _) hw.plain)

theorem exists_parse_condition (hh : ClauseText condition) :
    (∃ s, parse ("SELECT * FROM ns WHERE " ++ condition) = .ok s) ↔
      ∃ w : WhereClause, w.SpelledBy (Token.ofKeyword .WHERE :: Token.visible condition) :=
  (exists_parse_star (.inr rfl) hh.faultless).trans
    (exists_spelledBy_condition (Token.isKeyword_ofKeyword _) hh.plain)

/-! ## What is reported about the clauses of a statement -/

/-- A clause of a statement that cannot be read behind clauses that are in order is reported there,
unless a clause before it overruns; then it is not reported at all. -/
theorem reports_joined_iff (hp : ClauseText selection) (hpo : ¬ EndsOpen selection)
    (hf : ClauseText source) (hfo : ¬ EndsOpen source) (hw : ClauseText index)
    (hwo : ¬ EndsOpen index) (hh : ClauseText condition) :
    (Reports (joined selection source index condition) .index ↔
      (∀ s, parse ("SELECT * FROM ns WITH " ++ index) ≠ .ok s) ∧
        ¬ SelectList.Overrun (Token.visible selection) ∧
        ¬ Source.Overrun (Token.visible source)) ∧
    (Reports (joined selection source index condition) .condition ↔
      (∀ s, parse ("SELECT * FROM ns WHERE " ++ condition) ≠ .ok s) ∧
        ¬ SelectList.Overrun (Token.visible selection) ∧
        ¬ Source.Overrun (Token.visible source) ∧
        ¬ IndexClause.Overrun (Token.visible index)) := by
  obtain ⟨hfault, select, from', with', where', ps, fs, ws, hs, ht, ⟨hk, hk₁, hk₂, hk₃⟩,
    hps, hfs, hws, hhs⟩ := exists_visible_joined hp hpo hf hfo hw hwo hh
  have hword : (Token.ofKeyword .WHERE).Agrees where' :=
    ⟨(Token.kind_of_isKeyword hk₃).symm, .inr ⟨.WHERE, rfl, Token.isKeyword_ofKeyword _, hk₃⟩⟩
  obtain ⟨hi, hc⟩ := reports_of_visible hfault ht hk hk₁ hk₂ hk₃ (hp.plain.agree hps)
    (hf.plain.agree hfs) (hw.plain.agree hws) (hh.plain.agree hhs)
  rw [hi, hc, ← not_exists, ← not_exists, exists_parse_index hw, exists_parse_condition hh,
    IndexClause.exists_spelledBy_congr hws,
    WhereClause.exists_spelledBy_congr (.cons hword hhs), SelectList.overrun_congr hps,
    Source.overrun_congr hfs, IndexClause.overrun_congr hws, not_or]
  exact ⟨Iff.rfl, by rw [and_assoc]⟩

/-- One token at the most overruns nothing that is not spelled by no tokens. -/
theorem not_overruns_of_length {S : α → List Token → Prop} {Q : α → Token → Prop}
    {ts : List Token} (hts : ts.length ≤ 1) (hS : ∀ a, ¬ S a []) : ¬ Overruns S Q ts := by
  rintro ⟨a, us, t, vs, rfl, ha, -⟩
  cases us with
  | nil => exact hS a ha
  | cons u us => simp at hts

theorem ne_ok_of_isOk {x : Except ε α} (h : x.isOk = false) (a : α) : x ≠ .ok a := by
  rintro rfl
  cases h

theorem reports_joined_numbers :
    (ClauseText "1" ∧ ClauseText "2" ∧ ClauseText "3" ∧ ClauseText "4") ∧
    (¬ EndsOpen "1" ∧ ¬ EndsOpen "2" ∧ ¬ EndsOpen "3") ∧
    Reports (joined "1" "2" "3" "4") .index ∧ Reports (joined "1" "2" "3" "4") .condition := by
  have hs : ClauseText "1" ∧ ClauseText "2" ∧ ClauseText "3" ∧ ClauseText "4" := by
    decide +kernel
  have ho : ¬ EndsOpen "1" ∧ ¬ EndsOpen "2" ∧ ¬ EndsOpen "3" := by decide +kernel
  have hp : ¬ SelectList.Overrun (Token.visible "1") :=
    not_overruns_of_length (by decide +kernel) nofun
  have hf : ¬ Source.Overrun (Token.visible "2") :=
    not_overruns_of_length (by decide +kernel) fun _ ⟨_, h⟩ => by cases h
  have hw : ¬ IndexClause.Overrun (Token.visible "3") :=
    not_overruns_of_length (by decide +kernel) fun _ h => by cases h
  obtain ⟨hi, hc⟩ := reports_joined_iff hs.1 ho.1 hs.2.1 ho.2.1 hs.2.2.1 ho.2.2 hs.2.2.2
  exact ⟨hs, ho, hi.mpr ⟨ne_ok_of_isOk (by decide +kernel), hp, hf⟩,
    hc.mpr ⟨ne_ok_of_isOk (by decide +kernel), hp, hf, hw⟩⟩

/-- A list of bins that ends before a name keeps what is wrong behind it from being reported. -/
theorem not_reports_joined_overrun :
    (ClauseText "a b" ∧ ClauseText "ns" ∧ ClauseText "=" ∧ ClauseText "x = 1") ∧
    (∀ s, parse ("SELECT * FROM ns WITH " ++ "=") ≠ .ok s) ∧
    ¬ Reports (joined "a b" "ns" "=" "x = 1") .index :=
  ⟨by decide +kernel, ne_ok_of_isOk (by decide +kernel), by decide +kernel⟩

end Statement

end RecordQuery
