import RecordQuery.Proofs.Grammar.Basic
import RecordQuery.Proofs.Statement.Parsing.Statement

/-! # The grammar of a statement

The sequences of the language, the list of bins and the WHERE clause, are read from the left, one
entry at a time, but the grammar gives them as repetitions. That both have the same words is an
argument in Kleene algebra: what is spelled is closed under putting one more entry in front. -/

namespace RecordQuery
namespace Grammar

open Computability

variable {ts : List Token}

/-! ## The list of bins -/

/-- The words that go on with a list of names. -/
def furtherNames : Language Token :=
  {ts | ∀ t : Token, t.isName = true → ∃ ns, Name.AllSpelledBy ns (t :: ts)}

/-- A repetition is contained in what is closed under one more step in front. -/
theorem kstar_le_furtherNames : (mark .comma * name)∗ ≤ furtherNames := by
  apply kstar_le_of_mul_le_right
  · rintro _ rfl t ht
    exact ⟨_, .last ht⟩
  · intro ts h t ht
    rw [mul_assoc, name_eq, mark] at h
    obtain ⟨_, _, rfl, hc, h⟩ := mem_one_mul.mp h
    obtain ⟨u, us, rfl, hu, h⟩ := mem_one_mul.mp h
    obtain ⟨ns, hns⟩ := h u hu
    exact ⟨_, .cons ht hc hns⟩

/-- A list of names is a name and any number of commas with names behind them. -/
theorem mem_names : ts ∈ name * (mark .comma * name)∗ ↔ ∃ ns, Name.AllSpelledBy ns ts := by
  constructor
  · intro h
    rw [name_eq, mem_one_mul, ← name_eq] at h
    obtain ⟨t, us, rfl, ht, h⟩ := h
    exact kstar_le_furtherNames h t ht
  · rintro ⟨ns, h⟩
    induction h with
    | last ht =>
      rw [name_eq, mem_one_mul]
      exact ⟨_, _, rfl, ht, Language.nil_mem_kstar _⟩
    | cons ht hc _ ih =>
      rw [← one_add_mul_kstar, mul_add, Language.mem_add, mul_assoc, mark, ← mark]
      rw [name_eq] at ih ⊢
      exact .inr (mem_one_mul.mpr ⟨_, _, rfl, ht, mem_one_mul.mpr ⟨_, _, rfl, hc, ih⟩⟩)

theorem mem_selection : ts ∈ selection ↔ ∃ s : SelectList, s.SpelledBy ts := by
  rw [selection, Language.mem_add, mem_names]
  constructor
  · rintro (⟨t, rfl, ht⟩ | ⟨ns, hns⟩)
    · exact ⟨_, .star ht⟩
    · exact ⟨_, .bins hns⟩
  · rintro ⟨_, ht | hns⟩
    · exact .inl ⟨_, rfl, ht⟩
    · exact .inr ⟨_, hns⟩

theorem mem_source : ts ∈ keyword .FROM * source ↔ ∃ s : Source, s.SpelledBy ts := by
  simp only [source, keyword, mark, name_eq, mul_add, mul_one, Language.mem_add, mem_one_mul,
    mem_one]
  constructor
  · rintro (⟨_, _, rfl, hw, _, rfl, ht⟩ | ⟨_, _, rfl, hw, _, _, rfl, ht, _, _, rfl, hd, _, rfl, hu⟩)
    · exact ⟨_, .space hw ht⟩
    · exact ⟨_, .set hw ht hd hu⟩
  · rintro ⟨_, ⟨hw, ht⟩ | ⟨hw, ht, hd, hu⟩⟩
    · exact .inl ⟨_, _, rfl, hw, _, rfl, ht⟩
    · exact .inr ⟨_, _, rfl, hw, _, _, rfl, ht, _, _, rfl, hd, _, rfl, hu⟩

/-! ## The WHERE clause -/

/-- The words that spell the rest of a WHERE clause, where an operand is awaited or not. -/
def rest (awaiting : Bool) : Language Token :=
  {ts | ∃ es, WhereEntry.alternates awaiting es = true ∧ WhereEntry.AllSpelledBy es ts}

theorem one_le_rest : 1 ≤ rest false := by
  rintro _ rfl
  exact ⟨[], rfl, .nil⟩

theorem opening_mul_rest_le : opening * rest true ≤ rest true := by
  rw [opening, add_mul]
  apply add_le
  · intro ts h
    obtain ⟨_, us, rfl, ht, es, ha, hes⟩ := mem_one_mul.mp h
    exact ⟨.openParen _ :: es, ha, .cons (.openParen ht) hes⟩
  · intro ts h
    obtain ⟨_, us, rfl, ht, es, ha, hes⟩ := mem_one_mul.mp h
    exact ⟨.connective .not :: es, ha, .cons (.connective ht) hes⟩

theorem atomic_mul_rest_le : atomic * rest false ≤ rest true := by
  intro ts h
  obtain ⟨us, hus, vs, ⟨es, ha, hes⟩, rfl⟩ := Language.mem_mul.mp h
  obtain ⟨a, hus⟩ := mem_atomic.mp hus
  exact ⟨.atomic a :: es, ha, .cons (.atomic hus) hes⟩

theorem closing_mul_rest_le : mark .closeParen * rest false ≤ rest false := by
  intro ts h
  obtain ⟨_, us, rfl, ht, es, ha, hes⟩ := mem_one_mul.mp h
  exact ⟨.closeParen _ :: es, ha, .cons (.closeParen ht) hes⟩

theorem link_mul_rest_le : link * rest true ≤ rest false := by
  rw [link, add_mul]
  apply add_le
  · intro ts h
    obtain ⟨_, us, rfl, ht, es, ha, hes⟩ := mem_one_mul.mp h
    exact ⟨.connective .and :: es, ha, .cons (.connective ht) hes⟩
  · intro ts h
    obtain ⟨_, us, rfl, ht, es, ha, hes⟩ := mem_one_mul.mp h
    exact ⟨.connective .or :: es, ha, .cons (.connective ht) hes⟩

/-- An operand may be put in front where one is awaited: each of its factors may. -/
theorem operand_mul_rest_le : operand * rest false ≤ rest true :=
  calc operand * rest false
      = opening∗ * (atomic * ((mark .closeParen)∗ * rest false)) := by
        simp only [operand, mul_assoc]
    _ ≤ opening∗ * (atomic * rest false) := by grw [kstar_mul_le_self closing_mul_rest_le]
    _ ≤ opening∗ * rest true := by grw [atomic_mul_rest_le]
    _ ≤ rest true := kstar_mul_le_self opening_mul_rest_le

/-- What the grammar gives as repetitions is spelled by entries, read from the left. -/
theorem condition_le_rest : condition ≤ rest true :=
  have h : (link * operand)∗ ≤ rest false := by
    apply kstar_le_of_mul_le_right one_le_rest
    grw [mul_assoc, operand_mul_rest_le, link_mul_rest_le]
  calc condition
      ≤ operand * rest false := by grw [condition, h]
    _ ≤ rest true := operand_mul_rest_le

/-- What follows a predicate in a WHERE clause. -/
def tail : Language Token := (mark .closeParen)∗ * (link * operand)∗

theorem condition_eq : condition = opening∗ * (atomic * tail) := by
  simp only [condition, operand, tail, mul_assoc]

theorem one_le_tail : 1 ≤ tail :=
  calc (1 : Language Token)
      = 1 * 1 := (mul_one 1).symm
    _ ≤ tail := mul_le_mul' one_le_kstar one_le_kstar

theorem opening_mul_condition_le : opening * condition ≤ condition := by
  grw [condition_eq, ← mul_assoc, mul_kstar_le_kstar]

theorem atomic_mul_tail_le : atomic * tail ≤ condition :=
  calc atomic * tail
      = 1 * (atomic * tail) := (one_mul _).symm
    _ ≤ condition := by grw [condition_eq, one_le_kstar (a := opening)]

theorem closing_mul_tail_le : mark .closeParen * tail ≤ tail := by
  grw [tail, ← mul_assoc, mul_kstar_le_kstar]

theorem link_mul_condition_le : link * condition ≤ tail :=
  calc link * condition
      = 1 * (link * operand * (link * operand)∗) := by rw [condition, one_mul, mul_assoc]
    _ ≤ tail := mul_le_mul' one_le_kstar mul_kstar_le_kstar

/-- The entries of a clause are words of the grammar; the induction is on the entries, and says
which half of the grammar the rest of them belongs to. -/
theorem mem_of_alternates {es : List WhereEntry} {awaiting : Bool}
    (ha : WhereEntry.alternates awaiting es = true) (h : WhereEntry.AllSpelledBy es ts) :
    ts ∈ cond awaiting condition tail := by
  induction h generalizing awaiting with
  | nil =>
    cases awaiting with
    | true => cases ha
    | false => exact one_le_tail rfl
  | cons he _ ih =>
    cases awaiting with
    | true =>
      cases he with
      | openParen ht =>
        exact opening_mul_condition_le (Language.append_mem_mul (.inl ⟨_, rfl, ht⟩) (ih ha))
      | closeParen ht => cases ha
      | @connective t c ht =>
        cases c with
        | not =>
          exact opening_mul_condition_le (Language.append_mem_mul (.inr ⟨_, rfl, ht⟩) (ih ha))
        | and | or => cases ha
      | atomic hs =>
        exact atomic_mul_tail_le (Language.append_mem_mul (mem_atomic.mpr ⟨_, hs⟩) (ih ha))
    | false =>
      cases he with
      | openParen ht => cases ha
      | closeParen ht => exact closing_mul_tail_le (Language.append_mem_mul ⟨_, rfl, ht⟩ (ih ha))
      | @connective t c ht =>
        cases c with
        | not => cases ha
        | and => exact link_mul_condition_le (Language.append_mem_mul (.inl ⟨_, rfl, ht⟩) (ih ha))
        | or => exact link_mul_condition_le (Language.append_mem_mul (.inr ⟨_, rfl, ht⟩) (ih ha))
      | atomic hs => cases ha

/-- The words of the grammar for a WHERE clause are those that spell one. -/
theorem mem_clause : ts ∈ keyword .WHERE * condition ↔ ∃ w : WhereClause, w.SpelledBy ts := by
  rw [keyword, mem_one_mul]
  constructor
  · rintro ⟨_, us, rfl, hw, hus⟩
    obtain ⟨es, ha, hes⟩ := condition_le_rest hus
    exact ⟨_, .mk hw ha hes⟩
  · rintro ⟨_, hw, ha, hes⟩
    exact ⟨_, _, rfl, hw, mem_of_alternates ha hes⟩

/-! ## The statement -/

theorem mem_optional_clause : ts ∈ 1 + keyword .WHERE * condition ↔
    ∃ o : Option WhereClause, WhereClause.OptionSpelledBy o ts := by
  rw [Language.mem_add, mem_clause]
  constructor
  · rintro (rfl | ⟨w, hw⟩)
    · exact ⟨_, .none⟩
    · exact ⟨_, .some hw⟩
  · rintro ⟨_, _ | hw⟩
    · exact .inl rfl
    · exact .inr ⟨_, hw⟩

theorem mem_ending : ts ∈ 1 + mark .semicolon ↔ Statement.EndedBy ts := by
  rw [Language.mem_add]
  constructor
  · rintro (rfl | ⟨t, rfl, ht⟩)
    · exact .nothing
    · exact .semicolon ht
  · rintro (_ | ht)
    · exact .inl rfl
    · exact .inr ⟨_, rfl, ht⟩

/-- The words of the grammar are those that spell a statement without a WITH clause. -/
theorem mem_statement : ts ∈ statement ↔ ∃ s : Statement, s.index = none ∧ s.SpelledBy ts := by
  have h : statement = keyword .SELECT * (selection * (keyword .FROM * source) *
      (1 + keyword .WHERE * condition) * (1 + mark .semicolon)) := by
    simp only [statement, mul_assoc]
  rw [h]
  refine mem_one_mul.trans ?_
  constructor
  · rintro ⟨_, _, rfl, hw, h⟩
    obtain ⟨_, h', xs, hxs, rfl⟩ := Language.mem_mul.mp h
    obtain ⟨_, h'', ws, hws, rfl⟩ := Language.mem_mul.mp h'
    obtain ⟨ts, hts, us, hus, rfl⟩ := Language.mem_mul.mp h''
    obtain ⟨selection, hts⟩ := mem_selection.mp hts
    obtain ⟨source, hus⟩ := mem_source.mp hus
    obtain ⟨condition, hws⟩ := mem_optional_clause.mp hws
    have hs := Statement.SpelledBy.mk hw hts hus .none hws (mem_ending.mp hxs)
    rw [List.append_nil] at hs
    exact ⟨_, rfl, hs⟩
  · rintro ⟨_, hi, hw, hts, hus, hvs, hws, hxs⟩
    obtain rfl : _ = none := hi
    cases hvs
    rw [List.append_nil]
    refine ⟨_, _, rfl, hw, ?_⟩
    refine Language.append_mem_mul (Language.append_mem_mul ?_ ?_) (mem_ending.mpr hxs)
    · exact Language.append_mem_mul (mem_selection.mpr ⟨_, hts⟩) (mem_source.mpr ⟨_, hus⟩)
    · exact mem_optional_clause.mpr ⟨_, hws⟩

end Grammar

namespace Statement

variable {s : Statement} {text : String}

/-- A statement that is spelled without the word `WITH` has no WITH clause. -/
theorem SpelledBy.index_eq_none {ts : List Token} (h : s.SpelledBy ts)
    (hw : ∀ t ∈ ts, t.isKeyword .WITH = false) : s.index = none := by
  cases h with
  | mk _ _ _ hvs _ _ =>
    cases hvs with
    | none => rfl
    | some hk => exact absurd hk (by simp [hw])

/-- The language of the texts without a WITH clause: a text is a statement just if it has no
faults and the tokens in it that matter are a word of the grammar, and then these tokens, one
after the other, spell the names and the entries of the WHERE clause that the statement has. -/
theorem exists_parse_iff_mem_statement
    (hw : ∀ t ∈ Token.tokens (.ofString text), t.isKeyword .WITH = false) :
    ((∃ s, parse text = .ok s) ↔
      (∀ t ∈ Token.tokens (.ofString text), t.fault? = none) ∧
      (Token.tokens (.ofString text)).filter Token.matters ∈ Grammar.statement) ∧
    ∀ s, parse text = .ok s →
      s.index = none ∧ s.SpelledBy ((Token.tokens (.ofString text)).filter Token.matters) := by
  have hn {s : Statement}
      (h : s.SpelledBy ((Token.tokens (.ofString text)).filter Token.matters)) : s.index = none :=
    h.index_eq_none fun t ht => hw t (List.mem_of_mem_filter ht)
  rw [Grammar.mem_statement, ← List.filterMap_eq_nil_iff]
  refine ⟨⟨?_, ?_⟩, ?_⟩
  · rintro ⟨s, h⟩
    obtain ⟨hf, hs⟩ := parse_eq_ok_iff.mp h
    exact ⟨hf, s, hn hs, hs⟩
  · rintro ⟨hf, s, -, hs⟩
    exact ⟨s, parse_eq_ok_iff.mpr ⟨hf, hs⟩⟩
  · intro s h
    obtain ⟨-, hs⟩ := parse_eq_ok_iff.mp h
    exact ⟨hn hs, hs⟩

/-- A text with a comment, a keyword that names a bin, and a parenthesis that is not closed. -/
def unclosed : String :=
  "SELECT a, any FROM ns.t -- all\nWHERE (NOT DIGEST(3) < -1 OR list LIKE 'x';"

theorem exists_parse_iff_mem_statement_unclosed :
    ((∃ s, parse unclosed = .ok s) ↔
      (∀ t ∈ Token.tokens (.ofString unclosed), t.fault? = none) ∧
      (Token.tokens (.ofString unclosed)).filter Token.matters ∈ Grammar.statement) ∧
    ∀ s, parse unclosed = .ok s →
      s.index = none ∧ s.SpelledBy ((Token.tokens (.ofString unclosed)).filter Token.matters) :=
  exists_parse_iff_mem_statement (by decide +kernel)

end Statement
end RecordQuery
