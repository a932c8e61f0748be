import RecordQuery.Proofs.Grammar.Basic
import RecordQuery.Proofs.Statement.ClauseTexts

/-! # The grammar of the WITH clause

The words for a collection and for a relation name bins too, so the productions are ambiguous. Only
one token is looked at to choose: a word for a collection is the name of the bin if a relation can
begin with the token behind it. A word of the grammar is refused just if this is wrong, that is if
the word for a collection is followed, without a parenthesis, by a bin that is named like a relation
(`Statement.exists_parse_iff_mem_index`). -/

namespace RecordQuery
namespace Grammar

/-! ## Productions -/

/-- The word for what an index is built over. -/
def collection : Language Token := keyword .LIST + keyword .MAPKEYS + keyword .MAPVALUES

/-- A relation of the WITH clause with its operand. -/
def lookup : Language Token :=
  (sign .equal + sign .doubleEqual + keyword .CONTAINS + keyword .WITHIN) * (literal + cast) +
    keyword .BETWEEN * (number * (keyword .AND * number))

def indexBody : Language Token := name * lookup

/-- A WITH clause without its keyword. -/
def index : Language Token :=
  (1 + collection) * (indexBody + mark .openParen * indexBody * mark .closeParen)

/-- The relations that are words, and so name bins too. -/
def relationWord : Language Token := keyword .CONTAINS + keyword .WITHIN + keyword .BETWEEN

/-- The words of the grammar in which the word for a collection stands directly before a bin that is
named like a relation. There it is taken for the bin itself. -/
def misread : Language Token := collection * (relationWord * lookup)

/-! ## The tokens that decide -/

variable {ts : List Token}

theorem indexRelation?_of_number {n : NumberLiteral} (h : n.SpelledBy ts) :
    ∃ t us, ts = t :: us ∧ t.indexRelation? = none := by
  cases h with
  | plus hs _ | minus hs _ => exact ⟨_, _, rfl, Token.indexRelation?_of_isSign hs nofun nofun⟩
  | unsigned hd =>
    refine ⟨_, _, rfl, Token.indexRelation?_of_kind ?_ ?_⟩ <;>
      rcases Token.kind_of_isNumber hd with h | h <;> simp [h]

theorem indexRelation?_of_literal {l : Literal} (h : l.SpelledBy ts) :
    ∃ t us, ts = t :: us ∧ t.indexRelation? = none := by
  cases h with
  | string ht =>
    exact ⟨_, _, rfl, Token.indexRelation?_of_kind (by simp [ht]) (by simp [ht])⟩
  | number hn => exact indexRelation?_of_number hn

theorem collection_eq : collection = one fun t => ∃ c, t.indexCollection? = some c := by
  simp only [collection, keyword, one_add, Token.indexCollection?_eq_some_iff]
  refine one_congr fun t => ⟨?_, ?_⟩
  · rintro ((h | h) | h)
    · exact ⟨.list, by simp, h⟩
    · exact ⟨.mapKeys, by simp, h⟩
    · exact ⟨.mapValues, by simp, h⟩
  · rintro ⟨_ | _ | _ | _, hc, h⟩
    · exact absurd rfl hc
    · exact .inl (.inl h)
    · exact .inl (.inr h)
    · exact .inr h

theorem between_eq : keyword .BETWEEN = one fun t => t.indexRelation? = some .between :=
  one_congr fun _ => (Token.indexRelation?_eq_some_iff (r := .between)).symm

theorem equal_eq :
    sign .equal + sign .doubleEqual = one fun t => t.indexRelation? = some .equal := by
  simp only [sign, one_add, Token.isSign_iff, ← and_or_left]
  refine one_congr fun t => ?_
  rw [Token.indexRelation?_eq_some_iff]
  exact and_congr_right fun _ => Relation.ofText?_eq_equal_iff.symm

theorem comparator_eq : sign .equal + sign .doubleEqual + keyword .CONTAINS + keyword .WITHIN =
    one fun t => ∃ r ≠ .between, t.indexRelation? = some r := by
  rw [equal_eq, keyword, keyword, one_add, one_add]
  refine one_congr fun t => ⟨?_, ?_⟩
  · rintro ((h | h) | h)
    · exact ⟨.equal, by simp, h⟩
    · exact ⟨.contains, by simp, Token.indexRelation?_eq_some_iff.mpr h⟩
    · exact ⟨.within, by simp, Token.indexRelation?_eq_some_iff.mpr h⟩
  · rintro ⟨_ | _ | _ | _, hr, h⟩
    · exact .inl (.inl h)
    · exact .inl (.inr (Token.indexRelation?_eq_some_iff.mp h))
    · exact .inr (Token.indexRelation?_eq_some_iff.mp h)
    · exact absurd rfl hr

/-- The names with which a relation can begin. -/
theorem relationWord_eq :
    relationWord = one fun t => t.isName = true ∧ t.beginsIndexRelation = true := by
  simp only [relationWord, keyword, one_add]
  refine one_congr fun t => ⟨?_, ?_⟩
  · rintro ((h | h) | h) <;>
      simp [Token.isName, Token.isReserved, Token.beginsIndexRelation, Token.kind_of_isKeyword h,
        Token.keyword?_of_isKeyword h, h, Keyword.isReserved]
  · rintro ⟨hn, hb⟩
    have hk : t.kind ≠ .operator := by
      rcases Token.kind_of_isName hn with h | h <;> simp [h]
    simpa [Token.beginsIndexRelation, hk] using hb

theorem mem_lookup : ts ∈ lookup ↔ ∃ r a, IndexArgument.SpelledBy r a ts := by
  rw [lookup, comparator_eq, between_eq, Language.mem_add, mem_one_mul, mem_one_mul]
  constructor
  · rintro (⟨_, us, rfl, ⟨r, hr, hs⟩, h⟩ | ⟨_, us, rfl, hs, h⟩)
    · rcases h with h | h
      · obtain ⟨l, hl⟩ := mem_literal.mp h
        exact ⟨_, _, .literal hs hr hl⟩
      · obtain ⟨c, hc⟩ := mem_cast.mp h
        exact ⟨_, _, .cast hs hr hc⟩
    · obtain ⟨us, hl, vs, hvs, rfl⟩ := Language.mem_mul.mp h
      obtain ⟨low, hl⟩ := mem_number.mp hl
      obtain ⟨w, vs, rfl, hw, hh⟩ := mem_one_mul.mp hvs
      obtain ⟨high, hh⟩ := mem_number.mp hh
      exact ⟨_, _, .between hs hl hw hh⟩
  · rintro ⟨_, _, h⟩
    cases h with
    | literal hs hr hl => exact .inl ⟨_, _, rfl, ⟨_, hr, hs⟩, .inl (mem_literal.mpr ⟨_, hl⟩)⟩
    | cast hs hr hc => exact .inl ⟨_, _, rfl, ⟨_, hr, hs⟩, .inr (mem_cast.mpr ⟨_, hc⟩)⟩
    | between hs hl hw hh =>
      refine .inr ⟨_, _, rfl, hs, Language.append_mem_mul (mem_number.mpr ⟨_, hl⟩) ?_⟩
      exact mem_one_mul.mpr ⟨_, _, rfl, hw, mem_number.mpr ⟨_, hh⟩⟩

/-- Behind the sign of a relation comes its operand, which no relation begins with. -/
theorem second_of_lookup (h : ts ∈ lookup) :
    ∃ sign t us, ts = sign :: t :: us ∧ t.indexRelation? = none := by
  obtain ⟨r, a, ha⟩ := mem_lookup.mp h
  cases ha with
  | literal _ _ hl =>
    obtain ⟨t, us, rfl, ht⟩ := indexRelation?_of_literal hl
    exact ⟨_, t, us, rfl, ht⟩
  | cast _ _ hc =>
    obtain ⟨t, us, rfl, ht⟩ := Parse.first_of_cast hc
    exact ⟨_, t, us, rfl, Token.indexRelation?_of_isKeyword ht (by decide)⟩
  | between _ hl _ _ =>
    obtain ⟨t, us, rfl, ht⟩ := indexRelation?_of_number hl
    exact ⟨_, t, _, rfl, ht⟩

theorem tail_notMem_lookup (h : ts ∈ lookup) : ts.tail ∉ lookup := by
  intro h'
  obtain ⟨sign, t, us, rfl, ht⟩ := second_of_lookup h
  obtain ⟨r, a, ha⟩ := mem_lookup.mp h'
  obtain ⟨_, _, ⟨⟩, hs⟩ := Parse.first_of_indexArgument ha
  rw [ht] at hs
  cases hs

theorem mem_misread : ts ∈ misread ↔ ∃ word bin us, ts = word :: bin :: us ∧
    (∃ c, word.indexCollection? = some c) ∧
    (bin.isName = true ∧ bin.beginsIndexRelation = true) ∧ us ∈ lookup := by
  rw [misread, collection_eq, relationWord_eq, mem_one_mul]
  simp only [mem_one_mul]
  constructor
  · rintro ⟨word, _, rfl, hw, bin, us, rfl, hb, hus⟩
    exact ⟨word, bin, us, rfl, hw, hb, hus⟩
  · rintro ⟨word, bin, us, rfl, hw, hb, hus⟩
    exact ⟨word, _, rfl, hw, bin, us, rfl, hb, hus⟩

theorem notMem_misread_of_spelledBy {e : IndexClause} (h : e.SpelledBy ts) : ts ∉ misread := by
  intro hm
  obtain ⟨word, bin, us, hts, ⟨c, hw⟩, ⟨-, hb⟩, hus⟩ := mem_misread.mp hm
  cases h with
  | plain _ ha =>
    cases hts
    exact tail_notMem_lookup (mem_lookup.mpr ⟨_, _, ha⟩) hus
  | paren ho =>
    cases hts
    exact absurd hw (by simp [Token.indexCollection?_of_isMark ho])
  | declared _ _ hn =>
    cases hts
    exact absurd hb (by simp [hn])
  | declaredParen _ ho =>
    obtain ⟨rfl, rfl, -⟩ : _ ∧ _ ∧ _ := by simpa using hts
    exact absurd hb (by simp [Token.beginsIndexRelation_of_isMark ho])

/-- A clause is spelled by the words of the grammar that are not misread. -/
theorem exists_spelledBy_iff_mem_index :
    (∃ e : IndexClause, e.SpelledBy ts) ↔ ts ∈ index ∧ ts ∉ misread := by
  simp only [index, indexBody, collection_eq, name_eq, mark, add_mul, one_mul, mul_add, mul_assoc,
    Language.mem_add, mem_one_mul, mem_mul_one]
  constructor
  · rintro ⟨e, h⟩
    refine ⟨?_, notMem_misread_of_spelledBy h⟩
    cases h with
    | plain hb ha => exact .inl (.inl ⟨_, _, rfl, hb, mem_lookup.mpr ⟨_, _, ha⟩⟩)
    | declared hw hb _ ha =>
      exact .inl (.inr ⟨_, _, rfl, ⟨_, hw⟩, _, _, rfl, hb, mem_lookup.mpr ⟨_, _, ha⟩⟩)
    | paren ho hb ha hc =>
      exact .inr (.inl ⟨_, _, rfl, ho, _, _, rfl, hb, _, _, rfl, mem_lookup.mpr ⟨_, _, ha⟩, hc⟩)
    | declaredParen hw ho hb ha hc =>
      exact .inr (.inr ⟨_, _, rfl, ⟨_, hw⟩, _, _, rfl, ho, _, _, rfl, hb, _, _, rfl,
        mem_lookup.mpr ⟨_, _, ha⟩, hc⟩)
  · rintro ⟨(⟨bin, us, rfl, hb, hus⟩ | ⟨word, _, rfl, ⟨c, hw⟩, bin, us, rfl, hb, hus⟩) |
      (⟨opening, _, rfl, ho, bin, _, rfl, hb, us, closing, rfl, hus, hc⟩ |
        ⟨word, _, rfl, ⟨c, hw⟩, opening, _, rfl, ho, bin, _, rfl, hb, us, closing, rfl, hus, hc⟩),
      hm⟩
    all_goals obtain ⟨r, a, ha⟩ := mem_lookup.mp hus
    · exact ⟨_, .plain hb ha⟩
    · have hn : bin.beginsIndexRelation = false := by
        rw [← Bool.not_eq_true]
        exact fun hn => hm (mem_misread.mpr ⟨_, _, _, rfl, ⟨c, hw⟩, ⟨hb, hn⟩, hus⟩)
      exact ⟨_, .declared hw hb hn ha⟩
    · exact ⟨_, .paren ho hb ha hc⟩
    · exact ⟨_, .declaredParen hw ho hb ha hc⟩

theorem misread_le_index : misread ≤ index := by
  have hr : relationWord ≤ name := by
    rw [relationWord_eq, name_eq]
    rintro _ ⟨t, rfl, ht, -⟩
    exact ⟨t, rfl, ht⟩
  calc misread
      ≤ collection * (name * lookup) := by grw [misread, hr]
    _ ≤ index := by
      rw [index, indexBody]
      exact mul_le_mul' le_add_self le_self_add

end Grammar

namespace Statement

variable {index : String}

/-- A text is a WITH clause just if it is a word of the grammar, and the word for a collection does
not stand directly before a bin that is named like a relation. -/
theorem exists_parse_iff_mem_index (hw : ClauseText index) :
    (∃ s, parse ("SELECT * FROM ns WITH " ++ index) = .ok s) ↔
      Token.visible index ∈ Grammar.index ∧ Token.visible index ∉ Grammar.misread :=
  (exists_parse_index hw).trans Grammar.exists_spelledBy_iff_mem_index

/-- A range of a bin that is named like a relation. -/
def bracketed : String := "LIST (contains BETWEEN -1 AND +2.5e3)"

theorem exists_parse_iff_mem_index_bracketed :
    ClauseText bracketed ∧
      Token.visible bracketed ∈ Grammar.index ∧ Token.visible bracketed ∉ Grammar.misread := by
  have hw : ClauseText bracketed := by decide +kernel
  have hp : (parse ("SELECT * FROM ns WITH " ++ bracketed)).isOk = true := by decide +kernel
  refine ⟨hw, (exists_parse_iff_mem_index hw).mp ?_⟩
  cases h : parse ("SELECT * FROM ns WITH " ++ bracketed) with
  | ok s => exact ⟨s, rfl⟩
  | error e => rw [h] at hp; cases hp

/-- The same bin is refused behind a collection without parentheses, though the grammar has it. -/
theorem parse_namedLikeRelation_ne_ok :
    ClauseText "LIST contains = 1" ∧ Token.visible "LIST contains = 1" ∈ Grammar.index ∧
      ∀ s, parse ("SELECT * FROM ns WITH " ++ "LIST contains = 1") ≠ .ok s := by
  refine ⟨by decide +kernel, ?_, ne_ok_of_isOk (by decide +kernel)⟩
  have hts : Token.visible "LIST contains = 1" =
      [⟨.keyword, "LIST", ⟨0, 1, 1⟩⟩, ⟨.keyword, "contains", ⟨5, 1, 6⟩⟩,
        ⟨.operator, "=", ⟨14, 1, 15⟩⟩, ⟨.integer, "1", ⟨16, 1, 17⟩⟩] := by
    decide +kernel
  have hus : IndexArgument.SpelledBy .equal _
      [⟨.operator, "=", ⟨14, 1, 15⟩⟩, ⟨.integer, "1", ⟨16, 1, 17⟩⟩] :=
    .literal (by decide) nofun (.number (.unsigned (by decide)))
  rw [hts]
  exact Grammar.misread_le_index (Grammar.mem_misread.mpr
    ⟨_, _, _, rfl, ⟨.list, by decide⟩, by decide, Grammar.mem_lookup.mpr ⟨_, _, hus⟩⟩)

end Statement
end RecordQuery
