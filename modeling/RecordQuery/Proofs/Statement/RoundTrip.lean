import RecordQuery.Proofs.Statement.Parsing.Statement
import RecordQuery.Proofs.Statement.Respelling

/-! # Statements that are printed and read again

A statement that has been read is printed and read again as a statement that says the same just if
its names need no quotes and the name of the bin in its WITH clause no parentheses
(`Statement.parse_text_iff`), since neither of them is printed. -/

namespace RecordQuery

open Text

/-! ## Tokens that spell pieces -/

namespace Piece

theorem SpelledBy.kind {p : Piece} {t : Token} (h : p.SpelledBy t) :
    t.matters = true ∧ t.fault? = none := by
  have (hk : t.kind ≠ .comment ∧ ∀ fault, t.kind ≠ .error fault) :
      t.matters = true ∧ t.fault? = none := by
    unfold Token.matters Token.fault?
    cases hc : t.kind <;> simp_all
  apply this
  cases p with
  | blank => exact h.elim
  | keyword k => simp [Token.kind_of_isKeyword h]
  | fact m => simp [h.1]
  | name s | typeName s => rcases Token.kind_of_isName h.1 with hk | hk <;> simp [hk]
  | numeral s => rcases Token.kind_of_isNumber h.1 with hk | hk <;> simp [hk]
  | string s => simp [h.1]
  | sign o => simp [Token.kind_of_isSign h]
  | relation r => simp [h.1]
  | mark m => simp [Token.kind_of_isMark h]

/-- Nothing is left out of tokens that spell pieces: none of them is a comment or an error. -/
theorem AllSpelledBy.filter_eq {ps : List Piece} {ts : List Token} (h : AllSpelledBy ps ts) :
    ts.filter Token.matters = ts ∧ ts.filterMap Token.fault? = [] := by
  induction h with
  | nil => exact ⟨rfl, rfl⟩
  | blank _ ih => exact ih
  | cons hp _ ih =>
    rw [List.filter_cons_of_pos hp.kind.1, List.filterMap_cons_none hp.kind.2, ih.1]
    exact ⟨rfl, ih.2⟩

end Piece

namespace Statement

variable {s s' : Statement}

/-! ## Reading what has been printed -/

/-- All names of the statement can do without quotes, and the bin of its WITH clause without
parentheses. -/
structure IsReprintable (s : Statement) : Prop where
  whole : ∀ p ∈ s.pieces, p.Whole
  bin : ∀ e ∈ s.index, e.collection.isSome = true → e.bin.isIndexRelation = false

/-- The tokens of a printed statement spell its pieces. -/
theorem allSpelledBy_text (hw : ∀ p ∈ s.pieces, p.Whole) :
    Piece.AllSpelledBy s.pieces (Token.tokens (.ofString s.text)) := by
  rw [Cursor.ofString, s.toList_text]
  exact Piece.spelledBy_tokens s.fitting_pieces hw .start

/-- A statement of a form of the grammar is read again after printing. -/
theorem exists_parse_text (hf : s.HasForm) (hr : s.IsReprintable) :
    ∃ s', parse s.text = .ok s' ∧ s'.bare = s.bare := by
  have h := allSpelledBy_text hr.whole
  obtain ⟨s', hs, hb⟩ := exists_spelledBy hf hr.bin h
  refine ⟨s', parse_eq_ok_iff.mpr ⟨h.filter_eq.2, ?_⟩, hb⟩
  rwa [h.filter_eq.1]

/-! ## What printing loses -/

theorem numbersAlone_tokens (c : Cursor) :
    Token.NumbersAlone ((Token.tokens c).filter Token.matters) :=
  fun _ ht => Token.lexesAlone_of_mem_tokens (List.mem_filter.mp ht).1

/-- If a printed statement is read as one that says the same, no name in it is quoted, and all its
pieces are spelled as they have to be. -/
theorem whole_of_parse_text (hp : parse s.text = .ok s') (hb : s'.bare = s.bare) :
    (∀ p ∈ s.pieces, p.Whole) ∧
      ∀ t ∈ (Token.tokens (.ofString s.text)).filter Token.matters,
        t.isName = true → t.IsUnquoted := by
  have hn := numbersAlone_tokens (.ofString s.text)
  have hw := (parse_eq_ok_iff.mp hp).2.within hn
  rw [pieces_eq_of_bare_eq hb] at hw
  -- The tokens are no heavier than the text, which is as heavy as the pieces.
  have hrest : weigh (Cursor.ofString s.text).rest = weigh (s.pieces.flatMap Piece.text) := by
    rw [Cursor.ofString, s.toList_text]
  obtain ⟨hle, hu⟩ := Token.weigh_tokens (.ofString s.text)
  rw [hrest] at hle hu
  have hu := hu hw.weigh_le
  exact ⟨hw.whole hle hu hn, hu⟩

theorem isReprintable_of_parse_text (hp : parse s.text = .ok s') (hb : s'.bare = s.bare) :
    s.IsReprintable := by
  obtain ⟨hw, hu⟩ := whole_of_parse_text hp hb
  refine ⟨hw, fun e he hc => Bool.eq_false_iff.mpr fun hr => ?_⟩
  have hindex : s'.index.map (·.bare) = s.index.map (·.bare) := congrArg Statement.index hb
  rw [Option.mem_def.mp he] at hindex
  obtain ⟨e', he', hbe⟩ := Option.map_eq_some_iff.mp hindex
  have hc' : e'.collection.isSome = true := by
    rw [← hc]
    exact congrArg (·.collection.isSome) hbe
  have hr' : e'.bin.isIndexRelation = true := by
    rw [← hr]
    exact congrArg (·.bin.isIndexRelation) hbe
  have hlt := (parse_eq_ok_iff.mp hp).2.size_lt (numbersAlone_tokens _) hu he' hc' hr'
  have h := allSpelledBy_text hw
  rw [h.filter_eq.1, ← h.size_eq, pieces_eq_of_bare_eq hb] at hlt
  exact absurd hlt (Nat.lt_irrefl _)

/-- Printing and reading: a statement that has been read is read again after printing, as one that
says the same, just if its names need no quotes and its WITH clause no parentheses. -/
theorem parse_text_iff {text : String} (h : parse text = .ok s) :
    (∃ s', parse s.text = .ok s' ∧ s'.bare = s.bare) ↔ s.IsReprintable := by
  constructor
  · rintro ⟨s', hp, hb⟩
    exact isReprintable_of_parse_text hp hb
  · exact exists_parse_text (parse_eq_ok_iff.mp h).2.hasForm

/-- A statement about the bin `a`, which needs no parentheses. -/
def askedBin : Statement :=
  ⟨.star, ⟨⟨"ns", ⟨.identifier, "ns", ⟨14, 1, 15⟩⟩⟩, none⟩,
    some ⟨some .list, ⟨"a", ⟨.identifier, "a", ⟨28, 1, 29⟩⟩⟩, .equal,
      .literal (.number ⟨"1", ⟨.integer, "1", ⟨32, 1, 33⟩⟩⟩), ⟨.keyword, "list", ⟨22, 1, 23⟩⟩⟩,
    none, ⟨.keyword, "select", .start⟩⟩

theorem parse_text_askedBin :
    parse "select * FROM ns WITH list (a = 1);" = .ok askedBin ∧
      ∃ s', parse askedBin.text = .ok s' ∧ s'.bare = askedBin.bare := by
  have h : parse "select * FROM ns WITH list (a = 1);" = .ok askedBin :=
    eq_ok_of_toOption (by decide +kernel)
  refine ⟨h, (parse_text_iff h).mpr ⟨?_, ?_⟩⟩
  · have hns : Token.LexesAlone Token.isName "ns" :=
      ⟨⟨.identifier, "ns", .start⟩, by decide +kernel, rfl, rfl⟩
    have ha : Token.LexesAlone Token.isName "a" :=
      ⟨⟨.identifier, "a", .start⟩, by decide +kernel, rfl, rfl⟩
    have h1 : Token.LexesAlone Token.isNumber "1" :=
      ⟨⟨.integer, "1", .start⟩, by decide +kernel, rfl, rfl⟩
    rw [show askedBin.pieces = [.keyword .SELECT, .blank, .sign .star, .blank, .keyword .FROM,
      .blank, .name "ns", .blank, .keyword .WITH, .blank, .keyword .LIST, .blank, .name "a", .blank,
      .relation (.equality .equal), .blank, .numeral "1"] by decide]
    simp only [List.forall_mem_cons, Piece.Whole]
    exact ⟨trivial, trivial, trivial, trivial, trivial, trivial, hns, trivial, trivial, trivial,
      trivial, trivial, ha, trivial, trivial, trivial, h1, List.forall_mem_nil _⟩
  · rintro e ⟨⟩ -
    decide

/-- A statement about a bin whose name has to be quoted. -/
def quotedBin : Statement :=
  ⟨.bins [⟨"a b", ⟨.identifier, "a b", ⟨7, 1, 8⟩⟩⟩],
    ⟨⟨"ns", ⟨.identifier, "ns", ⟨18, 1, 19⟩⟩⟩, none⟩, none, none, ⟨.keyword, "SELECT", .start⟩⟩

/-- The quotes of a name are not printed, so a name with a blank in it is not read again. -/
theorem parse_text_quotedBin :
    parse "SELECT \"a b\" FROM ns" = .ok quotedBin ∧ ∀ s', parse quotedBin.text ≠ .ok s' := by
  refine ⟨eq_ok_of_toOption (by decide +kernel), fun s' h => ?_⟩
  have hn : (parse quotedBin.text).toOption = none := by decide +kernel
  rw [h] at hn
  cases hn

end Statement

end RecordQuery
