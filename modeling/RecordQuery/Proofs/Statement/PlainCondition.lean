import RecordQuery.Proofs.Statement.RoundTrip

/-! # WHERE clauses that are built by hand

A WHERE clause need not come from a text. One that is built by hand is read as it is after it has
been printed (`WhereClause.parse_text`), given that its predicates have the forms of the grammar and
that its names and numbers are written like names and numbers (`Atomic.IsPlain`). -/

namespace RecordQuery

open Text

/-- The number is written as the lexer writes it, but for a minus sign. -/
def NumberLiteral.IsPlain (n : NumberLiteral) : Prop :=
  ∃ s, Token.LexesAlone Token.isNumber s ∧ (n.text = s ∨ n.text = "-" ++ s)

/-- The literal is a string, whatever is in it, or a number that is written as one. -/
def Literal.IsPlain : Literal → Prop
  | number n => n.IsPlain
  | string _ => True

/-- The name is written as a name that needs no quotes. -/
def Name.IsPlain (n : Name) : Prop := Token.LexesAlone Token.isName n.text

/-- The predicate has one of the forms of the grammar, with names that need no quotes and with
numbers. Only a digest is taken modulo a number. -/
inductive Atomic.IsPlain : Atomic → Prop
  | metadata {m : MetadataCall} {r : Relation} {n : NumberLiteral} {t : Token}
    (hf : m.name = .digest ↔ m.modulo.isSome = true) (hm : ∀ k ∈ m.modulo, k.IsPlain)
    (hn : n.IsPlain) : IsPlain ⟨.metadata m, .relation r, .literal (.number n), t⟩
  | relation {bin : Name} {r : Relation} {l : Literal} {t : Token} (hb : bin.IsPlain)
    (hl : l.IsPlain) : IsPlain ⟨.bin bin, .relation r, .literal l, t⟩
  | region {bin : Name} {r : RegionRelation} {c : Cast} {t : Token} (hb : bin.IsPlain)
    (hc : c.typeName = "GEOJSON") : IsPlain ⟨.bin bin, .geo r, .cast c, t⟩
  | like {bin : Name} {s : StringLiteral} {t : Token} (hb : bin.IsPlain) :
    IsPlain ⟨.bin bin, .like, .literal (.string s), t⟩
  | iterate {bin : Name} {part : CollectionPart} {q : Option Quantifier} {i : Iteration} {t : Token}
    (hb : bin.IsPlain) (hi : i.element.IsPlain) (hv : i.value.IsPlain) :
    IsPlain ⟨.bin bin, .iterate part q, .iteration i, t⟩

theorem NumberLiteral.IsPlain.whole {n : NumberLiteral} (h : n.IsPlain) :
    ∀ p ∈ n.pieces, p.Whole := by
  obtain ⟨text, t⟩ := n
  obtain ⟨s, hs, rfl | rfl⟩ := h
  · simpa [pieces_eq hs, Piece.Whole] using hs
  · simpa [pieces_minus, Piece.Whole] using hs

theorem Literal.IsPlain.whole {l : Literal} (h : l.IsPlain) : ∀ p ∈ l.pieces, p.Whole := by
  cases l with
  | number n => exact NumberLiteral.IsPlain.whole h
  | string s => simp [pieces, Piece.Whole]

theorem Cast.whole_of_typeName {c : Cast} (h : c.typeName = "GEOJSON") :
    ∀ p ∈ c.pieces, p.Whole := by
  have ht : Token.LexesAlone Token.isName c.typeName ∧ uppercase c.typeName = c.typeName := by
    rw [h]
    exact ⟨⟨⟨.identifier, "GEOJSON", .start⟩, by decide +kernel, rfl, rfl⟩, by decide⟩
  simp only [pieces, List.forall_mem_cons]
  exact ⟨trivial, trivial, trivial, trivial, trivial, trivial, ht, trivial, List.forall_mem_nil _⟩

theorem Atomic.IsPlain.hasForm {a : Atomic} (h : a.IsPlain) : a.HasForm := by
  cases h with
  | metadata hf => exact .metadata hf
  | relation => exact .relation
  | region => exact .region
  | like => exact .like
  | iterate => exact .iterate

/-- A plain predicate is spelled so that each of its pieces is one token. -/
theorem Atomic.IsPlain.whole {a : Atomic} (h : a.IsPlain) : ∀ p ∈ a.pieces, p.Whole := by
  cases h with
  | @metadata m _ _ _ hf hm hn =>
    have hm : ∀ p ∈ m.modulo.elim [] (·.pieces), p.Whole := by
      cases hk : m.modulo with
      | none => exact List.forall_mem_nil _
      | some k => exact (hm k hk).whole
    simp only [pieces, Subject.pieces, MetadataCall.pieces, AtomicOperator.pieces, Operand.pieces,
      Literal.pieces, List.cons_append, List.nil_append, List.append_assoc, List.forall_mem_cons,
      List.forall_mem_append]
    exact ⟨trivial, trivial, hm, trivial, trivial, trivial, trivial, hn.whole⟩
  | relation hb hl =>
    simp only [pieces, Subject.pieces, AtomicOperator.pieces, Operand.pieces, List.cons_append,
      List.nil_append, List.forall_mem_cons]
    exact ⟨hb, trivial, trivial, trivial, hl.whole⟩
  | region hb hc =>
    simp only [pieces, Subject.pieces, AtomicOperator.pieces, Operand.pieces, List.cons_append,
      List.nil_append, List.forall_mem_cons]
    exact ⟨hb, trivial, trivial, trivial, Cast.whole_of_typeName hc⟩
  | like hb =>
    simp only [pieces, Subject.pieces, AtomicOperator.pieces, Operand.pieces, Literal.pieces,
      List.cons_append, List.nil_append, List.forall_mem_cons]
    exact ⟨hb, trivial, trivial, trivial, trivial, List.forall_mem_nil _⟩
  | @iterate _ part q _ _ hb hi hv =>
    have hq : ∀ p ∈ AtomicOperator.pieces (.iterate part q), p.Whole := by
      cases q <;> simp [AtomicOperator.pieces, Piece.Whole]
    simp only [pieces, Subject.pieces, Operand.pieces, Iteration.pieces, List.cons_append,
      List.nil_append, List.forall_mem_cons, List.forall_mem_append]
    exact ⟨hb, trivial, hq, trivial, trivial, hi, trivial, trivial, trivial, hv.whole, trivial,
      List.forall_mem_nil _⟩

/-- Parentheses and connectives are one token each anyway. -/
theorem WhereEntry.whole_piecesAll {es : List WhereEntry}
    (h : ∀ a, .atomic a ∈ es → ∀ p ∈ a.pieces, p.Whole) (tight : Bool) :
    ∀ p ∈ piecesAll tight es, p.Whole := by
  have blank (tight : Bool) : ∀ p ∈ (if tight then [] else [Piece.blank]), p.Whole := by
    cases tight <;> simp [Piece.Whole]
  induction es generalizing tight with
  | nil => exact List.forall_mem_nil _
  | cons e es ih =>
    have ih := ih fun a ha => h a (List.mem_cons_of_mem e ha)
    cases e with
    | openParen =>
      refine List.forall_mem_append.mpr ⟨blank tight, ?_⟩
      exact List.forall_mem_cons.mpr ⟨trivial, ih true⟩
    | closeParen => exact List.forall_mem_cons.mpr ⟨trivial, ih false⟩
    | connective =>
      refine List.forall_mem_append.mpr ⟨blank tight, ?_⟩
      exact List.forall_mem_cons.mpr ⟨trivial, ih false⟩
    | atomic a =>
      exact List.forall_mem_append.mpr
        ⟨blank tight, List.forall_mem_append.mpr ⟨h a (by simp), ih false⟩⟩

theorem Token.lexesAlone_ns : LexesAlone isName "ns" :=
  ⟨⟨.identifier, "ns", .start⟩, by decide +kernel, rfl, rfl⟩

/-- The statement that selects what the clause holds of, in the namespace `ns`. -/
def Statement.ofCondition (w : WhereClause) : Statement :=
  ⟨.star, ⟨⟨"ns", .forgotten⟩, none⟩, none, some w, .forgotten⟩

theorem Statement.text_ofCondition (w : WhereClause) :
    (ofCondition w).text = "SELECT * FROM ns WHERE " ++ w.text := by
  change "SELECT * FROM ns" ++ (" WHERE " ++ w.text) = _
  rw [← String.append_assoc]
  rfl

/-- A WHERE clause that is built by hand is read as it is after printing: its entries may stand in
any order that the grammar allows, with parentheses that need not match, and the strings in it may
hold anything. -/
theorem WhereClause.parse_text {w : WhereClause}
    (ha : WhereEntry.alternates true w.items = true) (hp : ∀ a, .atomic a ∈ w.items → a.IsPlain) :
    ∃ s v, Statement.parse ("SELECT * FROM ns WHERE " ++ w.text) = .ok s ∧ s.condition = some v ∧
      v.items.map (·.bare) = w.items.map (·.bare) := by
  have hf : (Statement.ofCondition w).HasForm := by
    refine ⟨by simp [Statement.ofCondition], by simp [Statement.ofCondition], ?_⟩
    rintro v ⟨⟩
    exact ⟨ha, fun a hm => (hp a hm).hasForm⟩
  have hr : (Statement.ofCondition w).IsReprintable := by
    refine ⟨?_, by simp [Statement.ofCondition]⟩
    have := WhereEntry.whole_piecesAll (fun a hm => (hp a hm).whole) true
    simpa [Statement.ofCondition, Statement.pieces, SelectList.pieces, Source.pieces, Piece.Whole]
      using ⟨Token.lexesAlone_ns, this⟩
  obtain ⟨s, hs, hb⟩ := Statement.exists_parse_text hf hr
  rw [Statement.text_ofCondition] at hs
  have hc : s.condition.map (·.bare) = some w.bare := congrArg Statement.condition hb
  obtain ⟨v, hv, hbv⟩ := Option.map_eq_some_iff.mp hc
  exact ⟨s, v, hs, hv, congrArg WhereClause.items hbv⟩

/-- A clause with strings and numbers that have to be told from what is around them, and with a
parenthesis that is not closed. -/
def openedClause : WhereClause :=
  ⟨[.openParen .forgotten, .connective .not,
    .atomic ⟨.metadata ⟨.digest, some ⟨"-3", .forgotten⟩, .forgotten⟩, .relation (.comparison .less),
      .literal (.number ⟨"1.5e2", .forgotten⟩), .forgotten⟩,
    .connective .or,
    .atomic ⟨.bin ⟨"list", .forgotten⟩, .geo .within,
      .cast ⟨⟨"it's -- \"here\"", .forgotten⟩, "GEOJSON", .forgotten⟩, .forgotten⟩], .forgotten⟩

theorem WhereClause.parse_text_openedClause :
    ∃ s v, Statement.parse ("SELECT * FROM ns WHERE " ++ openedClause.text) = .ok s ∧
      s.condition = some v ∧ v.items.map (·.bare) = openedClause.items.map (·.bare) := by
  refine WhereClause.parse_text (by decide) fun a ha => ?_
  simp only [openedClause, List.mem_cons, reduceCtorEq, false_or, WhereEntry.atomic.injEq,
    List.not_mem_nil, or_false] at ha
  have three : NumberLiteral.IsPlain ⟨"-3", .forgotten⟩ :=
    ⟨"3", ⟨⟨.integer, "3", .start⟩, by decide +kernel, rfl, rfl⟩, .inr (by decide)⟩
  have half : NumberLiteral.IsPlain ⟨"1.5e2", .forgotten⟩ :=
    ⟨"1.5e2", ⟨⟨.float, "1.5e2", .start⟩, by decide +kernel, rfl, rfl⟩, .inl rfl⟩
  rcases ha with rfl | rfl
  · refine .metadata (by simp) ?_ half
    rintro k ⟨⟩
    exact three
  · exact .region ⟨⟨.keyword, "list", .start⟩, by decide +kernel, by decide, rfl⟩ rfl

end RecordQuery
