import RecordQuery.Proofs.Statement.Bare

/-! # Pieces that are read again

If tokens spell the pieces of a printed tree, they spell a tree that says the same, given that the
tree is of a form that the grammar has (`HasForm`). -/

namespace RecordQuery

open Piece (AllSpelledBy)

/-! ## The forms of the grammar -/

/-- The operand is what the relation asks for. -/
def IndexArgument.HasForm (relation : IndexLookup) : IndexArgument → Prop
  | between _ => relation = .between
  | _ => relation ≠ .between

/-- The word that a bin is named by stands for a relation if nothing is before it. -/
def Name.isIndexRelation (n : Name) : Bool :=
  match Keyword.ofText? n.text with
  | some .CONTAINS | some .WITHIN | some .BETWEEN => true
  | _ => false

structure IndexClause.HasForm (e : IndexClause) : Prop where
  collection : e.collection ≠ some .scalar
  operand : e.operand.HasForm e.relation

/-- The operator goes with the subject and the operand. -/
inductive Atomic.HasForm : Atomic → Prop
  | metadata {m : MetadataCall} {r : Relation} {n : NumberLiteral} {t : Token}
    (hm : m.name = .digest ↔ m.modulo.isSome = true) :
    HasForm ⟨.metadata m, .relation r, .literal (.number n), t⟩
  | relation {bin : Name} {r : Relation} {l : Literal} {t : Token} :
    HasForm ⟨.bin bin, .relation r, .literal l, t⟩
  | region {bin : Name} {r : RegionRelation} {c : Cast} {t : Token} :
    HasForm ⟨.bin bin, .geo r, .cast c, t⟩
  | like {bin : Name} {s : StringLiteral} {t : Token} :
    HasForm ⟨.bin bin, .like, .literal (.string s), t⟩
  | iterate {bin : Name} {part : CollectionPart} {q : Option Quantifier} {i : Iteration}
    {t : Token} : HasForm ⟨.bin bin, .iterate part q, .iteration i, t⟩

structure WhereClause.HasForm (w : WhereClause) : Prop where
  alternates : WhereEntry.alternates true w.items = true
  atomic : ∀ a, .atomic a ∈ w.items → a.HasForm

structure Statement.HasForm (s : Statement) : Prop where
  selection : s.selection ≠ .bins []
  index : ∀ e ∈ s.index, e.HasForm
  condition : ∀ w ∈ s.condition, w.HasForm

/-! ## Literals and casts -/

variable {ts : List Token}

theorem NumberLiteral.exists_spelledBy {n : NumberLiteral} (h : AllSpelledBy n.pieces ts) :
    ∃ n' : NumberLiteral, n'.SpelledBy ts ∧ n'.bare = n.bare := by
  unfold pieces at h
  split at h
  · next cs hcs =>
    simp [Piece.SpelledBy] at h
    obtain ⟨sign, hs, digits, ⟨hd, hl⟩, rfl⟩ := h
    refine ⟨_, .minus hs hd, ?_⟩
    have : "-" ++ digits.literal = n.text := by
      rw [hl, ← String.toList_inj]
      simp [hcs]
    simp [bare, this]
  · simp [Piece.SpelledBy] at h
    obtain ⟨digits, ⟨hd, hl⟩, rfl⟩ := h
    exact ⟨_, .unsigned hd, by simp [bare, hl]⟩

theorem Literal.exists_spelledBy {l : Literal} (h : AllSpelledBy l.pieces ts) :
    ∃ l' : Literal, l'.SpelledBy ts ∧ l'.bare = l.bare := by
  cases l with
  | number n =>
    obtain ⟨n', hn, hb⟩ := NumberLiteral.exists_spelledBy h
    exact ⟨_, .number hn, by simp [bare, hb]⟩
  | string s =>
    simp [pieces, Piece.SpelledBy] at h
    obtain ⟨t, ⟨hk, hv⟩, rfl⟩ := h
    exact ⟨_, .string hk, by simp [bare, StringLiteral.bare, hv]⟩

theorem Cast.exists_spelledBy {c : Cast} (h : AllSpelledBy c.pieces ts) :
    ∃ c' : Cast, c'.SpelledBy ts ∧ c'.bare = c.bare := by
  simp [pieces, Piece.SpelledBy] at h
  obtain ⟨cast, hc, opening, value, as, type, closing, ⟨ho, ⟨hv, hs⟩, ha, ⟨ht, hu⟩, hcl⟩, rfl⟩ := h
  exact ⟨_, .mk hc ho hv ha ht hcl, by simp [bare, StringLiteral.bare, hs, hu]⟩

/-! ## Predicates -/

theorem MetadataName.exists_moduloSpelledBy {name : MetadataName} {m : Option NumberLiteral}
    (hm : name = .digest ↔ m.isSome = true)
    (h : AllSpelledBy (m.elim [] (·.pieces)) ts) :
    ∃ m', name.ModuloSpelledBy m' ts ∧ m'.map (·.bare) = m.map (·.bare) := by
  cases m with
  | none => exact ⟨none, ⟨by simp [hm], by simpa using h⟩, rfl⟩
  | some n =>
    obtain ⟨n', hn, hb⟩ := NumberLiteral.exists_spelledBy h
    exact ⟨some n', ⟨by simp [hm], hn⟩, by simp [hb]⟩

theorem Iteration.exists_spelledBy {i : Iteration} (h : AllSpelledBy i.pieces ts) :
    ∃ i' : Iteration, i'.SpelledBy ts ∧ i'.bare = i.bare := by
  simp [pieces, Piece.SpelledBy] at h
  obtain ⟨opening, ho, element, sign, us, closing, ⟨⟨he, hn⟩, hr, hv, hc⟩, rfl⟩ := h
  obtain ⟨l, hl, hb⟩ := Literal.exists_spelledBy hv
  exact ⟨_, .mk ho he hr hl hc, by simp [bare, hb, Name.bare_ofToken hn]⟩

/-- A predicate is read again as one that says the same. -/
theorem Atomic.exists_spelledBy {a : Atomic} (hf : a.HasForm) (h : AllSpelledBy a.pieces ts) :
    ∃ a' : Atomic, a'.SpelledBy ts ∧ a'.bare = a.bare := by
  cases hf with
  | metadata hm =>
    simp [pieces, Subject.pieces, MetadataCall.pieces, AtomicOperator.pieces, Operand.pieces,
      Literal.pieces, Piece.SpelledBy] at h
    obtain ⟨first, ⟨hk, hn⟩, opening, us, closing, sign, vs, ⟨ho, hus, hc, hr, hvs⟩, rfl⟩ := h
    obtain ⟨m, hm, hbm⟩ := MetadataName.exists_moduloSpelledBy hm hus
    obtain ⟨n, hv, hbn⟩ := NumberLiteral.exists_spelledBy hvs
    refine ⟨_, .metadata hk hn ho hm hc hr hv, ?_⟩
    simp [bare, Subject.bare, MetadataCall.bare, Operand.bare, Literal.bare, hbm, hbn]
  | relation =>
    simp [pieces, Subject.pieces, AtomicOperator.pieces, Operand.pieces, Piece.SpelledBy] at h
    obtain ⟨bin, ⟨hb, hn⟩, sign, us, ⟨hr, hus⟩, rfl⟩ := h
    obtain ⟨l, hl, hbl⟩ := Literal.exists_spelledBy hus
    refine ⟨_, .relation hb hr hl, ?_⟩
    simp [bare, Subject.bare, Operand.bare, hbl, Name.bare_ofToken hn]
  | region =>
    simp [pieces, Subject.pieces, AtomicOperator.pieces, Operand.pieces, Piece.SpelledBy] at h
    obtain ⟨bin, ⟨hb, hn⟩, word, us, ⟨hr, hus⟩, rfl⟩ := h
    obtain ⟨c, hc, hbc⟩ := Cast.exists_spelledBy hus
    refine ⟨_, .region hb hr hc, ?_⟩
    simp [bare, Subject.bare, Operand.bare, hbc, Name.bare_ofToken hn]
  | like =>
    simp [pieces, Subject.pieces, AtomicOperator.pieces, Operand.pieces, Literal.pieces,
      Piece.SpelledBy] at h
    obtain ⟨bin, ⟨hb, hn⟩, word, pattern, ⟨hw, hp, hv⟩, rfl⟩ := h
    refine ⟨_, .like hb hw hp, ?_⟩
    simp [bare, Subject.bare, Operand.bare, Literal.bare, StringLiteral.bare, hv,
      Name.bare_ofToken hn]
  | @iterate _ _ q =>
    cases q with
    | none =>
      simp [pieces, Subject.pieces, AtomicOperator.pieces, Operand.pieces, Piece.SpelledBy] at h
      obtain ⟨bin, ⟨hb, hn⟩, word, us, ⟨hw, hus⟩, rfl⟩ := h
      obtain ⟨i, hi, hbi⟩ := Iteration.exists_spelledBy hus
      refine ⟨_, .iterate hb hw hi, ?_⟩
      simp [bare, Subject.bare, Operand.bare, hbi, Name.bare_ofToken hn]
    | some q =>
      simp [pieces, Subject.pieces, AtomicOperator.pieces, Operand.pieces, Piece.SpelledBy] at h
      obtain ⟨bin, ⟨hb, hn⟩, first, word, us, ⟨hq, hw, hus⟩, rfl⟩ := h
      obtain ⟨i, hi, hbi⟩ := Iteration.exists_spelledBy hus
      refine ⟨_, .quantified hb hq hw hi, ?_⟩
      simp [bare, Subject.bare, Operand.bare, hbi, Name.bare_ofToken hn]

/-! ## The WHERE clause -/

namespace WhereEntry

/-- Entries are read again one by one, blanks or not. -/
theorem exists_allSpelledBy {es : List WhereEntry} (hf : ∀ a, .atomic a ∈ es → a.HasForm)
    {tight : Bool} (h : Piece.AllSpelledBy (piecesAll tight es) ts) :
    ∃ es', WhereEntry.AllSpelledBy es' ts ∧ es'.map (·.bare) = es.map (·.bare) := by
  induction es generalizing tight ts with
  | nil =>
    obtain rfl := Piece.allSpelledBy_nil.mp h
    exact ⟨[], .nil, rfl⟩
  | cons e es ih =>
    -- A blank before the entry is spelled by no token.
    have drop {ps : List Piece}
        (h : Piece.AllSpelledBy ((if tight then [] else [.blank]) ++ ps) ts) :
        Piece.AllSpelledBy ps ts := by
      cases tight <;> simpa using h
    have hfs : ∀ a, .atomic a ∈ es → a.HasForm := fun a ha => hf a (List.mem_cons_of_mem e ha)
    cases e with
    | openParen _ =>
      obtain ⟨t, ht, us, hus, rfl⟩ := (Piece.allSpelledBy_cons (by simp)).mp (drop h)
      obtain ⟨es', hes, hb⟩ := ih hfs hus
      exact ⟨_, .cons (.openParen ht) hes, by simp [hb]⟩
    | closeParen _ =>
      obtain ⟨t, ht, us, hus, rfl⟩ := (Piece.allSpelledBy_cons (by simp)).mp h
      obtain ⟨es', hes, hb⟩ := ih hfs hus
      exact ⟨_, .cons (.closeParen ht) hes, by simp [hb]⟩
    | connective c =>
      obtain ⟨t, ht, us, hus, rfl⟩ := (Piece.allSpelledBy_cons (by simp)).mp (drop h)
      obtain ⟨es', hes, hb⟩ := ih hfs hus
      exact ⟨_, .cons (.connective ht) hes, by simp [hb]⟩
    | atomic a =>
      obtain ⟨us, hus, vs, hvs, rfl⟩ := Piece.allSpelledBy_append.mp (drop h)
      obtain ⟨a', ha, hba⟩ := Atomic.exists_spelledBy (hf a (by simp)) hus
      obtain ⟨es', hes, hb⟩ := ih hfs hvs
      exact ⟨_, .cons (.atomic ha) hes, by simp [hb, hba]⟩

end WhereEntry

theorem WhereClause.exists_spelledBy {w : WhereClause} (hf : w.HasForm) {word : Token}
    (hw : word.isKeyword .WHERE = true) (h : AllSpelledBy w.pieces ts) :
    ∃ w' : WhereClause, w'.SpelledBy (word :: ts) ∧ w'.bare = w.bare := by
  obtain ⟨es, hes, hb⟩ := WhereEntry.exists_allSpelledBy hf.atomic h
  have ha : WhereEntry.alternates true es = true := by
    rw [← WhereEntry.alternates_bare, hb, WhereEntry.alternates_bare, hf.alternates]
  exact ⟨_, .mk hw ha hes, by simp [bare, hb]⟩

/-! ## The WITH clause -/

theorem Relation.ofText?_eq_equal_iff {s : String} :
    ofText? s = some (.equality .equal) ↔ s = "=" ∨ s = "==" := by
  constructor
  · intro h
    unfold ofText? at h
    split at h
    · next op ho =>
      obtain rfl : op = .equal := by simpa using h
      unfold Equality.ofText? at ho
      split at ho
      · assumption
      · split at ho <;> cases ho
    · simp at h
  · rintro (rfl | rfl) <;> decide

theorem Token.isSign_iff {t : Token} {o : Sign} :
    t.isSign o = true ↔ t.kind = .operator ∧ t.literal = o.text := by
  simp only [isSign, sign?, beq_iff_eq]
  split
  · next hk =>
    refine ⟨fun h => ⟨hk, ?_⟩, fun h => h.2 ▸ Sign.ofText?_text o⟩
    unfold Sign.ofText? at h
    have := List.find?_some h
    exact (beq_iff_eq.mp this).symm
  · next hk => simp [hk]

theorem Token.indexRelation?_eq_some_iff {t : Token} {r : IndexLookup} :
    t.indexRelation? = some r ↔ r.piece.SpelledBy t := by
  have hsign : (t.isSign .equal || t.isSign .doubleEqual) = true ↔
      IndexLookup.equal.piece.SpelledBy t := by
    rw [Bool.or_eq_true, isSign_iff, isSign_iff, ← and_or_left]
    exact and_congr_right fun _ => Relation.ofText?_eq_equal_iff.symm
  constructor
  · intro h
    unfold indexRelation? at h
    split at h
    · next hs =>
      cases h
      exact hsign.mp hs
    repeat
      split at h
      · cases h
        assumption
    cases h
  · intro h
    cases r with
    | equal => rw [indexRelation?, if_pos (hsign.mpr h)]
    | _ =>
      have hk : t.kind ≠ .operator := by simp [kind_of_isKeyword h]
      simp [indexRelation?, isSign_of_kind hk, isKeyword, keyword?_of_isKeyword h]

theorem Token.indexCollection?_eq_some_iff {t : Token} {c : IndexCollection} :
    t.indexCollection? = some c ↔ c ≠ .scalar ∧ c.piece.SpelledBy t := by
  constructor
  · intro h
    unfold indexCollection? at h
    split at h
    · next hk => cases h; exact ⟨nofun, beq_iff_eq.mpr hk⟩
    · next hk => cases h; exact ⟨nofun, beq_iff_eq.mpr hk⟩
    · next hk => cases h; exact ⟨nofun, beq_iff_eq.mpr hk⟩
    · cases h
  · rintro ⟨hc, h⟩
    cases c with
    | scalar => exact absurd rfl hc
    | _ =>
      unfold indexCollection?
      rw [keyword?_of_isKeyword h]

theorem Token.beginsIndexRelation_of_kind {t : Token} {n : Name} (hl : t.literal = n.text)
    (hk : t.kind = .keyword) : t.beginsIndexRelation = n.isIndexRelation := by
  simp only [beginsIndexRelation, isKeyword, keyword?, hk, hl, Name.isIndexRelation]
  rcases Keyword.ofText? n.text with _ | k
  · rfl
  · cases k <;> rfl

theorem Token.beginsIndexRelation_of_isName {t : Token} {n : Name} (ht : t.isName = true)
    (hl : t.literal = n.text) (hn : n.isIndexRelation = false) : t.beginsIndexRelation = false := by
  rcases kind_of_isName ht with hk | hk
  · simp [beginsIndexRelation, hk, isKeyword_of_kind]
  · rw [beginsIndexRelation_of_kind hl hk, hn]

theorem Bounds.exists_spelledBy {b : Bounds} (h : AllSpelledBy b.pieces ts) :
    ∃ b' : Bounds, IndexArgument.SpelledBy .between (.between b') ts ∧ b'.bare = b.bare := by
  simp [pieces, Piece.SpelledBy] at h
  obtain ⟨sign, hs, us, word, vs, ⟨hus, hw, hvs⟩, rfl⟩ := h
  obtain ⟨low, hl, hbl⟩ := NumberLiteral.exists_spelledBy hus
  obtain ⟨high, hh, hbh⟩ := NumberLiteral.exists_spelledBy hvs
  exact ⟨_, .between (Token.indexRelation?_eq_some_iff.mpr hs) hl hw hh, by simp [bare, hbl, hbh]⟩

theorem IndexArgument.exists_spelledBy {relation : IndexLookup} {a : IndexArgument}
    (hf : a.HasForm relation) (h : AllSpelledBy (a.pieces relation) ts) :
    ∃ a' : IndexArgument, IndexArgument.SpelledBy relation a' ts ∧ a'.bare = a.bare := by
  cases a with
  | literal l =>
    obtain ⟨sign, hs, us, hus, rfl⟩ := (Piece.allSpelledBy_cons relation.piece_ne_blank).mp h
    obtain ⟨l', hl, hb⟩ := Literal.exists_spelledBy (Piece.allSpelledBy_blank.mp hus)
    exact ⟨_, .literal (Token.indexRelation?_eq_some_iff.mpr hs) hf hl, by simp [bare, hb]⟩
  | cast c =>
    obtain ⟨sign, hs, us, hus, rfl⟩ := (Piece.allSpelledBy_cons relation.piece_ne_blank).mp h
    obtain ⟨c', hc, hb⟩ := Cast.exists_spelledBy (Piece.allSpelledBy_blank.mp hus)
    exact ⟨_, .cast (Token.indexRelation?_eq_some_iff.mpr hs) hf hc, by simp [bare, hb]⟩
  | between b =>
    obtain rfl : relation = .between := hf
    obtain ⟨b', hb', hb⟩ := Bounds.exists_spelledBy h
    exact ⟨_, hb', by simp [bare, hb]⟩

/-- What an index is built over can be said before a bin only if the name of the bin is no relation,
since the parentheses that would tell it from one are not printed. -/
theorem IndexClause.exists_spelledBy {e : IndexClause} (hf : e.HasForm)
    (hn : e.collection.isSome = true → e.bin.isIndexRelation = false)
    (h : AllSpelledBy e.pieces ts) :
    ∃ e' : IndexClause, e'.SpelledBy ts ∧ e'.bare = e.bare := by
  obtain ⟨_ | c, name, relation, operand, t⟩ := e
  · simp [pieces, Piece.SpelledBy] at h
    obtain ⟨bin, ⟨hb, hl⟩, us, hus, rfl⟩ := h
    obtain ⟨a, ha, hba⟩ := IndexArgument.exists_spelledBy hf.operand hus
    exact ⟨_, .plain hb ha, by simp [bare, hba, Name.bare_ofToken hl]⟩
  · obtain ⟨word, hw, us, hus, rfl⟩ := (Piece.allSpelledBy_cons c.piece_ne_blank).mp h
    simp [Piece.SpelledBy] at hus
    obtain ⟨bin, ⟨hb, hl⟩, vs, hvs, rfl⟩ := hus
    obtain ⟨a, ha, hba⟩ := IndexArgument.exists_spelledBy hf.operand hvs
    have hc : c ≠ .scalar := by simpa using hf.collection
    exact ⟨_, .declared (Token.indexCollection?_eq_some_iff.mpr ⟨hc, hw⟩) hb
      (Token.beginsIndexRelation_of_isName hb hl (hn rfl)) ha,
      by simp [bare, hba, Name.bare_ofToken hl]⟩

/-! ## The statement -/

theorem Name.exists_allSpelledBy {ns : List Name} (hne : ns ≠ [])
    (h : Piece.AllSpelledBy (piecesAll ns) ts) :
    ∃ ns', Name.AllSpelledBy ns' ts ∧ ns'.map (·.bare) = ns.map (·.bare) := by
  induction ns generalizing ts with
  | nil => exact absurd rfl hne
  | cons n ns ih =>
    cases ns with
    | nil =>
      simp [piecesAll, Piece.SpelledBy] at h
      obtain ⟨t, ⟨ht, hl⟩, rfl⟩ := h
      exact ⟨_, .last ht, by simp [bare_ofToken hl]⟩
    | cons m ns =>
      simp [piecesAll, Piece.SpelledBy] at h
      obtain ⟨t, ⟨ht, hl⟩, comma, us, ⟨hc, hus⟩, rfl⟩ := h
      obtain ⟨ns', hns, hb⟩ := ih (by simp) hus
      exact ⟨_, .cons ht hc hns, by simp [bare_ofToken hl, hb]⟩

theorem SelectList.exists_spelledBy {s : SelectList} (hs : s ≠ .bins [])
    (h : AllSpelledBy s.pieces ts) :
    ∃ s' : SelectList, s'.SpelledBy ts ∧ s'.bare = s.bare := by
  cases s with
  | star =>
    simp [pieces, Piece.SpelledBy] at h
    obtain ⟨t, ht, rfl⟩ := h
    exact ⟨_, .star ht, rfl⟩
  | bins ns =>
    obtain ⟨ns', hns, hb⟩ := Name.exists_allSpelledBy (by simpa using hs) h
    exact ⟨_, .bins hns, by simp [bare, hb]⟩

theorem Source.exists_spelledBy {s : Source} {word : Token} (hw : word.isKeyword .FROM = true)
    (h : AllSpelledBy s.pieces ts) :
    ∃ s' : Source, s'.SpelledBy (word :: ts) ∧ s'.bare = s.bare := by
  obtain ⟨space, _ | set⟩ := s
  · simp [pieces, Piece.SpelledBy] at h
    obtain ⟨t, ⟨ht, hl⟩, rfl⟩ := h
    exact ⟨_, .space hw ht, by simp [bare, Name.bare_ofToken hl]⟩
  · simp [pieces, Piece.SpelledBy] at h
    obtain ⟨t, ⟨ht, hl⟩, dot, u, ⟨hd, hu, hm⟩, rfl⟩ := h
    exact ⟨_, .set hw ht hd hu, by simp [bare, Name.bare_ofToken hl, Name.bare_ofToken hm]⟩

theorem IndexClause.exists_optionSpelledBy {index : Option IndexClause}
    (hf : ∀ e ∈ index, e.HasForm)
    (hn : ∀ e ∈ index, e.collection.isSome = true → e.bin.isIndexRelation = false)
    (h : AllSpelledBy (index.elim [] (.blank :: .keyword .WITH :: .blank :: ·.pieces)) ts) :
    ∃ index', OptionSpelledBy index' ts ∧ index'.map (·.bare) = index.map (·.bare) := by
  cases index with
  | none =>
    obtain rfl := Piece.allSpelledBy_nil.mp h
    exact ⟨none, .none, rfl⟩
  | some e =>
    simp [Piece.SpelledBy] at h
    obtain ⟨word, hw, us, hus, rfl⟩ := h
    obtain ⟨e', he, hb⟩ := IndexClause.exists_spelledBy (hf e rfl) (hn e rfl) hus
    exact ⟨some e', .some hw he, by simp [hb]⟩

theorem WhereClause.exists_optionSpelledBy {condition : Option WhereClause}
    (hf : ∀ w ∈ condition, w.HasForm)
    (h : AllSpelledBy (condition.elim [] (.blank :: .keyword .WHERE :: .blank :: ·.pieces)) ts) :
    ∃ condition', OptionSpelledBy condition' ts ∧
      condition'.map (·.bare) = condition.map (·.bare) := by
  cases condition with
  | none =>
    obtain rfl := Piece.allSpelledBy_nil.mp h
    exact ⟨none, .none, rfl⟩
  | some w =>
    simp [Piece.SpelledBy] at h
    obtain ⟨word, hw, us, hus, rfl⟩ := h
    obtain ⟨w', hw', hb⟩ := WhereClause.exists_spelledBy (hf w rfl) hw hus
    exact ⟨some w', .some hw', by simp [hb]⟩

/-- Tokens that spell the pieces of a printed statement spell a statement that says the same. -/
theorem Statement.exists_spelledBy {s : Statement} (hf : s.HasForm)
    (hn : ∀ e ∈ s.index, e.collection.isSome = true → e.bin.isIndexRelation = false)
    (h : AllSpelledBy s.pieces ts) :
    ∃ s' : Statement, s'.SpelledBy ts ∧ s'.bare = s.bare := by
  simp [pieces, Piece.SpelledBy] at h
  obtain ⟨word, hw, us, source, vs, ws, xs, ⟨hus, hs, hvs, hws, hxs⟩, rfl⟩ := h
  obtain ⟨selection, hsel, hb₁⟩ := SelectList.exists_spelledBy hf.selection hus
  obtain ⟨source', hsrc, hb₂⟩ := Source.exists_spelledBy hs hvs
  obtain ⟨index, hix, hb₃⟩ := IndexClause.exists_optionSpelledBy hf.index hn hws
  obtain ⟨condition, hco, hb₄⟩ := WhereClause.exists_optionSpelledBy hf.condition hxs
  refine ⟨⟨selection, source', index, condition, word⟩, ?_, by simp [bare, hb₁, hb₂, hb₃, hb₄]⟩
  simpa using Statement.SpelledBy.mk hw hsel hsrc hix hco .nothing

end RecordQuery
