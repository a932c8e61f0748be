import RecordQuery.Proofs.Statement.Rereading
import RecordQuery.Proofs.Token.Weight

/-! # Pieces among the tokens of a statement

Among the tokens that spell a statement are those that spell its pieces (`SpelledWithin`): printing
drops a plus sign, the parentheses of a WITH clause and a semicolon, and no more. So a statement has
no more pieces than tokens, and the pieces weigh no more than the tokens do. -/

namespace RecordQuery

open Text

namespace Piece

/-- Some of the tokens spell the pieces. -/
inductive SpelledWithin : List Piece → List Token → Prop
  | nil : SpelledWithin [] []
  | blank {ps : List Piece} {ts : List Token} (h : SpelledWithin ps ts) :
    SpelledWithin (.blank :: ps) ts
  | cons {p : Piece} {ps : List Piece} {t : Token} {ts : List Token} (hp : p.SpelledBy t)
    (h : SpelledWithin ps ts) : SpelledWithin (p :: ps) (t :: ts)
  | extra {ps : List Piece} {t : Token} {ts : List Token} (h : SpelledWithin ps ts) :
    SpelledWithin ps (t :: ts)

namespace SpelledWithin

variable {ps qs : List Piece} {ts us : List Token}

theorem append (h₁ : SpelledWithin ps ts) (h₂ : SpelledWithin qs us) :
    SpelledWithin (ps ++ qs) (ts ++ us) := by
  induction h₁ with
  | nil => exact h₂
  | blank _ ih => exact .blank ih
  | cons hp _ ih => exact .cons hp ih
  | extra _ ih => exact .extra ih

theorem append_right (h : SpelledWithin ps ts) (us : List Token) :
    SpelledWithin ps (ts ++ us) := by
  induction h with
  | nil =>
    induction us with
    | nil => exact .nil
    | cons u us ih => exact .extra ih
  | blank _ ih => exact .blank ih
  | cons hp _ ih => exact .cons hp ih
  | extra _ ih => exact .extra ih

end SpelledWithin

/-! ## The number of tokens -/

/-- The number of tokens that spell the pieces. -/
def size (ps : List Piece) : Nat := (ps.filter (· ≠ blank)).length

section

variable {p : Piece} {ps qs : List Piece} {ts : List Token}

@[simp] theorem size_nil : size [] = 0 := rfl

@[simp] theorem size_blank_cons : size (.blank :: ps) = size ps := rfl

@[simp] theorem size_cons (hp : p ≠ blank) : size (p :: ps) = size ps + 1 := by
  simp [size, hp]

@[simp] theorem size_append : size (ps ++ qs) = size ps + size qs := by
  simp [size]

theorem SpelledBy.ne_blank {t : Token} (h : p.SpelledBy t) : p ≠ blank := by
  rintro rfl
  exact h.elim

theorem AllSpelledBy.size_eq (h : AllSpelledBy ps ts) : size ps = ts.length := by
  induction h with
  | nil => rfl
  | blank _ ih => exact ih
  | cons hp _ ih => rw [size_cons hp.ne_blank, ih, List.length_cons]

/-- Each piece has a token of its own, so there are no more pieces than tokens. -/
theorem SpelledWithin.size_le (h : SpelledWithin ps ts) : size ps ≤ ts.length := by
  induction h with
  | nil => exact Nat.le_refl _
  | blank _ ih => exact ih
  | cons hp _ ih =>
    rw [size_cons hp.ne_blank, List.length_cons]
    omega
  | extra _ ih =>
    rw [List.length_cons]
    omega

end

/-! ## The weight of tokens -/

section

variable {p : Piece} {ps : List Piece} {t : Token} {ts : List Token}

theorem weigh_keyword (k : Keyword) : weigh k.text.toList = 0 := by
  cases k <;> decide

theorem weigh_fact (m : MetadataName) : weigh m.text.toList = 0 := by
  cases m <;> decide

theorem weigh_sign (o : Sign) : weigh o.text.toList = 0 := by
  cases o <;> decide

theorem weigh_relation (r : Relation) : weigh r.text.toList = 0 := by
  obtain ⟨o, ho⟩ := r.exists_sign
  rw [ho, weigh_sign]

/-- Quotes and doubled quotes of a string weigh nothing. -/
theorem weigh_singleQuoted (s : String) : weigh (singleQuoted s).toList = weigh s.toList := by
  simp [singleQuoted, weigh_doubled, weight_apostrophe]

theorem weigh_value_le (t : Token) :
    weigh (StringLiteral.ofToken t).value.toList ≤ weigh t.literal.toList := by
  simpa [StringLiteral.ofToken] using weigh_unquoted_le '\'' t.literal.toList

/-- No piece is heavier than the token that it stands for. -/
theorem SpelledBy.weigh_le (h : p.SpelledBy t) : weigh p.text ≤ weigh t.literal.toList := by
  cases p with
  | blank => exact h.elim
  | keyword k => exact (weigh_keyword k).le.trans (Nat.zero_le _)
  | fact m => exact (weigh_fact m).le.trans (Nat.zero_le _)
  | name s => exact h.2 ▸ Nat.le_refl _
  | typeName s =>
    rw [text, ← h.2, uppercase, String.toList_ofList]
    exact (weigh_uppercase _).1
  | numeral s => exact h.2 ▸ Nat.le_refl _
  | string s =>
    rw [text, weigh_singleQuoted, ← h.2]
    exact weigh_value_le t
  | sign o => exact (weigh_sign o).le.trans (Nat.zero_le _)
  | relation r => exact (weigh_relation r).le.trans (Nat.zero_le _)
  | mark m =>
    have : weigh [m.char] = 0 := by cases m <;> decide
    exact this.le.trans (Nat.zero_le _)

/-- A piece is spelled as it has to be if its token is not quoted and is as heavy as the piece. -/
theorem SpelledBy.whole (h : p.SpelledBy t) (hw : weigh t.literal.toList ≤ weigh p.text)
    (hu : t.isName = true → t.IsUnquoted)
    (hn : t.isNumber = true → Token.LexesAlone Token.isNumber t.literal) : p.Whole := by
  cases p with
  | name s => exact h.2 ▸ Token.lexesAlone_of_isUnquoted (hu h.1) h.1
  | typeName s =>
    obtain ⟨ht, rfl⟩ := h
    rw [text, uppercase, String.toList_ofList] at hw
    have hself : uppercase t.literal = t.literal := by
      rw [uppercase, (weigh_uppercase _).2 hw, String.ofList_toList]
    rw [Whole, uppercase_uppercase, hself]
    exact ⟨Token.lexesAlone_of_isUnquoted (hu ht) ht, rfl⟩
  | numeral s => exact h.2 ▸ hn h.1
  | _ => trivial

/-- What is printed weighs no more than the tokens it was read from. -/
theorem SpelledWithin.weigh_le (h : SpelledWithin ps ts) :
    weigh (ps.flatMap text) ≤ Token.weighAll ts := by
  induction h with
  | nil => exact Nat.le_refl _
  | blank _ ih =>
    have : weigh [' '] = 0 := by decide
    rw [List.flatMap_cons, weigh_append, text, this]
    omega
  | cons hp _ ih =>
    have := hp.weigh_le
    rw [List.flatMap_cons, weigh_append, Token.weighAll_cons]
    omega
  | extra _ ih =>
    rw [Token.weighAll_cons]
    omega

/-- If the pieces are as heavy as the tokens, no name of which is quoted, all are spelled as they
have to be. -/
theorem SpelledWithin.whole (h : SpelledWithin ps ts)
    (hw : Token.weighAll ts ≤ weigh (ps.flatMap text))
    (hu : ∀ t ∈ ts, t.isName = true → t.IsUnquoted)
    (hn : ∀ t ∈ ts, t.isNumber = true → Token.LexesAlone Token.isNumber t.literal) :
    ∀ p ∈ ps, p.Whole := by
  induction h with
  | nil => exact List.forall_mem_nil _
  | blank _ ih =>
    have hb : weigh [' '] = 0 := by decide
    rw [List.flatMap_cons, weigh_append, text, hb, Nat.zero_add] at hw
    exact List.forall_mem_cons.mpr ⟨trivial, ih hw hu hn⟩
  | @cons p ps t ts hp hps ih =>
    have h₁ := hp.weigh_le
    have h₂ := hps.weigh_le
    rw [List.flatMap_cons, weigh_append, Token.weighAll_cons] at hw
    rw [List.forall_mem_cons] at hu hn
    exact List.forall_mem_cons.mpr
      ⟨hp.whole (by omega) hu.1 hn.1, ih (by omega) hu.2 hn.2⟩
  | extra _ ih =>
    rw [Token.weighAll_cons] at hw
    rw [List.forall_mem_cons] at hu hn
    exact ih (by omega) hu.2 hn.2

end

end Piece

/-! ## Literals and casts -/

open Piece (SpelledWithin)

variable {ts : List Token}

theorem NumberLiteral.pieces_eq {s : String} (h : Token.LexesAlone Token.isNumber s) (t : Token) :
    pieces ⟨s, t⟩ = [.numeral s] := by
  obtain ⟨c, cs, k, hs, hc, -⟩ := Token.lexesAlone_isNumber_iff.mp h
  unfold pieces
  split
  · next ds hds =>
    obtain ⟨rfl, -⟩ := List.cons.inj (hs.symm.trans hds)
    exact absurd hc (by decide)
  · rfl

theorem NumberLiteral.pieces_minus (s : String) (t : Token) :
    pieces ⟨"-" ++ s, t⟩ = [.sign .minus, .numeral s] := by
  simp [pieces]

/-- The numbers among the tokens are spelled as they would be alone. -/
def Token.NumbersAlone (ts : List Token) : Prop :=
  ∀ t ∈ ts, t.isNumber = true → LexesAlone isNumber t.literal

/-- The plus sign of a number is not printed, so its token spells no piece. -/
theorem NumberLiteral.SpelledBy.within {n : NumberLiteral} (h : n.SpelledBy ts)
    (hn : Token.NumbersAlone ts) : SpelledWithin n.pieces ts := by
  cases h with
  | unsigned hd =>
    rw [pieces_eq (hn _ (by simp) hd)]
    exact .cons ⟨hd, rfl⟩ .nil
  | plus hs hd =>
    rw [pieces_eq (hn _ (by simp) hd)]
    exact .extra (.cons ⟨hd, rfl⟩ .nil)
  | minus hs hd =>
    rw [pieces_minus]
    exact .cons hs (.cons ⟨hd, rfl⟩ .nil)

theorem Literal.SpelledBy.within {l : Literal} (h : l.SpelledBy ts) (hn : Token.NumbersAlone ts) :
    SpelledWithin l.pieces ts := by
  cases h with
  | number hl => exact hl.within hn
  | string ht => exact .cons ⟨ht, rfl⟩ .nil

theorem Cast.SpelledBy.within {c : Cast} (h : c.SpelledBy ts) : SpelledWithin c.pieces ts := by
  cases h with
  | mk hc ho hv ha ht hcl =>
    exact .cons hc (.cons ho (.cons ⟨hv, rfl⟩ (.blank (.cons ha (.blank (.cons ⟨ht, rfl⟩
      (.cons hcl .nil)))))))

/-! ## Predicates -/

theorem Iteration.SpelledBy.within {i : Iteration} (h : i.SpelledBy ts)
    (hn : Token.NumbersAlone ts) : SpelledWithin i.pieces ts := by
  cases h with
  | mk ho he hr hv hc =>
    have hl := hv.within fun t ht => hn t (by simp [ht])
    exact .cons ho (.cons ⟨he, rfl⟩ (.blank (.cons hr (.blank (hl.append (.cons hc .nil))))))

theorem MetadataName.ModuloSpelledBy.within {name : MetadataName} {m : Option NumberLiteral}
    (h : name.ModuloSpelledBy m ts) (hn : Token.NumbersAlone ts) :
    SpelledWithin (m.elim [] (·.pieces)) ts := by
  cases m with
  | none =>
    obtain ⟨-, rfl⟩ := h
    exact .nil
  | some n => exact h.2.within hn

theorem MetadataName.ModuloSpelledBy.isSome {name : MetadataName} {m : Option NumberLiteral}
    (h : name.ModuloSpelledBy m ts) : name = .digest ↔ m.isSome = true := by
  cases m with
  | none => simpa using h.1
  | some n => simpa using h.1

/-- A predicate that is read has one of the forms of the grammar. -/
theorem Atomic.SpelledBy.hasForm {a : Atomic} (h : a.SpelledBy ts) : a.HasForm := by
  cases h with
  | metadata _ _ _ hm => exact .metadata hm.isSome
  | relation => exact .relation
  | region => exact .region
  | like => exact .like
  | iterate | quantified => exact .iterate

/-- Each form of a predicate is printed piece by piece from tokens that it was read from. -/
theorem Atomic.SpelledBy.within {a : Atomic} (h : a.SpelledBy ts) (hn : Token.NumbersAlone ts) :
    SpelledWithin a.pieces ts := by
  cases h with
  | metadata hf hm ho hmod hc hr hv =>
    have h₁ := hmod.within fun t ht => hn t (by simp [ht])
    have h₂ := hv.within fun t ht => hn t (by simp [ht])
    have h₃ := h₁.append (.cons (p := .mark _) hc
      (.blank (.cons (p := .relation _) hr (.blank h₂))))
    simpa [pieces, Subject.pieces, MetadataCall.pieces] using .cons ⟨hf, hm⟩ (.cons ho h₃)
  | relation hb hr hl =>
    have := hl.within fun t ht => hn t (by simp [ht])
    exact .cons ⟨hb, rfl⟩ (.blank (.cons hr (.blank this)))
  | region hb hr hc => exact .cons ⟨hb, rfl⟩ (.blank (.cons hr (.blank hc.within)))
  | like hb hw hp => exact .cons ⟨hb, rfl⟩ (.blank (.cons hw (.blank (.cons ⟨hp, rfl⟩ .nil))))
  | iterate hb hw hi =>
    have := hi.within fun t ht => hn t (by simp [ht])
    exact .cons ⟨hb, rfl⟩ (.blank (.cons hw (.blank this)))
  | quantified hb hq hw hi =>
    have := hi.within fun t ht => hn t (by simp [ht])
    exact .cons ⟨hb, rfl⟩ (.blank (.cons hq (.blank (.cons hw (.blank this)))))

/-! ## The WHERE clause -/

/-- The blanks between entries need no tokens. -/
theorem WhereEntry.AllSpelledBy.within {es : List WhereEntry} (h : WhereEntry.AllSpelledBy es ts)
    (hn : Token.NumbersAlone ts) (tight : Bool) : SpelledWithin (piecesAll tight es) ts := by
  have blank {ps : List Piece} {us : List Token} (h : SpelledWithin ps us) (tight : Bool) :
      SpelledWithin ((if tight then [] else [.blank]) ++ ps) us := by
    cases tight with
    | true => exact h
    | false => exact .blank h
  induction h generalizing tight with
  | nil => exact .nil
  | cons he _ ih =>
    have ih := ih fun t ht => hn t (by simp [ht])
    cases he with
    | openParen ht => exact blank (.cons (p := .mark _) ht (ih true)) tight
    | closeParen ht => exact .cons ht (ih false)
    | connective ht => exact blank (.cons (p := .keyword _) ht (ih false)) tight
    | atomic ha => exact blank ((ha.within fun t ht => hn t (by simp [ht])).append (ih false)) tight

theorem WhereEntry.AllSpelledBy.hasForm {es : List WhereEntry}
    (h : WhereEntry.AllSpelledBy es ts) : ∀ a, .atomic a ∈ es → a.HasForm := by
  induction h with
  | nil => exact fun _ ha => nomatch ha
  | cons he _ ih =>
    intro a ha
    rcases List.mem_cons.mp ha with rfl | ha
    · cases he with
      | atomic ha => exact ha.hasForm
    · exact ih a ha

theorem WhereClause.SpelledBy.hasForm {w : WhereClause} (h : w.SpelledBy ts) : w.HasForm := by
  cases h with
  | mk hw ha hes => exact ⟨ha, hes.hasForm⟩

theorem WhereClause.OptionSpelledBy.within {condition : Option WhereClause}
    (h : OptionSpelledBy condition ts) (hn : Token.NumbersAlone ts) :
    SpelledWithin (condition.elim [] (.blank :: .keyword .WHERE :: .blank :: ·.pieces)) ts := by
  cases h with
  | none => exact .nil
  | some h =>
    cases h with
    | mk hw ha hes =>
      exact .blank (.cons hw (.blank (hes.within (fun t ht => hn t (by simp [ht])) true)))

/-! ## The WITH clause -/

theorem IndexArgument.SpelledBy.hasForm {relation : IndexLookup} {a : IndexArgument}
    (h : IndexArgument.SpelledBy relation a ts) : a.HasForm relation := by
  cases h with
  | literal _ hr | cast _ hr => exact hr
  | between => exact rfl

theorem IndexArgument.SpelledBy.within {relation : IndexLookup} {a : IndexArgument}
    (h : IndexArgument.SpelledBy relation a ts) (hn : Token.NumbersAlone ts) :
    SpelledWithin (a.pieces relation) ts := by
  cases h with
  | literal hs hr hl =>
    have := hl.within fun t ht => hn t (by simp [ht])
    exact .cons (Token.indexRelation?_eq_some_iff.mp hs) (.blank this)
  | cast hs hr hc => exact .cons (Token.indexRelation?_eq_some_iff.mp hs) (.blank hc.within)
  | between hs hl hw hh =>
    have h₁ := hl.within fun t ht => hn t (by simp [ht])
    have h₂ := hh.within fun t ht => hn t (by simp [ht])
    exact .cons (Token.indexRelation?_eq_some_iff.mp hs)
      (.blank (h₁.append (.blank (.cons hw (.blank h₂)))))

theorem IndexClause.SpelledBy.hasForm {e : IndexClause} (h : e.SpelledBy ts) : e.HasForm := by
  cases h with
  | plain _ ha | paren _ _ ha => exact ⟨nofun, ha.hasForm⟩
  | declared hw _ _ ha | declaredParen hw _ _ ha =>
    exact ⟨by simpa using (Token.indexCollection?_eq_some_iff.mp hw).1, ha.hasForm⟩

theorem IndexClause.SpelledBy.within {e : IndexClause} (h : e.SpelledBy ts)
    (hn : Token.NumbersAlone ts) : SpelledWithin e.pieces ts := by
  cases h with
  | plain hb ha =>
    have := ha.within fun t ht => hn t (by simp [ht])
    exact .cons ⟨hb, rfl⟩ (.blank this)
  | paren ho hb ha hc =>
    have := ha.within fun t ht => hn t (by simp [ht])
    exact .extra (.cons ⟨hb, rfl⟩ (.blank (this.append_right _)))
  | declared hw hb hr ha =>
    have := ha.within fun t ht => hn t (by simp [ht])
    exact .cons (Token.indexCollection?_eq_some_iff.mp hw).2
      (.blank (.cons ⟨hb, rfl⟩ (.blank this)))
  | declaredParen hw ho hb ha hc =>
    have := ha.within fun t ht => hn t (by simp [ht])
    exact .cons (Token.indexCollection?_eq_some_iff.mp hw).2
      (.blank (.extra (.cons ⟨hb, rfl⟩ (.blank (this.append_right _)))))

theorem Token.beginsIndexRelation_of_isUnquoted {t : Token} (hu : t.IsUnquoted)
    (hr : (Name.ofToken t).isIndexRelation = true) : t.beginsIndexRelation = true := by
  have hk : t.kind = .keyword := by
    rw [hu.2, kindOfWord, String.ofList_toList, if_pos]
    cases h : Keyword.ofText? t.literal with
    | none => simp [Name.isIndexRelation, Name.ofToken, h] at hr
    | some k => rfl
  rw [beginsIndexRelation_of_kind (n := .ofToken t) rfl hk, hr]

/-- Where a bin that is named like a relation stands behind what the index is built over, there are
parentheses, which have no pieces. -/
theorem IndexClause.SpelledBy.size_lt {e : IndexClause} (h : e.SpelledBy ts)
    (hn : Token.NumbersAlone ts) (hu : ∀ t ∈ ts, t.isName = true → t.IsUnquoted)
    (hc : e.collection.isSome = true) (hr : e.bin.isIndexRelation = true) :
    Piece.size e.pieces < ts.length := by
  cases h with
  | plain | paren => cases hc
  | declared hw hb hrel ha =>
    -- The name would be read as the relation.
    have := Token.beginsIndexRelation_of_isUnquoted (hu _ (by simp) hb) hr
    exact nomatch this.symm.trans hrel
  | declaredParen hw ho hb ha hcl =>
    have := (ha.within fun t ht => hn t (by simp [ht])).size_le
    simp [pieces]
    omega

theorem IndexClause.OptionSpelledBy.within {index : Option IndexClause}
    (h : OptionSpelledBy index ts) (hn : Token.NumbersAlone ts) :
    SpelledWithin (index.elim [] (.blank :: .keyword .WITH :: .blank :: ·.pieces)) ts := by
  cases h with
  | none => exact .nil
  | some hw he => exact .blank (.cons hw (.blank (he.within fun t ht => hn t (by simp [ht]))))

/-! ## The statement -/

theorem Name.AllSpelledBy.within {ns : List Name} (h : Name.AllSpelledBy ns ts) :
    SpelledWithin (piecesAll ns) ts := by
  induction h with
  | last ht => exact .cons ⟨ht, rfl⟩ .nil
  | cons ht hc hns ih =>
    have : SpelledWithin (.mark .comma :: .blank :: piecesAll _) _ := .cons hc (.blank ih)
    cases hns with
    | last | cons => exact .cons ⟨ht, rfl⟩ this

theorem SelectList.SpelledBy.within {s : SelectList} (h : s.SpelledBy ts) :
    SpelledWithin s.pieces ts := by
  cases h with
  | star ht => exact .cons ht .nil
  | bins hns => exact hns.within

theorem SelectList.SpelledBy.ne_nil {s : SelectList} (h : s.SpelledBy ts) : s ≠ .bins [] := by
  rintro rfl
  cases h with
  | bins hns => cases hns

theorem Source.SpelledBy.within {s : Source} (h : s.SpelledBy ts) :
    SpelledWithin (.keyword .FROM :: .blank :: s.pieces) ts := by
  cases h with
  | space hw ht => exact .cons hw (.blank (.cons ⟨ht, rfl⟩ .nil))
  | set hw ht hd hu =>
    exact .cons hw (.blank (.cons ⟨ht, rfl⟩ (.cons hd (.cons ⟨hu, rfl⟩ .nil))))

theorem Statement.SpelledBy.hasForm {s : Statement} (h : s.SpelledBy ts) : s.HasForm := by
  cases h with
  | mk hw hts hus hvs hws hxs =>
    refine ⟨hts.ne_nil, ?_, ?_⟩
    · rintro e rfl
      cases hvs with
      | some _ he => exact he.hasForm
    · rintro w rfl
      cases hws with
      | some hw => exact hw.hasForm

/-- Some of the tokens of a statement spell its pieces. -/
theorem Statement.SpelledBy.within {s : Statement} (h : s.SpelledBy ts)
    (hn : Token.NumbersAlone ts) : SpelledWithin s.pieces ts := by
  cases h with
  | mk hw hts hus hvs hws hxs =>
    have h₁ := hvs.within fun t ht => hn t (by simp [ht])
    have h₂ := hws.within fun t ht => hn t (by simp [ht])
    have h₃ := hts.within.append (.blank (hus.within.append (h₁.append h₂)))
    simpa [pieces] using SpelledWithin.cons (p := .keyword _) hw (.blank (h₃.append_right _))

/-- A statement has fewer pieces than tokens if the parentheses are needed in its WITH clause. -/
theorem Statement.SpelledBy.size_lt {s : Statement} (h : s.SpelledBy ts)
    (hn : Token.NumbersAlone ts) (hu : ∀ t ∈ ts, t.isName = true → t.IsUnquoted)
    {e : IndexClause} (he : e ∈ s.index) (hc : e.collection.isSome = true)
    (hr : e.bin.isIndexRelation = true) : Piece.size s.pieces < ts.length := by
  cases h with
  | mk hw hts hus hvs hws hxs =>
    have h₁ := hts.within.size_le
    have h₂ := hus.within.size_le
    have h₄ := (hws.within fun t ht => hn t (by simp [ht])).size_le
    cases hvs with
    | none => cases he
    | some hwith hidx =>
      obtain rfl := Option.some.inj he
      have h₃ := hidx.size_lt (fun t ht => hn t (by simp [ht]))
        (fun t ht => hu t (by simp [ht])) hc hr
      simp [pieces] at h₂ ⊢
      omega

end RecordQuery
