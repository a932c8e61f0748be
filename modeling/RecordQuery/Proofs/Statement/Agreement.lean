import RecordQuery.Proofs.Statement.Bare
import RecordQuery.Proofs.Token.Agreement

/-! # Trees that are spelled by tokens that agree

Tokens that agree spell the same trees, up to the tokens that the trees keep. -/

namespace RecordQuery

open Token (AllAgree)

variable {ts us : List Token}

/-! ## Literals and casts -/

theorem Name.bare_ofToken_of_agrees {t u : Token} (h : t.Agrees u) (ht : t.isName = true) :
    (Name.ofToken u).bare = (Name.ofToken t).bare :=
  bare_ofToken (h.literal_eq_of_isName ht).symm

theorem StringLiteral.bare_ofToken_of_agrees {t u : Token} (h : t.Agrees u)
    (ht : t.kind = .string) : (StringLiteral.ofToken u).bare = (StringLiteral.ofToken t).bare := by
  rw [bare, bare, ofToken, ofToken, h.literal_eq_of_kind (by simp [ht])]

theorem Relation.SpelledBy.agree {r : Relation} {t u : Token} (hr : r.SpelledBy t)
    (h : t.Agrees u) : r.SpelledBy u :=
  ⟨h.kind.symm.trans hr.1, h.literal_eq_of_kind (by simp [hr.1]) ▸ hr.2⟩

/-- Each way to spell a number stays one, and the digits are the same. -/
theorem NumberLiteral.SpelledBy.agree {n : NumberLiteral} (hn : n.SpelledBy ts)
    (h : AllAgree ts us) : ∃ m : NumberLiteral, m.SpelledBy us ∧ m.bare = n.bare := by
  cases hn with
  | unsigned hd =>
    obtain _ | ⟨h, _ | _⟩ := h
    refine ⟨_, .unsigned (h.isNumber.symm.trans hd), ?_⟩
    rw [bare, bare, h.literal_eq_of_isNumber hd]
  | plus hs hd =>
    obtain _ | ⟨h, _ | ⟨h', _ | _⟩⟩ := h
    refine ⟨_, .plus ((h.isSign _).symm.trans hs) (h'.isNumber.symm.trans hd), ?_⟩
    rw [bare, bare, h'.literal_eq_of_isNumber hd]
  | minus hs hd =>
    obtain _ | ⟨h, _ | ⟨h', _ | _⟩⟩ := h
    refine ⟨_, .minus ((h.isSign _).symm.trans hs) (h'.isNumber.symm.trans hd), ?_⟩
    rw [bare, bare, h'.literal_eq_of_isNumber hd]

/-- Tokens that agree spell a literal of the same kind and with the same text. -/
theorem Literal.SpelledBy.agree {l : Literal} (hl : l.SpelledBy ts) (h : AllAgree ts us) :
    ∃ m : Literal, m.SpelledBy us ∧ m.bare = l.bare := by
  cases hl with
  | number hn =>
    obtain ⟨m, hm, he⟩ := hn.agree h
    exact ⟨_, .number hm, congrArg Literal.number he⟩
  | string ht =>
    obtain _ | ⟨h, _ | _⟩ := h
    exact ⟨_, .string (h.kind.symm.trans ht),
      congrArg Literal.string (StringLiteral.bare_ofToken_of_agrees h ht)⟩

/-- The words of a cast may change their case, the string and the type in it do not. -/
theorem Cast.SpelledBy.agree {c : Cast} (hc : c.SpelledBy ts) (h : AllAgree ts us) :
    ∃ d : Cast, d.SpelledBy us ∧ d.bare = c.bare := by
  cases hc with
  | mk hc ho hv ha ht hcl =>
    obtain _ | ⟨h₁, _ | ⟨h₂, _ | ⟨h₃, _ | ⟨h₄, _ | ⟨h₅, _ | ⟨h₆, _ | _⟩⟩⟩⟩⟩⟩ := h
    refine ⟨_, .mk ((h₁.isKeyword _).symm.trans hc) ((h₂.isMark _).symm.trans ho)
      (h₃.kind.symm.trans hv) ((h₄.isKeyword _).symm.trans ha) (h₅.isName.symm.trans ht)
      ((h₆.isMark _).symm.trans hcl), ?_⟩
    rw [bare, bare, StringLiteral.bare_ofToken_of_agrees h₃ hv, h₅.literal_eq_of_isName ht]

/-! ## Predicates -/

theorem Iteration.SpelledBy.agree {i : Iteration} (hi : i.SpelledBy ts) (h : AllAgree ts us) :
    ∃ j : Iteration, j.SpelledBy us ∧ j.bare = i.bare := by
  cases hi with
  | mk ho he hr hv hc =>
    obtain _ | ⟨h₁, _ | ⟨h₂, _ | ⟨h₃, h⟩⟩⟩ := h
    obtain ⟨vs, _, rfl, hvs, _ | ⟨h₄, _ | _⟩⟩ := AllAgree.exists_append h
    obtain ⟨l, hl, hb⟩ := hv.agree hvs
    refine ⟨_, .mk ((h₁.isMark _).symm.trans ho) (h₂.isName.symm.trans he) (hr.agree h₃) hl
      ((h₄.isMark _).symm.trans hc), ?_⟩
    rw [bare, bare, Name.bare_ofToken_of_agrees h₂ he, hb]

/-- The modulus of a function of the record, if it has one, keeps its number. -/
theorem MetadataName.ModuloSpelledBy.agree {name : MetadataName} {m : Option NumberLiteral}
    (hm : name.ModuloSpelledBy m ts) (h : AllAgree ts us) :
    ∃ m', name.ModuloSpelledBy m' us ∧ m'.map (·.bare) = m.map (·.bare) := by
  cases m with
  | none =>
    obtain ⟨hd, rfl⟩ := hm
    cases h
    exact ⟨none, ⟨hd, rfl⟩, rfl⟩
  | some n =>
    obtain ⟨hd, hn⟩ := hm
    obtain ⟨m, hm, he⟩ := hn.agree h
    exact ⟨some m, ⟨hd, hm⟩, congrArg some he⟩

/-- The tokens of a predicate are taken apart as the form of the predicate has them; each part is
spelled anew, and the parts are put together in the same form. -/
theorem Atomic.SpelledBy.agree {a : Atomic} (ha : a.SpelledBy ts) (h : AllAgree ts us) :
    ∃ b : Atomic, b.SpelledBy us ∧ b.bare = a.bare := by
  cases ha with
  | metadata hf hn ho hm hc hr hv =>
    obtain _ | ⟨h₁, _ | ⟨h₂, h⟩⟩ := h
    obtain ⟨vs, _, rfl, hvs, _ | ⟨h₃, _ | ⟨h₄, h'⟩⟩⟩ := AllAgree.exists_append h
    obtain ⟨m, hm, hb⟩ := hm.agree hvs
    obtain ⟨n, hv, hb'⟩ := hv.agree h'
    refine ⟨_, .metadata (h₁.kind.symm.trans hf)
      (h₁.literal_eq_of_kind (by simp [hf]) ▸ hn) ((h₂.isMark _).symm.trans ho) hm
      ((h₃.isMark _).symm.trans hc) (hr.agree h₄) hv, ?_⟩
    simp only [bare, Subject.bare, MetadataCall.bare, Operand.bare, Literal.bare, hb, hb']
  | relation hbin hr hl =>
    obtain _ | ⟨h₁, _ | ⟨h₂, h⟩⟩ := h
    obtain ⟨l, hl, hb⟩ := hl.agree h
    refine ⟨_, .relation (h₁.isName.symm.trans hbin) (hr.agree h₂) hl, ?_⟩
    simp only [bare, Subject.bare, Operand.bare, Name.bare_ofToken_of_agrees h₁ hbin, hb]
  | region hbin hr hc =>
    obtain _ | ⟨h₁, _ | ⟨h₂, h⟩⟩ := h
    obtain ⟨c, hc, hb⟩ := hc.agree h
    refine ⟨_, .region (h₁.isName.symm.trans hbin) ((h₂.isKeyword _).symm.trans hr) hc, ?_⟩
    simp only [bare, Subject.bare, Operand.bare, Name.bare_ofToken_of_agrees h₁ hbin, hb]
  | like hbin hw hp =>
    obtain _ | ⟨h₁, _ | ⟨h₂, _ | ⟨h₃, _ | _⟩⟩⟩ := h
    refine ⟨_, .like (h₁.isName.symm.trans hbin) ((h₂.isKeyword _).symm.trans hw)
      (h₃.kind.symm.trans hp), ?_⟩
    simp only [bare, Subject.bare, Operand.bare, Literal.bare,
      Name.bare_ofToken_of_agrees h₁ hbin, StringLiteral.bare_ofToken_of_agrees h₃ hp]
  | iterate hbin hw hi =>
    obtain _ | ⟨h₁, _ | ⟨h₂, h⟩⟩ := h
    obtain ⟨i, hi, hb⟩ := hi.agree h
    refine ⟨_, .iterate (h₁.isName.symm.trans hbin) ((h₂.isKeyword _).symm.trans hw) hi, ?_⟩
    simp only [bare, Subject.bare, Operand.bare, Name.bare_ofToken_of_agrees h₁ hbin, hb]
  | quantified hbin hq hw hi =>
    obtain _ | ⟨h₁, _ | ⟨h₂, _ | ⟨h₃, h⟩⟩⟩ := h
    obtain ⟨i, hi, hb⟩ := hi.agree h
    refine ⟨_, .quantified (h₁.isName.symm.trans hbin) ((h₂.isKeyword _).symm.trans hq)
      ((h₃.isKeyword _).symm.trans hw) hi, ?_⟩
    simp only [bare, Subject.bare, Operand.bare, Name.bare_ofToken_of_agrees h₁ hbin, hb]

/-! ## The WHERE clause -/

theorem WhereEntry.SpelledBy.agree {e : WhereEntry} (he : e.SpelledBy ts) (h : AllAgree ts us) :
    ∃ f : WhereEntry, f.SpelledBy us ∧ f.bare = e.bare := by
  cases he with
  | openParen ht =>
    obtain _ | ⟨h, _ | _⟩ := h
    exact ⟨_, .openParen ((h.isMark _).symm.trans ht), rfl⟩
  | closeParen ht =>
    obtain _ | ⟨h, _ | _⟩ := h
    exact ⟨_, .closeParen ((h.isMark _).symm.trans ht), rfl⟩
  | connective ht =>
    obtain _ | ⟨h, _ | _⟩ := h
    exact ⟨_, .connective ((h.isKeyword _).symm.trans ht), rfl⟩
  | atomic ha =>
    obtain ⟨b, hb, he⟩ := ha.agree h
    exact ⟨_, .atomic hb, congrArg WhereEntry.atomic he⟩

/-- Entry by entry, where the tokens that agree are cut at the same places. -/
theorem WhereEntry.AllSpelledBy.agree {es : List WhereEntry} (hes : AllSpelledBy es ts)
    (h : AllAgree ts us) :
    ∃ fs, AllSpelledBy fs us ∧ fs.map (·.bare) = es.map (·.bare) := by
  induction hes generalizing us with
  | nil =>
    cases h
    exact ⟨[], .nil, rfl⟩
  | cons he _ ih =>
    obtain ⟨vs, ws, rfl, h, h'⟩ := AllAgree.exists_append h
    obtain ⟨f, hf, hb⟩ := he.agree h
    obtain ⟨fs, hfs, hbs⟩ := ih h'
    exact ⟨f :: fs, .cons hf hfs, by rw [List.map_cons, List.map_cons, hb, hbs]⟩

/-- Operands and connectives alternate still, since that does not depend on tokens. -/
theorem WhereClause.SpelledBy.agree {w : WhereClause} (hw : w.SpelledBy ts)
    (h : AllAgree ts us) : ∃ v : WhereClause, v.SpelledBy us ∧ v.bare = w.bare := by
  cases hw with
  | mk hk ha hes =>
    obtain _ | ⟨h₁, h⟩ := h
    obtain ⟨fs, hfs, hb⟩ := hes.agree h
    rw [← WhereEntry.alternates_bare, ← hb, WhereEntry.alternates_bare] at ha
    exact ⟨_, .mk ((h₁.isKeyword _).symm.trans hk) ha hfs, by rw [bare, bare, hb]⟩

/-! ## The WITH clause -/

theorem IndexArgument.SpelledBy.agree {relation : IndexLookup} {a : IndexArgument}
    (ha : SpelledBy relation a ts) (h : AllAgree ts us) :
    ∃ b, SpelledBy relation b us ∧ b.bare = a.bare := by
  cases ha with
  | literal hs hr hl =>
    obtain _ | ⟨h₁, h⟩ := h
    obtain ⟨l, hl, hb⟩ := hl.agree h
    exact ⟨_, .literal (h₁.indexRelation?.symm.trans hs) hr hl, congrArg IndexArgument.literal hb⟩
  | cast hs hr hc =>
    obtain _ | ⟨h₁, h⟩ := h
    obtain ⟨c, hc, hb⟩ := hc.agree h
    exact ⟨_, .cast (h₁.indexRelation?.symm.trans hs) hr hc, congrArg IndexArgument.cast hb⟩
  | between hs hl hw hh =>
    obtain _ | ⟨h₁, h⟩ := h
    obtain ⟨vs, _, rfl, hvs, _ | ⟨h₂, h'⟩⟩ := AllAgree.exists_append h
    obtain ⟨low, hl, hb⟩ := hl.agree hvs
    obtain ⟨high, hh, hb'⟩ := hh.agree h'
    refine ⟨_, .between (h₁.indexRelation?.symm.trans hs) hl ((h₂.isKeyword _).symm.trans hw) hh,
      ?_⟩
    simp only [bare, Bounds.bare, hb, hb']

/-- Of a WITH clause the four forms are kept: with or without parentheses, and with or without a
word for the collection. -/
theorem IndexClause.SpelledBy.agree {e : IndexClause} (he : e.SpelledBy ts)
    (h : AllAgree ts us) : ∃ f : IndexClause, f.SpelledBy us ∧ f.bare = e.bare := by
  cases he with
  | plain hb ha =>
    obtain _ | ⟨h₁, h⟩ := h
    obtain ⟨a, ha, he⟩ := ha.agree h
    refine ⟨_, .plain (h₁.isName.symm.trans hb) ha, ?_⟩
    simp only [bare, Name.bare_ofToken_of_agrees h₁ hb, he]
  | paren ho hb ha hc =>
    obtain _ | ⟨h₁, _ | ⟨h₂, h⟩⟩ := h
    obtain ⟨vs, _, rfl, hvs, _ | ⟨h₃, _ | _⟩⟩ := AllAgree.exists_append h
    obtain ⟨a, ha, he⟩ := ha.agree hvs
    refine ⟨_, .paren ((h₁.isMark _).symm.trans ho) (h₂.isName.symm.trans hb) ha
      ((h₃.isMark _).symm.trans hc), ?_⟩
    simp only [bare, Name.bare_ofToken_of_agrees h₂ hb, he]
  | declared hw hb hn ha =>
    obtain _ | ⟨h₁, _ | ⟨h₂, h⟩⟩ := h
    obtain ⟨a, ha, he⟩ := ha.agree h
    refine ⟨_, .declared (h₁.indexCollection?.symm.trans hw) (h₂.isName.symm.trans hb)
      (h₂.beginsIndexRelation.symm.trans hn) ha, ?_⟩
    simp only [bare, Name.bare_ofToken_of_agrees h₂ hb, he]
  | declaredParen hw ho hb ha hc =>
    obtain _ | ⟨h₁, _ | ⟨h₂, _ | ⟨h₃, h⟩⟩⟩ := h
    obtain ⟨vs, _, rfl, hvs, _ | ⟨h₄, _ | _⟩⟩ := AllAgree.exists_append h
    obtain ⟨a, ha, he⟩ := ha.agree hvs
    refine ⟨_, .declaredParen (h₁.indexCollection?.symm.trans hw) ((h₂.isMark _).symm.trans ho)
      (h₃.isName.symm.trans hb) ha ((h₄.isMark _).symm.trans hc), ?_⟩
    simp only [bare, Name.bare_ofToken_of_agrees h₃ hb, he]

/-! ## The clauses before the WITH clause -/

theorem Name.AllSpelledBy.agree {ns : List Name} (hns : AllSpelledBy ns ts) (h : AllAgree ts us) :
    ∃ ms, AllSpelledBy ms us ∧ ms.map (·.bare) = ns.map (·.bare) := by
  induction hns generalizing us with
  | last ht =>
    obtain _ | ⟨h, _ | _⟩ := h
    exact ⟨_, .last (h.isName.symm.trans ht), by simp [bare_ofToken_of_agrees h ht]⟩
  | cons ht hc _ ih =>
    obtain _ | ⟨h₁, _ | ⟨h₂, h⟩⟩ := h
    obtain ⟨ms, hms, hb⟩ := ih h
    exact ⟨_, .cons (h₁.isName.symm.trans ht) ((h₂.isMark _).symm.trans hc) hms,
      by rw [List.map_cons, List.map_cons, bare_ofToken_of_agrees h₁ ht, hb]⟩

theorem SelectList.SpelledBy.agree {s : SelectList} (hs : s.SpelledBy ts) (h : AllAgree ts us) :
    ∃ s' : SelectList, s'.SpelledBy us ∧ s'.bare = s.bare := by
  cases hs with
  | star ht =>
    obtain _ | ⟨h, _ | _⟩ := h
    exact ⟨_, .star ((h.isSign _).symm.trans ht), rfl⟩
  | bins hns =>
    obtain ⟨ms, hms, hb⟩ := hns.agree h
    exact ⟨_, .bins hms, congrArg SelectList.bins hb⟩

/-- The namespace and the set keep their names. -/
theorem Source.SpelledBy.agree {s : Source} (hs : s.SpelledBy ts) (h : AllAgree ts us) :
    ∃ s' : Source, s'.SpelledBy us ∧ s'.bare = s.bare := by
  cases hs with
  | space hw ht =>
    obtain _ | ⟨h₁, _ | ⟨h₂, _ | _⟩⟩ := h
    refine ⟨_, .space ((h₁.isKeyword _).symm.trans hw) (h₂.isName.symm.trans ht), ?_⟩
    simp only [bare, Name.bare_ofToken_of_agrees h₂ ht, Option.map_none]
  | set hw ht hd hu =>
    obtain _ | ⟨h₁, _ | ⟨h₂, _ | ⟨h₃, _ | ⟨h₄, _ | _⟩⟩⟩⟩ := h
    refine ⟨_, .set ((h₁.isKeyword _).symm.trans hw) (h₂.isName.symm.trans ht)
      ((h₃.isMark _).symm.trans hd) (h₄.isName.symm.trans hu), ?_⟩
    simp only [bare, Name.bare_ofToken_of_agrees h₂ ht, Name.bare_ofToken_of_agrees h₄ hu,
      Option.map_some]

/-! ## The statement -/

theorem IndexClause.OptionSpelledBy.agree {o : Option IndexClause} (ho : OptionSpelledBy o ts)
    (h : AllAgree ts us) : ∃ o', OptionSpelledBy o' us ∧ o'.map (·.bare) = o.map (·.bare) := by
  cases ho with
  | none =>
    cases h
    exact ⟨_, .none, rfl⟩
  | some hw he =>
    obtain _ | ⟨h₁, h⟩ := h
    obtain ⟨f, hf, hb⟩ := he.agree h
    exact ⟨_, .some ((h₁.isKeyword _).symm.trans hw) hf, congrArg Option.some hb⟩

theorem WhereClause.OptionSpelledBy.agree {o : Option WhereClause} (ho : OptionSpelledBy o ts)
    (h : AllAgree ts us) : ∃ o', OptionSpelledBy o' us ∧ o'.map (·.bare) = o.map (·.bare) := by
  cases ho with
  | none =>
    cases h
    exact ⟨_, .none, rfl⟩
  | some hw =>
    obtain ⟨v, hv, hb⟩ := hw.agree h
    exact ⟨_, .some hv, congrArg Option.some hb⟩

theorem Statement.EndedBy.agree (hts : EndedBy ts) (h : AllAgree ts us) : EndedBy us := by
  cases hts with
  | nothing =>
    cases h
    exact .nothing
  | semicolon ht =>
    obtain _ | ⟨h, _ | _⟩ := h
    exact .semicolon ((h.isMark _).symm.trans ht)

/-- Tokens that agree with those of a statement spell a statement that is the same up to its tokens.
-/
theorem Statement.SpelledBy.agree {s : Statement} (hs : s.SpelledBy ts) (h : AllAgree ts us) :
    ∃ s' : Statement, s'.SpelledBy us ∧ s'.bare = s.bare := by
  cases hs with
  | mk hw hts hus hvs hws hxs =>
    obtain _ | ⟨hword, h⟩ := h
    obtain ⟨_, us₅, rfl, h, h₅⟩ := AllAgree.exists_append h
    obtain ⟨_, us₄, rfl, h, h₄⟩ := AllAgree.exists_append h
    obtain ⟨_, us₃, rfl, h, h₃⟩ := AllAgree.exists_append h
    obtain ⟨us₁, us₂, rfl, h₁, h₂⟩ := AllAgree.exists_append h
    obtain ⟨selection, hts, hb₁⟩ := hts.agree h₁
    obtain ⟨source, hus, hb₂⟩ := hus.agree h₂
    obtain ⟨index, hvs, hb₃⟩ := hvs.agree h₃
    obtain ⟨condition, hws, hb₄⟩ := hws.agree h₄
    refine ⟨_, .mk ((hword.isKeyword _).symm.trans hw) hts hus hvs hws (hxs.agree h₅), ?_⟩
    simp only [bare, hb₁, hb₂, hb₃, hb₄]

end RecordQuery
