import RecordQuery.Proofs.Statement.Parsing.Literal

/-! # Reading the WHERE clause

The form of a predicate hangs on its first two tokens, and what may follow an entry of the clause
on that entry alone (`WhereEntry.awaits?`). The clause ends where the text does, or before a
semicolon. -/

namespace RecordQuery

open TokenReader

namespace WhereEntry

/-- Whether a predicate is awaited behind the entry, if the entry may stand where one is awaited
or not. -/
def awaits? : WhereEntry → Bool → Option Bool
  | openParen _, true => some true
  | closeParen _, false => some false
  | connective .not, true => some true
  | connective .and, false => some true
  | connective .or, false => some true
  | atomic _, true => some false
  | _, _ => none

/-- Whether an entry may stand where it does hangs on the one before it only. -/
theorem alternates_cons {awaiting : Bool} {e : WhereEntry} {es : List WhereEntry} :
    alternates awaiting (e :: es) = true ↔
      ∃ more, e.awaits? awaiting = some more ∧ alternates more es = true := by
  cases awaiting <;> rcases e with _ | _ | (_ | _ | _) | _ <;> simp [alternates, awaits?]

end WhereEntry

namespace Parse

variable {r r' : TokenReader}

/-! ## Predicates -/

/-- The condition on an element is read from the tokens that spell it. -/
theorem reads_iteration {i : Iteration} :
    Reads iteration r i r' ↔ ∃ ts, i.SpelledBy ts ∧ r.Takes ts r' := by
  unfold iteration
  simp only [reads_bind, reads_mark, reads_name, reads_relation, reads_literal, reads_pure]
  constructor
  · rintro ⟨t₁, r₁, ⟨h₁, k₁⟩, _, r₂, ⟨t₂, rfl, h₂, k₂⟩, rel, r₃, ⟨t₃, h₃, k₃⟩,
      l, r₄, ⟨ts, h₄, k₄⟩, t₅, r₅, ⟨h₅, k₅⟩, rfl, rfl⟩
    exact ⟨_, .mk h₁ h₂ h₃ h₄ h₅, k₁.append (k₂.append (k₃.append (k₄.append k₅)))⟩
  · rintro ⟨_, ⟨h₁, h₂, h₃, h₄, h₅⟩, ht⟩
    obtain ⟨r₁, k₁, ht⟩ := takes_cons_cons.mp ht
    obtain ⟨r₂, k₂, ht⟩ := takes_cons_cons.mp ht
    obtain ⟨r₃, k₃, ht⟩ := takes_head.mp ht
    obtain ⟨r₄, k₄, k₅⟩ := takes_append.mp ht
    exact ⟨_, r₁, ⟨h₁, k₁⟩, _, r₂, ⟨_, rfl, h₂, k₂⟩, _, r₃, ⟨_, h₃, k₃⟩, _, r₄, ⟨_, h₄, k₄⟩,
      _, _, ⟨h₅, k₅⟩, rfl, rfl⟩

theorem reads_modulo {name : MetadataName} {m : Option NumberLiteral} :
    Reads (modulo name) r m r' ↔ ∃ ts, name.ModuloSpelledBy m ts ∧ r.Takes ts r' := by
  unfold modulo
  by_cases hn : name = .digest
  · subst hn
    simp only [beq_self_eq_true, if_true, reads_map, reads_number]
    constructor
    · rintro ⟨n, ⟨ts, hn, ht⟩, rfl⟩
      exact ⟨ts, ⟨rfl, hn⟩, ht⟩
    · cases m with
      | none => exact fun ⟨_, h, _⟩ => absurd rfl h.1
      | some n => exact fun ⟨ts, h, ht⟩ => ⟨n, ⟨ts, h.2, ht⟩, rfl⟩
  · rw [if_neg (by simpa using hn)]
    refine reads_pure.trans ?_
    cases m with
    | none =>
      constructor
      · rintro ⟨-, rfl⟩
        exact ⟨[], ⟨hn, rfl⟩, rfl⟩
      · rintro ⟨_, ⟨-, rfl⟩, rfl⟩
        exact ⟨rfl, rfl⟩
    | some n =>
      constructor
      · exact fun h => nomatch h.1
      · exact fun ⟨_, h, _⟩ => absurd h.1 hn

/-- The rest of a predicate on the fact that the token `first` names. -/
theorem reads_metadataPredicate {first : Token} {name : MetadataName}
    (hf : first.kind = .identifier) (hn : MetadataName.ofText? first.literal = some name)
    (ho : r.peek.isMark .openParen = true) {a : Atomic} :
    Reads (metadataPredicate first name) r a r' ↔
      ∃ ts, a.SpelledBy (first :: ts) ∧ r.Takes ts r' := by
  unfold metadataPredicate
  simp only [reads_bind, reads_mark, reads_modulo, reads_relation, reads_number, reads_pure]
  constructor
  · rintro ⟨t₁, r₁, ⟨h₁, k₁⟩, m, r₂, ⟨ts, h₂, k₂⟩, t₃, r₃, ⟨h₃, k₃⟩, rel, r₄, ⟨t₄, h₄, k₄⟩,
      n, r₅, ⟨us, h₅, k₅⟩, rfl, rfl⟩
    exact ⟨_, .metadata hf hn h₁ h₂ h₃ h₄ h₅,
      k₁.append (k₂.append (k₃.append (k₄.append k₅)))⟩
  · rintro ⟨ts, ha, ht⟩
    have hk := Token.kind_of_isMark ho
    cases ha with
    | metadata _ hn' h₁ h₂ h₃ h₄ h₅ =>
      cases hn.symm.trans hn'
      obtain ⟨r₁, k₁, ht⟩ := takes_head.mp ht
      obtain ⟨r₂, k₂, ht⟩ := takes_append.mp ht
      obtain ⟨r₃, k₃, ht⟩ := takes_cons_cons.mp ht
      obtain ⟨r₄, k₄, k₅⟩ := takes_head.mp ht
      exact ⟨_, r₁, ⟨h₁, k₁⟩, _, r₂, ⟨_, h₂, k₂⟩, _, r₃, ⟨h₃, k₃⟩, _, r₄, ⟨_, h₄, k₄⟩,
        _, _, ⟨_, h₅, k₅⟩, rfl, rfl⟩
    | relation _ hr _ => simp [ht.1.1, hr.1] at hk
    | region _ h | like _ h | iterate _ h | quantified _ h =>
      simp [ht.1.1, Token.kind_of_isKeyword h] at hk

theorem reads_iterationPredicate {bin : Token} {part : CollectionPart} {q : Option Quantifier}
    {a : Atomic} :
    Reads (iterationPredicate bin part q) r a r' ↔ ∃ i, (∃ ts, i.SpelledBy ts ∧ r.Takes ts r') ∧
      a = ⟨.bin (.ofToken bin), .iterate part q, .iteration i, bin⟩ := by
  simp only [iterationPredicate, reads_bind_pure, reads_iteration]

theorem reads_regionPredicate {bin : Token} {rel : RegionRelation} {a : Atomic} :
    Reads (regionPredicate bin rel) r a r' ↔ ∃ c, (∃ ts, c.SpelledBy ts ∧ r.Takes ts r') ∧
      a = ⟨.bin (.ofToken bin), .geo rel, .cast c, bin⟩ := by
  simp only [regionPredicate, reads_bind_pure, reads_cast]

theorem reads_quantifiedPredicate {bin : Token} {q : Quantifier} {a : Atomic} :
    Reads (quantifiedPredicate bin q) r a r' ↔ ∃ part word i ts,
      word.isKeyword part.keyword = true ∧ i.SpelledBy ts ∧
      a = ⟨.bin (.ofToken bin), .iterate part (some q), .iteration i, bin⟩ ∧
      r.Takes (word :: ts) r' := by
  unfold quantifiedPredicate
  rw [reads_peek_bind]
  constructor
  · have key (part : CollectionPart) (h : r.peek.keyword? = some part.keyword)
        (hr : Reads (take >>= fun _ => iterationPredicate bin part (some q)) r a r') :
        ∃ part word i ts, word.isKeyword part.keyword = true ∧ i.SpelledBy ts ∧
          a = ⟨.bin (.ofToken bin), .iterate part (some q), .iteration i, bin⟩ ∧
          r.Takes (word :: ts) r' := by
      obtain ⟨t, m, ht, k₁, hr⟩ := (reads_take_bind (beq_iff_eq.mpr h)).mp hr
      obtain ⟨i, ⟨ts, hi, k₂⟩, rfl⟩ := reads_iterationPredicate.mp hr
      exact ⟨part, t, i, ts, ht, hi, rfl, k₁.append k₂⟩
    split
    · next h => exact key .list h
    · next h => exact key .mapKeys h
    · next h => exact key .mapValues h
    · exact fun h => (not_reads_fail h).elim
  · rintro ⟨part, word, i, ts, hw, hi, rfl, ht⟩
    obtain ⟨m, k₁, k₂⟩ := takes_head.mp ht
    have hk : r.peek.isKeyword part.keyword = true := k₁.1.1 ▸ hw
    cases part with
    | list | mapKeys | mapValues =>
      simp only [Token.keyword?_of_isKeyword hk, CollectionPart.keyword, reads_take_bind hk,
        reads_iterationPredicate]
      exact ⟨_, m, hw, k₁, i, ⟨ts, hi, k₂⟩, rfl⟩

theorem first_of_iteration {i : Iteration} {ts : List Token} (h : i.SpelledBy ts) :
    ∃ t us, ts = t :: us ∧ t.isMark .openParen = true := by
  cases h with
  | mk ho => exact ⟨_, _, rfl, ho⟩

/-- Takes the rest of a predicate on the bin that `bin` names, behind the keyword `k`. -/
def keywordPredicate (bin : Token) : Keyword → Parse Atomic
  | .ANY => quantifiedPredicate bin .any
  | .ALL => quantifiedPredicate bin .all
  | .CONTAINS => do
    if (← peek).isKeyword .CAST then regionPredicate bin .contains
    else iterationPredicate bin .list none
  | .MAPKEYS => iterationPredicate bin .mapKeys none
  | .MAPVALUES => iterationPredicate bin .mapValues none
  | .WITHIN => regionPredicate bin .within
  | .LIKE => likePredicate bin
  | _ => fail (.operatorAfter bin.literal)

/-- Behind each keyword what is read spells the form that the keyword belongs to. -/
theorem spelledBy_of_reads_keywordPredicate {bin word : Token} {k : Keyword}
    (hb : bin.isName = true) (hw : word.isKeyword k = true) {a : Atomic}
    (hr : Reads (keywordPredicate bin k) r a r') :
    ∃ ts, a.SpelledBy (bin :: word :: ts) ∧ r.Takes ts r' := by
  have iterate (part : CollectionPart) (hw : word.isKeyword part.keyword = true)
      (hr : Reads (iterationPredicate bin part none) r a r') :
      ∃ ts, a.SpelledBy (bin :: word :: ts) ∧ r.Takes ts r' := by
    obtain ⟨i, ⟨ts, hi, ht⟩, rfl⟩ := reads_iterationPredicate.mp hr
    exact ⟨ts, .iterate hb hw hi, ht⟩
  have region (rel : RegionRelation) (hw : word.isKeyword rel.keyword = true)
      (hr : Reads (regionPredicate bin rel) r a r') :
      ∃ ts, a.SpelledBy (bin :: word :: ts) ∧ r.Takes ts r' := by
    obtain ⟨c, ⟨ts, hc, ht⟩, rfl⟩ := reads_regionPredicate.mp hr
    exact ⟨ts, .region hb hw hc, ht⟩
  have quantified {q : Quantifier} (hw : word.isKeyword q.keyword = true)
      (hr : Reads (quantifiedPredicate bin q) r a r') :
      ∃ ts, a.SpelledBy (bin :: word :: ts) ∧ r.Takes ts r' := by
    obtain ⟨part, word', i, ts, hw', hi, rfl, ht⟩ := reads_quantifiedPredicate.mp hr
    exact ⟨_, .quantified hb hw hw' hi, ht⟩
  cases k with
  | ANY => exact quantified (q := .any) hw hr
  | ALL => exact quantified (q := .all) hw hr
  | CONTAINS =>
    unfold keywordPredicate at hr
    rw [reads_peek_bind] at hr
    split at hr
    · exact region .contains hw hr
    · exact iterate .list hw hr
  | MAPKEYS => exact iterate .mapKeys hw hr
  | MAPVALUES => exact iterate .mapValues hw hr
  | WITHIN => exact region .within hw hr
  | LIKE =>
    simp only [keywordPredicate, likePredicate, reads_bind, reads_string, reads_pure] at hr
    obtain ⟨_, _, ⟨p, rfl, hp, ht⟩, rfl, rfl⟩ := hr
    exact ⟨_, .like hb hw hp, ht⟩
  | _ => exact (not_reads_fail hr).elim

theorem reads_keywordPredicate {bin word : Token} {k : Keyword} (hb : bin.isName = true)
    (hw : word.isKeyword k = true) {a : Atomic} :
    Reads (keywordPredicate bin k) r a r' ↔
      ∃ ts, a.SpelledBy (bin :: word :: ts) ∧ r.Takes ts r' := by
  refine ⟨spelledBy_of_reads_keywordPredicate hb hw, ?_⟩
  rintro ⟨ts, ha, ht⟩
  cases ha with
  | metadata _ _ ho => exact absurd (Token.kind_of_isMark ho) (by simp [Token.kind_of_isKeyword hw])
  | relation _ hr _ => exact absurd hr.1 (by simp [Token.kind_of_isKeyword hw])
  | @region _ _ rel c _ _ hr hc =>
    obtain rfl := Token.isKeyword_inj hw hr
    have hr : Reads (regionPredicate bin rel) r _ r' :=
      reads_regionPredicate.mpr ⟨c, ⟨ts, hc, ht⟩, rfl⟩
    cases rel with
    | contains =>
      obtain ⟨t, us, rfl, h⟩ := first_of_cast hc
      exact reads_peek_bind.mpr (by rwa [if_pos (ht.1.1 ▸ h)])
    | within => exact hr
  | like _ hr hp =>
    obtain rfl := Token.isKeyword_inj hw hr
    simp only [keywordPredicate, likePredicate, reads_bind, reads_string, reads_pure]
    exact ⟨_, _, ⟨_, rfl, hp, ht⟩, rfl, rfl⟩
  | @iterate _ _ part i _ _ hr hi =>
    obtain rfl := Token.isKeyword_inj hw hr
    have hr : Reads (iterationPredicate bin part none) r _ r' :=
      reads_iterationPredicate.mpr ⟨i, ⟨ts, hi, ht⟩, rfl⟩
    cases part with
    | list =>
      obtain ⟨t, us, rfl, h⟩ := first_of_iteration hi
      have hc : r.peek.isKeyword .CAST = false :=
        Token.isKeyword_of_kind (by simp [ht.1.1, Token.kind_of_isMark h]) _
      exact reads_peek_bind.mpr (by rwa [hc, if_neg Bool.false_ne_true])
    | mapKeys | mapValues => exact hr
  | @quantified _ _ _ part q i _ _ hq hw' hi =>
    obtain rfl := Token.isKeyword_inj hw hq
    have hr : Reads (quantifiedPredicate bin q) r _ r' :=
      reads_quantifiedPredicate.mpr ⟨part, _, i, _, hw', hi, rfl, ht⟩
    cases q with
    | all | any => exact hr

/-- The word behind the name of the bin is taken, and decides what comes next. -/
theorem reads_binPredicate_of_keyword {bin : Token} {k : Keyword}
    (hk : r.peek.isKeyword k = true) {a : Atomic} :
    Reads (binPredicate bin) r a r' ↔
      ∃ t m, t.isKeyword k = true ∧ r.Takes [t] m ∧ Reads (keywordPredicate bin k) m a r' := by
  have ho : ¬ (r.peek.kind == .operator) = true := by simp [Token.kind_of_isKeyword hk]
  unfold binPredicate
  rw [reads_peek_bind, if_neg ho, Token.keyword?_of_isKeyword hk]
  cases k with
  | ANY | ALL | CONTAINS | MAPKEYS | MAPVALUES | WITHIN | LIKE => exact reads_take_bind hk
  | _ => exact ⟨fun h => (not_reads_fail h).elim, fun ⟨_, _, _, _, h⟩ => (not_reads_fail h).elim⟩

/-- The rest of a predicate that begins with the token `bin`, if that is not the name of a fact
about the record. -/
theorem reads_binPredicate {bin : Token} (hb : bin.isName = true)
    (hm : bin.kind = .identifier → r.peek.isMark .openParen = true →
      MetadataName.ofText? bin.literal = none) {a : Atomic} :
    Reads (binPredicate bin) r a r' ↔ ∃ ts, a.SpelledBy (bin :: ts) ∧ r.Takes ts r' := by
  constructor
  · cases hk : r.peek.keyword? with
    | some k =>
      rw [reads_binPredicate_of_keyword (beq_iff_eq.mpr hk)]
      rintro ⟨t, m, ht, k₁, hr⟩
      obtain ⟨ts, ha, k₂⟩ := (reads_keywordPredicate hb ht).mp hr
      exact ⟨_, ha, k₁.append k₂⟩
    | none =>
      unfold binPredicate
      rw [reads_peek_bind, hk]
      split
      · simp only [relationPredicate, reads_bind, reads_relation, reads_literal, reads_pure]
        rintro ⟨rel, m, ⟨t, hr, k₁⟩, l, _, ⟨ts, hl, k₂⟩, rfl, rfl⟩
        exact ⟨_, .relation hb hr hl, k₁.append k₂⟩
      · exact fun h => (not_reads_fail h).elim
  · rintro ⟨_, ha, ht⟩
    have keyword {word : Token} {ts : List Token} {k : Keyword} (hw : word.isKeyword k = true)
        (ha : a.SpelledBy (bin :: word :: ts)) (ht : r.Takes (word :: ts) r') :
        Reads (binPredicate bin) r a r' := by
      obtain ⟨m, k₁, k₂⟩ := takes_head.mp ht
      exact (reads_binPredicate_of_keyword (ht.1.1 ▸ hw)).mpr
        ⟨word, m, hw, k₁, (reads_keywordPredicate hb hw).mpr ⟨ts, ha, k₂⟩⟩
    cases ha with
    | metadata hf hn ho =>
      have := (hm hf (ht.1.1 ▸ ho)).symm.trans hn
      cases this
    | relation _ hr hl =>
      obtain ⟨m, k₁, k₂⟩ := takes_head.mp ht
      unfold binPredicate
      rw [reads_peek_bind, if_pos (by simp [ht.1.1, hr.1])]
      simp only [relationPredicate, reads_bind, reads_relation, reads_literal, reads_pure]
      exact ⟨_, m, ⟨_, hr, k₁⟩, _, _, ⟨_, hl, k₂⟩, rfl, rfl⟩
    | region _ h hc => exact keyword h (.region hb h hc) ht
    | like _ h hp => exact keyword h (.like hb h hp) ht
    | iterate _ h hi => exact keyword h (.iterate hb h hi) ht
    | quantified _ h hw hi => exact keyword h (.quantified hb h hw hi) ht

/-- A predicate is one on a fact just if the name of a fact stands before a parenthesis. -/
theorem reads_predicateAfter {first : Token} (hf : first.isName = true) {a : Atomic} :
    Reads (predicateAfter first) r a r' ↔ ∃ ts, a.SpelledBy (first :: ts) ∧ r.Takes ts r' := by
  unfold predicateAfter
  rw [reads_peek_bind]
  by_cases hd : (first.kind == .identifier && r.peek.isMark .openParen) = true
  · rw [if_pos hd]
    simp only [Bool.and_eq_true, beq_iff_eq] at hd
    cases hn : MetadataName.ofText? first.literal with
    | some name => exact reads_metadataPredicate hd.1 hn hd.2
    | none => exact reads_binPredicate hf fun _ _ => hn
  · rw [if_neg hd]
    exact reads_binPredicate hf fun hk ho => absurd (by simp [hk, ho]) hd

theorem first_of_atomic {a : Atomic} {ts : List Token} (h : a.SpelledBy ts) :
    ∃ t us, ts = t :: us ∧ t.isName = true := by
  cases h with
  | metadata hf => exact ⟨_, _, rfl, by simp [Token.isName, hf]⟩
  | relation hb | region hb | like hb | iterate hb | quantified hb => exact ⟨_, _, rfl, hb⟩

/-! ## The WHERE clause -/

section item

variable {awaiting more b : Bool} {e : WhereEntry}

theorem reads_parenthesis {f : Token → WhereEntry} {k : Mark} (h : r.peek.isMark k = true) :
    Reads (take >>= fun t => Pure.pure (f t, b)) r (e, more) r' ↔
      ∃ t, (t.isMark k = true ∧ r.Takes [t] r') ∧ e = f t ∧ more = b := by
  simp only [reads_bind_pure, reads_take (Token.isFinish_of_isMark h), Prod.mk.injEq]
  constructor
  · rintro ⟨t, ht, he⟩
    exact ⟨t, ⟨ht.1.1 ▸ h, ht⟩, he⟩
  · rintro ⟨t, ⟨-, ht⟩, he⟩
    exact ⟨t, ht, he⟩

theorem reads_connective {c : Connective} (h : r.peek.isKeyword c.keyword = true) :
    Reads (take >>= fun _ => Pure.pure (.connective c, b)) r (e, more) r' ↔
      ∃ t, (t.isKeyword c.keyword = true ∧ r.Takes [t] r') ∧ e = .connective c ∧ more = b := by
  simp only [reads_take_bind h, reads_pure, Prod.mk.injEq]
  constructor
  · rintro ⟨t, m, hk, ht, he, rfl⟩
    exact ⟨t, ⟨hk, ht⟩, he⟩
  · rintro ⟨t, ⟨hk, ht⟩, he⟩
    exact ⟨t, _, hk, ht, he, rfl⟩

theorem reads_predicate :
    Reads (accept Token.isName .predicate >>= fun first => predicateAfter first >>= fun a =>
        Pure.pure (.atomic a, b)) r (e, more) r' ↔
      ∃ a, (∃ ts, a.SpelledBy ts ∧ r.Takes ts r') ∧ e = .atomic a ∧ more = b := by
  simp only [reads_bind (p := accept _ _), reads_accept fun _ => Token.isFinish_of_isName,
    reads_bind_pure, Prod.mk.injEq]
  constructor
  · rintro ⟨t, m, ⟨hn, k₁⟩, a, hr, he⟩
    obtain ⟨ts, ha, k₂⟩ := (reads_predicateAfter hn).mp hr
    exact ⟨a, ⟨_, ha, k₁.append k₂⟩, he⟩
  · rintro ⟨a, ⟨ts, ha, ht⟩, he⟩
    obtain ⟨t, ts, rfl, hn⟩ := first_of_atomic ha
    obtain ⟨m, k₁, k₂⟩ := takes_head.mp ht
    exact ⟨t, m, ⟨hn, k₁⟩, a, (reads_predicateAfter hn).mpr ⟨ts, ha, k₂⟩, he⟩

/-- What is read as an entry is one that is awaited. -/
theorem spelledBy_of_reads_item (hr : Reads (item awaiting) r (e, more) r') :
    e.awaits? awaiting = some more ∧ ∃ ts, e.SpelledBy ts ∧ r.Takes ts r' := by
  unfold item at hr
  rw [reads_peek_bind] at hr
  have connective {c : Connective} {b : Bool} (h : r.peek.isKeyword c.keyword = true)
      (hb : (WhereEntry.connective c).awaits? awaiting = some b)
      (hr : Reads (take >>= fun _ => Pure.pure (.connective c, b)) r (e, more) r') :
      e.awaits? awaiting = some more ∧ ∃ ts, e.SpelledBy ts ∧ r.Takes ts r' := by
    obtain ⟨t, ⟨hk, ht⟩, rfl, rfl⟩ := (reads_connective h).mp hr
    exact ⟨hb, _, .connective hk, ht⟩
  cases awaiting with
  | true =>
    rw [if_pos rfl] at hr
    split at hr
    · next h =>
      obtain ⟨t, ⟨hm, ht⟩, rfl, rfl⟩ := (reads_parenthesis h).mp hr
      exact ⟨rfl, _, .openParen hm, ht⟩
    · split at hr
      · next h => exact connective (c := .not) h rfl hr
      · obtain ⟨a, ⟨ts, ha, ht⟩, rfl, rfl⟩ := reads_predicate.mp hr
        exact ⟨rfl, ts, .atomic ha, ht⟩
  | false =>
    rw [if_neg Bool.false_ne_true] at hr
    split at hr
    · next h =>
      obtain ⟨t, ⟨hm, ht⟩, rfl, rfl⟩ := (reads_parenthesis h).mp hr
      exact ⟨rfl, _, .closeParen hm, ht⟩
    · split at hr
      · next h => exact connective (c := .and) h rfl hr
      · split at hr
        · next h => exact connective (c := .or) h rfl hr
        · exact (not_reads_fail hr).elim

/-- Conversely, an entry that is awaited is read from its tokens, since the first of them tells
which it is. -/
theorem reads_item_of_spelledBy {ts : List Token} (hw : e.awaits? awaiting = some more)
    (he : e.SpelledBy ts) (ht : r.Takes ts r') : Reads (item awaiting) r (e, more) r' := by
  unfold item
  rw [reads_peek_bind]
  cases he with
  | openParen h =>
    cases awaiting <;> cases hw
    have h' : r.peek.isMark .openParen = true := ht.1.1 ▸ h
    rw [if_pos rfl, if_pos h']
    exact (reads_parenthesis h').mpr ⟨_, ⟨h, ht⟩, rfl, rfl⟩
  | closeParen h =>
    cases awaiting <;> cases hw
    have h' : r.peek.isMark .closeParen = true := ht.1.1 ▸ h
    rw [if_neg Bool.false_ne_true, if_pos h']
    exact (reads_parenthesis h').mpr ⟨_, ⟨h, ht⟩, rfl, rfl⟩
  | @connective t c h =>
    have h' : r.peek.isKeyword c.keyword = true := ht.1.1 ▸ h
    have hm (k : Mark) : ¬ r.peek.isMark k = true := fun hk => by
      simpa [Token.kind_of_isKeyword h'] using Token.kind_of_isMark hk
    cases c with
    | not =>
      cases awaiting <;> cases hw
      have hk : r.peek.isKeyword .NOT = true := h'
      rw [if_pos rfl, if_neg (hm _), if_pos hk]
      exact (reads_connective h').mpr ⟨_, ⟨h, ht⟩, rfl, rfl⟩
    | and =>
      cases awaiting <;> cases hw
      have hk : r.peek.isKeyword .AND = true := h'
      rw [if_neg Bool.false_ne_true, if_neg (hm _), if_pos hk]
      exact (reads_connective h').mpr ⟨_, ⟨h, ht⟩, rfl, rfl⟩
    | or =>
      cases awaiting <;> cases hw
      have hk : r.peek.isKeyword .OR = true := h'
      have ha : r.peek.isKeyword .AND = false := Token.isKeyword_of_ne hk (by decide)
      rw [if_neg Bool.false_ne_true, if_neg (hm _), if_neg (by simp [ha]), if_pos hk]
      exact (reads_connective h').mpr ⟨_, ⟨h, ht⟩, rfl, rfl⟩
  | @atomic a _ ha =>
    cases awaiting <;> cases hw
    obtain ⟨t, us, rfl, hn⟩ := first_of_atomic ha
    have hm : t.isMark .openParen = false := Token.isMark_of_isName hn _
    have hk : t.isKeyword .NOT = false := Token.isKeyword_of_isName hn rfl
    rw [if_pos rfl, ht.1.1, if_neg (by simp [hm]), if_neg (by simp [hk])]
    exact reads_predicate.mpr ⟨a, ⟨_, ha, ht⟩, rfl, rfl⟩

theorem reads_item : Reads (item awaiting) r (e, more) r' ↔
    e.awaits? awaiting = some more ∧ ∃ ts, e.SpelledBy ts ∧ r.Takes ts r' :=
  ⟨spelledBy_of_reads_item, fun ⟨hw, _, he, ht⟩ => reads_item_of_spelledBy hw he ht⟩

end item

/-- The next token ends a WHERE clause. -/
def EndsClause (r : TokenReader) : Prop :=
  (r.peek.isFinish || r.peek.isMark .semicolon) = true

theorem reads_items_of_endsClause {awaiting : Bool} {es : List WhereEntry} (h : EndsClause r) :
    Reads (items awaiting) r es r' ↔ awaiting = false ∧ es = [] ∧ r' = r := by
  unfold EndsClause at h
  unfold Reads
  rw [items, if_pos h]
  cases awaiting with
  | true => exact ⟨fun hr => (not_reads_fail hr).elim, fun hr => nomatch hr.1⟩
  | false =>
    refine reads_pure.trans ?_
    simp

theorem reads_items_of_not_endsClause {awaiting : Bool} {es : List WhereEntry}
    (h : ¬ EndsClause r) :
    Reads (items awaiting) r es r' ↔ ∃ e more m es', Reads (item awaiting) r (e, more) m ∧
      Reads (items more) m es' r' ∧ es = e :: es' := by
  unfold EndsClause at h
  unfold Reads
  rw [items, if_neg h]
  split
  · next hi => simp [hi]
  · next e more hi =>
    constructor
    · rintro ⟨hv, hn⟩
      obtain ⟨es', hv', rfl⟩ := Option.map_eq_some_iff.mp hv
      exact ⟨e, more, _, es', ⟨hi, rfl⟩, ⟨hv', hn⟩, rfl⟩
    · rintro ⟨e', more', _, es', ⟨hi', rfl⟩, ⟨hv, hn⟩, rfl⟩
      cases hi.symm.trans hi'
      exact ⟨Option.map_eq_some_iff.mpr ⟨es', hv, rfl⟩, hn⟩

theorem not_endsClause_of_entry {e : WhereEntry} {ts : List Token} (he : e.SpelledBy ts)
    (ht : r.Takes ts r') : ¬ EndsClause r := by
  have key {t : Token} {us : List Token} (ht : r.Takes (t :: us) r')
      (h : t.isMark .semicolon = false) : ¬ EndsClause r := by
    simp [EndsClause, ht.1.1, ht.1.2, h]
  cases he with
  | openParen h | closeParen h => exact key ht (Token.isMark_of_ne h nofun)
  | connective h => exact key ht (Token.isMark_of_kind (by simp [Token.kind_of_isKeyword h]) _)
  | atomic ha =>
    obtain ⟨t, us, rfl, hn⟩ := first_of_atomic ha
    exact key ht (Token.isMark_of_isName hn _)

/-- The entries are read up to the end of the clause, and they alternate. The induction is on the
number of tokens left in one direction, and on the entries in the other. -/
theorem reads_items {awaiting : Bool} {es : List WhereEntry} :
    Reads (items awaiting) r es r' ↔ WhereEntry.alternates awaiting es = true ∧
      (∃ ts, WhereEntry.AllSpelledBy es ts ∧ r.Takes ts r') ∧ EndsClause r' := by
  constructor
  · induction hn : r.remaining using Nat.strongRecOn generalizing r awaiting es with
    | ind n ih =>
      by_cases h : EndsClause r
      · rw [reads_items_of_endsClause h]
        rintro ⟨rfl, rfl, rfl⟩
        exact ⟨rfl, ⟨[], .nil, rfl⟩, h⟩
      · rw [reads_items_of_not_endsClause h]
        rintro ⟨e, more, m, es', hi, hr, rfl⟩
        have hlt : m.remaining < n := hn ▸ hi.2 ▸ consumes_item awaiting r _ hi.1
        obtain ⟨ha, ⟨us, hes, k₂⟩, hend⟩ := ih _ hlt rfl hr
        obtain ⟨hw, ts, he, k₁⟩ := reads_item.mp hi
        exact ⟨WhereEntry.alternates_cons.mpr ⟨more, hw, ha⟩, ⟨_, .cons he hes, k₁.append k₂⟩, hend⟩
  · induction es generalizing r awaiting with
    | nil =>
      rintro ⟨ha, ⟨_, ⟨⟩, rfl⟩, hend⟩
      rw [reads_items_of_endsClause hend]
      cases awaiting with
      | true => cases ha
      | false => exact ⟨rfl, rfl, rfl⟩
    | cons e es ih =>
      rintro ⟨ha, ⟨_, hes, ht⟩, hend⟩
      obtain ⟨more, hw, ha⟩ := WhereEntry.alternates_cons.mp ha
      cases hes with
      | cons he hes =>
        obtain ⟨m, k₁, k₂⟩ := takes_append.mp ht
        rw [reads_items_of_not_endsClause (not_endsClause_of_entry he k₁)]
        exact ⟨e, more, m, es, reads_item.mpr ⟨hw, _, he, k₁⟩, ih ⟨ha, ⟨_, hes, k₂⟩, hend⟩, rfl⟩

/-- A WHERE clause is read from its tokens just if the clause ends behind them. -/
theorem reads_condition {word : Token} (hw : word.isKeyword .WHERE = true) {w : WhereClause} :
    Reads (condition word) r w r' ↔
      ∃ ts, w.SpelledBy (word :: ts) ∧ r.Takes ts r' ∧ EndsClause r' := by
  unfold condition
  rw [reads_bind_pure]
  simp only [reads_items]
  constructor
  · rintro ⟨es, ⟨ha, ⟨ts, hes, ht⟩, hend⟩, rfl⟩
    exact ⟨ts, .mk hw ha hes, ht, hend⟩
  · rintro ⟨ts, hs, ht, hend⟩
    cases hs with
    | mk _ ha hes => exact ⟨_, ⟨ha, ⟨ts, hes, ht⟩, hend⟩, rfl⟩

end Parse

end RecordQuery
