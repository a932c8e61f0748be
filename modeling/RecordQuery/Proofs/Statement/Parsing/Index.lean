import RecordQuery.Proofs.Statement.Parsing.Literal

/-! # Reading the WITH clause

A word for a collection that stands first is the name of the bin just if a relation can begin with
the token behind it. -/

namespace RecordQuery

open TokenReader

namespace Token

variable {t : Token}

theorem kind_of_indexRelation? {relation : IndexLookup} (h : t.indexRelation? = some relation) :
    t.kind = .operator ∨ t.kind = .keyword := by
  unfold indexRelation? at h
  split at h
  · next hs =>
    rcases Bool.or_eq_true_iff.mp hs with hs | hs <;> exact .inl (kind_of_isSign hs)
  · split at h
    · next hk => exact .inr (kind_of_isKeyword hk)
    · split at h
      · next hk => exact .inr (kind_of_isKeyword hk)
      · split at h
        · next hk => exact .inr (kind_of_isKeyword hk)
        · cases h

theorem indexRelation?_of_kind (ho : t.kind ≠ .operator) (hk : t.kind ≠ .keyword) :
    t.indexRelation? = none := by
  simp [indexRelation?, isSign_of_kind ho, isKeyword_of_kind hk]

theorem indexRelation?_of_isSign {o : Sign} (h : t.isSign o = true) (he : o ≠ .equal)
    (hd : o ≠ .doubleEqual) : t.indexRelation? = none := by
  have hk : t.kind ≠ .keyword := by simp [kind_of_isSign h]
  simp [indexRelation?, isSign_of_ne h he, isSign_of_ne h hd, isKeyword_of_kind hk]

theorem indexRelation?_of_isKeyword {k : Keyword} (h : t.isKeyword k = true)
    (hk : k ∉ [Keyword.CONTAINS, .WITHIN, .BETWEEN]) : t.indexRelation? = none := by
  have ho : t.kind ≠ .operator := by simp [kind_of_isKeyword h]
  simp only [List.mem_cons, List.not_mem_nil, or_false, not_or] at hk
  simp [indexRelation?, isSign_of_kind ho, isKeyword_of_ne h hk.1, isKeyword_of_ne h hk.2.1,
    isKeyword_of_ne h hk.2.2]

theorem isFinish_of_indexRelation? {relation : IndexLookup}
    (h : t.indexRelation? = some relation) : t.isFinish = false := by
  rcases kind_of_indexRelation? h with h | h <;> exact isFinish_of_kind h nofun

theorem beginsIndexRelation_of_indexRelation? {relation : IndexLookup}
    (h : t.indexRelation? = some relation) : t.beginsIndexRelation = true := by
  unfold indexRelation? at h
  split at h
  · next hs =>
    rcases Bool.or_eq_true_iff.mp hs with hs | hs <;>
      simp [beginsIndexRelation, kind_of_isSign hs]
  · split at h
    · next hk => simp [beginsIndexRelation, hk]
    · split at h
      · next hk => simp [beginsIndexRelation, hk]
      · split at h
        · next hk => simp [beginsIndexRelation, hk]
        · cases h

theorem beginsIndexRelation_of_isMark {m : Mark} (h : t.isMark m = true) :
    t.beginsIndexRelation = false := by
  have hk := kind_of_isMark h
  simp [beginsIndexRelation, hk, isKeyword_of_kind (t := t) (by simp [hk])]

theorem indexCollection?_of_isMark {m : Mark} (h : t.isMark m = true) :
    t.indexCollection? = none := by
  simp [indexCollection?, keyword?, kind_of_isMark h]

theorem isKeyword_of_indexCollection? {c : IndexCollection} (h : t.indexCollection? = some c) :
    ∃ k, t.isKeyword k = true ∧ k.isReserved = false := by
  unfold indexCollection? at h
  split at h
  · next hk => exact ⟨_, beq_iff_eq.mpr hk, rfl⟩
  · next hk => exact ⟨_, beq_iff_eq.mpr hk, rfl⟩
  · next hk => exact ⟨_, beq_iff_eq.mpr hk, rfl⟩
  · cases h

theorem isName_of_indexCollection? {c : IndexCollection} (h : t.indexCollection? = some c) :
    t.isName = true := by
  obtain ⟨k, hk, hr⟩ := isKeyword_of_indexCollection? h
  simp [isName, kind_of_isKeyword hk, isReserved, keyword?_of_isKeyword hk, hr]

end Token

namespace Parse

variable {r r' : TokenReader}

/-- Two numbers with AND between them. -/
theorem reads_bounds {between : Token} {b : Bounds} :
    Reads (bounds between) r b r' ↔ ∃ low word high ts us, low.SpelledBy ts ∧
      word.isKeyword .AND = true ∧ high.SpelledBy us ∧ b = ⟨low, high, between⟩ ∧
      r.Takes (ts ++ word :: us) r' := by
  unfold bounds
  simp only [reads_bind, reads_number, reads_keyword, reads_pure]
  constructor
  · rintro ⟨low, r₁, ⟨ts, hl, k₁⟩, word, r₂, ⟨hw, k₂⟩, high, _, ⟨us, hh, k₃⟩, rfl, rfl⟩
    exact ⟨low, word, high, ts, us, hl, hw, hh, rfl, k₁.append (k₂.append k₃)⟩
  · rintro ⟨low, word, high, ts, us, hl, hw, hh, rfl, ht⟩
    obtain ⟨r₁, k₁, ht⟩ := takes_append.mp ht
    obtain ⟨r₂, k₂, k₃⟩ := takes_head.mp ht
    exact ⟨low, r₁, ⟨ts, hl, k₁⟩, word, r₂, ⟨hw, k₂⟩, high, _, ⟨us, hh, k₃⟩, rfl, rfl⟩

theorem first_of_indexArgument {relation : IndexLookup} {a : IndexArgument} {ts : List Token}
    (h : a.SpelledBy relation ts) :
    ∃ sign us, ts = sign :: us ∧ sign.indexRelation? = some relation := by
  cases h with
  | literal hs | cast hs | between hs => exact ⟨_, _, rfl, hs⟩

/-- What may stand behind a relation is a range behind BETWEEN, and otherwise a literal or a cast.
-/
theorem reads_indexArgument {sign : Token} {relation : IndexLookup}
    (hs : sign.indexRelation? = some relation) {a : IndexArgument} :
    Reads (indexArgument sign relation) r a r' ↔
      ∃ ts, IndexArgument.SpelledBy relation a (sign :: ts) ∧ r.Takes ts r' := by
  unfold indexArgument
  by_cases hb : relation = .between
  · subst hb
    rw [if_pos (by rfl), reads_bind_pure]
    simp only [reads_bounds]
    constructor
    · rintro ⟨_, ⟨low, word, high, ts, us, hl, hw, hh, rfl, ht⟩, rfl⟩
      exact ⟨_, .between hs hl hw hh, ht⟩
    · rintro ⟨_, ha, ht⟩
      cases ha with
      | literal _ hr | cast _ hr => exact absurd rfl hr
      | between _ hl hw hh => exact ⟨_, ⟨_, _, _, _, _, hl, hw, hh, rfl, ht⟩, rfl⟩
  · rw [if_neg (by simpa using hb), reads_peek_bind]
    constructor
    · split
      · rw [reads_bind_pure]
        simp only [reads_cast]
        rintro ⟨c, ⟨ts, hc, ht⟩, rfl⟩
        exact ⟨ts, .cast hs hb hc, ht⟩
      · rw [reads_bind_pure]
        simp only [reads_literal]
        rintro ⟨l, ⟨ts, hl, ht⟩, rfl⟩
        exact ⟨ts, .literal hs hb hl, ht⟩
    · rintro ⟨_, ha, ht⟩
      cases ha with
      | literal _ _ hl =>
        obtain ⟨t, us, rfl, hk⟩ := first_of_literal hl
        rw [ht.1.1, Token.isKeyword_of_kind hk, if_neg Bool.false_ne_true, reads_bind_pure]
        exact ⟨_, reads_literal.mpr ⟨_, hl, ht⟩, rfl⟩
      | cast _ _ hc =>
        obtain ⟨t, us, rfl, h⟩ := first_of_cast hc
        rw [ht.1.1, if_pos h, reads_bind_pure]
        exact ⟨_, reads_cast.mpr ⟨_, hc, ht⟩, rfl⟩
      | between => exact absurd rfl hb

/-- The relation and what stands behind it are the end of a WITH clause. -/
theorem reads_indexTail {first : Token} {collection : Option IndexCollection} {bin : Name}
    {e : IndexClause} :
    Reads (indexTail first collection bin) r e r' ↔ ∃ relation a ts,
      IndexArgument.SpelledBy relation a ts ∧ e = ⟨collection, bin, relation, a, first⟩ ∧
      r.Takes ts r' := by
  unfold indexTail
  rw [reads_peek_bind]
  constructor
  · split
    · next relation hs =>
      simp only [reads_bind, reads_take (Token.isFinish_of_indexRelation? hs), reads_pure]
      rintro ⟨sign, m, k₁, a, _, hr, rfl, rfl⟩
      rw [k₁.1.1] at hs
      obtain ⟨ts, ha, k₂⟩ := (reads_indexArgument hs).mp hr
      exact ⟨relation, a, _, ha, rfl, k₁.append k₂⟩
    · exact fun h => (not_reads_fail h).elim
  · rintro ⟨relation, a, ts, ha, rfl, ht⟩
    obtain ⟨sign, us, rfl, hs⟩ := first_of_indexArgument ha
    obtain ⟨m, k₁, k₂⟩ := takes_head.mp ht
    have hf := Token.isFinish_of_indexRelation? hs
    rw [← k₁.1.1] at hf
    simp only [k₁.1.1, hs, reads_bind, reads_take hf, reads_pure]
    exact ⟨sign, m, k₁, a, _, (reads_indexArgument hs).mpr ⟨us, ha, k₂⟩, rfl, rfl⟩

/-- The bin and the rest of the clause may stand in parentheses together. -/
theorem reads_indexBody {first : Token} {collection : Option IndexCollection} {e : IndexClause} :
    Reads (indexBody first collection) r e r' ↔
      ∃ bin relation a ts, bin.isName = true ∧ IndexArgument.SpelledBy relation a ts ∧
        e = ⟨collection, .ofToken bin, relation, a, first⟩ ∧
        (r.Takes (bin :: ts) r' ∨
          ∃ opening closing, opening.isMark .openParen = true ∧ closing.isMark .closeParen = true ∧
            r.Takes (opening :: bin :: (ts ++ [closing])) r') := by
  unfold indexBody
  rw [reads_peek_bind]
  constructor
  · split
    · next ho =>
      simp only [reads_bind, reads_take (Token.isFinish_of_isMark ho), reads_name, reads_indexTail,
        reads_mark, reads_pure]
      rintro ⟨t, r₁, k₁, _, r₂, ⟨bin, rfl, hb, k₂⟩, _, r₃, ⟨relation, a, ts, ha, rfl, k₃⟩,
        u, r₄, ⟨hc, k₄⟩, rfl, rfl⟩
      exact ⟨bin, relation, a, ts, hb, ha, rfl, .inr ⟨t, u, k₁.1.1 ▸ ho, hc,
        k₁.append (k₂.append (k₃.append k₄))⟩⟩
    · simp only [reads_bind, reads_name, reads_indexTail]
      rintro ⟨_, r₁, ⟨bin, rfl, hb, k₁⟩, relation, a, ts, ha, rfl, k₂⟩
      exact ⟨bin, relation, a, ts, hb, ha, rfl, .inl (k₁.append k₂)⟩
  · rintro ⟨bin, relation, a, ts, hb, ha, rfl, ht | ⟨t, u, ho, hc, ht⟩⟩
    · obtain ⟨r₁, k₁, k₂⟩ := takes_head.mp ht
      rw [k₁.1.1, Token.isMark_of_isName hb, if_neg Bool.false_ne_true]
      simp only [reads_bind, reads_name, reads_indexTail]
      exact ⟨_, r₁, ⟨bin, rfl, hb, k₁⟩, relation, a, ts, ha, rfl, k₂⟩
    · obtain ⟨r₁, k₁, ht⟩ := takes_cons_cons.mp ht
      obtain ⟨r₂, k₂, ht⟩ := takes_head.mp ht
      obtain ⟨r₃, k₃, k₄⟩ := takes_append.mp ht
      have hf := Token.isFinish_of_isMark ho
      rw [← k₁.1.1] at hf
      simp only [k₁.1.1, ho, if_true, reads_bind, reads_take hf, reads_name, reads_indexTail,
        reads_mark, reads_pure]
      exact ⟨t, r₁, k₁, _, r₂, ⟨bin, rfl, hb, k₂⟩, _, r₃, ⟨relation, a, ts, ha, rfl, k₃⟩,
        u, _, ⟨hc, k₄⟩, rfl, rfl⟩

/-- Without a word for the collection the clause begins with its bin or a parenthesis. -/
theorem reads_index_of_none (hc : r.peek.indexCollection? = none) {e : IndexClause} :
    Reads index r e r' ↔ ∃ ts, e.SpelledBy ts ∧ r.Takes ts r' := by
  unfold index
  rw [reads_peek_bind, hc]
  simp only [reads_indexBody]
  constructor
  · rintro ⟨bin, relation, a, ts, hb, ha, rfl, ht | ⟨t, u, ho, hcl, ht⟩⟩
    · obtain rfl := ht.1.1
      exact ⟨_, .plain hb ha, ht⟩
    · obtain rfl := ht.1.1
      exact ⟨_, .paren ho hb ha hcl, ht⟩
  · rintro ⟨_, he, ht⟩
    cases he with
    | plain hb ha => exact ⟨_, _, _, _, hb, ha, by rw [ht.1.1], .inl ht⟩
    | paren ho hb ha hcl =>
      exact ⟨_, _, _, _, hb, ha, by rw [ht.1.1], .inr ⟨_, _, ho, hcl, ht⟩⟩
    | declared hw | declaredParen hw =>
      rw [ht.1.1, hw] at hc
      cases hc

/-- Behind a word that can say what the index is over, the clause has a relation if the word is the
name of its bin. -/
theorem reads_index_of_some {collection : IndexCollection}
    (hc : r.peek.indexCollection? = some collection) {e : IndexClause} :
    Reads index r e r' ↔ ∃ word m, r.Takes [word] m ∧
      ((m.peek.beginsIndexRelation = true ∧ Reads (indexTail word none (.ofToken word)) m e r') ∨
        (m.peek.beginsIndexRelation = false ∧ Reads (indexBody word (some collection)) m e r')) := by
  have hn := Token.isName_of_indexCollection? hc
  unfold index
  rw [reads_peek_bind, hc, reads_bind]
  simp only [reads_take (Token.isFinish_of_isName hn), reads_peek_bind]
  constructor
  · rintro ⟨word, m, k, hr⟩
    obtain rfl := k.1.1
    refine ⟨_, m, k, ?_⟩
    split at hr
    · next h => exact .inl ⟨h, hr⟩
    · next h => exact .inr ⟨by simpa using h, hr⟩
  · rintro ⟨word, m, k, ⟨h, hr⟩ | ⟨h, hr⟩⟩
    · obtain rfl := k.1.1
      exact ⟨_, m, k, by rwa [if_pos h]⟩
    · obtain rfl := k.1.1
      exact ⟨_, m, k, by rwa [if_neg (by simp [h])]⟩

/-- A WITH clause is read from the tokens that spell it, and no more are needed to tell its end. -/
theorem reads_index {e : IndexClause} :
    Reads index r e r' ↔ ∃ ts, e.SpelledBy ts ∧ r.Takes ts r' := by
  cases hc : r.peek.indexCollection? with
  | none => exact reads_index_of_none hc
  | some collection =>
    rw [reads_index_of_some hc]
    constructor
    · rintro ⟨word, m, k₁, ⟨-, hr⟩ | ⟨hb, hr⟩⟩
      · obtain rfl := k₁.1.1
        obtain ⟨relation, a, ts, ha, rfl, k₂⟩ := reads_indexTail.mp hr
        exact ⟨_, .plain (Token.isName_of_indexCollection? hc) ha, k₁.append k₂⟩
      · obtain rfl := k₁.1.1
        obtain ⟨bin, relation, a, ts, hb', ha, rfl, k₂ | ⟨t, u, ho, hcl, k₂⟩⟩ :=
          reads_indexBody.mp hr
        · exact ⟨_, .declared hc hb' (k₂.1.1 ▸ hb) ha, k₁.append k₂⟩
        · exact ⟨_, .declaredParen hc ho hb' ha hcl, k₁.append k₂⟩
    · rintro ⟨_, he, ht⟩
      cases he with
      | plain hb ha =>
        obtain ⟨m, k₁, k₂⟩ := takes_head.mp ht
        obtain ⟨sign, us, rfl, hs⟩ := first_of_indexArgument ha
        have hsign : m.peek.beginsIndexRelation = true :=
          k₂.1.1 ▸ Token.beginsIndexRelation_of_indexRelation? hs
        exact ⟨_, m, k₁, .inl ⟨hsign, reads_indexTail.mpr ⟨_, _, _, ha, rfl, k₂⟩⟩⟩
      | paren ho =>
        rw [ht.1.1, Token.indexCollection?_of_isMark ho] at hc
        cases hc
      | declared hw hb hr ha =>
        obtain ⟨m, k₁, k₂⟩ := takes_cons_cons.mp ht
        rw [k₁.1.1] at hc
        cases hw.symm.trans hc
        have hbin : m.peek.beginsIndexRelation = false := k₂.1.1 ▸ hr
        exact ⟨_, m, k₁, .inr ⟨hbin, reads_indexBody.mpr ⟨_, _, _, _, hb, ha, rfl, .inl k₂⟩⟩⟩
      | declaredParen hw ho hb ha hcl =>
        obtain ⟨m, k₁, k₂⟩ := takes_cons_cons.mp ht
        rw [k₁.1.1] at hc
        cases hw.symm.trans hc
        have hopening : m.peek.beginsIndexRelation = false :=
          k₂.1.1 ▸ Token.beginsIndexRelation_of_isMark ho
        exact ⟨_, m, k₁, .inr ⟨hopening,
          reads_indexBody.mpr ⟨_, _, _, _, hb, ha, rfl, .inr ⟨_, _, ho, hcl, k₂⟩⟩⟩⟩

end Parse

end RecordQuery
