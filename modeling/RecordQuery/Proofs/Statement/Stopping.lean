import RecordQuery.Proofs.Statement.Parsing.Index

/-! # Where reading stops

A function that reads has taken tokens when it ends, and none of them opens a clause. If it has
failed, it has reported the token behind them, and no other. So what follows a clause that cannot
be read is found again. -/

namespace RecordQuery

open TokenReader

/-- The clause that the keyword opens. -/
def Keyword.clause? : Keyword → Option Clause
  | .SELECT => some .select
  | .FROM => some .source
  | .WITH => some .index
  | .WHERE => some .condition
  | _ => none

/-- The clause that the token opens. -/
def Token.clause? (t : Token) : Option Clause := t.keyword?.bind Keyword.clause?

namespace Token

variable {t : Token}

theorem clause?_of_kind (h : t.kind ≠ .keyword) : t.clause? = none := by
  simp [clause?, keyword?, h]

theorem clause?_of_isKeyword {k : Keyword} (h : t.isKeyword k = true) : t.clause? = k.clause? := by
  rw [clause?, keyword?_of_isKeyword h]
  rfl

theorem clause?_of_isMark {m : Mark} (h : t.isMark m = true) : t.clause? = none :=
  clause?_of_kind (by simp [kind_of_isMark h])

theorem clause?_of_isSign {o : Sign} (h : t.isSign o = true) : t.clause? = none :=
  clause?_of_kind (by simp [kind_of_isSign h])

theorem clause?_of_isNumber (h : t.isNumber = true) : t.clause? = none := by
  rcases kind_of_isNumber h with h | h <;> exact clause?_of_kind (by simp [h])

/-- What relates a bin to an argument in a WITH clause opens no clause. -/
theorem clause?_of_indexRelation? {relation : IndexLookup}
    (h : t.indexRelation? = some relation) : t.clause? = none := by
  unfold indexRelation? at h
  split at h
  · next hs =>
    rcases Bool.or_eq_true_iff.mp hs with hs | hs <;> exact clause?_of_isSign hs
  split at h
  · next hk => exact clause?_of_isKeyword hk
  split at h
  · next hk => exact clause?_of_isKeyword hk
  split at h
  · next hk => exact clause?_of_isKeyword hk
  · cases h

/-- The words that open clauses are reserved, so no name is one of them. -/
theorem isReserved_of_clause? {k : Keyword} {c : Clause} (h : k.clause? = some c) :
    k.isReserved = true := by
  cases k <;> first | rfl | cases h

theorem clause?_of_isName (h : t.isName = true) : t.clause? = none := by
  unfold clause?
  cases hk : t.keyword? with
  | none => rfl
  | some k =>
    cases hc : k.clause? with
    | none => exact hc
    | some c =>
      have hn := isKeyword_of_isName h (isReserved_of_clause? hc)
      rw [isKeyword, hk] at hn
      simp at hn

/-- A clause is found again at each of the words that open it, save SELECT. -/
theorem opensClause_of_clause? (h : t.clause? = none) : t.opensClause = false := by
  unfold clause? at h
  unfold opensClause
  cases hk : t.keyword? with
  | none => rfl
  | some k =>
    rw [hk] at h
    cases k <;> first | rfl | cases h

theorem opensClause_of_isKeyword {k : Keyword} (h : t.isKeyword k = true) :
    t.opensClause = k.opensClause := by
  rw [opensClause, keyword?_of_isKeyword h]

end Token

namespace TokenReader

theorem takes_nil (r : TokenReader) : r.Takes [] r := rfl

theorem takes_peek {r : TokenReader} (hf : r.peek.isFinish = false) : r.Takes [r.peek] r.advance :=
  ⟨⟨rfl, hf⟩, rfl⟩

end TokenReader

namespace Parse

variable {r r' m : TokenReader} {ts : List Token} {o : Option α}

/-- What is left when tokens that open no clause have been taken: a result, or one report about
the token behind them. -/
inductive Leaves (r : TokenReader) : Option α → TokenReader → Prop
  | read {a : α} {ts : List Token} {r' : TokenReader} (ht : r.Takes ts r')
    (ho : ∀ t ∈ ts, t.clause? = none) : Leaves r (some a) r'
  | refused {what : Expectation} {ts : List Token} {m : TokenReader} (ht : r.Takes ts m)
    (ho : ∀ t ∈ ts, t.clause? = none) :
    Leaves r none (m.report (.expected what m.peek) m.peek.position)

/-- The function stops with a result, or at a token that it does not allow. -/
def Stops (p : Parse α) (r : TokenReader) : Prop := Leaves r (p r).value (p r).next

theorem Leaves.of_value (a : α) : Leaves r (some a) r :=
  .read r.takes_nil (List.forall_mem_nil _)

theorem Leaves.of_refusal (what : Expectation) :
    Leaves r (none : Option α) (r.report (.expected what r.peek) r.peek.position) :=
  .refused r.takes_nil (List.forall_mem_nil _)

/-- What is left behind tokens that open no clause is left by the reader before them. -/
theorem Leaves.after (h : Leaves m o r') (ht : r.Takes ts m)
    (ho : ∀ t ∈ ts, t.clause? = none) : Leaves r o r' := by
  cases h with
  | read ht' ho' =>
    exact .read (ht.append ht') fun t hm => (List.mem_append.mp hm).elim (ho t) (ho' t)
  | refused ht' ho' =>
    exact .refused (ht.append ht') fun t hm => (List.mem_append.mp hm).elim (ho t) (ho' t)

/-- A result is no end: what is read behind it may be left too. -/
theorem Leaves.trans {b : β} (h : Leaves r (some b) m) (h' : Leaves m o r') : Leaves r o r' := by
  cases h with
  | read ht ho => exact h'.after ht ho

theorem Leaves.map (h : Leaves r o r') (f : α → β) : Leaves r (o.map f) r' := by
  cases h with
  | read ht ho => exact .read ht ho
  | refused ht ho => exact .refused ht ho

/-- A failure passes on what is left, whatever it was to be a result for. -/
theorem Leaves.of_none (h : Leaves r (none : Option β) r') : Leaves r (none : Option α) r' := by
  cases h with
  | refused ht ho => exact .refused ht ho

/-! ## The functions that others are made of -/

theorem stops_pure (a : α) (r : TokenReader) : Stops (Pure.pure a) r :=
  Leaves.of_value a

theorem stops_fail (what : Expectation) (r : TokenReader) : Stops (fail what : Parse α) r :=
  Leaves.of_refusal what

/-- The step of all that follows: of two functions in a row the second has to stop wherever the
first leaves a result for it. -/
theorem stops_bind {p : Parse α} {f : α → Parse β} (hp : Stops p r)
    (hf : ∀ a m, Reads p r a m → Stops (f a) m) : Stops (p >>= f) r := by
  unfold Stops at hp ⊢
  rw [value_bind]
  cases ha : (p r).value with
  | none =>
    rw [next_bind_of_none ha, Option.bind_none]
    rw [ha] at hp
    exact hp.of_none
  | some a =>
    rw [next_bind_of_some ha, Option.bind_some]
    rw [ha] at hp
    exact hp.trans (hf a _ ⟨ha, rfl⟩)

theorem stops_peek_bind {f : Token → Parse α} (h : Stops (f r.peek) r) : Stops (peek >>= f) r := h

/-- A token is taken only when it has been looked at, and found to be no end and to open no clause.
-/
theorem stops_take (hf : r.peek.isFinish = false) (ho : r.peek.clause? = none) :
    Stops take r :=
  (Leaves.of_value r.peek).after (takes_peek hf) (by simpa using ho)

theorem stops_take_bind {f : Token → Parse α} (hf : r.peek.isFinish = false)
    (ho : r.peek.clause? = none) (h : Stops (f r.peek) r.advance) : Stops (take >>= f) r := by
  refine stops_bind (stops_take hf ho) ?_
  rintro _ _ ⟨⟨⟩, rfl⟩
  exact h

/-- A function for one token stops before it or behind it, if no token that it allows opens a
clause. -/
theorem stops_accept {test : Token → Bool} (what : Expectation) (r : TokenReader)
    (h : ∀ t, test t = true → t.isFinish = false ∧ t.clause? = none) :
    Stops (accept test what) r := by
  refine stops_peek_bind ?_
  split
  · next ht => exact stops_take (h _ ht).1 (h _ ht).2
  · exact stops_fail what r

theorem stops_keyword {k : Keyword} (hk : k.clause? = none) (r : TokenReader) :
    Stops (keyword k) r :=
  stops_accept _ r fun _ h => ⟨Token.isFinish_of_isKeyword h,
    (Token.clause?_of_isKeyword h).trans hk⟩

theorem stops_mark (m : Mark) (r : TokenReader) : Stops (mark m) r :=
  stops_accept _ r fun _ h => ⟨Token.isFinish_of_isMark h, Token.clause?_of_isMark h⟩

theorem stops_acceptName (what : Expectation) (r : TokenReader) :
    Stops (accept Token.isName what) r :=
  stops_accept _ r fun _ h => ⟨Token.isFinish_of_isName h, Token.clause?_of_isName h⟩

theorem stops_name (what : Expectation) (r : TokenReader) : Stops (name what) r :=
  stops_bind (stops_acceptName what r) fun _ _ _ => stops_pure _ _

theorem stops_string (what : Expectation) (r : TokenReader) : Stops (string what) r := by
  refine stops_bind (stops_accept _ r fun t h => ?_) fun _ _ _ => stops_pure _ _
  have hk : t.kind = .string := beq_iff_eq.mp h
  exact ⟨Token.isFinish_of_kind hk nofun, Token.clause?_of_kind (by simp [hk])⟩

/-! ## Literals, casts and relations -/

/-- A number is at most a sign and digits. -/
theorem stops_number (what : Expectation) (r : TokenReader) : Stops (number what) r := by
  have hd (r : TokenReader) : Stops (accept Token.isNumber what) r :=
    stops_accept _ r fun _ h => ⟨Token.isFinish_of_isNumber h, Token.clause?_of_isNumber h⟩
  refine stops_peek_bind ?_
  split
  · next hs =>
    have hk := Token.kind_of_isNumberSign hs
    refine stops_take_bind (Token.isFinish_of_isNumberSign hs)
      (Token.clause?_of_kind (by simp [hk])) ?_
    exact stops_bind (hd _) fun _ _ _ => stops_pure _ _
  · exact stops_bind (hd _) fun _ _ _ => stops_pure _ _

theorem stops_literal (r : TokenReader) : Stops literal r := by
  refine stops_peek_bind ?_
  split
  · next hs =>
    have hk : r.peek.kind = .string := beq_iff_eq.mp hs
    exact stops_take_bind (Token.isFinish_of_kind hk nofun)
      (Token.clause?_of_kind (by simp [hk])) (stops_pure _ _)
  · split
    · exact stops_bind (stops_number _ r) fun _ _ _ => stops_pure _ _
    · exact stops_fail _ r

theorem stops_relation (r : TokenReader) : Stops relation r := by
  unfold relation
  refine stops_peek_bind ?_
  split
  · next rel h =>
    have hk : r.peek.kind = .operator := by
      by_cases hk : r.peek.kind = .operator
      · exact hk
      · simp [hk] at h
    exact stops_take_bind (Token.isFinish_of_kind hk nofun)
      (Token.clause?_of_kind (by simp [hk])) (stops_pure _ _)
  · exact stops_fail _ r

/-- A cast stops at the first of its tokens that is not the one expected there. -/
theorem stops_cast (r : TokenReader) : Stops cast r := by
  refine stops_bind (stops_keyword rfl r) fun _ _ _ => ?_
  refine stops_bind (stops_mark _ _) fun _ _ _ => ?_
  refine stops_bind (stops_string _ _) fun _ _ _ => ?_
  refine stops_bind (stops_keyword rfl _) fun _ _ _ => ?_
  refine stops_bind (stops_name _ _) fun _ _ _ => ?_
  exact stops_bind (stops_mark _ _) fun _ _ _ => stops_pure _ _

/-! ## The WITH clause -/

theorem stops_bounds (between : Token) (r : TokenReader) : Stops (bounds between) r := by
  refine stops_bind (stops_number _ r) fun _ _ _ => ?_
  refine stops_bind (stops_keyword rfl _) fun _ _ _ => ?_
  exact stops_bind (stops_number _ _) fun _ _ _ => stops_pure _ _

theorem stops_indexArgument (sign : Token) (relation : IndexLookup) (r : TokenReader) :
    Stops (indexArgument sign relation) r := by
  unfold indexArgument
  split
  · exact stops_bind (stops_bounds _ r) fun _ _ _ => stops_pure _ _
  · refine stops_peek_bind ?_
    split
    · exact stops_bind (stops_cast r) fun _ _ _ => stops_pure _ _
    · exact stops_bind (stops_literal r) fun _ _ _ => stops_pure _ _

theorem stops_indexTail (first : Token) (collection : Option IndexCollection) (bin : Name)
    (r : TokenReader) : Stops (indexTail first collection bin) r := by
  unfold indexTail
  refine stops_peek_bind ?_
  split
  · next relation hs =>
    have ho : r.peek.clause? = none := Token.clause?_of_indexRelation? hs
    refine stops_take_bind (Token.isFinish_of_indexRelation? hs) ho ?_
    exact stops_bind (stops_indexArgument _ _ _) fun _ _ _ => stops_pure _ _
  · exact stops_fail _ r

/-- The bin of a WITH clause may stand in parentheses, together with what is asked of it. -/
theorem stops_indexBody (first : Token) (collection : Option IndexCollection) (r : TokenReader) :
    Stops (indexBody first collection) r := by
  unfold indexBody
  refine stops_peek_bind ?_
  split
  · next hm =>
    refine stops_take_bind (Token.isFinish_of_isMark hm) (Token.clause?_of_isMark hm) ?_
    refine stops_bind (stops_name _ _) fun _ _ _ => ?_
    refine stops_bind (stops_indexTail _ _ _ _) fun _ _ _ => ?_
    exact stops_bind (stops_mark _ _) fun _ _ _ => stops_pure _ _
  · exact stops_bind (stops_name _ r) fun _ _ _ => stops_indexTail _ _ _ _

/-- The WITH clause may begin with a word for a collection, which is then taken, or with the name of
its bin. -/
theorem stops_index (r : TokenReader) : Stops index r := by
  unfold index
  refine stops_peek_bind ?_
  split
  · next collection hc =>
    have hn := Token.isName_of_indexCollection? hc
    refine stops_take_bind (Token.isFinish_of_isName hn) (Token.clause?_of_isName hn) ?_
    refine stops_peek_bind ?_
    split
    · exact stops_indexTail _ _ _ _
    · exact stops_indexBody _ _ _
  · exact stops_indexBody _ _ r

/-! ## The WHERE clause -/

theorem stops_iteration (r : TokenReader) : Stops iteration r := by
  refine stops_bind (stops_mark _ r) fun _ _ _ => ?_
  refine stops_bind (stops_name _ _) fun _ _ _ => ?_
  refine stops_bind (stops_relation _) fun _ _ _ => ?_
  refine stops_bind (stops_literal _) fun _ _ _ => ?_
  exact stops_bind (stops_mark _ _) fun _ _ _ => stops_pure _ _

theorem stops_modulo (name : MetadataName) (r : TokenReader) : Stops (modulo name) r := by
  unfold modulo
  split
  · exact stops_bind (stops_number _ r) fun _ _ _ => stops_pure _ _
  · exact stops_pure _ r

theorem stops_metadataPredicate (first : Token) (name : MetadataName) (r : TokenReader) :
    Stops (metadataPredicate first name) r := by
  refine stops_bind (stops_mark _ r) fun _ _ _ => ?_
  refine stops_bind (stops_modulo _ _) fun _ _ _ => ?_
  refine stops_bind (stops_mark _ _) fun _ _ _ => ?_
  refine stops_bind (stops_relation _) fun _ _ _ => ?_
  exact stops_bind (stops_number _ _) fun _ _ _ => stops_pure _ _

theorem stops_iterationPredicate (bin : Token) (part : CollectionPart) (q : Option Quantifier)
    (r : TokenReader) : Stops (iterationPredicate bin part q) r :=
  stops_bind (stops_iteration r) fun _ _ _ => stops_pure _ _

theorem stops_regionPredicate (bin : Token) (relation : RegionRelation) (r : TokenReader) :
    Stops (regionPredicate bin relation) r :=
  stops_bind (stops_cast r) fun _ _ _ => stops_pure _ _

theorem stops_relationPredicate (bin : Token) (r : TokenReader) :
    Stops (relationPredicate bin) r := by
  refine stops_bind (stops_relation r) fun _ _ _ => ?_
  exact stops_bind (stops_literal _) fun _ _ _ => stops_pure _ _

theorem stops_likePredicate (bin : Token) (r : TokenReader) : Stops (likePredicate bin) r :=
  stops_bind (stops_string _ r) fun _ _ _ => stops_pure _ _

/-- A word that has been looked at is taken, and opens no clause. -/
theorem stops_keyword?_bind {k : Keyword} {f : Token → Parse α} (hk : r.peek.keyword? = some k)
    (ho : k.clause? = none) (h : ∀ t m, Stops (f t) m) : Stops (take >>= f) r :=
  stops_take_bind (Token.isFinish_of_isKeyword (beq_iff_eq.mpr hk))
    ((Token.clause?_of_isKeyword (beq_iff_eq.mpr hk)).trans ho) (h _ _)

theorem stops_quantifiedPredicate (bin : Token) (q : Quantifier) (r : TokenReader) :
    Stops (quantifiedPredicate bin q) r := by
  unfold quantifiedPredicate
  refine stops_peek_bind ?_
  split
  · next hk => exact stops_keyword?_bind hk rfl fun _ _ => stops_iterationPredicate _ _ _ _
  · next hk => exact stops_keyword?_bind hk rfl fun _ _ => stops_iterationPredicate _ _ _ _
  · next hk => exact stops_keyword?_bind hk rfl fun _ _ => stops_iterationPredicate _ _ _ _
  · exact stops_fail _ r

/-- What a predicate asks of a bin is told by the word behind the name of the bin. -/
theorem stops_binPredicate (bin : Token) (r : TokenReader) : Stops (binPredicate bin) r := by
  unfold binPredicate
  refine stops_peek_bind ?_
  split
  · exact stops_relationPredicate bin r
  split
  · next hk => exact stops_keyword?_bind hk rfl fun _ _ => stops_quantifiedPredicate _ _ _
  · next hk => exact stops_keyword?_bind hk rfl fun _ _ => stops_quantifiedPredicate _ _ _
  · next hk =>
    refine stops_keyword?_bind hk rfl fun _ m => ?_
    refine stops_peek_bind ?_
    split
    · exact stops_regionPredicate _ _ m
    · exact stops_iterationPredicate _ _ _ m
  · next hk => exact stops_keyword?_bind hk rfl fun _ _ => stops_iterationPredicate _ _ _ _
  · next hk => exact stops_keyword?_bind hk rfl fun _ _ => stops_iterationPredicate _ _ _ _
  · next hk => exact stops_keyword?_bind hk rfl fun _ _ => stops_regionPredicate _ _ _
  · next hk => exact stops_keyword?_bind hk rfl fun _ _ => stops_likePredicate _ _
  · exact stops_fail _ r

theorem stops_predicateAfter (first : Token) (r : TokenReader) :
    Stops (predicateAfter first) r := by
  unfold predicateAfter
  refine stops_peek_bind ?_
  split
  · exact stops_metadataPredicate _ _ r
  · exact stops_binPredicate _ r

/-- Which entries are allowed depends on whether an operand is awaited; in either case the first
token tells which it is. -/
theorem stops_item (awaiting : Bool) (r : TokenReader) : Stops (item awaiting) r := by
  have mark {m : Mark} (h : r.peek.isMark m = true) {f : Token → WhereEntry × Bool} :
      Stops (take >>= fun t => Pure.pure (f t)) r :=
    stops_take_bind (Token.isFinish_of_isMark h) (Token.clause?_of_isMark h) (stops_pure _ _)
  have word {k : Keyword} (h : r.peek.isKeyword k = true) (hk : k.clause? = none)
      {f : Token → WhereEntry × Bool} : Stops (take >>= fun t => Pure.pure (f t)) r :=
    stops_take_bind (Token.isFinish_of_isKeyword h) ((Token.clause?_of_isKeyword h).trans hk)
      (stops_pure _ _)
  unfold item
  show Stops (if awaiting then _ else _) r
  split
  · split
    · next h => exact mark h
    split
    · next h => exact word h rfl
    · refine stops_bind (stops_acceptName _ r) fun _ _ _ => ?_
      exact stops_bind (stops_predicateAfter _ _) fun _ _ _ => stops_pure _ _
  · split
    · next h => exact mark h
    split
    · next h => exact word h rfl
    split
    · next h => exact word h rfl
    · exact stops_fail _ r

/-- The induction is on the number of tokens that are left, since each entry takes one at least. -/
theorem stops_items (awaiting : Bool) (r : TokenReader) : Stops (items awaiting) r := by
  induction hn : r.remaining using Nat.strongRecOn generalizing r awaiting with
  | ind n ih =>
    unfold Stops
    rw [items]
    split
    · cases awaiting with
      | true => exact stops_fail .predicate r
      | false => exact stops_pure [] r
    · have hi := stops_item awaiting r
      unfold Stops at hi
      split
      · next h =>
        rw [h] at hi
        exact hi.of_none
      · next e more h =>
        have hlt : (item awaiting r).next.remaining < n := hn ▸ consumes_item awaiting r _ h
        have hr : Leaves _ _ _ := ih _ hlt more _ rfl
        rw [h] at hi
        exact hi.trans (hr.map _)

theorem stops_condition (token : Token) (r : TokenReader) : Stops (condition token) r :=
  stops_bind (stops_items true r) fun _ _ _ => stops_pure _ _

/-! ## The clauses before -/

/-- Names and commas are taken in turn until a name has no comma behind it. -/
theorem stops_binNames (r : TokenReader) : Stops binNames r := by
  induction hn : r.remaining using Nat.strongRecOn generalizing r with
  | ind n ih =>
    unfold Stops
    rw [binNames]
    split
    · next h =>
      have hf := Token.isFinish_of_isName h
      have ho := Token.clause?_of_isName h
      have ht := takes_peek hf
      dsimp only
      split
      · next hc =>
        have hlt : r.advance.advance.remaining < n :=
          hn ▸ Nat.lt_of_le_of_lt r.advance.remaining_advance_le (r.remaining_advance_lt hf)
        have hr : Leaves _ _ _ := ih _ hlt _ rfl
        have ht' := takes_peek (Token.isFinish_of_isMark hc)
        exact (hr.map _).after (ht.append ht') (by simp [ho, Token.clause?_of_isMark hc])
      · exact .read ht (by simpa using ho)
    · exact stops_fail .binName r

theorem stops_selectList (r : TokenReader) : Stops selectList r := by
  refine stops_peek_bind ?_
  split
  · next hs =>
    exact stops_take_bind (Token.isFinish_of_isSign hs) (Token.clause?_of_isSign hs)
      (stops_pure _ _)
  · exact stops_bind (stops_binNames r) fun _ _ _ => stops_pure _ _

theorem stops_setName (r : TokenReader) : Stops setName r := by
  refine stops_peek_bind ?_
  split
  · next hm =>
    refine stops_take_bind (Token.isFinish_of_isMark hm) (Token.clause?_of_isMark hm) ?_
    exact stops_bind (stops_name _ _) fun _ _ _ => stops_pure _ _
  · exact stops_pure _ r

end Parse

end RecordQuery
