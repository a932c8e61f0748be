import RecordQuery.Proofs.Compiler.Failure
import RecordQuery.Proofs.Statement.Agreement

/-! # Layout

Two texts that have the same words, comments apart and reserved words in any case, say the same:
they are both statements or neither of them is, and the statements are equal up to their tokens
(`Statement.exists_parse_of_sameWords`). A statement is compiled as it is without its tokens, only
that an error may tell a place (`Statement.compile_bare`). So blanks, comments and the case of
reserved words are of no effect on a descriptor (`sameOutcome_of_sameWords`). -/

namespace RecordQuery

open Text

/-! ## Errors without their places -/

/-- The error with the start of the text in place of the place that it tells. -/
def CompileError.unplaced : CompileError → CompileError
  | unsupportedPredicate predicate _ => .unsupportedPredicate predicate .start
  | unsupportedIndexExpression expression _ => .unsupportedIndexExpression expression .start
  | e => e

/-- The messages of the errors are equal, or differ in the place that they end with. -/
def CompileError.SameMessage (e e' : CompileError) : Prop :=
  e.message = e'.message ∨ ∃ words, ∃ p q : Position,
    e.message = words ++ p.text ∧ e'.message = words ++ q.text

theorem CompileError.sameMessage_of_unplaced_eq {e e' : CompileError}
    (h : e.unplaced = e'.unplaced) : e.SameMessage e' := by
  cases e with
  | unsupportedPredicate predicate p =>
    cases e' with
    | unsupportedPredicate predicate' q =>
      cases h
      exact .inr ⟨_, p, q, rfl, rfl⟩
    | _ => cases h
  | unsupportedIndexExpression expression p =>
    cases e' with
    | unsupportedIndexExpression expression' q =>
      cases h
      exact .inr ⟨_, p, q, rfl, rfl⟩
    | _ => cases h
  | _ =>
    cases e' <;> cases h
    exact .inl rfl

/-- A result with its error, if it is one, without its place. -/
def unplaced (x : Except CompileError α) : Except CompileError α := x.mapError .unplaced

@[simp] theorem unplaced_bind (x : Except CompileError α) (f : α → Except CompileError β) :
    unplaced (x >>= f) = unplaced x >>= fun a => unplaced (f a) := by
  cases x <;> rfl

@[simp] theorem unplaced_map (f : α → β) (x : Except CompileError α) :
    unplaced (f <$> x) = f <$> unplaced x := by
  cases x <;> rfl

/-! ## Predicates -/

@[simp] theorem Literal.raw_bare (l : Literal) : l.bare.raw = l.raw := by
  cases l <;> rfl

@[simp] theorem Literal.kind_bare (l : Literal) : l.bare.kind = l.kind := by
  cases l <;> rfl

@[simp] theorem MetadataCall.compile_bare (m : MetadataCall) : m.bare.compile = m.compile := by
  obtain ⟨name, _ | n, t⟩ := m <;> rfl

theorem Atomic.text_bare (a : Atomic) : a.bare.text = a.text :=
  String.toList_inj.mp (by rw [toList_text, toList_text, pieces_bare])

theorem IndexClause.text_bare (e : IndexClause) : e.bare.text = e.text :=
  String.toList_inj.mp (by rw [toList_text, toList_text, pieces_bare])

theorem Atomic.refused_bare (a : Atomic) :
    unplaced a.bare.refused.result = unplaced a.refused.result :=
  congrArg (fun text => Except.error (CompileError.unsupportedPredicate text .start)) a.text_bare

variable (types : Option TypeTable)

/-- The tokens of a predicate do not get into its instructions, and into an error as a place at
most. -/
theorem Atomic.fragment_bare (a : Atomic) :
    unplaced (a.bare.fragment types).result = unplaced (a.fragment types).result := by
  obtain ⟨subject, operator, operand, t⟩ := a
  cases subject with
  | metadata call =>
    cases operator with
    | relation r =>
      cases operand with
      | literal l => simp [bare, Subject.bare, Operand.bare, fragment, Fragment.ofMetadata]
      | _ => exact refused_bare _
    | _ => exact refused_bare _
  | bin bin =>
    cases operator with
    | relation r =>
      cases r with
      | equality op =>
        cases operand with
        | literal l => simp [bare, Subject.bare, Operand.bare, fragment]
        | _ => exact refused_bare _
      | comparison op =>
        cases operand with
        | literal l =>
          cases l with
          | number n => rfl
          | string s => exact refused_bare _
        | _ => exact refused_bare _
    | geo r =>
      cases operand with
      | cast c => rfl
      | _ => exact refused_bare _
    | like =>
      cases operand with
      | literal l =>
        cases l with
        | number n => exact refused_bare _
        | string s => rfl
      | _ => exact refused_bare _
    | iterate part quantifier =>
      cases operand with
      | iteration i =>
        obtain ⟨element, _ | op, _ | s, t⟩ := i
        · rfl
        · rfl
        · rfl
        · exact refused_bare _
      | _ => exact refused_bare _

/-! ## The order of computation -/

namespace OrderedItem

def bare : OrderedItem → OrderedItem
  | atomic a => .atomic a.bare
  | connective c => .connective c

theorem compile_bare (item : OrderedItem) :
    unplaced (item.bare.compile types) = unplaced (item.compile types) := by
  cases item with
  | atomic a => exact a.fragment_bare types
  | connective c => rfl

/-- Connectives have no tokens. -/
theorem map_bare_of_predicates {items : List OrderedItem} (h : predicates items = []) :
    items.map (·.bare) = items := by
  induction items with
  | nil => rfl
  | cons item items ih =>
    cases item with
    | atomic a => cases h
    | connective c => exact congrArg _ (ih h)

theorem before_map_bare (out : List OrderedItem)
    (rest : Except CompileError (List OrderedItem)) :
    before (out.map bare) (List.map bare <$> rest) = List.map bare <$> before out rest := by
  cases rest with
  | error e => rfl
  | ok items => exact congrArg Except.ok List.map_append.symm

end OrderedItem

theorem Program.ofItems_bare (items : List OrderedItem) :
    unplaced (ofItems types (items.map (·.bare))) = unplaced (ofItems types items) := by
  induction items with
  | nil => rfl
  | cons item items ih =>
    rw [List.map_cons, ofItems, ofItems]
    simp only [unplaced_bind, OrderedItem.compile_bare, ih]

theorem WhereEntry.orderOne_bare (index : Nat) (stack : List Waiting) (e : WhereEntry) :
    e.bare.orderOne index stack =
      (fun taken => (taken.1.map .bare, taken.2)) <$> e.orderOne index stack := by
  cases e with
  | atomic a | openParen t => rfl
  | connective c =>
    have ho := OrderedItem.map_bare_of_predicates (Waiting.predicates_giveWay c stack)
    exact congrArg (fun out => Except.ok (out, _)) ho.symm
  | closeParen t =>
    simp only [bare_closeParen, orderOne]
    cases hc : Waiting.close index stack with
    | error e => rfl
    | ok result =>
      have ho := OrderedItem.map_bare_of_predicates (Waiting.predicates_close hc)
      exact congrArg (fun out => Except.ok (out, _)) ho.symm

/-- Entries are ordered by what they are, and a parenthesis without a partner is told by its number.
-/
theorem WhereEntry.orderFrom_bare (index : Nat) (stack : List Waiting) (es : List WhereEntry) :
    orderFrom index stack (es.map (·.bare)) =
      List.map OrderedItem.bare <$> orderFrom index stack es := by
  induction es generalizing index stack with
  | nil =>
    rw [List.map_nil, orderFrom]
    cases hf : Waiting.flush stack with
    | error e => rfl
    | ok out =>
      have ho := OrderedItem.map_bare_of_predicates (Waiting.predicates_flush hf)
      exact congrArg Except.ok ho.symm
  | cons e es ih =>
    have hb := e.orderOne_bare index stack
    rw [List.map_cons]
    cases ht : e.orderOne index stack with
    | error error =>
      rw [ht] at hb
      rw [orderFrom_cons_of_error ht, orderFrom_cons_of_error hb]
      rfl
    | ok taken =>
      rw [ht] at hb
      rw [orderFrom_cons_of_ok ht, orderFrom_cons_of_ok hb, ih, OrderedItem.before_map_bare]

/-! ## Statements -/

/-- A filter does not depend on tokens either. -/
theorem IndexClause.filter_bare (e : IndexClause) : unplaced e.bare.filter = unplaced e.filter := by
  have hrefused := congrArg
    (fun text => (.error (.unsupportedIndexExpression text .start) : Except CompileError Filter))
    e.text_bare
  obtain ⟨collection, bin, relation, operand, t⟩ := e
  cases relation with
  | equal =>
    cases operand with
    | literal l => cases l <;> rfl
    | _ => exact hrefused
  | contains =>
    cases operand with
    | literal l => cases l <;> rfl
    | cast c => rfl
    | _ => exact hrefused
  | within =>
    cases operand with
    | cast c => rfl
    | _ => exact hrefused
  | between =>
    cases operand with
    | between b => rfl
    | _ => exact hrefused

theorem Source.fullName_bare (s : Source) : s.bare.fullName = s.fullName := by
  obtain ⟨space, _ | set⟩ := s <;> rfl

theorem SelectList.projection_bare (s : SelectList) : s.bare.projection = s.projection := by
  cases s with
  | star => rfl
  | bins ns => exact congrArg Projection.bins List.map_map

namespace Statement

theorem filter_bare (s : Statement) : unplaced s.bare.filter = unplaced s.filter := by
  obtain ⟨selection, source, _ | e, condition, t⟩ := s
  · rfl
  · simp only [filter, bare, Option.map_some, unplaced_map, IndexClause.filter_bare]

theorem order_entries_bare (s : Statement) :
    WhereEntry.order s.bare.entries =
      List.map OrderedItem.bare <$> WhereEntry.order s.entries := by
  obtain ⟨selection, source, index, _ | w, t⟩ := s
  · rfl
  · exact WhereEntry.orderFrom_bare 0 [] w.items

/-- A statement is compiled as it is without its tokens, but for the place in an error. -/
theorem compile_bare (σ : Schema) (s : Statement) :
    unplaced (s.bare.compile σ) = unplaced (s.compile σ) := by
  have hname : s.bare.source.fullName = s.source.fullName := s.source.fullName_bare
  have hselection : s.bare.selection.projection = s.selection.projection :=
    s.selection.projection_bare
  have hset : s.bare.source.set.map (·.text) = s.source.set.map (·.text) := Option.map_map ..
  rw [compile_eq, compile_eq, order_entries_bare, hname, hselection, hset]
  simp only [unplaced_bind, filter_bare, bind_map_left, Program.ofItems_bare]
  rfl

theorem unplaced_compile_eq_of_bare_eq {s s' : Statement} (h : s'.bare = s.bare) (σ : Schema) :
    unplaced (s'.compile σ) = unplaced (s.compile σ) := by
  rw [← s'.compile_bare, h, s.compile_bare]

end Statement

/-! ## Texts with the same words -/

namespace Token

/-- The tokens are of the same type and have the same literal, a reserved word in any case. -/
structure SameWord (t u : Token) : Prop where
  kind : t.kind.text = u.kind.text
  literal : t.literal = u.literal ∨
    t.isReserved = true ∧ u.isReserved = true ∧ asciiUpper t.literal = asciiUpper u.literal

instance (t u : Token) : Decidable (SameWord t u) :=
  decidable_of_iff (t.kind.text = u.kind.text ∧ (t.literal = u.literal ∨
    t.isReserved = true ∧ u.isReserved = true ∧ asciiUpper t.literal = asciiUpper u.literal))
    ⟨fun ⟨hk, hl⟩ => ⟨hk, hl⟩, fun ⟨hk, hl⟩ => ⟨hk, hl⟩⟩

/-- The tokens of a text that are no comments. -/
def words (s : String) : List Token := (tokens (.ofString s)).filter fun t => t.kind != .comment

/-- The texts have the same words, one by one. -/
def SameWords (x y : String) : Prop := List.Forall₂ SameWord (words x) (words y)

instance (x y : String) : Decidable (SameWords x y) :=
  inferInstanceAs (Decidable (List.Forall₂ SameWord _ _))

theorem Kind.eq_of_text_eq {k k' : Kind} (h : k.text = k'.text) (hk : k.text ≠ "ERROR") :
    k = k' := by
  cases k <;> cases k' <;> simp_all [text]

theorem fault?_eq_none_iff {t : Token} : t.fault? = none ↔ t.kind.text ≠ "ERROR" := by
  unfold fault?
  cases t.kind <;> simp [Kind.text]

theorem exists_isKeyword_of_isReserved {t : Token} (h : t.isReserved = true) :
    ∃ k : Keyword, k.isReserved = true ∧ t.isKeyword k = true := by
  unfold isReserved at h
  split at h
  · next k hk => exact ⟨k, h, beq_iff_eq.mpr hk⟩
  · cases h

namespace SameWord

variable {t u : Token}

theorem symm (h : t.SameWord u) : u.SameWord t :=
  ⟨h.kind.symm, h.literal.imp Eq.symm fun ⟨ht, hu, hl⟩ => ⟨hu, ht, hl.symm⟩⟩

/-- Words that are no errors and have the same type are of the same kind. -/
theorem agrees (h : t.SameWord u) (ht : t.fault? = none) : t.Agrees u := by
  have hk := Kind.eq_of_text_eq h.kind (fault?_eq_none_iff.mp ht)
  refine ⟨hk, h.literal.imp_right fun ⟨hr, _, hl⟩ => ?_⟩
  obtain ⟨k, hr, hw⟩ := exists_isKeyword_of_isReserved hr
  have hkeyword : u.keyword? = t.keyword? := by
    rw [keyword?, keyword?, ← hk, Keyword.ofText?, Keyword.ofText?, hl]
  exact ⟨k, hr, hw, by rwa [isKeyword, hkeyword]⟩

theorem fault?_eq_none (h : t.SameWord u) (ht : t.fault? = none) : u.fault? = none := by
  rw [fault?_eq_none_iff] at ht ⊢
  rwa [← h.kind]

end SameWord

namespace SameWords

variable {x y : String}

theorem symm (h : SameWords x y) : SameWords y x :=
  (List.Forall₂.imp (fun _ _ => SameWord.symm) h).flip

/-- Words without faults agree, and what they agree with has no faults. -/
theorem allAgree {ts us : List Token} (h : List.Forall₂ SameWord ts us)
    (ht : ∀ t ∈ ts, t.fault? = none) : AllAgree ts us ∧ ∀ u ∈ us, u.fault? = none := by
  induction h with
  | nil => exact ⟨.nil, nofun⟩
  | cons h _ ih =>
    rw [List.forall_mem_cons] at ht
    obtain ⟨ha, hu⟩ := ih ht.2
    exact ⟨.cons (h.agrees ht.1) ha, List.forall_mem_cons.mpr ⟨h.fault?_eq_none ht.1, hu⟩⟩

end SameWords

end Token

open Token (words SameWords)

namespace Statement

variable {x y : String} {s s' : Statement}

/-- A text is a statement just if its words have no faults and spell the statement. -/
theorem parse_eq_ok_iff_words :
    parse x = .ok s ↔ (∀ t ∈ words x, t.fault? = none) ∧ s.SpelledBy (words x) := by
  have hwords : ((Token.tokens (.ofString x)).filterMap Token.fault? = []) ↔
      ∀ t ∈ words x, t.fault? = none := by
    simp only [List.filterMap_eq_nil_iff, words, List.mem_filter]
    refine ⟨fun h t ht => h t ht.1, fun h t ht => ?_⟩
    by_cases hc : t.kind = .comment
    · simp [Token.fault?, hc]
    · exact h t ⟨ht, by simpa using hc⟩
  rw [parse_eq_ok_iff, hwords]
  refine and_congr_right fun hf => ?_
  have hfilter : (Token.tokens (.ofString x)).filter Token.matters = words x := by
    refine List.filter_congr fun t ht => ?_
    have hfault := List.filterMap_eq_nil_iff.mp (hwords.mpr hf) t ht
    unfold Token.fault? at hfault
    unfold Token.matters
    cases hk : t.kind <;> simp_all
  rw [hfilter]

/-- A text with the words of a statement is a statement that says the same. -/
theorem exists_parse_of_sameWords (h : SameWords x y) (hs : parse x = .ok s) :
    ∃ s', parse y = .ok s' ∧ s'.bare = s.bare := by
  obtain ⟨hf, hspelled⟩ := parse_eq_ok_iff_words.mp hs
  obtain ⟨ha, hf'⟩ := Token.SameWords.allAgree h hf
  obtain ⟨s', hspelled', hb⟩ := hspelled.agree ha
  exact ⟨s', parse_eq_ok_iff_words.mpr ⟨hf', hspelled'⟩, hb⟩

/-- Of two texts with the same words both are statements or neither is. -/
theorem exists_parse_iff_of_sameWords (h : SameWords x y) :
    (∃ s, parse x = .ok s) ↔ ∃ s, parse y = .ok s :=
  ⟨fun ⟨_, hs⟩ => (exists_parse_of_sameWords h hs).imp fun _ => And.left,
    fun ⟨_, hs⟩ => (exists_parse_of_sameWords h.symm hs).imp fun _ => And.left⟩

theorem bare_eq_of_sameWords (h : SameWords x y) (hs : parse x = .ok s) (hs' : parse y = .ok s') :
    s.bare = s'.bare := by
  obtain ⟨_, hy, hb⟩ := exists_parse_of_sameWords h hs
  cases hy.symm.trans hs'
  exact hb.symm

end Statement

/-! ## The same outcome -/

/-- The outcomes are the same descriptor, or errors that are equal but for a place. What is wrong
with a text that is no statement may be told in other ways. -/
inductive SameOutcome : Except QueryError Descriptor → Except QueryError Descriptor → Prop
  | descriptor (d : Descriptor) : SameOutcome (.ok d) (.ok d)
  | uncompilable {e e' : CompileError} (h : e.unplaced = e'.unplaced) :
    SameOutcome (.error (.uncompilable e)) (.error (.uncompilable e'))
  | unreadable (es es' : List SyntaxError) :
    SameOutcome (.error (.unreadable es)) (.error (.unreadable es'))

theorem SameOutcome.sameMessage {e e' : CompileError}
    (h : SameOutcome (.error (.uncompilable e)) (.error (.uncompilable e'))) :
    e.SameMessage e' := by
  cases h with
  | uncompilable h => exact CompileError.sameMessage_of_unplaced_eq h

theorem sameOutcome_of_unplaced_eq {x y : String} {s s' : Statement} {σ : Schema}
    (hs : Statement.parse x = .ok s) (hs' : Statement.parse y = .ok s')
    (h : unplaced (s.compile σ) = unplaced (s'.compile σ)) :
    SameOutcome (compile σ x) (compile σ y) := by
  rw [compile_eq_of_parse hs, compile_eq_of_parse hs']
  cases hc : s.compile σ with
  | error e =>
    cases hc' : s'.compile σ with
    | error e' =>
      rw [hc, hc'] at h
      exact .uncompilable (Except.error.inj h)
    | ok d' => rw [hc, hc'] at h; cases h
  | ok d =>
    cases hc' : s'.compile σ with
    | error e' => rw [hc, hc'] at h; cases h
    | ok d' =>
      rw [hc, hc'] at h
      obtain rfl := Except.ok.inj h
      exact .descriptor d

/-- Texts with the same words are compiled alike, or are both no statements. -/
theorem sameOutcome_compile {x y : String} (h : SameWords x y) (σ : Schema) :
    SameOutcome (compile σ x) (compile σ y) := by
  have hreads := Statement.exists_parse_iff_of_sameWords h
  cases hx : Statement.parse x with
  | ok s =>
    obtain ⟨s', hy⟩ := hreads.mp ⟨s, hx⟩
    exact sameOutcome_of_unplaced_eq hx hy
      (Statement.unplaced_compile_eq_of_bare_eq (Statement.bare_eq_of_sameWords h hx hy) σ)
  | error es =>
    cases hy : Statement.parse y with
    | ok s' =>
      obtain ⟨s, hs⟩ := hreads.mpr ⟨s', hy⟩
      cases hx.symm.trans hs
    | error es' =>
      unfold compile
      rw [hx, hy]
      exact .unreadable es es'

/-- Layout is of no effect: of two texts with the same words both are statements or neither is, the
statements are equal up to their tokens, and compiling them has the same outcome. Where that is an
error of the compiler, its message is the same but for a place. -/
theorem sameOutcome_of_sameWords {x y : String} (h : SameWords x y) :
    ((∃ s, Statement.parse x = .ok s) ↔ ∃ s, Statement.parse y = .ok s) ∧
    (∀ s s', Statement.parse x = .ok s → Statement.parse y = .ok s' → s.bare = s'.bare) ∧
    (∀ σ, SameOutcome (compile σ x) (compile σ y)) ∧
    ∀ σ e e', compile σ x = .error (.uncompilable e) → compile σ y = .error (.uncompilable e') →
      e.SameMessage e' := by
  refine ⟨Statement.exists_parse_iff_of_sameWords h,
    fun _ _ => Statement.bare_eq_of_sameWords h, sameOutcome_compile h, fun σ e e' hx hy => ?_⟩
  have hsame := sameOutcome_compile h σ
  rw [hx, hy] at hsame
  exact hsame.sameMessage

/-- A statement, written close together. -/
def closeText : String := "select*from ns where(b<'x')"

/-- The same statement with blanks and comments between its words. -/
def wideText : String := "SELECT * -- bins\nFrom ns\n  WHERE ( b < /* order */ 'x' ) "

theorem sameOutcome_of_sameWords_wideText :
    SameWords closeText wideText ∧
    ((∃ s, Statement.parse closeText = .ok s) ↔ ∃ s, Statement.parse wideText = .ok s) ∧
    (∀ s s', Statement.parse closeText = .ok s → Statement.parse wideText = .ok s' →
      s.bare = s'.bare) ∧
    (∀ σ, SameOutcome (compile σ closeText) (compile σ wideText)) ∧
    ∀ σ e e', compile σ closeText = .error (.uncompilable e) →
      compile σ wideText = .error (.uncompilable e') → e.SameMessage e' := by
  have h : SameWords closeText wideText := by decide +kernel
  exact ⟨h, sameOutcome_of_sameWords h⟩

end RecordQuery
