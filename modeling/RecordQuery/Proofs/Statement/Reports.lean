import RecordQuery.Proofs.Statement.Agreement
import RecordQuery.Proofs.Statement.Parsing.Statement
import RecordQuery.Proofs.Statement.Recovery
import RecordQuery.Proofs.Token.Joining

/-! # What is reported about a clause

Every clause of a text is to get its chance to report what is wrong with it. It has that chance
unless a clause before it overruns: unless the text of that clause begins with all that the clause
can be and goes on. Then nothing has failed when the reading stops in the middle of the clause, so
no next clause is looked for, and what is left is reported as one token too many. -/

namespace RecordQuery

open Text TokenReader

/-! ## Clauses that overrun -/

/-- The tokens begin with what can be selected, and go on. -/
def SelectList.Overrun : List Token → Prop :=
  Overruns SelectList.SpelledBy fun s t => s ≠ .star → t.isMark .comma = false

/-- The tokens behind FROM begin with a source, and go on. -/
def Source.Overrun : List Token → Prop :=
  Overruns (fun (s : Source) ts => ∃ word, s.SpelledBy (word :: ts)) fun s t =>
    s.set = none → t.isMark .dot = false

/-- The tokens behind WITH begin with a question to an index, and go on. -/
def IndexClause.Overrun : List Token → Prop := Overruns IndexClause.SpelledBy fun _ _ => True

/-- Tokens that agree overrun together, if they spell nodes that `R` relates. -/
theorem TokenReader.Overruns.agree {S : α → List Token → Prop} {Q : α → Token → Prop}
    {R : α → α → Prop} {ts us : List Token} (h : Overruns S Q ts) (hu : Token.AllAgree ts us)
    (hS : ∀ {a vs ws}, S a vs → Token.AllAgree vs ws → ∃ b, S b ws ∧ R a b)
    (hQ : ∀ {a b t u}, R a b → t.Agrees u → Q a t → Q b u) : Overruns S Q us := by
  obtain ⟨a, vs, t, ws, rfl, ha, ht⟩ := h
  obtain ⟨vs', u, ws', rfl, hvs, htu, -⟩ := hu.exists_append_cons
  obtain ⟨b, hb, hab⟩ := hS ha hvs
  exact ⟨b, vs', u, ws', rfl, hb, hQ hab htu ht⟩

section

variable {ts us : List Token}

/-- What follows a list of bins is no comma, and is none in tokens that agree. -/
theorem SelectList.Overrun.agree (h : Overrun ts) (hu : Token.AllAgree ts us) : Overrun us := by
  refine Overruns.agree h hu SpelledBy.agree fun {a b t u} hb ht hc hs => ?_
  have ha : a ≠ .star := by
    rintro rfl
    cases b with
    | star => exact hs rfl
    | bins ns => cases hb
  exact (ht.isMark _).symm.trans (hc ha)

/-- What follows a namespace is no dot, and is none in tokens that agree. -/
theorem Source.Overrun.agree (h : Overrun ts) (hu : Token.AllAgree ts us) : Overrun us := by
  have spelled {a : Source} {vs ws : List Token} (h : ∃ word, a.SpelledBy (word :: vs))
      (hu : Token.AllAgree vs ws) :
      ∃ b : Source, (∃ word, b.SpelledBy (word :: ws)) ∧ b.bare = a.bare := by
    obtain ⟨word, ha⟩ := h
    obtain ⟨b, hb, he⟩ := ha.agree (.cons (.refl word) hu)
    exact ⟨b, ⟨word, hb⟩, he⟩
  refine Overruns.agree h hu spelled fun {a b t u} hb ht hc hs => ?_
  have ha : a.set = none := by
    have := congrArg Source.set hb
    rw [bare, bare, hs] at this
    exact Option.map_eq_none_iff.mp this.symm
  exact (ht.isMark _).symm.trans (hc ha)

theorem IndexClause.Overrun.agree (h : Overrun ts) (hu : Token.AllAgree ts us) : Overrun us :=
  Overruns.agree h hu SpelledBy.agree fun _ _ h => h

theorem SelectList.overrun_congr (h : Token.AllAgree ts us) : Overrun ts ↔ Overrun us :=
  ⟨(·.agree h), (·.agree h.symm)⟩

theorem Source.overrun_congr (h : Token.AllAgree ts us) : Overrun ts ↔ Overrun us :=
  ⟨(·.agree h), (·.agree h.symm)⟩

theorem IndexClause.overrun_congr (h : Token.AllAgree ts us) : Overrun ts ↔ Overrun us :=
  ⟨(·.agree h), (·.agree h.symm)⟩

theorem IndexClause.exists_spelledBy_congr (h : Token.AllAgree ts us) :
    (∃ e : IndexClause, e.SpelledBy ts) ↔ ∃ e : IndexClause, e.SpelledBy us :=
  ⟨fun ⟨_, he⟩ => (he.agree h).imp fun _ h => h.1,
    fun ⟨_, he⟩ => (he.agree h.symm).imp fun _ h => h.1⟩

theorem WhereClause.exists_spelledBy_congr (h : Token.AllAgree ts us) :
    (∃ w : WhereClause, w.SpelledBy ts) ↔ ∃ w : WhereClause, w.SpelledBy us :=
  ⟨fun ⟨_, hw⟩ => (hw.agree h).imp fun _ h => h.1,
    fun ⟨_, hw⟩ => (hw.agree h.symm).imp fun _ h => h.1⟩

end

namespace TokenReader

variable {r r' : TokenReader} {c : Option Clause} {t : Token} {ts us : List Token}
  {es : List SyntaxError}

/-! ## Trying the clauses one by one -/

/-- The tokens belong to one clause. -/
def Plain (ts : List Token) : Prop :=
  ∀ t ∈ ts, (t.isFinish = false ∧ t.opensClause = false) ∧ t.isMark .semicolon = false

theorem Plain.stays (h : Plain ts) : ∀ t ∈ ts, t.isFinish = false ∧ t.opensClause = false :=
  fun t ht => (h t ht).1

theorem Meets.isMark_peek (h : r.Meets c us es) (hus : ∀ u ∈ us.head?, u.opensClause = true)
    (m : Mark) : r.peek.isMark m = false := by
  cases us with
  | nil => exact Token.isMark_of_isFinish h.peek_nil m
  | cons u us =>
    rw [h.peek, ← Bool.not_eq_true]
    intro hm
    have := hus u rfl
    rw [Token.opensClause_of_clause? (Token.clause?_of_isMark hm)] at this
    cases this

/-- Reading the list of bins ends in one of three ways: it was all there was, or it overran, or it
failed with one error. -/
theorem Meets.tries_selectList (h : r.Meets c (ts ++ us) es) (hts : Plain ts)
    (hus : ∀ u ∈ us.head?, u.opensClause = true) :
    Tries SelectList.SpelledBy (fun s t => s ≠ .star → t.isMark .comma = false) c ts us es
      (r.attempt Parse.selectList) :=
  h.tries hts.stays hus (fun _ _ => Parse.reads_selectList) (Parse.stops_selectList r)
    fun _ _ h' _ => h'.isMark_peek hus _

end TokenReader

/-- Any word FROM may stand before a source. -/
theorem Source.SpelledBy.word {s : Source} {word word' : Token} {ts : List Token}
    (h : s.SpelledBy (word :: ts)) (hw : word'.isKeyword .FROM = true) :
    s.SpelledBy (word' :: ts) := by
  cases h with
  | space _ ht => exact .space hw ht
  | set _ ht hd hu => exact .set hw ht hd hu

namespace TokenReader

variable {r r' : TokenReader} {c : Option Clause} {t : Token} {ts us : List Token}
  {es : List SyntaxError}

/-- Behind the word FROM the reading stops like that of the other clauses. -/
theorem leaves_source (h : r.peek.isKeyword .FROM = true) :
    Parse.Leaves r.advance (Parse.source r).value (Parse.source r).next := by
  have hk : Parse.Reads (Parse.keyword .FROM) r r.peek r.advance :=
    Parse.reads_keyword.mpr ⟨h, ⟨rfl, Token.isFinish_of_isKeyword h⟩, rfl⟩
  have hs : Parse.Stops (Parse.name .namespaceName >>= fun space => Parse.setName >>= fun set =>
      Pure.pure (Source.mk space set)) r.advance :=
    Parse.stops_bind (Parse.stops_name _ _) fun _ _ _ =>
      Parse.stops_bind (Parse.stops_setName _) fun _ _ _ => Parse.stops_pure _ _
  unfold Parse.Stops at hs
  unfold Parse.source
  rw [Parse.value_bind, Parse.next_bind_of_some hk.1, hk.1, hk.2]
  exact hs

/-- The source is tried once the word FROM has been found. -/
theorem Meets.tries_source {word : Token} (h : r.Meets c (word :: (ts ++ us)) es)
    (hw : word.isKeyword .FROM = true) (hts : Plain ts)
    (hus : ∀ u ∈ us.head?, u.opensClause = true) :
    Tries (fun (s : Source) ts => ∃ word, s.SpelledBy (word :: ts)) (fun s t =>
      s.set = none → t.isMark .dot = false) c ts us es (r.attempt Parse.source) := by
  have hp : r.peek.isKeyword .FROM = true := h.peek ▸ hw
  refine h.advance.tries hts.stays hus (fun s r' => Parse.reads_source.trans ?_) (leaves_source hp)
    fun _ _ h' _ => h'.isMark_peek hus _
  constructor
  · rintro ⟨vs, hs, ht, hd⟩
    obtain ⟨t, vs, rfl, -⟩ := Parse.first_of_source hs
    exact ⟨vs, ⟨t, hs⟩, ht.2, hd⟩
  · rintro ⟨vs, ⟨word', hs⟩, ht, hd⟩
    exact ⟨r.peek :: vs, hs.word hp, ⟨⟨rfl, Token.isFinish_of_isKeyword hp⟩, ht⟩, hd⟩

theorem Meets.tries_index (h : r.Meets c (ts ++ us) es) (hts : Plain ts)
    (hus : ∀ u ∈ us.head?, u.opensClause = true) :
    Tries IndexClause.SpelledBy (fun _ _ => True) c ts us es (r.attempt Parse.index) :=
  h.tries hts.stays hus
    (fun _ _ => Parse.reads_index.trans (by simp)) (Parse.stops_index r) fun _ _ _ => trivial

theorem Meets.tries_condition {word : Token} (h : r.Meets c ts es)
    (hw : word.isKeyword .WHERE = true) (hts : Plain ts) :
    Tries (fun (w : WhereClause) us => w.SpelledBy (word :: us))
      (fun _ t => (t.isFinish || t.isMark .semicolon) = true) c ts [] es
      (r.attempt (Parse.condition word)) := by
  rw [← ts.append_nil] at h
  refine h.tries hts.stays nofun (fun _ _ => Parse.reads_condition hw)
    (Parse.stops_condition word r) fun _ r' h' => ?_
  rw [h'.peek_nil, Bool.true_or]

/-- No WHERE clause ends before a token of its text. -/
theorem not_overruns_condition {S : WhereClause → List Token → Prop} (hts : Plain ts) :
    ¬ Overruns S (fun _ t => (t.isFinish || t.isMark .semicolon) = true) ts := by
  rintro ⟨w, us, t, vs, rfl, -, ht⟩
  obtain ⟨⟨hf, -⟩, hs⟩ := hts t (by simp)
  simp [hf, hs] at ht

/-! ## Tokens that are left over -/

/-- A token that neither opens the WITH or the WHERE clause nor ends the statement. -/
structure Stray (t : Token) : Prop where
  isFinish : t.isFinish = false
  isMark : t.isMark .semicolon = false
  isKeyword_with : t.isKeyword .WITH = false
  isKeyword_where : t.isKeyword .WHERE = false

theorem isKeyword_of_opensClause {k : Keyword} (h : t.opensClause = false)
    (hk : k.opensClause = true) : t.isKeyword k = false := by
  rw [← Bool.not_eq_true]
  intro hw
  rw [Token.opensClause_of_isKeyword hw, hk] at h
  cases h

theorem Plain.stray (h : Plain ts) (ht : t ∈ ts) : Stray t := by
  obtain ⟨⟨hf, ho⟩, hs⟩ := h t ht
  exact ⟨hf, hs, isKeyword_of_opensClause ho rfl, isKeyword_of_opensClause ho rfl⟩

theorem stray_of_from (h : t.isKeyword .FROM = true) : Stray t :=
  ⟨Token.isFinish_of_isKeyword h, Token.isMark_of_kind (by simp [Token.kind_of_isKeyword h]) _,
    Token.isKeyword_of_ne h nofun, Token.isKeyword_of_ne h nofun⟩

/-- Without the word FROM nothing is taken, and this is the error. -/
theorem source_of_not_from (h : r.peek.isKeyword .FROM = false) :
    (Parse.source r).value = none ∧
      (Parse.source r).next = r.report (.expected (.keyword .FROM) r.peek) r.peek.position := by
  have hk : Parse.keyword .FROM r = Parse.fail (.keyword .FROM) r := by
    show (if r.peek.isKeyword .FROM then Parse.take else Parse.fail (.keyword .FROM)) r = _
    rw [h, if_neg Bool.false_ne_true]
  have hv : (Parse.keyword .FROM r).value = none := by rw [hk]; rfl
  unfold Parse.source
  rw [Parse.value_bind, Parse.next_bind_of_none hv, hv, hk]
  exact ⟨rfl, rfl⟩

theorem attempt_source_of_not_from (h : r.peek.isKeyword .FROM = false) :
    r.attempt Parse.source =
      (none, (r.report (.expected (.keyword .FROM) r.peek) r.peek.position).skipToClause) := by
  obtain ⟨hv, hn⟩ := source_of_not_from h
  rw [attempt, hv, hn]

/-- The errors are about the clauses before WITH. -/
def Early (es : List SyntaxError) : Prop :=
  ∀ e ∈ es, e.clause = some .select ∨ e.clause = some .source

theorem early_nil : Early [] := List.forall_mem_nil _

theorem Early.concat {e : SyntaxError} (h : Early es)
    (he : e.clause = some .select ∨ e.clause = some .source) : Early (es ++ [e]) := by
  intro e' hm
  rcases List.mem_append.mp hm with hm | hm
  · exact h e' hm
  · exact List.mem_singleton.mp hm ▸ he

/-- Where the reading stands when it has read the clause `c`: before the tokens of the next clause
or, if something was left over before, at a stray token. -/
inductive Stands (astray : Prop) (c : Clause) (us : List Token) (es : List SyntaxError)
    (r : TokenReader) : Prop
  | found (ho : ¬ astray) (h : r.Meets (some c) us es) : Stands astray c us es r
  | lost {t : Token} {vs : List Token} (ho : astray) (ht : Stray t)
    (h : r.Meets (some c) (t :: vs) es) : Stands astray c us es r

/-- Behind the first two clauses the reader stands at the next clause, unless one of them overran.
What has been reported by then is about these two. -/
theorem Meets.after_source {word : Token} {ps fs : List Token}
    (h : r.Meets c (ps ++ word :: (fs ++ us)) []) (hw : word.isKeyword .FROM = true)
    (hps : Plain ps) (hfs : Plain fs) (hus : ∀ u ∈ us.head?, u.opensClause = true) :
    let x := (r.enter .select).attempt Parse.selectList
    let y := (x.2.enter .source).attempt Parse.source
    ∃ es, Early es ∧ (es = [] → x.1.isSome = true ∧ y.1.isSome = true) ∧
      Stands (SelectList.Overrun ps ∨ Source.Overrun fs) .source us es y.2 := by
  intro x y
  have hword : word.opensClause = true := Token.opensClause_of_isKeyword hw
  have hx : Tries _ _ _ _ _ _ x := (h.enter .select).tries_selectList hps (by simpa using hword)
  -- Unless the list of bins overruns, the FROM clause is tried where it begins.
  have found {es : List SyntaxError} (he : Early es) (hs : es = [] → x.1.isSome = true)
      (ho : ¬ SelectList.Overrun ps) (hm : x.2.Meets (some .select) (word :: (fs ++ us)) es) :
      ∃ es, Early es ∧ (es = [] → x.1.isSome = true ∧ y.1.isSome = true) ∧
        Stands (SelectList.Overrun ps ∨ Source.Overrun fs) .source us es y.2 := by
    have hy : Tries _ _ _ _ _ _ y := (hm.enter .source).tries_source hw hfs hus
    generalize y = y at hy ⊢
    cases hy with
    | whole _ ho' hm =>
      exact ⟨es, he, fun h => ⟨hs h, rfl⟩, .found (fun h => h.elim ho ho') hm⟩
    | overrun hsuf _ ho' hm =>
      exact ⟨es, he, fun h => ⟨hs h, rfl⟩, .lost (.inr ho') (hfs.stray (hsuf.mem (by simp))) hm⟩
    | failed _ ho' hc hm =>
      exact ⟨_, he.concat (.inr hc), by simp, .found (fun h => h.elim ho ho') hm⟩
  clear_value x
  cases hx with
  | whole _ ho hm => exact found early_nil (fun _ => rfl) ho hm
  | failed _ ho hc hm => exact found (early_nil.concat (.inl hc)) (by simp) ho hm
  | @overrun a r₁ t vs hsuf _ ho hm =>
    -- The FROM clause is not looked for, and fails at the token that is left over.
    have hps' : Plain (t :: vs) := fun u hu => hps u (hsuf.mem hu)
    have hm := hm.enter .source
    have hf : (r₁.enter .source).peek.isKeyword .FROM = false := by
      rw [hm.peek]
      exact isKeyword_of_opensClause (hps' t (by simp)).1.2 rfl
    have hy : y = _ := attempt_source_of_not_from hf
    rw [hy]
    have hm := (hm.report (.expected (.keyword .FROM) (r₁.enter .source).peek)
      (r₁.enter .source).peek.position).skipToClause hps'.stays (by simpa using hword)
    have he : ∀ p, Early [⟨.expected (.keyword .FROM) (r₁.enter .source).peek, p, some .source⟩] :=
      fun p => early_nil.concat (.inr rfl)
    exact ⟨_, he _, by simp, .lost (.inl ho) (stray_of_from hw) hm⟩

/-! ## The clauses that may be missing -/

theorem attemptClause_of_isKeyword {k : Clause} {p : Token → Parse α}
    (h : r.peek.isKeyword k.keyword = true) :
    r.attemptClause k p = (((r.advance.enter k).attempt (p r.peek)).1.map some,
      ((r.advance.enter k).attempt (p r.peek)).2) := by
  unfold attemptClause
  rw [if_pos h]

theorem attemptClause_of_not_isKeyword {k : Clause} {p : Token → Parse α}
    (h : r.peek.isKeyword k.keyword = false) : r.attemptClause k p = (some none, r) := by
  unfold attemptClause
  rw [h, if_neg Bool.false_ne_true]

/-- The WITH clause is read, or reported once, or has overrun. -/
theorem Meets.after_index {word : Token} {ws : List Token} (h : r.Meets c (word :: (ws ++ us)) es)
    (hw : word.isKeyword .WITH = true) (hws : Plain ws)
    (hus : ∀ u ∈ us.head?, u.opensClause = true) :
    let x := r.attemptClause .index fun _ => Parse.index
    ∃ es', (∀ e ∈ es', e.clause = some .index) ∧ (es' = [] → x.1.isSome = true) ∧
      ((∃ e : IndexClause, e.SpelledBy ws) ↔ es' = [] ∧ ¬ IndexClause.Overrun ws) ∧
      Stands (IndexClause.Overrun ws) .index us (es ++ es') x.2 := by
  intro x
  have hx : x = _ := attemptClause_of_isKeyword (k := .index) (h.peek ▸ hw)
  rw [hx]
  have ht := (h.advance.enter .index).tries_index hws hus
  generalize (r.advance.enter .index).attempt Parse.index = y at ht ⊢
  cases ht with
  | whole ha ho hm =>
    refine ⟨[], List.forall_mem_nil _, fun _ => rfl, ?_, .found ho (by rwa [List.append_nil])⟩
    exact ⟨fun _ => ⟨rfl, ho⟩, fun _ => ⟨_, ha⟩⟩
  | overrun hsuf hn ho hm =>
    refine ⟨[], List.forall_mem_nil _, fun _ => rfl, ?_, ?_⟩
    · exact ⟨fun ⟨a, ha⟩ => absurd ha (hn a), fun h => absurd ho h.2⟩
    · rw [List.append_nil]
      exact .lost ho (hws.stray (hsuf.mem (List.mem_cons_self ..))) hm
  | @failed e _ hn ho hc hm =>
    refine ⟨[e], by simpa using hc, nofun, ?_, .found ho hm⟩
    exact ⟨fun ⟨a, ha⟩ => absurd ha (hn a), fun h => nomatch h.1⟩

/-- The WHERE clause is read or reported once. It cannot overrun, since it has to end where the
statement does. -/
theorem Meets.after_condition {word : Token} {hs : List Token} (h : r.Meets c (word :: hs) es)
    (hw : word.isKeyword .WHERE = true) (hhs : Plain hs) :
    let x := r.attemptClause .condition Parse.condition
    ∃ es', (∀ e ∈ es', e.clause = some .condition) ∧ (es' = [] → x.1.isSome = true) ∧
      ((∃ w : WhereClause, w.SpelledBy (word :: hs)) ↔ es' = []) ∧
      x.2.Meets (some .condition) [] (es ++ es') := by
  intro x
  have hp : r.peek.isKeyword Clause.condition.keyword = true := h.peek ▸ hw
  have hx : x = _ := attemptClause_of_isKeyword hp
  rw [hx]
  have ht := (h.advance.enter .condition).tries_condition (h.peek ▸ hw) hhs
  generalize (r.advance.enter .condition).attempt (Parse.condition r.peek) = y at ht ⊢
  rw [← h.peek]
  cases ht with
  | whole ha ho hm =>
    exact ⟨[], List.forall_mem_nil _, fun _ => rfl, ⟨fun _ => rfl, fun _ => ⟨_, ha⟩⟩,
      by rwa [List.append_nil]⟩
  | overrun _ _ ho => exact (not_overruns_condition hhs ho).elim
  | @failed e _ hn ho hc hm =>
    exact ⟨[e], by simpa using hc, nofun, ⟨fun ⟨a, ha⟩ => absurd ha (hn a), nofun⟩, hm⟩

/-! ## The end of the statement -/

/-- The reader behind the last clause, when it has looked for the end of the statement. -/
def concluded (r : TokenReader) : TokenReader :=
  if r.skipSemicolon.peek.isFinish then r.skipSemicolon
  else r.skipSemicolon.report (.trailing r.skipSemicolon.peek) r.skipSemicolon.peek.position

/-- The clauses are tried one after the other, and each from where the one before has left the
reader. -/
theorem readStatement_eq (hk : r.current.isKeyword .SELECT = true) :
    let x := (r.enter .select).attempt Parse.selectList
    let y := (x.2.enter .source).attempt Parse.source
    let z := y.2.attemptClause .index fun _ => Parse.index
    let w := z.2.attemptClause .condition Parse.condition
    r.readStatement.2 = w.2.concluded ∧
      (w.2.skipSemicolon.peek.isFinish = true → x.1.isSome = true → y.1.isSome = true →
        z.1.isSome = true → w.1.isSome = true → r.readStatement.1.isSome = true) := by
  unfold readStatement concluded
  simp only [hk, if_true]
  cases (r.enter .select).attempt Parse.selectList with | mk selection r₁ =>
  simp only
  cases (r₁.enter .source).attempt Parse.source with | mk source r₂ =>
  simp only
  cases r₂.attemptClause .index fun _ => Parse.index with | mk index r₃ =>
  simp only
  cases r₃.attemptClause .condition Parse.condition with | mk condition r₄ =>
  simp only
  by_cases hf : r₄.skipSemicolon.peek.isFinish = true
  · simp only [hf, if_true]
    split
    · exact ⟨rfl, fun _ _ _ _ _ => rfl⟩
    · next hn =>
      refine ⟨rfl, fun _ h₁ h₂ h₃ h₄ => ?_⟩
      obtain ⟨_, rfl⟩ := Option.isSome_iff_exists.mp h₁
      obtain ⟨_, rfl⟩ := Option.isSome_iff_exists.mp h₂
      obtain ⟨_, rfl⟩ := Option.isSome_iff_exists.mp h₃
      obtain ⟨_, rfl⟩ := Option.isSome_iff_exists.mp h₄
      exact (hn _ _ _ _ rfl rfl rfl rfl).elim
  · simp only [hf]
    exact ⟨rfl, fun h => absurd h Bool.false_ne_true⟩

theorem Meets.concluded_nil (h : r.Meets c [] es) :
    r.skipSemicolon.peek.isFinish = true ∧ r.concluded.errors = es := by
  have hs : r.skipSemicolon = r := by
    rw [skipSemicolon, h.isMark_peek (by simp), if_neg Bool.false_ne_true]
  rw [concluded, hs, if_pos h.peek_nil]
  exact ⟨h.peek_nil, h.errors⟩

/-- At a stray token no WITH clause is looked for. -/
theorem Meets.attemptClause_stray (h : r.Meets c (t :: ts) es) (ht : Stray t)
    (p : Token → Parse α) : r.attemptClause .index p = (some none, r) :=
  attemptClause_of_not_isKeyword (h.peek ▸ ht.isKeyword_with)

/-- At a stray token the reading of the statement ends, and only this is reported. -/
theorem Meets.concluded_stray (h : r.Meets c (t :: ts) es) (ht : Stray t)
    (p : Token → Parse WhereClause) :
    (r.attemptClause .condition p).2.concluded.errors = es ++ [⟨.trailing t, t.position, c⟩] := by
  have hw : r.attemptClause .condition p = (some none, r) :=
    attemptClause_of_not_isKeyword (h.peek ▸ ht.isKeyword_where)
  have hs : r.skipSemicolon = r := by
    rw [skipSemicolon, h.peek, ht.isMark, if_neg Bool.false_ne_true]
  rw [hw, concluded, hs, h.peek, ht.isFinish, if_neg Bool.false_ne_true]
  exact (h.report _ _).errors

/-! ## What is reported -/

/-- One of the errors is about the clause. -/
def Concerns (es : List SyntaxError) (k : Clause) : Prop := ∃ e ∈ es, e.clause = some k

theorem concerns_append {es' : List SyntaxError} {k : Clause} :
    Concerns (es ++ es') k ↔ Concerns es k ∨ Concerns es' k := by
  simp only [Concerns, List.mem_append, or_and_right, exists_or]

theorem concerns_singleton {e : SyntaxError} {k : Clause} :
    Concerns [e] k ↔ e.clause = some k := by
  simp [Concerns]

theorem concerns_iff {k k' : Clause} (h : ∀ e ∈ es, e.clause = some k') :
    Concerns es k ↔ k = k' ∧ es ≠ [] := by
  constructor
  · rintro ⟨e, he, hk⟩
    exact ⟨Option.some.inj (hk.symm.trans (h e he)), List.ne_nil_of_mem he⟩
  · rintro ⟨rfl, hne⟩
    obtain ⟨e, es, rfl⟩ := List.exists_cons_of_ne_nil hne
    exact ⟨e, by simp, h e (by simp)⟩

theorem Early.not_concerns {k : Clause} (h : Early es) (hs : k ≠ .select) (hf : k ≠ .source) :
    ¬ Concerns es k := by
  rintro ⟨e, he, hk⟩
  rcases h e he with h | h
  · exact hs (Option.some.inj (hk.symm.trans h))
  · exact hf (Option.some.inj (hk.symm.trans h))

/-- What is reported about the last two clauses of a statement. -/
theorem Meets.concerns_readStatement {from' with' where' : Token} {ps fs ws hs : List Token}
    (h : r.Meets c (ps ++ from' :: (fs ++ with' :: (ws ++ where' :: hs))) [])
    (hk : r.current.isKeyword .SELECT = true) (hf : from'.isKeyword .FROM = true)
    (hw : with'.isKeyword .WITH = true) (hc : where'.isKeyword .WHERE = true) (hps : Plain ps)
    (hfs : Plain fs) (hws : Plain ws) (hhs : Plain hs) :
    (r.readStatement.2.errors = [] → r.readStatement.1.isSome = true) ∧
    (Concerns r.readStatement.2.errors .index ↔
      (¬ ∃ e : IndexClause, e.SpelledBy ws) ∧ ¬ (SelectList.Overrun ps ∨ Source.Overrun fs)) ∧
    (Concerns r.readStatement.2.errors .condition ↔
      (¬ ∃ w : WhereClause, w.SpelledBy (where' :: hs)) ∧
        ¬ (SelectList.Overrun ps ∨ Source.Overrun fs) ∧ ¬ IndexClause.Overrun ws) := by
  have hwo : with'.opensClause = true := Token.opensClause_of_isKeyword hw
  have hco : where'.opensClause = true := Token.opensClause_of_isKeyword hc
  obtain ⟨es, he, hv, st⟩ := h.after_source hf hps hfs (by simpa using hwo)
  obtain ⟨herr, hsome⟩ := readStatement_eq hk
  have hi : ¬ Concerns es .index := he.not_concerns nofun nofun
  have hc' : ¬ Concerns es .condition := he.not_concerns nofun nofun
  rw [herr]
  cases st with
  | lost ho ht hm =>
    rw [hm.attemptClause_stray ht, hm.concluded_stray ht]
    simp [concerns_append, concerns_singleton, hi, hc', ho]
  | found ho hm =>
    obtain ⟨es', he', hv', hs', st⟩ := hm.after_index hw hws (by simpa using hco)
    cases st with
    | lost ho' ht hm =>
      have hn : ¬ ∃ e : IndexClause, e.SpelledBy ws := fun h => (hs'.mp h).2 ho'
      rw [hm.concluded_stray ht]
      simp [concerns_append, concerns_singleton, concerns_iff he', hc', hn, ho, ho']
    | found ho' hm =>
      obtain ⟨es'', he'', hv'', hs'', hm⟩ := hm.after_condition hc hhs
      obtain ⟨hfin, hend⟩ := hm.concluded_nil
      rw [hend]
      refine ⟨fun hn => ?_, ?_, ?_⟩
      · simp only [List.append_eq_nil_iff] at hn
        obtain ⟨⟨h₁, h₂⟩, h₃⟩ := hn
        exact hsome hfin (hv h₁).1 (hv h₁).2 (hv' h₂) (hv'' h₃)
      · simp [concerns_append, concerns_iff he', concerns_iff he'', hi, hs', ho, ho']
      · simp [concerns_append, concerns_iff he', concerns_iff he'', hc', hs'', ho, ho']

end TokenReader

end RecordQuery
