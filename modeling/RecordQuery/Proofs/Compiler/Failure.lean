import RecordQuery.Proofs.Compiler.Assembly
import RecordQuery.Proofs.Expression.Ordering
import RecordQuery.Proofs.Statement.Parsing.Statement

/-! # Why a statement is not compiled

Connectives are moved behind their operands, predicates are never moved past each other
(`WhereEntry.predicates_order`). So the predicates are compiled in the order of the text, and a
statement that cannot be compiled fails for one reason: its WITH clause, then the parentheses of
its WHERE clause, then the first of its predicates that has no instructions (`compile_of_parse`). -/

namespace RecordQuery

/-! ## The predicates of a clause -/

/-- The predicate that the entry is. -/
def WhereEntry.predicate? : WhereEntry → Option Atomic
  | atomic a => some a
  | _ => none

/-- The predicate that the entry of the output is. -/
def OrderedItem.predicate? : OrderedItem → Option Atomic
  | atomic a => some a
  | connective _ => none

/-- The predicates of the entries, in the order of the text. -/
def WhereEntry.predicates (es : List WhereEntry) : List Atomic := es.filterMap predicate?

/-- The predicates of the output, in the order of computation. -/
def OrderedItem.predicates (items : List OrderedItem) : List Atomic := items.filterMap predicate?

/-- The predicate is compiled by itself. -/
def Atomic.Compiles (types : Option TypeTable) (a : Atomic) : Prop :=
  ∃ p, (a.fragment types).result = .ok p

/-- The error `e` is that of the first predicate that is not compiled by itself. -/
inductive Atomic.FirstFailure (types : Option TypeTable) : List Atomic → CompileError → Prop
  | here {a : Atomic} {as : List Atomic} {e : CompileError}
    (ha : (a.fragment types).result = .error e) : FirstFailure types (a :: as) e
  | later {a : Atomic} {as : List Atomic} {e : CompileError} (ha : a.Compiles types)
    (has : FirstFailure types as e) : FirstFailure types (a :: as) e

namespace OrderedItem

@[simp] theorem predicates_nil : predicates [] = [] := rfl

@[simp] theorem predicates_atomic (a : Atomic) (items : List OrderedItem) :
    predicates (atomic a :: items) = a :: predicates items := rfl

@[simp] theorem predicates_connective (c : Connective) (items : List OrderedItem) :
    predicates (connective c :: items) = predicates items := rfl

@[simp] theorem predicates_append (xs ys : List OrderedItem) :
    predicates (xs ++ ys) = predicates xs ++ predicates ys :=
  List.filterMap_append

end OrderedItem

/-! ## Results that are bound or mapped -/

theorem bind_eq_ok_iff {x : Except ε α} {f : α → Except ε β} {b : β} :
    x >>= f = .ok b ↔ ∃ a, x = .ok a ∧ f a = .ok b := by
  cases x <;> simp [bind, Except.bind]

theorem map_eq_ok_iff {f : α → β} {x : Except ε α} {b : β} :
    f <$> x = .ok b ↔ ∃ a, x = .ok a ∧ f a = b := by
  cases x <;> simp [Functor.map, Except.map]

theorem exists_map_eq_ok {f : α → β} {x : Except ε α} :
    (∃ b, f <$> x = .ok b) ↔ ∃ a, x = .ok a := by
  cases x <;> simp [Functor.map, Except.map]

theorem map_eq_error_iff {f : α → β} {x : Except ε α} {e : ε} :
    f <$> x = .error e ↔ x = .error e := by
  cases x <;> simp [Functor.map, Except.map]

/-! ## Predicates keep their order -/

namespace Waiting

open OrderedItem

theorem predicates_giveWay (c : Connective) (stack : List Waiting) :
    predicates (giveWay c stack).1 = [] := by
  fun_induction giveWay c stack <;> simp_all

/-- What comes out at a closing parenthesis are connectives. -/
theorem predicates_close {i : Nat} {stack stack' : List Waiting} {out : List OrderedItem}
    (h : close i stack = .ok (out, stack')) : predicates out = [] := by
  induction stack generalizing out with
  | nil => cases h
  | cons w stack ih =>
    cases w with
    | openParen j =>
      cases h
      rfl
    | connective c =>
      obtain ⟨out', rfl, hc⟩ := exists_close_of_connective h
      simpa using ih hc

theorem predicates_flush {stack : List Waiting} {out : List OrderedItem}
    (h : flush stack = .ok out) : predicates out = [] := by
  induction stack generalizing out with
  | nil =>
    cases h
    rfl
  | cons w stack ih =>
    cases w with
    | openParen j => cases h
    | connective c =>
      obtain ⟨out', hf, rfl⟩ := before_eq_ok ((flush_connective c stack).symm.trans h)
      simpa using ih hf

theorem eq_mismatched_of_flush {stack : List Waiting} {e : CompileError}
    (h : flush stack = .error e) : ∃ j, e = .mismatchedParentheses j := by
  induction stack with
  | nil => cases h
  | cons w stack ih =>
    cases w with
    | openParen j =>
      cases h
      exact ⟨j, rfl⟩
    | connective c => exact ih (eq_error_of_before ((flush_connective c stack).symm.trans h))

end Waiting

namespace WhereEntry

open Waiting OrderedItem

/-- Whatever waits on the stack, a predicate comes out as it is taken, and nothing but connectives
comes out with other entries: only connectives wait. -/
theorem predicates_orderOne {i : Nat} {stack stack' : List Waiting} {e : WhereEntry}
    {out : List OrderedItem} (h : e.orderOne i stack = .ok (out, stack')) :
    OrderedItem.predicates out = e.predicate?.toList := by
  cases e with
  | atomic a | openParen t =>
    cases h
    rfl
  | connective c =>
    cases h
    exact predicates_giveWay c stack
  | closeParen t => exact predicates_close h

theorem predicates_cons (e : WhereEntry) (es : List WhereEntry) :
    predicates (e :: es) = e.predicate?.toList ++ predicates es := by
  cases e <;> rfl

/-- Whatever waits at the start, the predicates come out as they stand: only connectives wait, so
each predicate comes out in its own step. -/
theorem predicates_orderFrom {i : Nat} {stack : List Waiting} {es : List WhereEntry}
    {items : List OrderedItem} (h : orderFrom i stack es = .ok items) :
    OrderedItem.predicates items = predicates es := by
  induction es generalizing i stack items with
  | nil => exact predicates_flush h
  | cons e es ih =>
    obtain ⟨out, stack', more, ht, hm, rfl⟩ := exists_of_orderFrom_cons_eq_ok h
    rw [predicates_append, predicates_orderOne ht, ih hm, predicates_cons]

/-- The order of computation keeps the order of the predicates. -/
theorem predicates_order {es : List WhereEntry} {items : List OrderedItem}
    (h : order es = .ok items) : OrderedItem.predicates items = predicates es :=
  predicates_orderFrom h

/-- Nothing but a parenthesis without a partner keeps entries from being ordered. -/
theorem eq_mismatched_of_orderFrom {i : Nat} {stack : List Waiting} {es : List WhereEntry}
    {e : CompileError} (h : orderFrom i stack es = .error e) :
    ∃ j, e = .mismatchedParentheses j := by
  induction es generalizing i stack with
  | nil => exact eq_mismatched_of_flush h
  | cons entry es ih =>
    rcases of_orderFrom_cons_eq_error h with ht | ⟨out, stack', -, hm⟩
    · exact ⟨i, (eq_of_orderOne_eq_error ht).2.2⟩
    · exact ih hm

theorem isOk_order (es : List WhereEntry) : (order es).isOk = balanced 0 es :=
  isOk_orderFrom 0 [] es

end WhereEntry

/-! ## Programs -/

namespace Program

variable {types : Option TypeTable} {items : List OrderedItem}

theorem ofItems_connective (c : Connective) :
    ofItems types (.connective c :: items) = (.ofConnective c :: ·) <$> ofItems types items := by
  rw [ofItems]
  cases ofItems types items <;> rfl

theorem ofItems_atomic_of_ok {a : Atomic} {p : Program} (h : (a.fragment types).result = .ok p) :
    ofItems types (.atomic a :: items) = (p ++ ·) <$> ofItems types items := by
  rw [ofItems, OrderedItem.compile, h]
  cases ofItems types items <;> rfl

theorem ofItems_atomic_of_error {a : Atomic} {e : CompileError}
    (h : (a.fragment types).result = .error e) :
    ofItems types (.atomic a :: items) = .error e := by
  rw [ofItems, OrderedItem.compile, h]
  rfl

/-- Entries have a program just if each predicate of theirs is compiled by itself. -/
theorem exists_ofItems_eq_ok :
    (∃ p, ofItems types items = .ok p) ↔
      ∀ a ∈ OrderedItem.predicates items, a.Compiles types := by
  induction items with
  | nil => simp [ofItems]
  | cons item items ih =>
    cases item with
    | connective c =>
      rw [ofItems_connective, exists_map_eq_ok]
      exact ih
    | atomic a =>
      rw [OrderedItem.predicates_atomic, List.forall_mem_cons, ← ih]
      cases ha : (a.fragment types).result with
      | error e => simp [ofItems_atomic_of_error ha, Atomic.Compiles, ha]
      | ok p =>
        rw [ofItems_atomic_of_ok ha, exists_map_eq_ok]
        exact (and_iff_right ⟨p, ha⟩).symm

/-- The error of a program that cannot be made is that of the first predicate that is not compiled
by itself. -/
theorem ofItems_eq_error_iff {e : CompileError} :
    ofItems types items = .error e ↔
      Atomic.FirstFailure types (OrderedItem.predicates items) e := by
  induction items with
  | nil => exact ⟨nofun, nofun⟩
  | cons item items ih =>
    cases item with
    | connective c =>
      rw [ofItems_connective, map_eq_error_iff]
      exact ih
    | atomic a =>
      rw [OrderedItem.predicates_atomic]
      cases ha : (a.fragment types).result with
      | error e' =>
        rw [ofItems_atomic_of_error ha]
        constructor
        · intro h
          cases h
          exact .here ha
        · intro h
          cases h with
          | here he => exact ha.symm.trans he
          | later hc =>
            obtain ⟨p, hp⟩ := hc
            cases ha.symm.trans hp
      | ok p =>
        rw [ofItems_atomic_of_ok ha, map_eq_error_iff, ih]
        constructor
        · intro h
          exact .later ⟨p, ha⟩ h
        · intro h
          cases h with
          | here he => cases ha.symm.trans he
          | later _ h => exact h

end Program

/-! ## Statements -/

namespace Statement

/-- Why a statement has no descriptor. A reason counts only if none of those before it holds. -/
inductive Failure (schema : Schema) (s : Statement) : CompileError → Prop
  /-- The WITH clause has no filter. -/
  | index {w : IndexClause} {e : CompileError} (hw : s.index = some w) (he : w.filter = .error e) :
    Failure schema s e
  /-- The parentheses of the WHERE clause do not match. -/
  | parentheses {i : Nat} (hw : ∀ w ∈ s.index, ∃ f, w.filter = .ok f)
    (hb : WhereEntry.balanced 0 s.entries = false)
    (hi : WhereEntry.order s.entries = .error (.mismatchedParentheses i)) :
    Failure schema s (.mismatchedParentheses i)
  /-- A predicate of the WHERE clause is not compiled, and it is the first. -/
  | predicate {e : CompileError} (hw : ∀ w ∈ s.index, ∃ f, w.filter = .ok f)
    (hb : WhereEntry.balanced 0 s.entries = true)
    (he : Atomic.FirstFailure (schema.typeTable? s.source.fullName)
      (WhereEntry.predicates s.entries) e) : Failure schema s e

variable {schema : Schema} {s : Statement}

theorem exists_filter_eq_ok :
    (∃ f, s.filter = .ok f) ↔ ∀ w ∈ s.index, ∃ f, w.filter = .ok f := by
  unfold filter
  cases s.index with
  | none => simp
  | some w => simp [exists_map_eq_ok]

/-- The error of a WITH clause is that of its filter. -/
theorem filter_eq_error_iff {e : CompileError} :
    s.filter = .error e ↔ ∃ w, s.index = some w ∧ w.filter = .error e := by
  unfold filter
  cases s.index with
  | none => simp
  | some w => simp [map_eq_error_iff]

/-- What is left to do if the WITH clause is compiled and the parentheses match. -/
theorem compile_of_order {filter : Option Filter} {items : List OrderedItem}
    (hf : s.filter = .ok filter) (ho : WhereEntry.order s.entries = .ok items) :
    s.compile schema =
      (fun program => ⟨s.selection.projection, s.source.space.text, s.source.set.map (·.text),
        filter, if program.isEmpty then none else some program⟩) <$>
      Program.ofItems (schema.typeTable? s.source.fullName) items := by
  rw [compile_eq, hf, ho]
  rfl

theorem compile_of_order_eq_error {filter : Option Filter} {e : CompileError}
    (hf : s.filter = .ok filter) (ho : WhereEntry.order s.entries = .error e) :
    s.compile schema = .error e := by
  rw [compile_eq, hf, ho]
  rfl

theorem compile_of_filter_eq_error {e : CompileError} (hf : s.filter = .error e) :
    s.compile schema = .error e := by
  rw [compile_eq, hf]
  rfl

/-- The three steps of a statement can fail independently, and it is compiled if none does. -/
theorem exists_compile_eq_ok :
    (∃ d, s.compile schema = .ok d) ↔
      (∀ w ∈ s.index, ∃ f, w.filter = .ok f) ∧ WhereEntry.balanced 0 s.entries = true ∧
      ∀ a ∈ WhereEntry.predicates s.entries,
        a.Compiles (schema.typeTable? s.source.fullName) := by
  rw [← exists_filter_eq_ok, ← WhereEntry.isOk_order]
  cases hf : s.filter with
  | error e => simp [compile_of_filter_eq_error hf]
  | ok filter =>
    cases ho : WhereEntry.order s.entries with
    | error e => simp [compile_of_order_eq_error hf ho, Except.isOk, Except.toBool]
    | ok items =>
      rw [compile_of_order hf ho, exists_map_eq_ok, Program.exists_ofItems_eq_ok,
        WhereEntry.predicates_order ho]
      simp [Except.isOk, Except.toBool]

/-- An error is the one that the first of the failing steps makes. -/
theorem failure_of_compile {e : CompileError} (h : s.compile schema = .error e) :
    s.Failure schema e := by
  cases hf : s.filter with
  | error e' =>
    obtain ⟨w, hw, he⟩ := filter_eq_error_iff.mp hf
    cases h.symm.trans (compile_of_filter_eq_error hf)
    exact .index hw he
  | ok filter =>
    have hw := exists_filter_eq_ok.mp ⟨filter, hf⟩
    have hb := WhereEntry.isOk_order s.entries
    cases ho : WhereEntry.order s.entries with
    | error e' =>
      cases h.symm.trans (compile_of_order_eq_error hf ho)
      obtain ⟨i, rfl⟩ := WhereEntry.eq_mismatched_of_orderFrom ho
      rw [ho] at hb
      exact .parentheses hw hb.symm ho
    | ok items =>
      rw [ho] at hb
      rw [compile_of_order hf ho, map_eq_error_iff, Program.ofItems_eq_error_iff,
        WhereEntry.predicates_order ho] at h
      exact .predicate hw hb.symm h

/-- Conversely, each reason is the error that is told. -/
theorem Failure.compile_eq {e : CompileError} (h : s.Failure schema e) :
    s.compile schema = .error e := by
  cases h with
  | index hw he => exact compile_of_filter_eq_error (filter_eq_error_iff.mpr ⟨_, hw, he⟩)
  | parentheses hw hb hi =>
    obtain ⟨filter, hf⟩ := exists_filter_eq_ok.mpr hw
    exact compile_of_order_eq_error hf hi
  | predicate hw hb he =>
    obtain ⟨filter, hf⟩ := exists_filter_eq_ok.mpr hw
    rw [← WhereEntry.isOk_order] at hb
    cases ho : WhereEntry.order s.entries with
    | error e' => rw [ho] at hb; cases hb
    | ok items =>
      rw [compile_of_order hf ho, map_eq_error_iff, Program.ofItems_eq_error_iff,
        WhereEntry.predicates_order ho]
      exact he

end Statement

theorem compile_eq_ok {schema : Schema} {text : String} {d : Descriptor}
    (h : compile schema text = .ok d) :
    ∃ s, Statement.parse text = .ok s ∧ s.compile schema = .ok d := by
  unfold compile at h
  split at h
  · cases h
  · next s hs =>
    split at h
    · cases h
    · next hd =>
      cases h
      exact ⟨s, hs, hd⟩

theorem compile_eq_of_parse {schema : Schema} {text : String} {s : Statement}
    (h : Statement.parse text = .ok s) :
    compile schema text = (s.compile schema).mapError .uncompilable := by
  unfold compile
  rw [h]
  dsimp only
  cases s.compile schema <;> rfl

/-- A statement is compiled just if its WITH clause is, its parentheses match, and each predicate
of it is compiled by itself; otherwise there is one reason, and it is told. -/
theorem compile_of_parse {schema : Schema} {text : String} {s : Statement}
    (h : Statement.parse text = .ok s) :
    ((∃ d, compile schema text = .ok d) ↔
      (∀ w ∈ s.index, ∃ f, w.filter = .ok f) ∧ WhereEntry.balanced 0 s.entries = true ∧
      ∀ a ∈ WhereEntry.predicates s.entries,
        a.Compiles (schema.typeTable? s.source.fullName)) ∧
    ∀ e, compile schema text = .error e ↔ ∃ c, e = .uncompilable c ∧ s.Failure schema c := by
  rw [compile_eq_of_parse h, ← Statement.exists_compile_eq_ok]
  cases hc : s.compile schema with
  | ok d =>
    refine ⟨⟨fun _ => ⟨d, rfl⟩, fun _ => ⟨d, rfl⟩⟩, fun e => ⟨fun h => (nomatch h), ?_⟩⟩
    intro ⟨c, _, hf⟩
    cases hc.symm.trans hf.compile_eq
  | error c =>
    refine ⟨⟨fun ⟨_, h⟩ => (nomatch h), fun ⟨_, h⟩ => (nomatch h)⟩, fun e => ⟨?_, ?_⟩⟩
    · intro he
      exact ⟨c, (Except.error.inj he).symm, Statement.failure_of_compile hc⟩
    · intro ⟨c', he, hf⟩
      cases hc.symm.trans hf.compile_eq
      exact congrArg Except.error he.symm

/-- A statement whose second and third predicate order strings, which cannot be compiled. -/
def orderedStrings : String := "SELECT * FROM ns WHERE NOT (a = 1 OR b < 'x') AND c < 'y'"

theorem compile_of_parse_orderedStrings :
    ∃ s, Statement.parse orderedStrings = .ok s ∧
    ((∃ d, compile .empty orderedStrings = .ok d) ↔
      (∀ w ∈ s.index, ∃ f, w.filter = .ok f) ∧ WhereEntry.balanced 0 s.entries = true ∧
      ∀ a ∈ WhereEntry.predicates s.entries,
        a.Compiles (Schema.empty.typeTable? s.source.fullName)) ∧
    ∀ e, compile .empty orderedStrings = .error e ↔
      ∃ c, e = .uncompilable c ∧ s.Failure .empty c := by
  have hs : (Statement.parse orderedStrings).toOption.isSome = true := by decide +kernel
  obtain ⟨s, hs⟩ := Option.isSome_iff_exists.mp hs
  have h := eq_ok_of_toOption hs
  exact ⟨s, h, compile_of_parse h⟩

end RecordQuery
