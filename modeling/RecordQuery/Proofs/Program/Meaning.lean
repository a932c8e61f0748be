import RecordQuery.Proofs.Expression.DoubleNot
import RecordQuery.Proofs.Program.Units

/-! # The meaning of a program

The program of a WHERE clause pushes the truth values of its predicates in the order of the text
(`Program.PushesInOrder`). It leaves one truth value on the stack, and that is the truth value of
the expression that the clause stands for, as long as the `NOT`s that come out before their
operands cancel each other (`outcome_of_compile_iff`). -/

namespace RecordQuery

namespace Machine

/-- The values on a stack after `n` `NOT`s. -/
def flip : Nat → List Bool → Option (List Bool)
  | 0, vs => some vs
  | _ + 1, [] => none
  | n + 1, v :: vs => flip n ((!v) :: vs)

theorem flip_cons (n : Nat) (v : Bool) (vs : List Bool) :
    flip n (v :: vs) = some ((n.bodd ^^ v) :: vs) := by
  induction n generalizing v with
  | zero => simp [flip]
  | succ n ih => rw [flip, ih, Nat.bodd_succ]; simp

end Machine

namespace Expression

open Machine

/-- The entries of an expression apply the `NOT`s that come out before its first predicate to what
is on the stack, and then push one value. -/
theorem runItems_emitted (ν : Nat → Bool) (e : Expression) (vs : List Bool) (k : Nat) :
    runItems ν ⟨vs, k⟩ e.emitted =
      (flip e.lead vs).map fun vs => ⟨e.misread.value ν k :: vs, k + e.count⟩ := by
  induction e generalizing vs k with
  | atomic a => rfl
  | group _ _ e ih => exact ih vs k
  | not e ih =>
    by_cases h : e.isNot = true
    · simp only [emitted, lead, misread, count, h, if_true, runItems, List.foldlM_cons, stepItem]
      cases vs with
      | nil => rw [step_not_nil]; rfl
      | cons v vs => rw [step_not]; exact ih _ k
    · simp only [emitted, lead, misread, count, h, Bool.false_eq_true, if_false, runItems_append,
        ih]
      cases flip e.lead vs with
      | none => rfl
      | some vs => exact (bind_pure _).trans (step_not ν _ vs _)
  | and l r ihl ihr =>
    simp only [emitted, lead, misread, count, runItems_append, ihl]
    cases flip l.lead vs with
    | none => rfl
    | some vs =>
      simp only [Option.map_some, Option.bind_some, ihr, flip_cons, value, value_negated,
        count_negated, count_misread]
      exact (bind_pure _).trans (by rw [stepItem, step_and, Nat.add_assoc])
  | or l r ihl ihr =>
    simp only [emitted, lead, misread, count, runItems_append, ihl]
    cases flip l.lead vs with
    | none => rfl
    | some vs =>
      simp only [Option.map_some, Option.bind_some, ihr, flip_cons, value, value_negated,
        count_negated, count_misread]
      exact (bind_pure _).trans (by rw [stepItem, step_or, Nat.add_assoc])

/-- A program that computes the expression in the order in which its entries come out leaves its
value, and nothing else, for all truth values of its predicates just if the `NOT`s that come out
too early cancel. -/
theorem outcome_emitted_iff (e : Expression) :
    (∀ ν, (runItems ν start e.emitted).map stack = some [e.value ν 0]) ↔ e.NotsCancel := by
  have h : ∀ ν, (runItems ν start e.emitted).map stack =
      if e.lead = 0 then some [e.misread.value ν 0] else none := by
    intro ν
    rw [start, runItems_emitted]
    cases e.lead <;> rfl
  by_cases hl : e.lead = 0
  · simp [h, hl, NotsCancel, ← value_misread_iff e false 0]
  · simp [h, hl, NotsCancel]

end Expression

/-! ## From the text to the values on the stack -/

/-- The `k`-th truth value that the program pushes is that of the `k`-th of the predicates: the
program can be cut into these units and no others, those of them that are no connectives are the
fragments of the predicates, each of these pushes one value, and before it as many have been pushed
as there are fragments before it. -/
structure Program.PushesInOrder (types : Option TypeTable) (as : List Atomic) (p : Program)
    (units : List Program) : Prop where
  splits : p.SplitsInto units
  unique : ∀ units', p.SplitsInto units' → units' = units
  hasFragments : HasFragments types as units
  pushesOne : ∀ u ∈ fragments units, Machine.PushesOne u
  pushed : ∀ before after, units = before ++ after → ∀ ν m,
    Machine.start.run ν before.flatten = some m → m.pushed = (fragments before).length

/-- The program for entries in the order of computation pushes the values of their predicates in
that order. -/
theorem Program.exists_pushesInOrder {types : Option TypeTable} {items : List OrderedItem}
    {p : Program} (h : ofItems types items = .ok p) :
    ∃ units, PushesInOrder types (OrderedItem.predicates items) p units := by
  obtain ⟨units, hs, hf⟩ := exists_splitsInto h
  refine ⟨units, hs, fun _ h => h.unique hs, hf, pushesOne_of_mem_fragments hs.isUnit, ?_⟩
  rintro before after rfl ν m hm
  have hunit : ∀ u ∈ before, IsUnit u := fun u hu => hs.isUnit u (List.mem_append_left _ hu)
  rw [pushed_of_run_flatten hunit hm]
  exact Nat.zero_add _

/-- The predicate program is that of the entries of the WHERE clause. -/
theorem Statement.predicate_of_compile {schema : Schema} {s : Statement} {d : Descriptor}
    {p : Program} (h : s.compile schema = .ok d) (hp : d.predicate = some p) :
    ∃ w items, s.condition = some w ∧ WhereEntry.order w.items = .ok items ∧
      Program.ofItems (schema.typeTable? s.source.fullName) items = .ok p := by
  obtain ⟨items, program, ho, hq, hd⟩ := exists_program_of_compile h
  rw [hp] at hd
  cases hc : s.condition with
  | none =>
    rw [entries, hc] at ho
    cases ho
    cases hq
    cases hd
  | some w =>
    rw [entries, hc] at ho
    cases program with
    | nil => cases hd
    | cons i is =>
      cases hd
      exact ⟨w, items, rfl, ho, hq⟩

/-- The program of a text that is compiled pushes the truth values of the predicates of its WHERE
clause in the order of the text, and computes one from them. The WHERE clause stands for one
expression, and the truth value is that of the expression for all truth values of the predicates
just if no `NOT` comes out before the first predicate, and the `NOT`s that come out before their
operands later on cancel each other. This is so if no `NOT` stands right behind another. -/
theorem outcome_of_compile_iff {schema : Schema} {text : String} {d : Descriptor}
    {p : Program} (h : compile schema text = .ok d) (hp : d.predicate = some p) :
    ∃ s w e units, Statement.parse text = .ok s ∧ s.condition = some w ∧
      (Expression.IsReadingOf e w.items ∧ ∀ e', Expression.IsReadingOf e' w.items → e' = e) ∧
      p.PushesInOrder (schema.typeTable? s.source.fullName) (WhereEntry.predicates w.items)
        units ∧
      ((∀ ν, p.outcome ν = some [e.value ν 0]) ↔ e.NotsCancel) ∧
      (WhereEntry.hasDoubleNot w.items = false → e.NotsCancel) := by
  obtain ⟨s, hs, hd⟩ := compile_eq_ok h
  obtain ⟨w, items, hw, ho, hq⟩ := Statement.predicate_of_compile hd hp
  have ha := Statement.alternates_of_parse hs hw
  obtain ⟨e, he, hu⟩ := Expression.existsUnique_isReadingOf ha (WhereEntry.balanced_of_order ho)
  obtain ⟨units, hunits⟩ := Program.exists_pushesInOrder hq
  rw [WhereEntry.predicates_order ho] at hunits
  cases ho.symm.trans (Expression.order_of_isReadingOf he)
  refine ⟨s, w, e, units, hs, hw, ⟨he, hu⟩, hunits, ?_, fun hn => ?_⟩
  · simp only [Program.outcome, Program.run_ofItems hq]
    exact e.outcome_emitted_iff
  · refine Expression.notsCancel_of_not_hasDoubleNot ?_
    rw [← Expression.hasDoubleNot_entries he.1, he.2, hn]
    exact Bool.false_ne_true

/-- A clause in which two `NOT`s come out too early and cancel each other. -/
theorem outcome_of_compile_triple_not : ∃ d p,
    compile .empty "SELECT * FROM ns WHERE a = 1 OR NOT NOT NOT b = 2" = .ok d ∧
    d.predicate = some p ∧
    ∃ s w e units, Statement.parse "SELECT * FROM ns WHERE a = 1 OR NOT NOT NOT b = 2" = .ok s ∧
      s.condition = some w ∧
      (Expression.IsReadingOf e w.items ∧ ∀ e', Expression.IsReadingOf e' w.items → e' = e) ∧
      p.PushesInOrder (Schema.empty.typeTable? s.source.fullName) (WhereEntry.predicates w.items)
        units ∧
      ((∀ ν, p.outcome ν = some [e.value ν 0]) ↔ e.NotsCancel) ∧
      (WhereEntry.hasDoubleNot w.items = false → e.NotsCancel) :=
  have h : compile .empty "SELECT * FROM ns WHERE a = 1 OR NOT NOT NOT b = 2" =
      .ok ⟨.allBins, "ns", none, none, some
        [.bin "a" .string, .value (.string "1"), .equality .equal .integer, .logical .not 1,
          .logical .not 1, .bin "b" .string, .value (.string "2"), .equality .equal .integer,
          .logical .not 1, .logical .or 2]⟩ :=
    eq_ok_of_toOption (by decide +kernel)
  ⟨_, _, h, rfl, outcome_of_compile_iff h rfl⟩

/-- A clause of two `NOT`s, of which the first finds an empty stack. -/
theorem outcome_of_compile_double_not : ∃ d p,
    compile .empty "SELECT * FROM ns WHERE NOT NOT a = 1" = .ok d ∧ d.predicate = some p ∧
    ∀ ν, p.outcome ν = none :=
  have h : compile .empty "SELECT * FROM ns WHERE NOT NOT a = 1" =
      .ok ⟨.allBins, "ns", none, none, some
        [.logical .not 1, .bin "a" .string, .value (.string "1"), .equality .equal .integer,
          .logical .not 1]⟩ :=
    eq_ok_of_toOption (by decide +kernel)
  ⟨_, _, h, rfl, fun _ => rfl⟩

end RecordQuery
