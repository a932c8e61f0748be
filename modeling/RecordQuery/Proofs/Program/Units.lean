import Mathlib.Data.List.Chain
import Mathlib.InformationTheory.Coding.UniquelyDecodable
import RecordQuery.Proofs.Compiler.Failure
import RecordQuery.Proofs.Program.Machine

/-! # The units of a program

A program is a sequence of units: a unit is a connective, or the instructions of one predicate. A
predicate pushes an operand and a literal of the same kind and relates them; if it walks over a
collection, the walk and the bin that holds the collection stand before that
(`Program.IsFragment`). The first instruction of a unit tells how long the unit is, so a program can
be cut into units in one way only (`Program.uniquelyDecodable_isUnit`).

The program of a text consists of units, and those that are no connectives are the fragments of the
predicates of its WHERE clause, in their order (`splitsInto_of_compile`). When it is run, each
fragment pushes one value and connectives none that is counted, so as many have been pushed as
fragments were run (`Program.pushed_of_run_flatten`). -/

namespace RecordQuery

/-- Whether values of the kind hold other values. -/
def OperandKind.isCollection : OperandKind → Bool
  | list | map => true
  | _ => false

namespace Instruction

/-- The instruction relates two values of the kind. What an equality says of its own about kinds is
how its literal was written. -/
inductive Relates : Instruction → OperandKind → Prop
  | equality {op : Equality} {written kind : OperandKind} (hw : written.isCollection = false) :
    Relates (.equality op written) kind
  | comparison {op : Comparison} {kind : OperandKind} : Relates (.comparison op) kind
  | geo {r : RegionRelation} : Relates (.geo r) .geoJson
  | regex {flags : PatternFlags} : Relates (.regex flags) .string

/-- Whether the instruction names the kind of a collection. -/
def namesCollection : Instruction → Bool
  | bin _ kind | element _ kind | equality _ kind => kind.isCollection
  | value v => v.kind.isCollection
  | _ => false

@[simp] theorem namesCollection_bin (name : String) (kind : OperandKind) :
    (bin name kind).namesCollection = kind.isCollection := rfl

@[simp] theorem namesCollection_element (name : String) (kind : OperandKind) :
    (element name kind).namesCollection = kind.isCollection := rfl

@[simp] theorem namesCollection_value (v : Value) : (value v).namesCollection = false := by
  cases v <;> rfl

/-- The number of instructions of the unit that begins with the instruction. -/
def unitLength : Instruction → Nat
  | logical _ _ => 1
  | iterate _ _ _ => 5
  | _ => 3

end Instruction

namespace Program

/-- The instructions are those of one predicate. -/
inductive IsFragment : Program → Prop
  | bin {name : String} {v : Value} {relation : Instruction} (hr : relation.Relates v.kind) :
    IsFragment [.bin name v.kind, .value v, relation]
  | metadata {m : Metadata} {n : Int64} {relation : Instruction} (hr : relation.Relates .integer) :
    IsFragment [.metadata m, .value (.integer n), relation]
  | walk {part : CollectionPart} {q : Quantifier} {bin element : String} {kind : OperandKind}
    {v : Value} {relation : Instruction} (hk : kind.isCollection = true)
    (hr : relation.Relates v.kind) :
    IsFragment [.iterate part q element, .bin bin kind, .element element v.kind, .value v,
      relation]

/-- The instructions are a connective with its own arity, or those of one predicate. -/
inductive IsUnit : Program → Prop
  | connective (c : Connective) : IsUnit [.ofConnective c]
  | fragment {u : Program} (h : IsFragment u) : IsUnit u

/-- The program is cut into the units. -/
structure SplitsInto (p : Program) (units : List Program) : Prop where
  isUnit : ∀ u ∈ units, IsUnit u
  flatten : units.flatten = p

/-- The kind of a collection is named right behind a walk only. -/
structure WalksCollections (p : Program) : Prop where
  head : ∀ i ∈ p.head?, i.namesCollection = false
  chain : p.IsChain fun i j => j.namesCollection = true → ∃ part q element,
    i = .iterate part q element

/-- Whether the unit is a connective. -/
def isConnective : Program → Bool
  | [.logical _ _] => true
  | _ => false

/-- The units that are no connectives. -/
def fragments (units : List Program) : List Program := units.filter fun u => !isConnective u

/-! ## A unit is known by its first instruction -/

/-- The first instruction of a unit tells its length. -/
theorem IsUnit.head?_length {u : Program} (h : IsUnit u) :
    ∃ i ∈ u.head?, u.length = i.unitLength := by
  cases h with
  | connective c => exact ⟨_, rfl, rfl⟩
  | fragment h => cases h <;> exact ⟨_, rfl, rfl⟩

theorem not_isUnit_nil : ¬ IsUnit [] := fun h => by
  obtain ⟨i, hi, -⟩ := h.head?_length
  cases hi

/-- Where two units begin alike, they are equally long. -/
theorem IsUnit.eq_of_append_eq {u v us vs : Program} (hu : IsUnit u) (hv : IsUnit v)
    (h : u ++ us = v ++ vs) : u = v ∧ us = vs := by
  obtain ⟨i, hi, hul⟩ := hu.head?_length
  obtain ⟨j, hj, hvl⟩ := hv.head?_length
  have hhead : i = j := by
    have := congrArg List.head? h
    rwa [List.head?_append, List.head?_append, hi, hj, Option.some_or, Option.some_or,
      Option.some.injEq] at this
  exact List.append_inj h (by rw [hul, hvl, hhead])

/-- No program can be cut into units in two ways: the first unit is the same, and then the rest has
one way by induction. -/
theorem uniquelyDecodable_isUnit : InformationTheory.UniquelyDecodable {u | IsUnit u} := by
  intro us vs hus hvs h
  induction us generalizing vs with
  | nil =>
    cases vs with
    | nil => rfl
    | cons v vs =>
      have hv : v = [] := (List.append_eq_nil_iff.mp h.symm).1
      exact absurd (hv ▸ hvs v (.head _)) not_isUnit_nil
  | cons u us ih =>
    cases vs with
    | nil =>
      have hu : u = [] := (List.append_eq_nil_iff.mp h).1
      exact absurd (hu ▸ hus u (.head _)) not_isUnit_nil
    | cons v vs =>
      obtain ⟨rfl, hrest⟩ := IsUnit.eq_of_append_eq (hus u (.head _)) (hvs v (.head _)) h
      rw [ih vs (fun w hw => hus w (.tail _ hw)) (fun w hw => hvs w (.tail _ hw)) hrest]

theorem SplitsInto.unique {p : Program} {us vs : List Program} (hus : p.SplitsInto us)
    (hvs : p.SplitsInto vs) : us = vs :=
  uniquelyDecodable_isUnit us vs hus.isUnit hvs.isUnit (hus.flatten.trans hvs.flatten.symm)

theorem SplitsInto.cons {u p : Program} {units : List Program} (hu : IsUnit u)
    (h : p.SplitsInto units) : SplitsInto (u ++ p) (u :: units) :=
  ⟨List.forall_mem_cons.mpr ⟨hu, h.isUnit⟩, by rw [List.flatten_cons, h.flatten]⟩

/-! ## Collections -/

@[simp] theorem isCollection_kind (v : Value) : v.kind.isCollection = false := by
  cases v <;> rfl

theorem namesCollection_of_relates {i : Instruction} {kind : OperandKind} (h : i.Relates kind) :
    i.namesCollection = false := by
  cases h with
  | equality hw => exact hw
  | _ => rfl

/-- In a fragment only a bin behind a walk is a collection. -/
theorem IsFragment.walksCollections {u : Program} (h : IsFragment u) : u.WalksCollections := by
  cases h with
  | bin hr | metadata hr | walk _ hr =>
    have hrelation := namesCollection_of_relates hr
    refine ⟨?_, ?_⟩
    · rintro _ ⟨⟩
      simp [Instruction.namesCollection]
    · simp [hrelation]

theorem IsUnit.walksCollections {u : Program} (h : IsUnit u) : u.WalksCollections := by
  cases h with
  | connective c => exact ⟨fun i hi => by cases hi; rfl, .singleton _⟩
  | fragment h => exact h.walksCollections

/-- A unit never begins with a collection, so no two units make a walk together. -/
theorem SplitsInto.walksCollections {p : Program} {units : List Program}
    (h : p.SplitsInto units) : p.WalksCollections := by
  obtain ⟨hunit, rfl⟩ := h
  induction units with
  | nil => exact ⟨nofun, .nil⟩
  | cons u units ih =>
    obtain ⟨i, hi, -⟩ := (hunit u (.head _)).head?_length
    obtain ⟨hhead, hchain⟩ := (hunit u (.head _)).walksCollections
    have hrest := ih fun w hw => hunit w (.tail _ hw)
    constructor
    · rwa [List.flatten_cons, List.head?_append, hi, Option.some_or, ← hi]
    · refine List.isChain_append.mpr ⟨hchain, hrest.chain, fun _ _ j hj hc => ?_⟩
      simp [hrest.head j hj] at hc

theorem IsFragment.isConnective_eq {u : Program} (h : IsFragment u) : u.isConnective = false := by
  cases h <;> rfl

theorem IsFragment.fragments_cons {u : Program} (h : IsFragment u) (units : List Program) :
    fragments (u :: units) = u :: fragments units :=
  List.filter_cons_of_pos (by rw [h.isConnective_eq]; rfl)

/-! ## The units of a compiled program -/

theorem relates_ofRelation {written : OperandKind} (hw : written.isCollection = false)
    (r : Relation) (kind : OperandKind) : (Instruction.ofRelation r written).Relates kind := by
  cases r with
  | equality op => exact .equality hw
  | comparison op => exact .comparison

end Program

theorem Literal.isCollection_kind (l : Literal) : l.kind.isCollection = false := by
  cases l <;> rfl

theorem isCollection_containerKind (types : Option TypeTable) (bin : String)
    (part : CollectionPart) : (containerKind types bin part).isCollection = true := by
  unfold containerKind
  split <;> rfl

namespace Fragment

/-- A fragment that is made in two parts is made if the second part is. -/
theorem result_extend {made : List Instruction} {rest : Except CompileError (List Instruction)}
    {p : Program} (h : (extend made rest).result = .ok p) :
    ∃ is, rest = .ok is ∧ p = made ++ is := by
  cases rest with
  | error e => cases h
  | ok is => exact ⟨is, rfl, (Except.ok.inj h).symm⟩

theorem result_ofMetadata {call : MetadataCall} {r : Relation} {l : Literal} {p : Program}
    (h : (ofMetadata call r l).result = .ok p) :
    ∃ m n, p = [.metadata m, .value (.integer n), .ofRelation r .integer] := by
  unfold ofMetadata at h
  split at h
  · cases h
  · next m _ =>
    obtain ⟨is, his, rfl⟩ := result_extend h
    cases hn : readWord l.raw with
    | error e => rw [hn] at his; cases his
    | ok n => rw [hn] at his; cases his; exact ⟨m, n, rfl⟩

theorem result_ofBin {types : Option TypeTable} {bin raw : String} {relation : Instruction}
    {p : Program} (h : (ofBin types bin raw relation).result = .ok p) :
    ∃ v, p = [.bin bin v.kind, .value v, relation] := by
  obtain ⟨is, his, rfl⟩ := result_extend h
  cases hv : literalValue types bin raw with
  | error e => rw [hv] at his; cases his
  | ok v => rw [hv] at his; cases his; exact ⟨v, rfl⟩

theorem result_ofIteration {types : Option TypeTable} {bin : String} {part : CollectionPart}
    {q : Quantifier} {i : Iteration} {p : Program}
    (h : (ofIteration types bin part q i).result = .ok p) :
    ∃ v, p = [.iterate part q i.element.text, .bin bin (containerKind types bin part),
      .element i.element.text v.kind, .value v, .ofRelation i.relation i.value.kind] := by
  obtain ⟨is, his, rfl⟩ := result_extend h
  cases hv : literalValue types (Schema.variableName bin i.element.text) i.value.raw with
  | error e => rw [hv] at his; cases his
  | ok v => rw [hv] at his; cases his; exact ⟨v, rfl⟩

end Fragment

/-- The instructions for a predicate are a fragment, in each of the forms that can be compiled. -/
theorem Atomic.isFragment_of_result {types : Option TypeTable} {a : Atomic} {p : Program}
    (h : (a.fragment types).result = .ok p) : Program.IsFragment p := by
  unfold Atomic.fragment at h
  split at h
  · obtain ⟨m, n, rfl⟩ := Fragment.result_ofMetadata h
    exact .metadata (Program.relates_ofRelation rfl _ _)
  · obtain ⟨v, rfl⟩ := Fragment.result_ofBin h
    exact .bin (.equality (Literal.isCollection_kind _))
  · obtain ⟨v, rfl⟩ := Fragment.result_ofBin h
    exact .bin .comparison
  · split at h
    · cases h
    · obtain ⟨v, rfl⟩ := Fragment.result_ofIteration h
      exact .walk (isCollection_containerKind ..)
        (Program.relates_ofRelation (Literal.isCollection_kind _) _ _)
  · unfold Fragment.ofGeo at h
    split at h
    · cases h
      exact .bin (v := .geoJson _) .geo
    · cases h
  · cases h
    exact .bin (v := .string _) .regex
  · cases h

namespace Program

/-- The predicates have, in their order, the units that are no connectives. -/
def HasFragments (types : Option TypeTable) (as : List Atomic) (units : List Program) : Prop :=
  List.Forall₂ (fun a u => (a.fragment types).result = .ok u) as (fragments units)

/-- A program is the instructions of its first entry and the program of the others. -/
theorem ofItems_cons_eq_ok {types : Option TypeTable} {item : OrderedItem}
    {items : List OrderedItem} {p : Program} (h : ofItems types (item :: items) = .ok p) :
    ∃ first rest, item.compile types = .ok first ∧ ofItems types items = .ok rest ∧
      p = first ++ rest := by
  rw [ofItems] at h
  cases hi : item.compile types with
  | error e => rw [hi] at h; cases h
  | ok first =>
    cases hr : ofItems types items with
    | error e => rw [hi, hr] at h; cases h
    | ok rest =>
      rw [hi, hr] at h
      exact ⟨first, rest, rfl, rfl, (Except.ok.inj h).symm⟩

/-- The induction is on the entries: each puts one unit in front, and a predicate puts its fragment
there. -/
theorem exists_splitsInto {types : Option TypeTable} {items : List OrderedItem} {p : Program}
    (h : ofItems types items = .ok p) :
    ∃ units, p.SplitsInto units ∧ HasFragments types (OrderedItem.predicates items) units := by
  induction items generalizing p with
  | nil =>
    cases h
    exact ⟨[], ⟨nofun, rfl⟩, .nil⟩
  | cons item items ih =>
    obtain ⟨first, rest, hfirst, hrest, rfl⟩ := ofItems_cons_eq_ok h
    obtain ⟨units, hsplit, hfragments⟩ := ih hrest
    cases item with
    | connective c =>
      cases hfirst
      exact ⟨_, hsplit.cons (.connective c), hfragments⟩
    | atomic a =>
      have hunit : IsFragment first := Atomic.isFragment_of_result hfirst
      refine ⟨_, hsplit.cons (.fragment hunit), ?_⟩
      rw [HasFragments, hunit.fragments_cons]
      exact .cons hfirst hfragments

theorem HasFragments.ne_nil {types : Option TypeTable} {as : List Atomic} {units : List Program}
    {p : Program} (h : HasFragments types as units) (hs : p.SplitsInto units) (ha : as ≠ []) :
    p ≠ [] := by
  rintro rfl
  obtain rfl : units = [] := hs.unique ⟨nofun, rfl⟩
  exact ha (List.forall₂_nil_right_iff.mp h)

end Program

/-! ## What the units push -/

theorem Instruction.Relates.step_eq {i : Instruction} {kind : OperandKind} (h : i.Relates kind)
    (ν : Nat → Bool) (m : Machine) : m.step ν i = some (m.push ν) := by
  cases h <;> rfl

namespace Program

/-- The operands of a fragment leave the machine as it is, and its relation pushes one value. -/
theorem IsFragment.pushesOne {u : Program} (h : IsFragment u) : Machine.PushesOne u := by
  intro ν m
  cases h with
  | bin hr | metadata hr | walk _ hr =>
    rw [← hr.step_eq]
    exact Machine.run_singleton ν m _

/-- A program does to the machine what its predicates and connectives do. -/
theorem run_ofItems {types : Option TypeTable} {items : List OrderedItem} {p : Program}
    (h : ofItems types items = .ok p) (ν : Nat → Bool) (m : Machine) :
    m.run ν p = m.runItems ν items := by
  induction items generalizing p m with
  | nil => cases h; rfl
  | cons item items ih =>
    obtain ⟨first, rest, hi, hr, rfl⟩ := ofItems_cons_eq_ok h
    have hstep : m.run ν first = m.stepItem ν item := by
      cases item with
      | atomic a => exact (Atomic.isFragment_of_result hi).pushesOne ν m
      | connective c => cases hi; exact Machine.run_singleton ν m _
    rw [Machine.run_append, hstep, Machine.runItems, List.foldlM_cons]
    exact congrArg _ (funext fun m' => ih hr m')

theorem pushesOne_of_mem_fragments {units : List Program} (h : ∀ u ∈ units, IsUnit u) :
    ∀ u ∈ fragments units, Machine.PushesOne u := by
  intro u hu
  obtain ⟨hu, hc⟩ := List.mem_filter.mp hu
  cases h u hu with
  | connective c => cases hc
  | fragment hf => exact hf.pushesOne

/-- A connective pushes the value of no predicate. -/
theorem pushed_of_step_ofConnective {ν : Nat → Bool} {m m' : Machine} {c : Connective}
    (h : m.step ν (.ofConnective c) = some m') : m'.pushed = m.pushed := by
  simp only [Machine.step, Instruction.ofConnective] at h
  split at h
  · cases h
    rfl
  · cases h

/-- The number of predicates whose values have been pushed is that of the fragments that were
run. -/
theorem pushed_of_run_flatten {ν : Nat → Bool} {m m' : Machine} {units : List Program}
    (hu : ∀ u ∈ units, IsUnit u) (h : m.run ν units.flatten = some m') :
    m'.pushed = m.pushed + (fragments units).length := by
  induction units generalizing m with
  | nil => cases h; rfl
  | cons u units ih =>
    rw [List.flatten_cons, Machine.run_append] at h
    obtain ⟨m₁, hm, h⟩ := Option.bind_eq_some_iff.mp h
    have hrest := ih (fun w hw => hu w (.tail _ hw)) h
    cases hu u (.head _) with
    | connective c =>
      rw [Machine.run_singleton] at hm
      rw [hrest, pushed_of_step_ofConnective hm]
      rfl
    | fragment hf =>
      cases (hf.pushesOne ν m).symm.trans hm
      rw [hrest, hf.fragments_cons, List.length_cons, Machine.push, Nat.add_assoc, Nat.add_comm 1]

end Program

/-! ## From the text to the units -/

/-- A clause in which operands and connectives alternate has an operand. -/
theorem WhereEntry.predicates_ne_nil {es : List WhereEntry} (h : alternates true es = true) :
    predicates es ≠ [] := by
  induction es with
  | nil => cases h
  | cons e es ih =>
    cases e with
    | openParen t => exact ih h
    | closeParen t => cases h
    | connective c =>
      cases c with
      | not => exact ih h
      | and => cases h
      | or => cases h
    | atomic a => exact List.cons_ne_nil a _

namespace Statement

variable {schema : Schema} {s : Statement} {d : Descriptor}

theorem exists_program_of_compile (h : s.compile schema = .ok d) :
    ∃ items program, WhereEntry.order s.entries = .ok items ∧
      Program.ofItems (schema.typeTable? s.source.fullName) items = .ok program ∧
      d.predicate = if program.isEmpty then none else some program := by
  cases hf : s.filter with
  | error e => cases h.symm.trans (compile_of_filter_eq_error hf)
  | ok filter =>
    cases ho : WhereEntry.order s.entries with
    | error e => cases h.symm.trans (compile_of_order_eq_error hf ho)
    | ok items =>
      rw [compile_of_order hf ho] at h
      obtain ⟨program, hp⟩ := exists_map_eq_ok.mp ⟨d, h⟩
      rw [hp] at h
      cases h
      exact ⟨items, program, rfl, hp, rfl⟩

end Statement

/-- The program of a text that is compiled is there just if the text has a WHERE clause. It is not
empty, and it can be cut into units in one way only. Its units that are no connectives are the
fragments of the predicates of the clause, in the order of the text. -/
theorem splitsInto_of_compile {schema : Schema} {text : String} {d : Descriptor}
    (h : compile schema text = .ok d) :
    ∃ s, Statement.parse text = .ok s ∧ d.predicate.isSome = s.condition.isSome ∧
      ∀ p, d.predicate = some p → p ≠ [] ∧ p.WalksCollections ∧
        ∃ units, p.SplitsInto units ∧ (∀ units', p.SplitsInto units' → units' = units) ∧
          Program.HasFragments (schema.typeTable? s.source.fullName)
            (WhereEntry.predicates s.entries) units := by
  obtain ⟨s, hs, hd⟩ := compile_eq_ok h
  obtain ⟨items, program, ho, hp, hpred⟩ := Statement.exists_program_of_compile hd
  obtain ⟨units, hsplit, hfragments⟩ := Program.exists_splitsInto hp
  rw [WhereEntry.predicates_order ho] at hfragments
  rw [hpred]
  refine ⟨s, hs, ?_, fun p hsome => ?_⟩
  · cases hc : s.condition with
    | none =>
      rw [Statement.entries, hc] at ho
      cases ho
      cases hp
      rfl
    | some w =>
      have ha : WhereEntry.predicates s.entries ≠ [] := by
        rw [Statement.entries, hc]
        exact WhereEntry.predicates_ne_nil (Statement.alternates_of_parse hs hc)
      simp [hfragments.ne_nil hsplit ha]
  · cases program with
    | nil => cases hsome
    | cons i is =>
      cases hsome
      exact ⟨List.cons_ne_nil i is, hsplit.walksCollections, units, hsplit,
        fun _ h => h.unique hsplit, hfragments⟩

/-- A walk, a fact and a comparison, with all three connectives. -/
def walkAndFact : String :=
  "SELECT * FROM ns WHERE NOT tags ANY CONTAINS (x = 'y') AND (TTL() < 5 OR a != 1)"

theorem splitsInto_of_compile_walkAndFact : ∃ d, compile .empty walkAndFact = .ok d ∧
    ∃ s, Statement.parse walkAndFact = .ok s ∧ d.predicate.isSome = s.condition.isSome ∧
      ∀ p, d.predicate = some p → p ≠ [] ∧ p.WalksCollections ∧
        ∃ units, p.SplitsInto units ∧ (∀ units', p.SplitsInto units' → units' = units) ∧
          Program.HasFragments (Schema.empty.typeTable? s.source.fullName)
            (WhereEntry.predicates s.entries) units :=
  have h : compile .empty walkAndFact =
      .ok ⟨.allBins, "ns", none, none, some
        [.iterate .list .any "x", .bin "tags" .list, .element "x" .string, .value (.string "y"),
          .equality .equal .string, .logical .not 1, .metadata .voidTime, .value (.integer 5),
          .comparison .less, .bin "a" .string, .value (.string "1"), .equality .notEqual .integer,
          .logical .or 2, .logical .and 2]⟩ :=
    eq_ok_of_toOption (by decide +kernel)
  ⟨_, h, splitsInto_of_compile h⟩

end RecordQuery
