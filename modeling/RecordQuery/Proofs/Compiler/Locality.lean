import RecordQuery.Proofs.Compiler.Failure

/-! # Which types a statement is compiled with

Compiling looks up the types of a few names only, all of them under the source of the statement:
the bin of a predicate that compares it to a literal, the bin of a predicate that walks over it,
and the variable of that walk (`Atomic.typedNames`). Two schemas that read these names as the same
types compile the statement alike, to the same descriptor or the same error
(`compile_eq_of_typeAt`), so an entry of a schema that says nothing new about such a name is of no
effect (`compile_add`). -/

namespace RecordQuery

/-- The type with which a name of a source is read: a string, if the schema does not know it. -/
def Schema.typeAt (σ : Schema) (source name : String) : ParticleType :=
  (σ.typeOf? source name).getD .string

/-- The names whose types tell how the predicate is compiled. A fact about the record, a region
and a pattern bring their types with them. -/
def Atomic.typedNames (a : Atomic) : List String :=
  match a.subject, a.operator, a.operand with
  | .bin bin, .relation _, _ => [bin.text]
  | .bin bin, .iterate _ _, .iteration i =>
    [bin.text, Schema.variableName bin.text i.element.text]
  | _, _, _ => []

/-- The names whose types tell how the predicates of the WHERE clause are compiled. -/
def Statement.typedNames (s : Statement) : List String :=
  (WhereEntry.predicates s.entries).flatMap Atomic.typedNames

/-! ## Predicates -/

variable {types types' : Option TypeTable}

theorem literalValue_congr {name : String} (h : typeIn types name = typeIn types' name)
    (raw : String) : literalValue types name raw = literalValue types' name raw := by
  rw [literalValue, literalValue, h]

theorem containerKind_congr {bin : String} (h : typeIn types bin = typeIn types' bin)
    (part : CollectionPart) : containerKind types bin part = containerKind types' bin part := by
  unfold containerKind
  rw [h]

theorem Fragment.ofBin_congr {bin : String} (h : typeIn types bin = typeIn types' bin)
    (raw : String) (relation : Instruction) :
    ofBin types bin raw relation = ofBin types' bin raw relation := by
  rw [ofBin, ofBin, literalValue_congr h]

theorem Fragment.ofIteration_congr {bin : String} {i : Iteration}
    (hbin : typeIn types bin = typeIn types' bin)
    (helement : typeIn types (Schema.variableName bin i.element.text) =
      typeIn types' (Schema.variableName bin i.element.text))
    (part : CollectionPart) (q : Quantifier) :
    ofIteration types bin part q i = ofIteration types' bin part q i := by
  rw [ofIteration, ofIteration, containerKind_congr hbin, literalValue_congr helement]

theorem Atomic.fragment_congr {a : Atomic}
    (h : ∀ name ∈ a.typedNames, typeIn types name = typeIn types' name) :
    a.fragment types = a.fragment types' := by
  obtain ⟨subject, operator, operand, token⟩ := a
  unfold fragment
  dsimp only
  -- The forms of predicate in order: the first, and the last three, look up no type.
  split
  · rfl
  · exact Fragment.ofBin_congr (h _ (.head _)) _ _
  · exact Fragment.ofBin_congr (h _ (.head _)) _ _
  · rw [Fragment.ofIteration_congr (h _ (.head _)) (h _ (.tail _ (.head _)))]
  · rfl
  · rfl
  · rfl

/-! ## Statements -/

theorem Program.ofItems_congr {items : List OrderedItem}
    (h : ∀ a ∈ OrderedItem.predicates items, a.fragment types = a.fragment types') :
    ofItems types items = ofItems types' items := by
  induction items with
  | nil => rfl
  | cons item items ih =>
    cases item with
    | connective c => rw [ofItems_connective, ofItems_connective, ih h]
    | atomic a =>
      rw [OrderedItem.predicates_atomic, List.forall_mem_cons] at h
      rw [ofItems, ofItems, OrderedItem.compile, OrderedItem.compile, h.1, ih h.2]

variable {σ τ : Schema}

theorem Statement.compile_congr {s : Statement}
    (h : ∀ name ∈ s.typedNames,
      σ.typeAt s.source.fullName name = τ.typeAt s.source.fullName name) :
    s.compile σ = s.compile τ := by
  have hfragment : ∀ a ∈ WhereEntry.predicates s.entries,
      a.fragment (σ.typeTable? s.source.fullName) =
        a.fragment (τ.typeTable? s.source.fullName) := fun a ha =>
    Atomic.fragment_congr fun name hn => h name (List.mem_flatMap.mpr ⟨a, ha, hn⟩)
  cases hf : s.filter with
  | error e => rw [compile_of_filter_eq_error hf, compile_of_filter_eq_error hf]
  | ok filter =>
    cases ho : WhereEntry.order s.entries with
    | error e => rw [compile_of_order_eq_error hf ho, compile_of_order_eq_error hf ho]
    | ok items =>
      rw [← WhereEntry.predicates_order ho] at hfragment
      rw [compile_of_order hf ho, compile_of_order hf ho, Program.ofItems_congr hfragment]

theorem compile_congr {text : String}
    (h : ∀ s, Statement.parse text = .ok s → s.compile σ = s.compile τ) :
    compile σ text = compile τ text := by
  unfold compile
  cases hs : Statement.parse text with
  | error errors => rfl
  | ok s => simp only [h s hs]

/-! ## Entries that are of no effect -/

theorem Schema.typeAt_add (σ : Schema) (source bin : String) (type : ParticleType)
    (source' name : String) :
    (σ.add source bin type).typeAt source' name =
      if source' = source ∧ name = bin then type else σ.typeAt source' name := by
  by_cases hs : source' = source
  · subst hs
    have htable : (σ.add source' bin type).typeTable? source' =
        some (((σ.typeTable? source').getD .empty).insert bin type) :=
      Dictionary.get?_insert_self ..
    by_cases hn : name = bin
    · subst hn
      simp [typeAt, typeOf?, htable]
    · simp only [typeAt, typeOf?, htable, Option.bind_some, Dictionary.get?_insert_of_ne _ hn, hn,
        and_false, if_false]
      cases σ.typeTable? source' <;> rfl
  · have htable : (σ.add source bin type).typeTable? source' = σ.typeTable? source' :=
      Dictionary.get?_insert_of_ne _ hs _
    simp [typeAt, typeOf?, htable, hs]

/-- An entry is of no effect on a text unless its source is that of the text, its name is looked
up, and its type is not the one with which the name is read anyway. -/
theorem compile_add {text source bin : String} {type : ParticleType}
    (h : ∀ s, Statement.parse text = .ok s → s.source.fullName = source → bin ∈ s.typedNames →
      σ.typeAt source bin = type) :
    compile (σ.add source bin type) text = compile σ text := by
  refine compile_congr fun s hs => Statement.compile_congr fun name hn => ?_
  rw [Schema.typeAt_add]
  split
  · next he =>
    obtain ⟨hsource, rfl⟩ := he
    rw [hsource, h s hs hsource hn]
  · rfl

/-! ## Schemas that agree -/

/-- Two schemas that read the names of a statement that have a type as the same types compile it
alike. A text that is no statement has no such names. -/
theorem compile_eq_of_typeAt {text : String}
    (h : ∀ s, Statement.parse text = .ok s → ∀ name ∈ s.typedNames,
      σ.typeAt s.source.fullName name = τ.typeAt s.source.fullName name) :
    compile σ text = compile τ text :=
  compile_congr fun s hs => Statement.compile_congr (h s hs)

/-- A statement with predicates that look up types, and with some that do not. -/
def mixedPredicates : String :=
  "SELECT * FROM ns.t WHERE n > 1.9 AND tags CONTAINS (x = 2) OR p LIKE 'q' AND NOT TTL() < 5"

/-- A schema that knows the numbers of the statement only. -/
def numbersOnly : Schema :=
  (Schema.empty.add "ns.t" "n" .integer).addVariable "ns.t" "tags" "x" .integer

/-- A schema that says in addition what is not looked up, and what is so anyway. -/
def moreTypes : Schema :=
  ((numbersOnly.add "ns.t" "p" .list).add "ns.t" "tags" .string).add "ns" "n" .map

theorem compile_eq_of_typeAt_mixedPredicates :
    (∀ s, Statement.parse mixedPredicates = .ok s → ∀ name ∈ s.typedNames,
      numbersOnly.typeAt s.source.fullName name = moreTypes.typeAt s.source.fullName name) ∧
    compile numbersOnly mixedPredicates = compile moreTypes mixedPredicates := by
  have hread : (Statement.parse mixedPredicates).toOption.map
      (fun s => (s.source.fullName, s.typedNames)) = some ("ns.t", ["n", "tags", "tags.x"]) := by
    decide +kernel
  have h : ∀ s, Statement.parse mixedPredicates = .ok s → ∀ name ∈ s.typedNames,
      numbersOnly.typeAt s.source.fullName name = moreTypes.typeAt s.source.fullName name := by
    intro s hs
    rw [hs] at hread
    obtain ⟨hsource, hnames⟩ := Prod.mk.inj (Option.some.inj hread)
    rw [hsource, hnames]
    decide
  exact ⟨h, compile_eq_of_typeAt h⟩

end RecordQuery
