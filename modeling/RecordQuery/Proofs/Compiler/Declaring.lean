import Mathlib.Data.List.Basic
import RecordQuery.Proofs.Compiler.Locality

/-! # Declarations and the statements they are about

A schema keeps the set of a namespace under one name, the two with a point between them, and so it
keeps a variable under the name of its bin. Names without a point are found again in such a name
(`dotted_inj`), so a declaration is of effect on the statements only that it is about. A name that
has a point in it can be read as two, and then there may be others (`compile_declared`). -/

namespace RecordQuery

/-- The name has a point in it. Only a name between double quotes can have one. -/
def Pointed (name : String) : Prop := '.' ∈ name.toList

instance (name : String) : Decidable (Pointed name) :=
  inferInstanceAs (Decidable ('.' ∈ name.toList))

theorem toList_dotted (a b : String) : (a ++ "." ++ b).toList = a.toList ++ '.' :: b.toList := by
  simp

theorem pointed_dotted (a b : String) : Pointed (a ++ "." ++ b) := by
  rw [Pointed, toList_dotted]
  exact List.mem_append_right _ List.mem_cons_self

/-- Two names without a point are found again when they have been put together. -/
theorem dotted_inj {a b c d : String} (ha : ¬ Pointed a) (hb : ¬ Pointed b)
    (h : a ++ "." ++ b = c ++ "." ++ d) : a = c ∧ b = d := by
  have hl := congrArg String.toList h
  rw [toList_dotted, toList_dotted, List.append_cons_inj_of_notMem ha hb] at hl
  exact ⟨String.toList_inj.mp hl.1, String.toList_inj.mp hl.2.2⟩

/-! ## What a declaration is about -/

/-- The predicate walks over the bin with the variable. -/
inductive Atomic.WalksOver (bin element : String) : Atomic → Prop
  | mk {name : Name} {part : CollectionPart} {q : Option Quantifier} {i : Iteration} {t : Token}
    (hb : name.text = bin) (he : i.element.text = element) :
    WalksOver bin element ⟨.bin name, .iterate part q, .iteration i, t⟩

/-- The names of bins and variables in the predicate. -/
def Atomic.names (a : Atomic) : List String :=
  match a.subject, a.operand with
  | .bin bin, .iteration i => [bin.text, i.element.text]
  | .bin bin, _ => [bin.text]
  | .metadata _, _ => []

/-- The source is the set of the namespace. -/
structure Source.IsSet (s : Source) (space set : String) : Prop where
  space : s.space.text = space
  set : s.set.map (·.text) = some set

/-- The names of the namespace and of the set. -/
def Source.names (s : Source) : List String := s.space.text :: s.set.toList.map (·.text)

theorem Atomic.text_mem_names (bin : Name) (operator : AtomicOperator) (operand : Operand)
    (t : Token) : bin.text ∈ names ⟨.bin bin, operator, operand, t⟩ := by
  cases operand <;> exact List.mem_cons_self

/-- A predicate that looks up a variable walks over its bin with it, if no name has a point. -/
theorem Atomic.walksOver_or_pointed {a : Atomic} {bin element : String}
    (h : Schema.variableName bin element ∈ a.typedNames) :
    a.WalksOver bin element ∨ ∃ name ∈ a.names, Pointed name := by
  have whole {name : Name} (he : Schema.variableName bin element = name.text) :
      Pointed name.text := he ▸ pointed_dotted bin element
  obtain ⟨subject, operator, operand, t⟩ := a
  unfold typedNames at h
  dsimp only at h
  split at h
  · next name relation =>
    exact .inr ⟨name.text, text_mem_names .., whole (List.mem_singleton.mp h)⟩
  · next name part q i =>
    by_cases hp : Pointed name.text ∨ Pointed i.element.text
    · right
      rcases hp with hp | hp
      · exact ⟨_, .head _, hp⟩
      · exact ⟨_, .tail _ (.head _), hp⟩
    · obtain ⟨hname, helement⟩ := not_or.mp hp
      rcases List.mem_cons.mp h with he | he
      · exact absurd (whole he) hname
      · obtain ⟨hb, he⟩ := dotted_inj hname helement (List.mem_singleton.mp he).symm
        exact .inl (.mk hb he)
  · cases h

/-- A statement of a source with that name has that namespace and set, if no name has a point. -/
theorem Source.isSet_or_pointed {s : Source} {space set : String}
    (h : s.fullName = space ++ "." ++ set) :
    s.IsSet space set ∨ ∃ name ∈ s.names, Pointed name := by
  by_cases hp : ∃ name ∈ s.names, Pointed name
  · exact .inr hp
  · left
    rw [not_exists] at hp
    obtain ⟨space', _ | set'⟩ := s
    · have hspace : space'.text = space ++ "." ++ set := h
      exact absurd ⟨.head _, hspace ▸ pointed_dotted space set⟩ (hp space'.text)
    · have hspace : ¬ Pointed space'.text := fun h => hp _ ⟨.head _, h⟩
      have hset : ¬ Pointed set'.text := fun h => hp _ ⟨.tail _ (.head _), h⟩
      obtain ⟨rfl, rfl⟩ := dotted_inj hspace hset h
      exact ⟨rfl, rfl⟩

/-! ## What a declaration changes -/

variable {σ : Schema} {text source bin : String} {type : ParticleType}

/-- A statement that is compiled in another way after a declaration looks up what was declared. -/
theorem exists_parse_of_compile_add_ne
    (h : compile (σ.add source bin type) text ≠ compile σ text) :
    ∃ s, Statement.parse text = .ok s ∧ s.source.fullName = source ∧ bin ∈ s.typedNames := by
  by_contra hno
  apply h
  apply compile_add
  intro s hs hsource hbin
  exact absurd ⟨s, hs, hsource, hbin⟩ hno

/-- The declaration of a variable is of effect on a statement only if it walks over that bin of
that source with that variable, and the declaration of a bin only if it is about that set of that
namespace, unless a name in the statement has a point in it and spells, alone or with another, what
was declared. -/
theorem compile_declared (σ : Schema) (text : String) (type : ParticleType) :
    (∀ source bin element,
      compile (σ.addVariable source bin element type) text ≠ compile σ text →
      ∃ s, Statement.parse text = .ok s ∧ s.source.fullName = source ∧
        ∃ a ∈ WhereEntry.predicates s.entries, a.WalksOver bin element ∨
          (∃ name ∈ a.names, Pointed name) ∧ Schema.variableName bin element ∈ a.typedNames) ∧
    (∀ space set bin,
      compile (σ.add (space ++ "." ++ set) bin type) text ≠ compile σ text →
      ∃ s, Statement.parse text = .ok s ∧ (s.source.IsSet space set ∨
        (∃ name ∈ s.source.names, Pointed name) ∧
          s.source.fullName = space ++ "." ++ set)) := by
  constructor
  · intro source bin element h
    obtain ⟨s, hs, hsource, hname⟩ := exists_parse_of_compile_add_ne h
    obtain ⟨a, ha, hname⟩ := List.mem_flatMap.mp hname
    refine ⟨s, hs, hsource, a, ha, ?_⟩
    exact (Atomic.walksOver_or_pointed hname).imp_right fun hp => ⟨hp, hname⟩
  · intro space set bin h
    obtain ⟨s, hs, hsource, -⟩ := exists_parse_of_compile_add_ne h
    refine ⟨s, hs, ?_⟩
    exact (Source.isSet_or_pointed hsource).imp_right fun hp => ⟨hp, hsource⟩

/-- A statement that walks over a bin of a set. -/
def walkOfSet : String := "SELECT * FROM ns.t WHERE tags CONTAINS (x = '2')"

theorem compile_declared_walkOfSet :
    compile (Schema.empty.addVariable "ns.t" "tags" "x" .integer) walkOfSet ≠
      compile .empty walkOfSet ∧
    (∃ s, Statement.parse walkOfSet = .ok s ∧ s.source.fullName = "ns.t" ∧
      ∃ a ∈ WhereEntry.predicates s.entries, a.WalksOver "tags" "x" ∨
        (∃ name ∈ a.names, Pointed name) ∧ Schema.variableName "tags" "x" ∈ a.typedNames) ∧
    compile (Schema.empty.add "ns.t" "tags" .map) walkOfSet ≠ compile .empty walkOfSet ∧
    ∃ s, Statement.parse walkOfSet = .ok s ∧ (s.source.IsSet "ns" "t" ∨
      (∃ name ∈ s.source.names, Pointed name) ∧ s.source.fullName = "ns.t") := by
  have hvariable : compile (Schema.empty.addVariable "ns.t" "tags" "x" .integer) walkOfSet ≠
      compile .empty walkOfSet := by decide +kernel
  have hbin : compile (Schema.empty.add "ns.t" "tags" .map) walkOfSet ≠
      compile .empty walkOfSet := by decide +kernel
  obtain ⟨hwalk, -⟩ := compile_declared .empty walkOfSet .integer
  obtain ⟨-, hset⟩ := compile_declared .empty walkOfSet .map
  exact ⟨hvariable, hwalk _ _ _ hvariable, hbin, hset "ns" "t" "tags" hbin⟩

/-- A statement that compares a bin and walks over none. -/
def pointedBin : String := "SELECT * FROM ns WHERE \"ma.ko\" = '1'"

/-- A statement about a namespace, and no set of it. -/
def pointedSpace : String := "SELECT * FROM \"ns.t\" WHERE a = '1'"

/-- The declarations of a variable and of a bin of a set are of effect on these statements. -/
theorem compile_pointed :
    (∃ s, Statement.parse pointedBin = .ok s ∧
      ∀ a ∈ WhereEntry.predicates s.entries, ¬ a.WalksOver "ma" "ko") ∧
    compile (Schema.empty.addVariable "ns" "ma" "ko" .integer) pointedBin ≠
      compile .empty pointedBin ∧
    (∃ s, Statement.parse pointedSpace = .ok s ∧ ¬ s.source.IsSet "ns" "t") ∧
    compile (Schema.empty.add "ns.t" "a" .integer) pointedSpace ≠ compile .empty pointedSpace := by
  have hbin : (Statement.parse pointedBin).toOption.map
      (fun s => (WhereEntry.predicates s.entries).map (·.operator)) =
        some [.relation (.equality .equal)] := by decide +kernel
  have hspace : (Statement.parse pointedSpace).toOption.map (·.source.set) = some none := by
    decide +kernel
  refine ⟨?_, by decide +kernel, ?_, by decide +kernel⟩
  · obtain ⟨s, hs, hoperators⟩ := Option.map_eq_some_iff.mp hbin
    refine ⟨s, eq_ok_of_toOption hs, ?_⟩
    intro a ha hwalk
    have ho := List.mem_map_of_mem (f := (·.operator)) ha
    rw [hoperators] at ho
    cases hwalk
    cases List.mem_singleton.mp ho
  · obtain ⟨s, hs, hnone⟩ := Option.map_eq_some_iff.mp hspace
    refine ⟨s, eq_ok_of_toOption hs, ?_⟩
    intro h
    have hset := h.set
    rw [hnone] at hset
    cases hset

end RecordQuery
