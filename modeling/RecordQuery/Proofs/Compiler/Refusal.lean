import RecordQuery.Proofs.Compiler.Failure
import RecordQuery.Proofs.Statement.Respelling

/-! # Why a predicate is not compiled

A predicate that was read has instructions or one of five reasons to have none: a string is put in
order, a region is cast to another type, a collection is compared with a literal, the modulus of a
digest is no half word, or a number is no word. Several may hold of the same predicate, and the
first of them is told (`Atomic.Refusal`, `Atomic.refusal_of_parse`).

Four of the reasons are about a literal that something is tested against, by the predicate or by
its iteration (`Atomic.literalTest?`). So each kind of test is looked at once, for any literal
(`literalValue_eq_error_iff`, `MetadataCall.compile_eq_error_iff`). -/

namespace RecordQuery

/-! ## Tests against a literal -/

/-- What a literal is compared with: a fact about the record, or a value whose type is looked up by
a name. -/
inductive Tested
  | fact (call : MetadataCall)
  | value (name : String)

/-- A comparison with a literal. -/
structure LiteralTest where
  tested : Tested
  relation : Relation
  literal : Literal

/-- What is tested is a number: a fact always, a value if its type says so. -/
def Tested.IsNumeric (types : Option TypeTable) : Tested → Prop
  | fact _ => True
  | value name => typeIn types name = .integer ∨ typeIn types name = .double

namespace Atomic

/-- The comparison with a literal that the predicate or its iteration is. A region is not compared
but cast, and a pattern is matched as a string whatever the type of the bin. -/
def literalTest? (a : Atomic) : Option LiteralTest :=
  match a.subject, a.operator, a.operand with
  | .metadata call, .relation r, .literal l => some ⟨.fact call, r, l⟩
  | .bin bin, .relation r, .literal l => some ⟨.value bin.text, r, l⟩
  | .bin bin, .iterate _ _, .iteration i =>
    some ⟨.value (Schema.variableName bin.text i.element.text), i.relation, i.value⟩
  | _, _, _ => none

/-! ## The reasons -/

/-- The predicate or its iteration asks for the order of a string. -/
def OrdersString (a : Atomic) : Prop :=
  ∃ t ∈ a.literalTest?, (∃ op, t.relation = .comparison op) ∧ ∃ s, t.literal = .string s

/-- The predicate asks for a region, and the cast beside it is to `type` instead. -/
def Miscasts (a : Atomic) (type : String) : Prop :=
  ∃ r c, a.operator = .geo r ∧ a.operand = .cast c ∧ c.typeName = type ∧ type ≠ "GEOJSON"

/-- The predicate or its iteration compares with a literal what the schema has under `name` as a
collection. -/
def ComparesCollection (types : Option TypeTable) (a : Atomic) (name : String)
    (type : ParticleType) : Prop :=
  ∃ t ∈ a.literalTest?, t.tested = .value name ∧ typeIn types name = type ∧
    (type = .list ∨ type = .map)

/-- The modulus of a digest is `text`, and that is no number of 32 bits. -/
def MisreadsModulo (a : Atomic) (text : String) : Prop :=
  ∃ call n, a.subject = .metadata call ∧ call.name = .digest ∧ call.modulo = some n ∧
    n.text = text ∧ ∀ w, readWord text = .ok w →
      ¬ (Int32.minValue.toInt ≤ w.toInt ∧ w.toInt ≤ Int32.maxValue.toInt)

/-- The predicate or its iteration compares a number with `text`, and that is no number of 64
bits. -/
def MisreadsLiteral (types : Option TypeTable) (a : Atomic) (text : String) : Prop :=
  ∃ t ∈ a.literalTest?, t.tested.IsNumeric types ∧ t.literal.raw = text ∧
    ∀ w, readWord text ≠ .ok w

/-- Why a predicate has no instructions. A reason counts only if none of those before it holds. -/
inductive Refusal (types : Option TypeTable) (a : Atomic) : CompileError → Prop
  | order (h : a.OrdersString) : Refusal types a (.unsupportedPredicate a.text a.token.position)
  | cast (ho : ¬ a.OrdersString) {type : String} (h : a.Miscasts type) :
    Refusal types a (.expectedGeoJsonCast type)
  | collection (ho : ¬ a.OrdersString) (hc : ∀ type, ¬ a.Miscasts type) {name : String}
    {type : ParticleType} (h : a.ComparesCollection types name type) :
    Refusal types a (.unsupportedBinType name type.text)
  | modulo (ho : ¬ a.OrdersString) (hc : ∀ type, ¬ a.Miscasts type)
    (hl : ∀ name type, ¬ a.ComparesCollection types name type) {text : String}
    (h : a.MisreadsModulo text) : Refusal types a (.invalidNumber text)
  | literal (ho : ¬ a.OrdersString) (hc : ∀ type, ¬ a.Miscasts type)
    (hl : ∀ name type, ¬ a.ComparesCollection types name type)
    (hm : ∀ text, ¬ a.MisreadsModulo text) {text : String} (h : a.MisreadsLiteral types text) :
    Refusal types a (.invalidNumber text)

end Atomic

/-! ## Reading literals -/

variable {types : Option TypeTable} {name text raw : String} {e : CompileError}

theorem readWord_eq_error_iff :
    readWord text = .error e ↔ (∀ w, readWord text ≠ .ok w) ∧ e = .invalidNumber text := by
  unfold readWord
  cases wordOfText? text <;> simp [eq_comm]

theorem word32?_eq_none_iff {n : Int} :
    word32? n = none ↔ ¬ (Int32.minValue.toInt ≤ n ∧ n ≤ Int32.maxValue.toInt) := by
  unfold word32?
  split <;> simp_all

/-- A half word is read as a word first, and may be out of range then. -/
theorem readHalfWord_eq_error_iff :
    readHalfWord text = .error e ↔
      (∀ w, readWord text = .ok w →
        ¬ (Int32.minValue.toInt ≤ w.toInt ∧ w.toInt ≤ Int32.maxValue.toInt)) ∧
      e = .invalidNumber text := by
  unfold readHalfWord
  cases hw : readWord text with
  | error e' =>
    obtain ⟨-, rfl⟩ := readWord_eq_error_iff.mp hw
    simp [bind, Except.bind, eq_comm]
  | ok w =>
    simp only [bind, Except.bind, Except.ok.injEq, forall_eq', ← word32?_eq_none_iff]
    cases word32? w.toInt with
    | none => simp [throw, throwThe, MonadExceptOf.throw, eq_comm]
    | some v => simp [pure, Except.pure]

/-- A literal has no value beside a collection, nor beside a number if it is none. -/
theorem literalValue_eq_error_iff :
    literalValue types name raw = .error e ↔
      (∃ type, typeIn types name = type ∧ (type = .list ∨ type = .map) ∧
        e = .unsupportedBinType name type.text) ∨
      (typeIn types name = .integer ∨ typeIn types name = .double) ∧
        (∀ w, readWord raw ≠ .ok w) ∧ e = .invalidNumber raw := by
  unfold literalValue
  cases typeIn types name <;>
    simp [map_eq_error_iff, readWord_eq_error_iff, eq_comm (b := e)]

/-- A fact has no instruction just if it is a digest with a modulus that is no half word. -/
theorem MetadataCall.compile_eq_error_iff {m : MetadataCall}
    (hm : m.name = .digest ↔ m.modulo.isSome = true) :
    m.compile = .error e ↔
      ∃ n, m.name = .digest ∧ m.modulo = some n ∧ readHalfWord n.text = .error e := by
  unfold MetadataCall.compile
  cases hn : m.name with
  | digest =>
    obtain ⟨n, hn⟩ := Option.isSome_iff_exists.mp (hm.mp hn)
    simp [hn, map_eq_error_iff]
  | lastUpdate | recordSize | timeToLive => simp

/-! ## The result of a fragment -/

namespace Fragment

theorem result_extend_eq (made : List Instruction) (rest : Except CompileError (List Instruction)) :
    (extend made rest).result = (made ++ ·) <$> rest := by
  cases rest <;> rfl

theorem result_ofMetadata_eq_error_iff {m : MetadataCall} {r : Relation} {l : Literal} :
    (ofMetadata m r l).result = .error e ↔
      m.compile = .error e ∨ (∀ e, m.compile ≠ .error e) ∧ readWord l.raw = .error e := by
  unfold ofMetadata
  cases m.compile with
  | error e' => simp [failed, result]
  | ok m =>
    rw [result_extend_eq, map_eq_error_iff]
    cases readWord l.raw <;> simp [bind, Except.bind, pure, Except.pure]

theorem result_ofBin_eq_error_iff {i : Instruction} :
    (ofBin types name raw i).result = .error e ↔ literalValue types name raw = .error e := by
  rw [ofBin, result_extend_eq, map_eq_error_iff]
  cases literalValue types name raw <;> simp [bind, Except.bind, pure, Except.pure]

theorem result_ofIteration_eq_error_iff {part : CollectionPart} {q : Quantifier} {i : Iteration} :
    (ofIteration types name part q i).result = .error e ↔
      literalValue types (Schema.variableName name i.element.text) i.value.raw = .error e := by
  rw [ofIteration, result_extend_eq, map_eq_error_iff]
  cases literalValue types (Schema.variableName name i.element.text) i.value.raw <;>
    simp [bind, Except.bind, pure, Except.pure]

theorem result_ofGeo_eq_error_iff {r : RegionRelation} {c : Cast} :
    (ofGeo name r c).result = .error e ↔
      c.typeName ≠ "GEOJSON" ∧ e = .expectedGeoJsonCast c.typeName := by
  unfold ofGeo Cast.isGeoJson
  by_cases h : c.typeName = "GEOJSON"
  · simp [h, result]
  · simp [h, failed, result, eq_comm (a := e)]

end Fragment

/-! ## Predicates of each form -/

namespace Atomic

variable {a : Atomic} {t : LiteralTest}

/-- Only a number is compared with a fact. -/
theorem HasForm.number_of_fact (hf : a.HasForm) (ht : a.literalTest? = some t)
    {call : MetadataCall} (hn : t.tested = .fact call) : ∃ n, t.literal = .number n := by
  cases hf with
  | metadata hm => cases ht; exact ⟨_, rfl⟩
  | relation => cases ht; cases hn
  | iterate => cases ht; cases hn
  | region => cases ht
  | like => cases ht

theorem HasForm.result_of_ordersString (hf : a.HasForm) (h : a.OrdersString) :
    (a.fragment types).result = .error (.unsupportedPredicate a.text a.token.position) := by
  obtain ⟨t, ht, ⟨op, hr⟩, s, hs⟩ := h
  cases hf with
  | metadata hm => cases ht; cases hs
  | relation => cases ht; subst hr hs; rfl
  | @iterate _ _ _ i _ =>
    cases ht
    obtain ⟨element, relation, value, token⟩ := i
    subst hr hs
    rfl
  | region => cases ht
  | like => cases ht

theorem HasForm.result_of_fact (hf : a.HasForm) (ht : a.literalTest? = some t)
    {call : MetadataCall} (hn : t.tested = .fact call) :
    (a.fragment types).result = .error e ↔
      call.compile = .error e ∨
        (∀ e, call.compile ≠ .error e) ∧ readWord t.literal.raw = .error e := by
  cases hf with
  | metadata hm => cases ht; cases hn; exact Fragment.result_ofMetadata_eq_error_iff
  | relation => cases ht; cases hn
  | iterate => cases ht; cases hn
  | region => cases ht
  | like => cases ht

/-- A test of a bin or an element fails just if its literal has no value. -/
theorem HasForm.result_of_value (hf : a.HasForm) (ht : a.literalTest? = some t)
    (hn : t.tested = .value name) (ho : ¬ a.OrdersString) :
    (a.fragment types).result = .error e ↔
      literalValue types name t.literal.raw = .error e := by
  cases hf with
  | metadata hm => cases ht; cases hn
  | @relation _ r l =>
    cases ht
    cases hn
    cases r with
    | equality op => exact Fragment.result_ofBin_eq_error_iff
    | comparison op =>
      cases l with
      | number n => exact Fragment.result_ofBin_eq_error_iff
      | string s => exact absurd ⟨_, rfl, ⟨op, rfl⟩, s, rfl⟩ ho
  | @iterate _ _ _ i _ =>
    cases ht
    cases hn
    obtain ⟨element, r, l, token⟩ := i
    cases r with
    | equality op => exact Fragment.result_ofIteration_eq_error_iff
    | comparison op =>
      cases l with
      | number n => exact Fragment.result_ofIteration_eq_error_iff
      | string s => exact absurd ⟨_, rfl, ⟨op, rfl⟩, s, rfl⟩ ho
  | region => cases ht
  | like => cases ht

/-- The test is of a fact just if the predicate is about one. -/
theorem HasForm.subject_eq (hf : a.HasForm) (ht : a.literalTest? = some t) {call : MetadataCall} :
    a.subject = .metadata call ↔ t.tested = .fact call := by
  cases hf with
  | metadata hm => cases ht; simp
  | relation => cases ht; simp
  | iterate => cases ht; simp
  | region => cases ht
  | like => cases ht

theorem HasForm.not_miscasts (hf : a.HasForm) (ht : a.literalTest? = some t) (type : String) :
    ¬ a.Miscasts type := by
  rintro ⟨r, c, hr, -⟩
  cases hf with
  | metadata hm => cases hr
  | relation => cases hr
  | iterate => cases hr
  | region => cases ht
  | like => cases hr

theorem HasForm.modulo_iff (hf : a.HasForm) {call : MetadataCall} (h : a.subject = .metadata call) :
    call.name = .digest ↔ call.modulo.isSome = true := by
  cases hf with
  | metadata hm => cases h; exact hm
  | relation => cases h
  | iterate => cases h
  | region => cases h
  | like => cases h

/-- Where nothing is tested against a literal, only a cast can be wrong. -/
theorem HasForm.result_of_no_test (hf : a.HasForm) (ht : a.literalTest? = none) :
    (a.fragment types).result = .error e ↔
      ∃ type, a.Miscasts type ∧ e = .expectedGeoJsonCast type := by
  cases hf with
  | metadata hm => cases ht
  | relation => cases ht
  | iterate => cases ht
  | @region _ r c =>
    refine Fragment.result_ofGeo_eq_error_iff.trans ⟨?_, ?_⟩
    · rintro ⟨hc, rfl⟩
      exact ⟨_, ⟨r, c, rfl, rfl, rfl, hc⟩, rfl⟩
    · rintro ⟨type, ⟨r', c', hr, hc, rfl, ht⟩, rfl⟩
      cases hc
      exact ⟨ht, rfl⟩
  | like =>
    refine ⟨nofun, ?_⟩
    rintro ⟨type, ⟨r, c, hr, -⟩, -⟩
    cases hr

/-! ## The first reason -/

theorem refusal_iff_of_ordersString (ho : a.OrdersString) :
    a.Refusal types e ↔ e = .unsupportedPredicate a.text a.token.position := by
  constructor
  · intro h
    cases h with
    | order => rfl
    | cast ho' | collection ho' | modulo ho' | literal ho' => exact absurd ho ho'
  · rintro rfl
    exact .order ho

theorem HasForm.refusal_iff_of_no_test (hf : a.HasForm) (ht : a.literalTest? = none) :
    a.Refusal types e ↔ ∃ type, a.Miscasts type ∧ e = .expectedGeoJsonCast type := by
  have no {t : LiteralTest} {p : Prop} (h : t ∈ a.literalTest?) : p := by
    cases ht.symm.trans h
  constructor
  · intro h
    cases h with
    | order h =>
      obtain ⟨t, h, -⟩ := h
      exact no h
    | cast _ h => exact ⟨_, h, rfl⟩
    | collection _ _ h | literal _ _ _ _ h =>
      obtain ⟨t, h, -⟩ := h
      exact no h
    | modulo _ _ _ h =>
      obtain ⟨call, n, hs, -⟩ := h
      cases hf with
      | metadata hm => cases ht
      | relation | region | like | iterate => cases hs
  · rintro ⟨type, h, rfl⟩
    refine .cast ?_ h
    rintro ⟨t, h, -⟩
    exact no h

theorem HasForm.not_ordersString_of_fact (hf : a.HasForm) (ht : a.literalTest? = some t)
    {call : MetadataCall} (hn : t.tested = .fact call) : ¬ a.OrdersString := by
  rintro ⟨t', ht', -, s, hl⟩
  cases ht.symm.trans ht'
  obtain ⟨n, hl'⟩ := hf.number_of_fact ht hn
  cases hl.symm.trans hl'

theorem HasForm.misreadsModulo_iff (hf : a.HasForm) {call : MetadataCall}
    (hs : a.subject = .metadata call) {text : String} :
    a.MisreadsModulo text ↔ call.compile = .error (.invalidNumber text) := by
  rw [MetadataCall.compile_eq_error_iff (hf.modulo_iff hs)]
  constructor
  · rintro ⟨call', n, hs', hd, hn, rfl, hw⟩
    cases hs.symm.trans hs'
    exact ⟨n, hd, hn, readHalfWord_eq_error_iff.mpr ⟨hw, rfl⟩⟩
  · rintro ⟨n, hd, hn, hw⟩
    obtain ⟨hr, he⟩ := readHalfWord_eq_error_iff.mp hw
    cases he
    exact ⟨call, n, hs, hd, hn, rfl, hr⟩

theorem HasForm.exists_invalidNumber (hf : a.HasForm) {call : MetadataCall}
    (hs : a.subject = .metadata call) (h : call.compile = .error e) :
    ∃ text, e = .invalidNumber text := by
  obtain ⟨n, -, -, hw⟩ := (MetadataCall.compile_eq_error_iff (hf.modulo_iff hs)).mp h
  exact ⟨_, (readHalfWord_eq_error_iff.mp hw).2⟩

theorem HasForm.refusal_iff_of_fact (hf : a.HasForm) (ht : a.literalTest? = some t)
    {call : MetadataCall} (hn : t.tested = .fact call) :
    a.Refusal types e ↔
      call.compile = .error e ∨
        (∀ e, call.compile ≠ .error e) ∧ readWord t.literal.raw = .error e := by
  have hs := (hf.subject_eq ht).mpr hn
  have ho := hf.not_ordersString_of_fact ht hn
  have hm {text : String} : a.MisreadsModulo text ↔ call.compile = .error (.invalidNumber text) :=
    hf.misreadsModulo_iff hs
  have hl (name type) : ¬ a.ComparesCollection types name type := by
    rintro ⟨t', ht', hn', -⟩
    cases ht.symm.trans ht'
    cases hn.symm.trans hn'
  constructor
  · intro h
    cases h with
    | order h => exact absurd h ho
    | cast _ h => exact absurd h (hf.not_miscasts ht _)
    | collection _ _ h => exact absurd h (hl _ _)
    | modulo _ _ _ h => exact .inl (hm.mp h)
    | literal _ _ _ hm' h =>
      obtain ⟨t', ht', -, rfl, hw⟩ := h
      cases ht.symm.trans ht'
      refine .inr ⟨fun e he => ?_, readWord_eq_error_iff.mpr ⟨hw, rfl⟩⟩
      obtain ⟨text, rfl⟩ := hf.exists_invalidNumber hs he
      exact hm' _ (hm.mpr he)
  · rintro (h | ⟨h, hw⟩)
    · obtain ⟨text, rfl⟩ := hf.exists_invalidNumber hs h
      exact .modulo ho (hf.not_miscasts ht) hl (hm.mpr h)
    · obtain ⟨hr, rfl⟩ := readWord_eq_error_iff.mp hw
      refine .literal ho (hf.not_miscasts ht) hl (fun text h' => h _ (hm.mp h')) ?_
      exact ⟨t, ht, by rw [hn]; trivial, rfl, hr⟩

theorem HasForm.refusal_iff_of_value (hf : a.HasForm) (ht : a.literalTest? = some t)
    (hn : t.tested = .value name) (ho : ¬ a.OrdersString) :
    a.Refusal types e ↔ literalValue types name t.literal.raw = .error e := by
  have hm (text) : ¬ a.MisreadsModulo text := by
    rintro ⟨call, n, hs, -⟩
    cases hn.symm.trans ((hf.subject_eq ht).mp hs)
  have hl {n type} : a.ComparesCollection types n type ↔
      n = name ∧ typeIn types name = type ∧ (type = .list ∨ type = .map) := by
    simp only [ComparesCollection, ht, Option.mem_def, Option.some.injEq, exists_eq_left', hn,
      Tested.value.injEq]
    constructor
    · rintro ⟨rfl, h⟩
      exact ⟨rfl, h⟩
    · rintro ⟨rfl, h⟩
      exact ⟨rfl, h⟩
  rw [literalValue_eq_error_iff]
  constructor
  · intro h
    cases h with
    | order h => exact absurd h ho
    | cast _ h => exact absurd h (hf.not_miscasts ht _)
    | collection _ _ h =>
      obtain ⟨rfl, hty, hk⟩ := hl.mp h
      exact .inl ⟨_, hty, hk, rfl⟩
    | modulo _ _ _ h => exact absurd h (hm _)
    | literal _ _ _ _ h =>
      obtain ⟨t', ht', hi, rfl, hw⟩ := h
      cases ht.symm.trans ht'
      rw [hn] at hi
      exact .inr ⟨hi, hw, rfl⟩
  · rintro (⟨type, hty, hk, rfl⟩ | ⟨hi, hw, rfl⟩)
    · exact .collection ho (hf.not_miscasts ht) (hl.mpr ⟨rfl, hty, hk⟩)
    · refine .literal ho (hf.not_miscasts ht) ?_ hm ⟨t, ht, by rw [hn]; exact hi, rfl, hw⟩
      intro n type h
      obtain ⟨rfl, rfl, hk⟩ := hl.mp h
      rcases hi with hi | hi <;> simp [hi] at hk

/-- The error of a predicate is its first reason to have no instructions. -/
theorem HasForm.result_eq_error_iff (hf : a.HasForm) :
    (a.fragment types).result = .error e ↔ a.Refusal types e := by
  by_cases ho : a.OrdersString
  · rw [hf.result_of_ordersString ho, refusal_iff_of_ordersString ho, Except.error.injEq, eq_comm]
  cases ht : a.literalTest? with
  | none => rw [hf.result_of_no_test ht, hf.refusal_iff_of_no_test ht]
  | some t =>
    cases hn : t.tested with
    | fact call => rw [hf.result_of_fact ht hn, hf.refusal_iff_of_fact ht hn]
    | value name => rw [hf.result_of_value ht hn ho, hf.refusal_iff_of_value ht hn ho]

theorem forall_not_refusal_iff :
    (∀ e, ¬ a.Refusal types e) ↔
      ¬ a.OrdersString ∧ (∀ type, ¬ a.Miscasts type) ∧
      (∀ name type, ¬ a.ComparesCollection types name type) ∧
      (∀ text, ¬ a.MisreadsModulo text) ∧ ∀ text, ¬ a.MisreadsLiteral types text := by
  constructor
  · intro h
    have ho : ¬ a.OrdersString := fun ho => h _ (.order ho)
    have hc (type) : ¬ a.Miscasts type := fun hc => h _ (.cast ho hc)
    have hl (name type) : ¬ a.ComparesCollection types name type :=
      fun hl => h _ (.collection ho hc hl)
    have hm (text) : ¬ a.MisreadsModulo text := fun hm => h _ (.modulo ho hc hl hm)
    exact ⟨ho, hc, hl, hm, fun text hn => h _ (.literal ho hc hl hm hn)⟩
  · rintro ⟨ho, hc, hl, hm, hn⟩ e h
    cases h with
    | order h => exact ho h
    | cast _ h => exact hc _ h
    | collection _ _ h => exact hl _ _ h
    | modulo _ _ _ h => exact hm _ h
    | literal _ _ _ _ h => exact hn _ h

theorem HasForm.compiles_iff (hf : a.HasForm) : a.Compiles types ↔ ∀ e, ¬ a.Refusal types e := by
  simp only [← hf.result_eq_error_iff, Compiles]
  cases (a.fragment types).result <;> simp

end Atomic

theorem Statement.hasForm_of_mem_predicates {s : Statement} (hf : s.HasForm) {a : Atomic}
    (ha : a ∈ WhereEntry.predicates s.entries) : a.HasForm := by
  obtain ⟨entry, hm, he⟩ := List.mem_filterMap.mp ha
  obtain ⟨a', rfl⟩ : ∃ a', entry = .atomic a' := by
    cases entry <;> simp_all [WhereEntry.predicate?]
  cases he
  unfold entries at hm
  cases hw : s.condition with
  | none => rw [hw] at hm; cases hm
  | some w =>
    rw [hw] at hm
    exact (hf.condition w hw).atomic a hm

/-- A predicate of a statement that was read is refused for the first of five reasons that holds,
and compiled if none does, whatever the schema says about its bins. -/
theorem Atomic.refusal_of_parse {text : String} {s : Statement} (h : Statement.parse text = .ok s)
    {a : Atomic} (ha : a ∈ WhereEntry.predicates s.entries) (types : Option TypeTable) :
    (∀ e, (a.fragment types).result = .error e ↔ a.Refusal types e) ∧
    (a.Compiles types ↔
      ¬ a.OrdersString ∧ (∀ type, ¬ a.Miscasts type) ∧
      (∀ name type, ¬ a.ComparesCollection types name type) ∧
      (∀ text, ¬ a.MisreadsModulo text) ∧ ∀ text, ¬ a.MisreadsLiteral types text) := by
  have hf := Statement.hasForm_of_mem_predicates (Statement.parse_eq_ok_iff.mp h).2.hasForm ha
  constructor
  · intro e
    exact hf.result_eq_error_iff
  · exact hf.compiles_iff.trans forall_not_refusal_iff

/-- A statement with a modulus and a number beside it that are both too large. -/
def beyondBoth : String := "SELECT * FROM ns WHERE DIGEST(2147483648) > 1e99"

theorem Atomic.refusal_of_parse_beyondBoth :
    ∃ s a, Statement.parse beyondBoth = .ok s ∧ a ∈ WhereEntry.predicates s.entries ∧
      a.Refusal none (.invalidNumber "2147483648") ∧
      (a.Compiles none ↔
        ¬ a.OrdersString ∧ (∀ type, ¬ a.Miscasts type) ∧
        (∀ name type, ¬ a.ComparesCollection none name type) ∧
        (∀ text, ¬ a.MisreadsModulo text) ∧ ∀ text, ¬ a.MisreadsLiteral none text) := by
  have hs : ((Statement.parse beyondBoth).toOption.map fun s =>
      (WhereEntry.predicates s.entries).map fun a => (a.fragment none).failure) =
        some [some (.invalidNumber "2147483648")] := by decide +kernel
  obtain ⟨s, hp, hs⟩ := Option.map_eq_some_iff.mp hs
  obtain ⟨a, ha⟩ : ∃ a, WhereEntry.predicates s.entries = [a] :=
    List.length_eq_one_iff.mp (by simpa using congrArg List.length hs)
  have hmem : a ∈ WhereEntry.predicates s.entries := by simp [ha]
  have hparse := eq_ok_of_toOption hp
  have he : (a.fragment none).result = .error (.invalidNumber "2147483648") := by
    have hfail : (a.fragment none).failure = some (.invalidNumber "2147483648") := by
      rw [ha] at hs
      exact List.head_eq_of_cons_eq hs
    rw [Fragment.result, hfail]
  have hr := Atomic.refusal_of_parse hparse hmem none
  exact ⟨s, a, hparse, hmem, (hr.1 _).mp he, hr.2⟩

end RecordQuery
