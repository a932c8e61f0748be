import Mathlib.Data.List.TakeWhile
import RecordQuery.Proofs.Compiler.Layout
import RecordQuery.Proofs.Decimal.Range
import RecordQuery.Proofs.Json.Printing
import RecordQuery.Proofs.Statement.PlainCondition

/-! # The WITH clause of a filter

For every filter that a WITH clause can ask for there is one that is built by hand and asks for it
(`Filter.filter_clause`). Its text is the text of the filter, unless there are quotes in a region
(`Filter.text_clause`): the clause writes them twice, and the filter does not. -/

namespace RecordQuery

open Text Decimal

/-! ## What a WITH clause asks for -/

/-- The relation and the operand ask for the probe. -/
inductive IndexArgument.AsksFor : IndexLookup → IndexArgument → Probe → Prop
  | equal {l : Literal} {v : ProbeValue} (hl : l.probeValue = .ok v) :
    AsksFor .equal (.literal l) (.equal v)
  | contains {l : Literal} {v : ProbeValue} (hl : l.probeValue = .ok v) :
    AsksFor .contains (.literal l) (.contains v)
  | range {b : Bounds} {low high : Int64} (hl : readWord b.low.text = .ok low)
    (hh : readWord b.high.text = .ok high) : AsksFor .between (.between b) (.range low high)
  | geoContains {c : Cast} (hc : c.typeName = "GEOJSON") :
    AsksFor .contains (.cast c) (.geoContains c.value.value)
  | geoWithin {c : Cast} (hc : c.typeName = "GEOJSON") :
    AsksFor .within (.cast c) (.geoWithin c.value.value)

/-- What the index that is asked is built over. A question for equality is put to the index over
the plain bin. -/
def IndexClause.asked (e : IndexClause) : IndexCollection :=
  if e.relation = .equal then .scalar else e.collection.getD .scalar

theorem Cast.region_eq_ok_iff {c : Cast} {r : String} :
    c.region = .ok r ↔ c.typeName = "GEOJSON" ∧ c.value.value = r := by
  unfold region isGeoJson
  split <;> simp_all

/-- The filter of a WITH clause has its bin, the index that it asks, and what it asks for. -/
theorem IndexClause.filter_eq_ok_iff {e : IndexClause} {f : Filter} :
    e.filter = .ok f ↔ f.bin = e.bin.text ∧ f.collection = e.asked ∧
      IndexArgument.AsksFor e.relation e.operand f.probe := by
  obtain ⟨collection, bin, relation, operand, t⟩ := e
  constructor
  · intro h
    cases relation with
    | equal =>
      cases operand with
      | literal l =>
        obtain ⟨v, hv, ⟨⟩⟩ := bind_eq_ok_iff.mp h
        exact ⟨rfl, rfl, .equal hv⟩
      | _ => cases h
    | contains =>
      cases operand with
      | literal l =>
        obtain ⟨v, hv, ⟨⟩⟩ := bind_eq_ok_iff.mp h
        exact ⟨rfl, rfl, .contains hv⟩
      | cast c =>
        obtain ⟨r, hr, ⟨⟩⟩ := bind_eq_ok_iff.mp h
        obtain ⟨hc, rfl⟩ := Cast.region_eq_ok_iff.mp hr
        exact ⟨rfl, rfl, .geoContains hc⟩
      | between b => cases h
    | within =>
      cases operand with
      | cast c =>
        obtain ⟨r, hr, ⟨⟩⟩ := bind_eq_ok_iff.mp h
        obtain ⟨hc, rfl⟩ := Cast.region_eq_ok_iff.mp hr
        exact ⟨rfl, rfl, .geoWithin hc⟩
      | _ => cases h
    | between =>
      cases operand with
      | between b =>
        obtain ⟨low, hl, h⟩ := bind_eq_ok_iff.mp h
        obtain ⟨high, hh, ⟨⟩⟩ := bind_eq_ok_iff.mp h
        exact ⟨rfl, rfl, .range hl hh⟩
      | _ => cases h
  · obtain ⟨bin, collection, probe⟩ := f
    rintro ⟨rfl, rfl, h⟩
    cases h with
    | equal hl | contains hl => exact bind_eq_ok_iff.mpr ⟨_, hl, rfl⟩
    | range hl hh => exact bind_eq_ok_iff.mpr ⟨_, hl, bind_eq_ok_iff.mpr ⟨_, hh, rfl⟩⟩
    | geoContains hc | geoWithin hc =>
      exact bind_eq_ok_iff.mpr ⟨_, Cast.region_eq_ok_iff.mpr ⟨hc, rfl⟩, rfl⟩

theorem Statement.filter_eq_ok_some_iff {s : Statement} {f : Filter} :
    s.filter = .ok (some f) ↔ ∃ e, s.index = some e ∧ e.filter = .ok f := by
  unfold filter
  cases s.index with
  | none => simp
  | some e => simp [map_eq_ok_iff]

theorem unplaced_eq_ok_iff {x : Except CompileError α} {a : α} :
    unplaced x = .ok a ↔ x = .ok a := by
  cases x <;> simp [unplaced, Except.mapError]

theorem Statement.filter_eq_ok_iff_of_bare_eq {s s' : Statement} {o : Option Filter}
    (h : s'.bare = s.bare) : s'.filter = .ok o ↔ s.filter = .ok o := by
  rw [← unplaced_eq_ok_iff, ← s'.filter_bare, h, s.filter_bare, unplaced_eq_ok_iff]

/-! ## Integers as they are printed -/

namespace WrittenInteger

/-- The integer as it is printed. -/
def ofInt (n : ℤ) : WrittenInteger where
  sign := if 0 ≤ n then [] else ['-']
  digits := Nat.toDigits 10 n.natAbs
  sign_eq := by split <;> simp
  isDigits := ⟨Nat.toDigits_ne_nil, Json.isDigit_of_mem_toDigits _⟩

theorem text_ofInt (n : ℤ) : (ofInt n).text = toString n := by
  apply String.toList_inj.mp
  rw [text, String.toList_ofList, Json.toList_toString]
  dsimp only [ofInt]
  split
  · rw [List.nil_append, show n.toNat = n.natAbs by omega]
  · rw [List.singleton_append, show (-n).toNat = n.natAbs by omega]

theorem value_ofInt (n : ℤ) : (ofInt n).value = n := by
  have hd : digitsValue (ofInt n).digits = n.natAbs := Json.digitsValue_toDigits _
  rw [value, hd]
  by_cases hn : 0 ≤ n
  · rw [signed_of_ne (by simp [ofInt, hn])]
    omega
  · rw [signed_of_eq (by simp [ofInt, hn])]
    omega

end WrittenInteger

/-- A word is read from its digits. -/
theorem readWord_toString (n : Int64) : readWord (toString n.toInt) = .ok n := by
  have hw : (WrittenInteger.ofInt n.toInt).IsWord := by
    rw [WrittenInteger.IsWord, WrittenInteger.value_ofInt]
    exact ⟨n.le_toInt, Int.le_sub_one_of_lt n.toInt_lt⟩
  have h := WrittenInteger.map_toInt_of_isWord _ hw
  rw [WrittenInteger.text_ofInt, WrittenInteger.value_ofInt] at h
  obtain ⟨m, hm, h⟩ := map_eq_ok_iff.mp h
  rw [hm, Int64.toInt_inj.mp h]

/-! ## The clause that is built for a filter -/

def ProbeValue.literal : ProbeValue → Literal
  | integer n => .number ⟨toString n.toInt, .forgotten⟩
  | string s => .string ⟨s, .forgotten⟩

namespace Probe

def relation : Probe → IndexLookup
  | equal _ => .equal
  | contains _ | geoContains _ => .contains
  | range _ _ => .between
  | geoWithin _ => .within

def operand : Probe → IndexArgument
  | equal v | contains v => .literal v.literal
  | range low high =>
    .between ⟨⟨toString low.toInt, .forgotten⟩, ⟨toString high.toInt, .forgotten⟩, .forgotten⟩
  | geoContains region | geoWithin region => .cast ⟨⟨region, .forgotten⟩, "GEOJSON", .forgotten⟩

/-- The region that is asked for. -/
def region? : Probe → Option String
  | geoContains region | geoWithin region => some region
  | _ => none

end Probe

/-- The clause that asks what the filter asks. An index over the plain bin is not declared. -/
def Filter.clause (f : Filter) : IndexClause :=
  ⟨if f.collection = .scalar then none else some f.collection, ⟨f.bin, .forgotten⟩,
    f.probe.relation, f.probe.operand, .forgotten⟩

theorem ProbeValue.probeValue_literal (v : ProbeValue) : v.literal.probeValue = .ok v := by
  cases v with
  | integer n => exact map_eq_ok_iff.mpr ⟨n, readWord_toString n, rfl⟩
  | string s => rfl

theorem Probe.asksFor (p : Probe) : IndexArgument.AsksFor p.relation p.operand p := by
  cases p with
  | equal v => exact .equal v.probeValue_literal
  | contains v => exact .contains v.probeValue_literal
  | range low high => exact .range (readWord_toString low) (readWord_toString high)
  | geoContains region => exact .geoContains rfl
  | geoWithin region => exact .geoWithin rfl

theorem IndexArgument.AsksFor.relation_eq {r : IndexLookup} {a : IndexArgument} {p : Probe}
    (h : AsksFor r a p) : p.relation = r := by
  cases h <;> rfl

/-- The clause that is built for a filter asks the same index. -/
theorem Filter.asked_clause {f : Filter} (h : f.probe.relation = .equal → f.collection = .scalar) :
    f.clause.asked = f.collection := by
  unfold IndexClause.asked clause
  dsimp only
  by_cases hr : f.probe.relation = .equal
  · rw [if_pos hr, h hr]
  · rw [if_neg hr]
    split_ifs with hc
    · exact hc.symm
    · rfl

/-- A filter that some clause asks is what its own clause asks. -/
theorem Filter.filter_clause {e : IndexClause} {f : Filter} (h : e.filter = .ok f) :
    f.clause.filter = .ok f := by
  obtain ⟨-, hc, hp⟩ := IndexClause.filter_eq_ok_iff.mp h
  have hs : f.probe.relation = .equal → f.collection = .scalar := fun hr => by
    rw [hc, IndexClause.asked, if_pos (hp.relation_eq ▸ hr)]
  exact IndexClause.filter_eq_ok_iff.mpr ⟨rfl, (asked_clause hs).symm, f.probe.asksFor⟩

/-! ## Its text -/

theorem doubled_eq_self {quote : Char} {cs : List Char} (h : quote ∉ cs) :
    doubled quote cs = cs := by
  induction cs with
  | nil => rfl
  | cons c cs ih =>
    obtain ⟨hc, hcs⟩ := not_or.mp (mt List.mem_cons.mpr h)
    rw [doubled, if_neg (Ne.symm hc), ih hcs]

theorem ProbeValue.text_literal (v : ProbeValue) : v.literal.text = v.text := by
  cases v <;> rfl

/-- The clause of a filter is printed as the filter, if no quotes are in its region. -/
theorem Filter.text_clause {f : Filter} (h : ∀ r ∈ f.probe.region?, '\'' ∉ r.toList) :
    f.clause.text = f.text := by
  obtain ⟨bin, c, p⟩ := f
  have hr {r : String} (hr : '\'' ∉ r.toList) :
      Cast.text ⟨⟨r, .forgotten⟩, "GEOJSON", .forgotten⟩ = regionText r := by
    apply String.toList_inj.mp
    simp [Cast.text, StringLiteral.text, singleQuoted, regionText, doubled_eq_self hr]
  apply String.toList_inj.mp
  cases p with
  | equal v | contains v =>
    by_cases hc : c = .scalar <;>
      simp [clause, text, IndexClause.text, hc, Probe.operand, Probe.relation, IndexArgument.text,
        IndexLookup.text, v.text_literal]
  | range low high =>
    by_cases hc : c = .scalar <;>
      simp [clause, text, IndexClause.text, hc, Probe.operand, Probe.relation, Bounds.text]
  | geoContains r | geoWithin r =>
    by_cases hc : c = .scalar <;>
      simp [clause, text, IndexClause.text, hc, Probe.operand, Probe.relation, IndexArgument.text,
        IndexLookup.text, hr (h r rfl)]

/-! ## Reading it -/

theorem Token.scanNumber_digits {cs : List Char} (h : ∀ c ∈ cs, c.isDigit = true) :
    scanNumber cs = .verbatim .integer cs := by
  have hw : cs.takeWhile Char.isDigit = cs := List.takeWhile_eq_self_iff.mpr h
  simp [scanNumber, hw, fractionOf, exponentOf]

theorem NumberLiteral.isPlain_toString (n : ℤ) (t : Token) : IsPlain ⟨toString n, t⟩ := by
  have hd : Token.LexesAlone Token.isNumber (String.ofList (Nat.toDigits 10 n.natAbs)) := by
    obtain ⟨c, cs, hc, hdigit⟩ := Json.exists_toDigits_eq_cons n.natAbs
    rw [Token.lexesAlone_isNumber_iff, String.toList_ofList]
    exact ⟨c, cs, .integer, hc, hdigit, .inl rfl,
      Token.scanNumber_digits (Json.isDigit_of_mem_toDigits _)⟩
  refine ⟨_, hd, ?_⟩
  dsimp only
  rw [← WrittenInteger.text_ofInt]
  by_cases hn : 0 ≤ n
  · simp [WrittenInteger.text, WrittenInteger.ofInt, hn]
  · right
    apply String.toList_inj.mp
    simp [WrittenInteger.text, WrittenInteger.ofInt, hn]

theorem ProbeValue.isPlain_literal (v : ProbeValue) : v.literal.IsPlain := by
  cases v with
  | integer n => exact NumberLiteral.isPlain_toString n.toInt _
  | string s => trivial

theorem Probe.whole_operand (p : Probe) : ∀ q ∈ p.operand.pieces p.relation, q.Whole := by
  cases p with
  | equal v | contains v =>
    exact List.forall_mem_cons.mpr ⟨trivial, List.forall_mem_cons.mpr
      ⟨trivial, v.isPlain_literal.whole⟩⟩
  | range low high =>
    have hl := (NumberLiteral.isPlain_toString low.toInt .forgotten).whole
    have hh := (NumberLiteral.isPlain_toString high.toInt .forgotten).whole
    simp only [operand, IndexArgument.pieces, Bounds.pieces, List.forall_mem_cons,
      List.forall_mem_append]
    exact ⟨trivial, trivial, hl, trivial, trivial, trivial, hh⟩
  | geoContains r | geoWithin r =>
    exact List.forall_mem_cons.mpr ⟨trivial, List.forall_mem_cons.mpr
      ⟨trivial, Cast.whole_of_typeName rfl⟩⟩

namespace Filter

variable {f : Filter}

/-- The names and numbers of the clause are spelled so that each is one token. -/
theorem whole_clause (hb : Token.LexesAlone Token.isName f.bin) :
    ∀ p ∈ f.clause.pieces, p.Whole := by
  have h : ∀ p ∈ .name f.bin :: .blank :: f.probe.operand.pieces f.probe.relation, p.Whole :=
    List.forall_mem_cons.mpr ⟨hb, List.forall_mem_cons.mpr ⟨trivial, f.probe.whole_operand⟩⟩
  obtain ⟨bin, _ | _ | _ | _, probe⟩ := f
  · exact h
  all_goals exact List.forall_mem_cons.mpr ⟨trivial, List.forall_mem_cons.mpr ⟨trivial, h⟩⟩

theorem hasForm_clause (f : Filter) : f.clause.HasForm := by
  constructor
  · dsimp only [clause]
    split_ifs with h
    · nofun
    · simpa using h
  · unfold clause
    cases f.probe <;> simp [Probe.operand, Probe.relation, IndexArgument.HasForm]

end Filter

/-- The statement that asks the index, in the namespace `ns`. -/
def Statement.ofIndex (e : IndexClause) : Statement :=
  ⟨.star, ⟨⟨"ns", .forgotten⟩, none⟩, some e, none, .forgotten⟩

theorem Statement.text_ofIndex (e : IndexClause) :
    (ofIndex e).text = "SELECT * FROM ns WITH " ++ e.text := by
  apply String.toList_inj.mp
  simp [ofIndex, text, SelectList.text, Source.fullName]

/-- The printed clause of a filter asks what the filter asks, if its bin needs neither quotes nor
parentheses. -/
theorem Filter.exists_parse_clause {e : IndexClause} {f : Filter} (hf : e.filter = .ok f)
    (hb : Token.LexesAlone Token.isName f.bin)
    (hr : Name.isIndexRelation ⟨f.bin, .forgotten⟩ = false) :
    ∃ s, Statement.parse ("SELECT * FROM ns WITH " ++ f.clause.text) = .ok s ∧
      s.filter = .ok (some f) := by
  have hform : (Statement.ofIndex f.clause).HasForm := by
    refine ⟨nofun, ?_, nofun⟩
    rintro _ ⟨⟩
    exact f.hasForm_clause
  have hprint : (Statement.ofIndex f.clause).IsReprintable := by
    constructor
    · simpa [Statement.ofIndex, Statement.pieces, SelectList.pieces, Source.pieces, Piece.Whole]
        using ⟨Token.lexesAlone_ns, whole_clause hb⟩
    · rintro _ ⟨⟩ -
      exact hr
  obtain ⟨s, hs, hbare⟩ := Statement.exists_parse_text hform hprint
  rw [Statement.text_ofIndex] at hs
  refine ⟨s, hs, (Statement.filter_eq_ok_iff_of_bare_eq hbare).mpr ?_⟩
  exact map_eq_ok_iff.mpr ⟨f, filter_clause hf, rfl⟩

end RecordQuery
