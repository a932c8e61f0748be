import Mathlib.Logic.ExistsUnique
import RecordQuery.Proofs.Expression.Basic

/-! # Reading a clause as an expression

`Expression.read` goes through the entries of a clause from left to right. What it has read but
could not finish waits: inside of each open parenthesis the operands before the last `OR`, those
between it and the last `AND`, and the `NOT`s before the operand that is due. It finds the
expression that a clause stands for (`Expression.read_eq_some_iff`), and it finds one whenever
operands and connectives alternate and the parentheses match (`Expression.isSome_read`). So such
a clause has one reading and no other (`Expression.existsUnique_isReadingOf`). -/

namespace RecordQuery
namespace Expression

/-! ## The reader -/

/-- The expression behind `n` `NOT`s. -/
def negated : Nat → Expression → Expression
  | 0, e => e
  | n + 1, e => negated n (not e)

/-- The conjunction of `l`, if there is one, and `e`. -/
def andAfter (l : Option Expression) (e : Expression) : Expression := l.elim e (and · e)

/-- The disjunction of `l`, if there is one, and `e`. -/
def orAfter (l : Option Expression) (e : Expression) : Expression := l.elim e (or · e)

/-- What stands between a parenthesis, or the start, and the operand that is due. -/
structure Pending where
  disjunct : Option Expression
  conjunct : Option Expression
  nots : Nat

/-- Nothing stands before the operand. -/
def Pending.none : Pending := ⟨.none, .none, 0⟩

/-- The conjunction that ends with the operand `e`. -/
def Pending.conjunction (p : Pending) (e : Expression) : Expression :=
  andAfter p.conjunct (negated p.nots e)

mutual

/-- Reads on where an operand is due. The parentheses that are open wait on `outer`, each with
what stands before it. -/
def readOperand (outer : List (Pending × Token)) (p : Pending) :
    List WhereEntry → Option Expression
  | .openParen s :: es => readOperand ((p, s) :: outer) .none es
  | .connective .not :: es => readOperand outer { p with nots := p.nots + 1 } es
  | .atomic a :: es => readConnective outer p.disjunct (p.conjunction (atomic a)) es
  | _ => none

/-- Reads on behind the conjunction `c`, before which there may stand `left` and an `OR`. -/
def readConnective (outer : List (Pending × Token)) (left : Option Expression)
    (c : Expression) : List WhereEntry → Option Expression
  | [] => if outer.isEmpty then some (orAfter left c) else none
  | .closeParen t :: es =>
    match outer with
    | [] => none
    | (p, s) :: outer =>
      readConnective outer p.disjunct (p.conjunction (group s t (orAfter left c))) es
  | .connective .and :: es => readOperand outer ⟨left, some c, 0⟩ es
  | .connective .or :: es => readOperand outer ⟨some (orAfter left c), none, 0⟩ es
  | _ => none

end

/-- The expression that a clause stands for. -/
def read (es : List WhereEntry) : Option Expression := readOperand [] .none es

/-! ## What waits while a clause is read -/

theorem entries_negated (n : Nat) (e : Expression) :
    (negated n e).entries = List.replicate n (.connective .not) ++ e.entries := by
  induction n generalizing e with
  | zero => rfl
  | succ n ih => rw [negated, ih, List.replicate_succ', List.append_assoc]; rfl

/-- An operand behind any number of `NOT`s is grouped, and binds more tightly than a conjunction. -/
theorem wellGrouped_negated {e : Expression} (h : e.strength = 3) (he : e.WellGrouped) (n : Nat) :
    2 ≤ (negated n e).strength ∧ (negated n e).WellGrouped := by
  have key : ∀ (n : Nat) (e : Expression), 2 ≤ e.strength → e.WellGrouped →
      2 ≤ (negated n e).strength ∧ (negated n e).WellGrouped := by
    intro n
    induction n with
    | zero => exact fun e h2 he => ⟨h2, he⟩
    | succ n ih => exact fun e h2 he => ih (not e) (Nat.le_refl 2) ⟨h2, he⟩
  exact key n e (by omega) he

/-- The entries of `l`, if there is such a thing, and the connective `c` behind it. -/
def entriesBefore (l : Option Expression) (c : Connective) : List WhereEntry :=
  l.elim [] fun e => e.entries ++ [.connective c]

theorem entries_andAfter (l : Option Expression) (e : Expression) :
    (andAfter l e).entries = entriesBefore l .and ++ e.entries := by
  cases l <;> simp [andAfter, entriesBefore, entries]

theorem entries_orAfter (l : Option Expression) (e : Expression) :
    (orAfter l e).entries = entriesBefore l .or ++ e.entries := by
  cases l <;> simp [orAfter, entriesBefore, entries]

namespace Pending

/-- The entries that wait. -/
def entries (p : Pending) : List WhereEntry :=
  entriesBefore p.disjunct .or ++ entriesBefore p.conjunct .and ++
    List.replicate p.nots (.connective .not)

/-- What waits is grouped, and it binds as tightly as what is to come needs it to. -/
structure WellGrouped (p : Pending) : Prop where
  disjunct : ∀ e ∈ p.disjunct, e.WellGrouped
  conjunct : ∀ e ∈ p.conjunct, 1 ≤ e.strength ∧ e.WellGrouped

theorem WellGrouped.none : Pending.none.WellGrouped := ⟨nofun, nofun⟩

theorem entries_conjunction (p : Pending) (e : Expression) :
    entriesBefore p.disjunct .or ++ (p.conjunction e).entries = p.entries ++ e.entries := by
  simp [conjunction, entries, entries_andAfter, entries_negated]

theorem WellGrouped.conjunction {p : Pending} (hp : p.WellGrouped) {e : Expression}
    (h : e.strength = 3) (he : e.WellGrouped) :
    1 ≤ (p.conjunction e).strength ∧ (p.conjunction e).WellGrouped := by
  have hn := wellGrouped_negated h he p.nots
  rw [Pending.conjunction]
  cases hc : p.conjunct with
  | none => exact ⟨Nat.le_of_succ_le hn.1, hn.2⟩
  | some l => exact ⟨Nat.le_refl 1, hp.conjunct l hc, hn⟩

end Pending

theorem wellGrouped_orAfter {l : Option Expression} {c : Expression}
    (hl : ∀ e ∈ l, e.WellGrouped) (hc : 1 ≤ c.strength ∧ c.WellGrouped) :
    (orAfter l c).WellGrouped := by
  cases l with
  | none => exact hc.2
  | some l => exact ⟨hl l rfl, hc⟩

/-- The entries that wait outside of the innermost open parenthesis, with that parenthesis. -/
def outerEntries : List (Pending × Token) → List WhereEntry
  | [] => []
  | (p, s) :: outer => outerEntries outer ++ p.entries ++ [.openParen s]

/-! ## What is read stands for its entries -/

/-- What is read where an operand is awaited stands for its entries and those that wait. -/
def OperandSound (es : List WhereEntry) : Prop :=
  ∀ outer p e, (∀ q ∈ outer, q.1.WellGrouped) → p.WellGrouped → readOperand outer p es = some e →
    e.IsReadingOf (outerEntries outer ++ p.entries ++ es)

/-- What is read behind an operand stands for its entries and those that were read before. -/
def ConnectiveSound (es : List WhereEntry) : Prop :=
  ∀ outer left c e, (∀ q ∈ outer, q.1.WellGrouped) → (∀ l ∈ left, l.WellGrouped) →
    1 ≤ c.strength ∧ c.WellGrouped → readConnective outer left c es = some e →
    e.IsReadingOf (outerEntries outer ++ (orAfter left c).entries ++ es)

variable {es : List WhereEntry}

theorem connectiveSound_nil : ConnectiveSound [] := by
  intro outer left c e _ hl hc h
  cases outer with
  | nil =>
    cases h
    exact ⟨wellGrouped_orAfter hl hc, by simp [outerEntries]⟩
  | cons q outer => simp [readConnective] at h

/-- Where an operand is due, an open parenthesis and a `NOT` wait, and a predicate is what they have
waited for. -/
theorem OperandSound.cons (ih : OperandSound es) (ihc : ConnectiveSound es) (entry : WhereEntry) :
    OperandSound (entry :: es) := by
  intro outer p e ho hp h
  cases entry with
  | openParen s =>
    have := ih ((p, s) :: outer) .none e (by simpa [hp] using ho) .none h
    simpa [outerEntries, Pending.entries, Pending.none, entriesBefore] using this
  | closeParen t => cases h
  | atomic a =>
    have hc := hp.conjunction (e := atomic a) rfl trivial
    have := ihc outer p.disjunct (p.conjunction (atomic a)) e ho hp.disjunct hc h
    rw [entries_orAfter, p.entries_conjunction] at this
    simpa [entries] using this
  | connective k =>
    cases k with
    | not =>
      have := ih outer { p with nots := p.nots + 1 } e ho ⟨hp.1, hp.2⟩ h
      simpa [Pending.entries, List.replicate_succ'] using this
    | and | or => cases h

/-- Behind an operand, a connective makes it wait, and a closing parenthesis takes what waits
outside. -/
theorem ConnectiveSound.cons (ih : OperandSound es) (ihc : ConnectiveSound es)
    (entry : WhereEntry) : ConnectiveSound (entry :: es) := by
  intro outer left c e ho hl hc h
  cases entry with
  | openParen s | atomic a => cases h
  | closeParen t =>
    cases outer with
    | nil => cases h
    | cons q outer =>
      obtain ⟨p, s⟩ := q
      have hp : p.WellGrouped := ho (p, s) (by simp)
      have hg := hp.conjunction (e := group s t (orAfter left c)) rfl (wellGrouped_orAfter hl hc)
      have := ihc outer p.disjunct _ e (fun q hq => ho q (by simp [hq])) hp.disjunct hg h
      rw [entries_orAfter, p.entries_conjunction] at this
      simpa [outerEntries, entries] using this
  | connective k =>
    cases k with
    | not => cases h
    | and =>
      have := ih outer ⟨left, some c, 0⟩ e ho ⟨hl, by simpa using hc⟩ h
      simpa [Pending.entries, entriesBefore, entries_orAfter] using this
    | or =>
      have := ih outer ⟨some (orAfter left c), none, 0⟩ e ho
        ⟨by simpa using wellGrouped_orAfter hl hc, by simp⟩ h
      simpa [Pending.entries, entriesBefore, entries_orAfter] using this

/-- The two states take turns, so they are shown together. -/
theorem operandSound_and_connectiveSound (es : List WhereEntry) :
    OperandSound es ∧ ConnectiveSound es := by
  induction es with
  | nil => exact ⟨fun _ _ _ _ _ h => (nomatch h), connectiveSound_nil⟩
  | cons entry es ih => exact ⟨.cons ih.1 ih.2 entry, .cons ih.1 ih.2 entry⟩

/-! ## What an expression is written as is read as that expression -/

/-- What the reader makes of the entries of `e`, by how tightly `e` binds. -/
structure ReadsBack (e : Expression) : Prop where
  operand : 2 ≤ e.strength → ∀ outer p es,
    readOperand outer p (e.entries ++ es) = readConnective outer p.disjunct (p.conjunction e) es
  conjunct : 1 ≤ e.strength → ∀ outer left es,
    readOperand outer ⟨left, none, 0⟩ (e.entries ++ es) = readConnective outer left e es
  whole : ∀ outer es, ∃ left c, orAfter left c = e ∧
    readOperand outer .none (e.entries ++ es) = readConnective outer left c es

namespace ReadsBack

/-- An expression that is no disjunction has to be read back in the place of a conjunct. -/
theorem of_conjunct {e : Expression}
    (h2 : 2 ≤ e.strength → ∀ outer p es,
      readOperand outer p (e.entries ++ es) = readConnective outer p.disjunct (p.conjunction e) es)
    (h1 : ∀ outer left es,
      readOperand outer ⟨left, none, 0⟩ (e.entries ++ es) = readConnective outer left e es) :
    e.ReadsBack :=
  ⟨h2, fun _ => h1, fun outer es => ⟨none, e, rfl, h1 outer none es⟩⟩

theorem of_operand {e : Expression}
    (h : ∀ outer p es, readOperand outer p (e.entries ++ es) =
      readConnective outer p.disjunct (p.conjunction e) es) : e.ReadsBack :=
  of_conjunct (fun _ => h) fun outer left es => h outer ⟨left, none, 0⟩ es

/-- Each grouped expression is read back, however tightly it binds. The induction is on the
expression. -/
theorem of_wellGrouped {e : Expression} (he : e.WellGrouped) : e.ReadsBack := by
  induction e with
  | atomic a => exact of_operand fun outer p es => rfl
  | group s t e ih =>
    refine of_operand fun outer p es => ?_
    obtain ⟨left, c, rfl, h⟩ := (ih he).whole ((p, s) :: outer) (.closeParen t :: es)
    rw [entries, List.cons_append, List.append_assoc]
    exact h
  | not e ih =>
    refine of_operand fun outer p es => ?_
    exact (ih he.2).operand he.1 outer { p with nots := p.nots + 1 } es
  | and l r ihl ihr =>
    obtain ⟨⟨hl, hlw⟩, hr, hrw⟩ := he
    refine of_conjunct (fun h => by simp [strength] at h) fun outer left es => ?_
    rw [entries, List.append_assoc, (ihl hlw).conjunct hl]
    exact (ihr hrw).operand hr outer ⟨left, some l, 0⟩ es
  | or l r ihl ihr =>
    obtain ⟨hlw, hr, hrw⟩ := he
    refine ⟨fun h => by simp [strength] at h, fun h => by simp [strength] at h,
      fun outer es => ?_⟩
    obtain ⟨left, c, rfl, h⟩ := (ihl hlw).whole outer (.connective .or :: (r.entries ++ es))
    refine ⟨some (orAfter left c), r, rfl, ?_⟩
    rw [entries, List.append_assoc]
    exact h.trans ((ihr hrw).conjunct hr outer (some (orAfter left c)) es)

end ReadsBack

/-! ## Readings -/

/-- The reader finds the expression that a clause stands for, and no other. -/
theorem read_eq_some_iff {es : List WhereEntry} {e : Expression} :
    read es = some e ↔ e.IsReadingOf es := by
  constructor
  · intro h
    simpa [outerEntries, Pending.entries, Pending.none, entriesBefore] using
      (operandSound_and_connectiveSound es).1 [] .none e nofun .none h
  · rintro ⟨hw, rfl⟩
    obtain ⟨left, c, rfl, h⟩ := (ReadsBack.of_wellGrouped hw).whole [] []
    rw [List.append_nil] at h
    exact h

/-- The reader gets stuck just where an operand and a connective do not alternate or a parenthesis
has no partner, in both of its states. -/
theorem isSome_read_aux (es : List WhereEntry) :
    (∀ outer p, (readOperand outer p es).isSome =
      (WhereEntry.alternates true es && WhereEntry.balanced outer.length es)) ∧
    (∀ outer left c, (readConnective outer left c es).isSome =
      (WhereEntry.alternates false es && WhereEntry.balanced outer.length es)) := by
  induction es with
  | nil =>
    refine ⟨fun outer p => rfl, fun outer left c => ?_⟩
    cases outer <;> simp [readConnective, WhereEntry.alternates, WhereEntry.balanced]
  | cons entry es ih =>
    refine ⟨fun outer p => ?_, fun outer left c => ?_⟩
    · cases entry with
      | openParen s => exact ih.1 ((p, s) :: outer) .none
      | closeParen t => simp [readOperand, WhereEntry.alternates]
      | atomic a => simpa [readOperand, WhereEntry.alternates, WhereEntry.balanced] using ih.2 _ _ _
      | connective k =>
        cases k <;> simp [readOperand, WhereEntry.alternates, WhereEntry.balanced, ih.1]
    · cases entry with
      | openParen s => simp [readConnective, WhereEntry.alternates]
      | atomic a => simp [readConnective, WhereEntry.alternates]
      | closeParen t =>
        cases outer with
        | nil => simp [readConnective, WhereEntry.balanced]
        | cons q outer =>
          simpa [readConnective, WhereEntry.alternates, WhereEntry.balanced] using ih.2 _ _ _
      | connective k =>
        cases k <;> simp [readConnective, WhereEntry.alternates, WhereEntry.balanced, ih.1]

/-- A clause stands for an expression just if operands and connectives alternate in it and its
parentheses match. -/
theorem isSome_read (es : List WhereEntry) :
    (read es).isSome = (WhereEntry.alternates true es && WhereEntry.balanced 0 es) :=
  (isSome_read_aux es).1 [] .none

theorem IsReadingOf.unique {e e' : Expression} {es : List WhereEntry} (h : e.IsReadingOf es)
    (h' : e'.IsReadingOf es) : e = e' :=
  Option.some.inj ((read_eq_some_iff.mpr h).symm.trans (read_eq_some_iff.mpr h'))

theorem existsUnique_isReadingOf {es : List WhereEntry} (ha : WhereEntry.alternates true es = true)
    (hb : WhereEntry.balanced 0 es = true) : ∃! e : Expression, e.IsReadingOf es := by
  have h : (read es).isSome = true := by rw [isSome_read, ha, hb]; rfl
  obtain ⟨e, he⟩ := Option.isSome_iff_exists.mp h
  exact ⟨e, read_eq_some_iff.mp he, fun e' he' => he'.unique (read_eq_some_iff.mp he)⟩

end Expression
end RecordQuery
