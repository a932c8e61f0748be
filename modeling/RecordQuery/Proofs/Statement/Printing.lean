import RecordQuery.Proofs.Statement.Piece
import RecordQuery.Statement.Printer

/-! # The pieces of a printed statement

For every kind of node it is said of which pieces its text is made: the text is the texts of the
pieces in sequence (`toList_text`), and pieces that meet in it may do so (`fitting_pieces`). -/

namespace RecordQuery

open Piece (Fitting)

/-! ## Pieces that meet -/

namespace Piece

variable {p : Piece} {ps qs : List Piece}

/-- Nothing runs on into a blank. -/
@[simp] theorem fits_blank (p : Piece) : p.fits .blank = true := by cases p <;> rfl

@[simp] theorem fits_closeParen (p : Piece) : p.fits (.mark .closeParen) = true := by
  cases p <;> rfl

@[simp] theorem fitting_nil : Fitting [] := .nil

@[simp] theorem fitting_singleton (p : Piece) : Fitting [p] := .singleton p

theorem fitting_cons_of_fits (h : ∀ q, p.fits q = true) : Fitting (p :: ps) ↔ Fitting ps := by
  cases ps with
  | nil => simp
  | cons q ps => exact List.isChain_cons_cons.trans (and_iff_right (h q))

@[simp] theorem fitting_blank_cons : Fitting (.blank :: ps) ↔ Fitting ps :=
  fitting_cons_of_fits fun _ => rfl

@[simp] theorem fitting_mark_cons {m : Mark} : Fitting (.mark m :: ps) ↔ Fitting ps :=
  fitting_cons_of_fits fun _ => rfl

@[simp] theorem fitting_cons_blank : Fitting (p :: .blank :: ps) ↔ Fitting ps := by
  rw [Fitting, List.isChain_cons_cons, ← Fitting, fitting_blank_cons]
  exact and_iff_right p.fits_blank

@[simp] theorem fitting_cons_mark {m : Mark} :
    Fitting (p :: .mark m :: ps) ↔ p.fits (.mark m) = true ∧ Fitting ps := by
  rw [Fitting, List.isChain_cons_cons, ← Fitting, fitting_mark_cons]

/-- Pieces may be cut apart before one that everything may meet. -/
theorem fitting_append_of_fits (h : ∀ r : Piece, r.fits p = true) :
    Fitting (ps ++ p :: qs) ↔ Fitting ps ∧ Fitting (p :: qs) := by
  simp only [Fitting, List.isChain_append, List.head?_cons, Option.mem_some_iff]
  refine and_congr_right fun _ => and_iff_left ?_
  rintro r - _ rfl
  exact h r

@[simp] theorem fitting_append_blank :
    Fitting (ps ++ .blank :: qs) ↔ Fitting ps ∧ Fitting qs := by
  rw [fitting_append_of_fits fits_blank, fitting_blank_cons]

@[simp] theorem fitting_append_closeParen :
    Fitting (ps ++ .mark .closeParen :: qs) ↔ Fitting ps ∧ Fitting qs := by
  rw [fitting_append_of_fits fits_closeParen, fitting_mark_cons]

end Piece

/-! ## Literals and casts -/

/-- The minus sign of a number is a piece of its own. -/
def NumberLiteral.pieces (n : NumberLiteral) : List Piece :=
  match n.text.toList with
  | '-' :: cs => [.sign .minus, .numeral (String.ofList cs)]
  | _ => [.numeral n.text]

def Literal.pieces : Literal → List Piece
  | number n => n.pieces
  | string s => [.string s.value]

def Cast.pieces (c : Cast) : List Piece :=
  [.keyword .CAST, .mark .openParen, .string c.value.value, .blank, .keyword .AS, .blank,
    .typeName c.typeName, .mark .closeParen]

namespace NumberLiteral

theorem toList_text (n : NumberLiteral) : n.text.toList = n.pieces.flatMap Piece.text := by
  unfold pieces
  split
  · next cs h => simp [h, Piece.text, Sign.text]
  · simp [Piece.text]

@[simp] theorem fitting_pieces (n : NumberLiteral) : Fitting n.pieces := by
  unfold pieces
  split
  · exact .cons_cons rfl (.singleton _)
  · exact .singleton _

end NumberLiteral

/-- A string is one piece, whatever is in it. -/
theorem Literal.toList_text (l : Literal) : l.text.toList = l.pieces.flatMap Piece.text := by
  cases l with
  | number n => exact n.toList_text
  | string s => simp [text, pieces, StringLiteral.text, Piece.text]

@[simp] theorem Literal.fitting_pieces (l : Literal) : Fitting l.pieces := by
  cases l <;> simp [pieces]

theorem Cast.toList_text (c : Cast) : c.text.toList = c.pieces.flatMap Piece.text := by
  simp [text, pieces, StringLiteral.text, Piece.text, Keyword.text, Mark.char]

@[simp] theorem Cast.fitting_pieces (c : Cast) : Fitting c.pieces := by
  simp [pieces, Piece.fits]

/-! ## The WITH clause -/

def IndexLookup.piece : IndexLookup → Piece
  | equal => .relation (.equality .equal)
  | contains => .keyword .CONTAINS
  | within => .keyword .WITHIN
  | between => .keyword .BETWEEN

/-- An index over the values themselves has a name, but no keyword. -/
def IndexCollection.piece : IndexCollection → Piece
  | scalar => .name "DEFAULT"
  | list => .keyword .LIST
  | mapKeys => .keyword .MAPKEYS
  | mapValues => .keyword .MAPVALUES

def Bounds.pieces (b : Bounds) : List Piece :=
  .keyword .BETWEEN :: .blank ::
    (b.low.pieces ++ .blank :: .keyword .AND :: .blank :: b.high.pieces)

/-- The pieces of the relation and the operand. A range has its word for the relation. -/
def IndexArgument.pieces (relation : IndexLookup) : IndexArgument → List Piece
  | literal l => relation.piece :: .blank :: l.pieces
  | cast c => relation.piece :: .blank :: c.pieces
  | between b => b.pieces

def IndexClause.pieces (e : IndexClause) : List Piece :=
  match e.collection with
  | some c => c.piece :: .blank :: .name e.bin.text :: .blank :: e.operand.pieces e.relation
  | none => .name e.bin.text :: .blank :: e.operand.pieces e.relation

theorem IndexLookup.toList_text (r : IndexLookup) : r.text.toList = r.piece.text := by
  cases r <;> rfl

theorem IndexCollection.toList_text (c : IndexCollection) : c.text.toList = c.piece.text := by
  cases c <;> rfl

@[simp] theorem IndexLookup.piece_ne_blank (r : IndexLookup) : r.piece ≠ .blank := by
  cases r <;> nofun

@[simp] theorem IndexCollection.piece_ne_blank (c : IndexCollection) : c.piece ≠ .blank := by
  cases c <;> nofun

theorem Bounds.toList_text (b : Bounds) : b.text.toList = b.pieces.flatMap Piece.text := by
  simp [text, pieces, Piece.text, Keyword.text, ← NumberLiteral.toList_text]

@[simp] theorem Bounds.fitting_pieces (b : Bounds) : Fitting b.pieces := by
  simp [pieces]

@[simp] theorem IndexArgument.fitting_pieces (relation : IndexLookup) (a : IndexArgument) :
    Fitting (a.pieces relation) := by
  cases a <;> simp [pieces]

/-- The parentheses of a WITH clause are not printed, so its text has no pieces for them. -/
theorem IndexClause.toList_text (e : IndexClause) :
    e.text.toList = e.pieces.flatMap Piece.text := by
  obtain ⟨c, bin, relation, operand, t⟩ := e
  rcases c with _ | c <;> rcases operand with l | c' | b <;>
    simp [text, pieces, IndexArgument.pieces, IndexArgument.text, Piece.text, Literal.toList_text,
      Cast.toList_text, Bounds.toList_text, IndexLookup.toList_text, IndexCollection.toList_text]

@[simp] theorem IndexClause.fitting_pieces (e : IndexClause) : Fitting e.pieces := by
  unfold pieces
  split <;> simp

/-! ## Predicates -/

def MetadataCall.pieces (m : MetadataCall) : List Piece :=
  .fact m.name :: .mark .openParen :: (m.modulo.elim [] (·.pieces) ++ [.mark .closeParen])

def Subject.pieces : Subject → List Piece
  | bin n => [.name n.text]
  | metadata m => m.pieces

def AtomicOperator.pieces : AtomicOperator → List Piece
  | relation r => [.relation r]
  | geo r => [.keyword r.keyword]
  | like => [.keyword .LIKE]
  | iterate part (some q) => [.keyword q.keyword, .blank, .keyword part.keyword]
  | iterate part none => [.keyword part.keyword]

def Iteration.pieces (i : Iteration) : List Piece :=
  .mark .openParen :: .name i.element.text :: .blank :: .relation i.relation :: .blank ::
    (i.value.pieces ++ [.mark .closeParen])

def Operand.pieces : Operand → List Piece
  | literal l => l.pieces
  | cast c => c.pieces
  | iteration i => i.pieces

def Atomic.pieces (a : Atomic) : List Piece :=
  a.subject.pieces ++ .blank :: (a.operator.pieces ++ .blank :: a.operand.pieces)

theorem MetadataCall.toList_text (m : MetadataCall) :
    m.text.toList = m.pieces.flatMap Piece.text := by
  obtain ⟨name, _ | n, t⟩ := m <;>
    simp [text, pieces, Piece.text, Mark.char, NumberLiteral.toList_text]

@[simp] theorem MetadataCall.fitting_pieces (m : MetadataCall) : Fitting m.pieces := by
  obtain ⟨name, _ | n, t⟩ := m <;> simp [pieces, Piece.fits]

theorem Subject.toList_text (s : Subject) : s.text.toList = s.pieces.flatMap Piece.text := by
  cases s with
  | bin n => simp [text, pieces, Piece.text]
  | metadata m => exact m.toList_text

@[simp] theorem Subject.fitting_pieces (s : Subject) : Fitting s.pieces := by
  cases s <;> simp [pieces]

theorem AtomicOperator.toList_text (o : AtomicOperator) :
    o.text.toList = o.pieces.flatMap Piece.text := by
  cases o with
  | relation r => simp [text, pieces, Piece.text]
  | geo r => cases r <;> rfl
  | like => rfl
  | iterate part q =>
    obtain _ | _ | _ := q <;> cases part <;> rfl

@[simp] theorem AtomicOperator.fitting_pieces (o : AtomicOperator) : Fitting o.pieces := by
  cases o with
  | iterate part q => cases q <;> simp [pieces]
  | _ => simp [pieces]

theorem Iteration.toList_text (i : Iteration) : i.text.toList = i.pieces.flatMap Piece.text := by
  simp [text, pieces, Piece.text, Mark.char, Literal.toList_text]

@[simp] theorem Iteration.fitting_pieces (i : Iteration) : Fitting i.pieces := by
  simp [pieces]

theorem Operand.toList_text (o : Operand) : o.text.toList = o.pieces.flatMap Piece.text := by
  cases o with
  | literal l => exact l.toList_text
  | cast c => exact c.toList_text
  | iteration i => exact i.toList_text

@[simp] theorem Operand.fitting_pieces (o : Operand) : Fitting o.pieces := by
  cases o <;> simp [pieces]

/-- The text of a predicate is that of its three parts, with a blank before the operator. -/
theorem Atomic.toList_text (a : Atomic) : a.text.toList = a.pieces.flatMap Piece.text := by
  simp [text, pieces, Piece.text, Subject.toList_text, AtomicOperator.toList_text,
    Operand.toList_text]

@[simp] theorem Atomic.fitting_pieces (a : Atomic) : Fitting a.pieces := by
  simp [pieces]

/-! ## The WHERE clause -/

namespace WhereEntry

/-- The pieces of entries in sequence. No blank stands before the first where `tight` says so. -/
def piecesAll (tight : Bool) : List WhereEntry → List Piece
  | [] => []
  | closeParen _ :: es => .mark .closeParen :: piecesAll false es
  | openParen _ :: es => (if tight then [] else [.blank]) ++ .mark .openParen :: piecesAll true es
  | connective c :: es =>
    (if tight then [] else [.blank]) ++ .keyword c.keyword :: piecesAll false es
  | atomic a :: es => (if tight then [] else [.blank]) ++ (a.pieces ++ piecesAll false es)

/-- No blank stands behind an open parenthesis or before a closing one, and there is one between all
other entries. -/
theorem toList_textAll (tight : Bool) (es : List WhereEntry) :
    (textAll tight es).toList = (piecesAll tight es).flatMap Piece.text := by
  induction es generalizing tight with
  | nil => rfl
  | cons e es ih =>
    cases e with
    | openParen t => cases tight <;> simp [textAll, piecesAll, text, ih, Piece.text, Mark.char]
    | closeParen t => simp [textAll, piecesAll, text, ih, Piece.text, Mark.char]
    | connective c =>
      have hc : c.text.toList = c.keyword.text.toList := by cases c <;> rfl
      cases tight <;> simp [textAll, piecesAll, text, ih, Piece.text, hc]
    | atomic a =>
      cases tight <;> simp [textAll, piecesAll, text, ih, Piece.text, Atomic.toList_text]

/-- Entries may follow whatever fits, since what they begin with is no part of it. -/
theorem fitting_piecesAll {ps : List Piece} (hps : Fitting ps) (es : List WhereEntry) :
    Fitting (ps ++ piecesAll false es) ∧ Fitting (piecesAll true es) := by
  induction es generalizing ps with
  | nil => simpa [piecesAll] using hps
  | cons e es ih =>
    cases e with
    | openParen t => simp [piecesAll, hps, (ih hps).2]
    | closeParen t => simpa [piecesAll, hps] using (ih .nil).1
    | connective c => simpa [piecesAll, hps] using (ih (Piece.fitting_singleton _)).1
    | atomic a => simpa [piecesAll, hps] using (ih a.fitting_pieces).1

end WhereEntry

def WhereClause.pieces (w : WhereClause) : List Piece := WhereEntry.piecesAll true w.items

theorem WhereClause.toList_text (w : WhereClause) :
    w.text.toList = w.pieces.flatMap Piece.text :=
  WhereEntry.toList_textAll true w.items

@[simp] theorem WhereClause.fitting_pieces (w : WhereClause) : Fitting w.pieces :=
  (WhereEntry.fitting_piecesAll .nil w.items).2

/-! ## The statement -/

def Name.piecesAll : List Name → List Piece
  | [] => []
  | [n] => [.name n.text]
  | n :: ns => .name n.text :: .mark .comma :: .blank :: piecesAll ns

def SelectList.pieces : SelectList → List Piece
  | star => [.sign .star]
  | bins ns => Name.piecesAll ns

def Source.pieces (s : Source) : List Piece :=
  .name s.space.text :: s.set.elim [] fun set => [.mark .dot, .name set.text]

def Statement.pieces (s : Statement) : List Piece :=
  .keyword .SELECT :: .blank :: (s.selection.pieces ++
    .blank :: .keyword .FROM :: .blank :: (s.source.pieces ++
      (s.index.elim [] (.blank :: .keyword .WITH :: .blank :: ·.pieces) ++
        s.condition.elim [] (.blank :: .keyword .WHERE :: .blank :: ·.pieces))))

/-- The names of bins have a comma and a blank between them. -/
theorem Name.toList_intercalate (ns : List Name) :
    (", ".intercalate (ns.map (·.text))).toList = (piecesAll ns).flatMap Piece.text := by
  induction ns with
  | nil => rfl
  | cons n ns ih =>
    cases ns with
    | nil => simp [piecesAll, Piece.text]
    | cons m ns =>
      simp only [List.map_cons] at ih ⊢
      rw [String.intercalate_cons_cons]
      simp [piecesAll, ih, Piece.text, Mark.char]

@[simp] theorem Name.fitting_piecesAll (ns : List Name) : Fitting (piecesAll ns) := by
  induction ns with
  | nil => simp [piecesAll]
  | cons n ns ih =>
    cases ns with
    | nil => simp [piecesAll]
    | cons m ns => simpa [piecesAll, Piece.fits] using ih

theorem SelectList.toList_text (s : SelectList) : s.text.toList = s.pieces.flatMap Piece.text := by
  cases s with
  | star => rfl
  | bins ns => exact Name.toList_intercalate ns

@[simp] theorem SelectList.fitting_pieces (s : SelectList) : Fitting s.pieces := by
  cases s <;> simp [pieces]

theorem Source.toList_fullName (s : Source) :
    s.fullName.toList = s.pieces.flatMap Piece.text := by
  obtain ⟨space, _ | set⟩ := s <;> simp [fullName, pieces, Piece.text, Mark.char]

@[simp] theorem Source.fitting_pieces (s : Source) : Fitting s.pieces := by
  obtain ⟨space, _ | set⟩ := s <;> simp [pieces, Piece.fits]

/-- A printed statement is the texts of its pieces, in sequence. -/
theorem Statement.toList_text (s : Statement) : s.text.toList = s.pieces.flatMap Piece.text := by
  obtain ⟨selection, source, _ | e, _ | w, t⟩ := s <;>
    simp [text, pieces, Piece.text, Keyword.text, SelectList.toList_text, Source.toList_fullName,
      IndexClause.toList_text, WhereClause.toList_text]

/-- No piece of a printed statement runs on into the next. -/
theorem Statement.fitting_pieces (s : Statement) : Fitting s.pieces := by
  obtain ⟨selection, source, _ | e, _ | w, t⟩ := s <;> simp [pieces]

end RecordQuery
