import RecordQuery.Proofs.Statement.Printing

/-! # Statements without their tokens

Two trees say the same if they are equal up to the tokens that their nodes keep. `bare` puts one
token in the place of all of them, and a node is printed as it is without its tokens. -/

namespace RecordQuery

/-- A token in the place of one that is forgotten. -/
def Token.forgotten : Token := .atEnd .start

open Token (forgotten)

namespace Name

def bare (n : Name) : Name := ⟨n.text, forgotten⟩

@[simp] theorem bare_text (n : Name) : n.bare.text = n.text := rfl

/-- Names are equal up to their tokens just if they have the same text. -/
theorem bare_eq_iff {m n : Name} : m.bare = n.bare ↔ m.text = n.text := by
  simp [bare]

theorem bare_ofToken {t : Token} {n : Name} (h : t.literal = n.text) :
    (Name.ofToken t).bare = n.bare :=
  bare_eq_iff.mpr h

end Name

def StringLiteral.bare (s : StringLiteral) : StringLiteral := ⟨s.value, forgotten⟩

def NumberLiteral.bare (n : NumberLiteral) : NumberLiteral := ⟨n.text, forgotten⟩

def Literal.bare : Literal → Literal
  | number n => .number n.bare
  | string s => .string s.bare

def Cast.bare (c : Cast) : Cast := ⟨c.value.bare, c.typeName, forgotten⟩

def Bounds.bare (b : Bounds) : Bounds := ⟨b.low.bare, b.high.bare, forgotten⟩

def IndexArgument.bare : IndexArgument → IndexArgument
  | literal l => .literal l.bare
  | cast c => .cast c.bare
  | between b => .between b.bare

def IndexClause.bare (e : IndexClause) : IndexClause :=
  ⟨e.collection, e.bin.bare, e.relation, e.operand.bare, forgotten⟩

def MetadataCall.bare (m : MetadataCall) : MetadataCall :=
  ⟨m.name, m.modulo.map (·.bare), forgotten⟩

def Subject.bare : Subject → Subject
  | bin n => .bin n.bare
  | metadata m => .metadata m.bare

def Iteration.bare (i : Iteration) : Iteration :=
  ⟨i.element.bare, i.relation, i.value.bare, forgotten⟩

def Operand.bare : Operand → Operand
  | literal l => .literal l.bare
  | cast c => .cast c.bare
  | iteration i => .iteration i.bare

def Atomic.bare (a : Atomic) : Atomic := ⟨a.subject.bare, a.operator, a.operand.bare, forgotten⟩

namespace WhereEntry

def bare : WhereEntry → WhereEntry
  | openParen _ => .openParen forgotten
  | closeParen _ => .closeParen forgotten
  | connective c => .connective c
  | atomic a => .atomic a.bare

@[simp] theorem bare_openParen (t : Token) : (openParen t).bare = openParen forgotten := rfl

@[simp] theorem bare_closeParen (t : Token) : (closeParen t).bare = closeParen forgotten := rfl

@[simp] theorem bare_connective (c : Connective) : (connective c).bare = connective c := rfl

@[simp] theorem bare_atomic (a : Atomic) : (atomic a).bare = atomic a.bare := rfl

/-- Whether operands and connectives alternate is no matter of tokens. -/
theorem alternates_bare (awaiting : Bool) (es : List WhereEntry) :
    alternates awaiting (es.map (·.bare)) = alternates awaiting es := by
  induction es generalizing awaiting with
  | nil => rfl
  | cons e es ih =>
    rcases e with _ | _ | (_ | _ | _) | _ <;> cases awaiting <;> simp [alternates, ih]

end WhereEntry

def WhereClause.bare (w : WhereClause) : WhereClause := ⟨w.items.map (·.bare), forgotten⟩

def SelectList.bare : SelectList → SelectList
  | star => .star
  | bins ns => .bins (ns.map (·.bare))

def Source.bare (s : Source) : Source := ⟨s.space.bare, s.set.map (·.bare)⟩

def Statement.bare (s : Statement) : Statement :=
  ⟨s.selection.bare, s.source.bare, s.index.map (·.bare), s.condition.map (·.bare), forgotten⟩

/-! ## Printing -/

@[simp] theorem NumberLiteral.pieces_bare (n : NumberLiteral) : n.bare.pieces = n.pieces := rfl

@[simp] theorem Literal.pieces_bare (l : Literal) : l.bare.pieces = l.pieces := by
  cases l <;> rfl

@[simp] theorem Cast.pieces_bare (c : Cast) : c.bare.pieces = c.pieces := rfl

@[simp] theorem IndexArgument.pieces_bare (relation : IndexLookup) (a : IndexArgument) :
    a.bare.pieces relation = a.pieces relation := by
  cases a <;> simp [bare, pieces, Bounds.bare, Bounds.pieces]

@[simp] theorem IndexClause.pieces_bare (e : IndexClause) : e.bare.pieces = e.pieces := by
  simp [bare, pieces]

@[simp] theorem MetadataCall.pieces_bare (m : MetadataCall) : m.bare.pieces = m.pieces := by
  obtain ⟨name, _ | n, t⟩ := m <;> simp [bare, pieces]

@[simp] theorem Subject.pieces_bare (s : Subject) : s.bare.pieces = s.pieces := by
  cases s <;> simp [bare, pieces]

@[simp] theorem Iteration.pieces_bare (i : Iteration) : i.bare.pieces = i.pieces := by
  simp [bare, pieces]

@[simp] theorem Operand.pieces_bare (o : Operand) : o.bare.pieces = o.pieces := by
  cases o <;> simp [bare, pieces]

/-- The pieces of a predicate are those of its parts, and no part is printed from its token. -/
@[simp] theorem Atomic.pieces_bare (a : Atomic) : a.bare.pieces = a.pieces := by
  simp [bare, pieces]

/-- Where the blanks between entries stand is no matter of tokens. -/
theorem WhereEntry.piecesAll_bare (tight : Bool) (es : List WhereEntry) :
    piecesAll tight (es.map (·.bare)) = piecesAll tight es := by
  induction es generalizing tight with
  | nil => rfl
  | cons e es ih => cases e <;> simp [piecesAll, ih]

@[simp] theorem WhereClause.pieces_bare (w : WhereClause) : w.bare.pieces = w.pieces :=
  WhereEntry.piecesAll_bare true w.items

theorem Name.piecesAll_bare (ns : List Name) : piecesAll (ns.map (·.bare)) = piecesAll ns := by
  induction ns with
  | nil => rfl
  | cons n ns ih => cases ns <;> simp_all [piecesAll]

@[simp] theorem SelectList.pieces_bare (s : SelectList) : s.bare.pieces = s.pieces := by
  cases s with
  | star => rfl
  | bins ns => exact Name.piecesAll_bare ns

@[simp] theorem Source.pieces_bare (s : Source) : s.bare.pieces = s.pieces := by
  obtain ⟨space, _ | set⟩ := s <;> rfl

@[simp] theorem Statement.pieces_bare (s : Statement) : s.bare.pieces = s.pieces := by
  obtain ⟨selection, source, _ | e, _ | w, t⟩ := s <;> simp [bare, pieces]

/-- Statements that say the same are printed alike. -/
theorem Statement.pieces_eq_of_bare_eq {s s' : Statement} (h : s'.bare = s.bare) :
    s'.pieces = s.pieces := by
  rw [← s'.pieces_bare, h, s.pieces_bare]

end RecordQuery
