import RecordQuery.Statement.Basic
import RecordQuery.Statement.SyntaxError
import RecordQuery.Token.Stream

/-! # Reading tokens one by one

A `TokenReader` has a current token, looks one token ahead, and collects errors. A fault in the
text becomes an error when the token behind it comes into view, so it is filed under the clause
that is being read at that moment.

`Parse α` is the type of the functions that read an `α`. They may fail, but what they have
read and reported stays read and reported; and no such function can give tokens back, which
its type says (`Outcome.le`). Loops over tokens end for that reason. -/

namespace RecordQuery

open Text

/-! ## The reader -/

/-- Where the reading of a text stands. -/
structure TokenReader where
  current : Token
  ahead : List Step
  trailing : List Misread
  finish : Position
  clause : Option Clause
  errors : List SyntaxError
deriving DecidableEq

namespace TokenReader

/-- The next token. -/
def peek (r : TokenReader) : Token :=
  match r.ahead with
  | [] => .atEnd r.finish
  | s :: _ => s.token

/-- The number of tokens that are left to read. -/
def remaining (r : TokenReader) : Nat := r.ahead.length

/-- The reader with one error more. -/
def report (r : TokenReader) (cause : SyntaxError.Cause) (p : Position) : TokenReader :=
  { r with errors := r.errors ++ [⟨cause, p, r.clause⟩] }

/-- The faults before the next token. -/
def upcoming (r : TokenReader) : List Misread :=
  match r.ahead with
  | [] => r.trailing
  | s :: _ => s.faults

/-- The reader that has reported the faults before the next token. -/
def reportUpcoming (r : TokenReader) : TokenReader :=
  { r with
    errors := r.errors ++ r.upcoming.map fun m => ⟨.lexical m.fault, m.position, r.clause⟩ }

/-- Moves on to the next token. At the end of the text there is none to move on to. -/
def advance (r : TokenReader) : TokenReader :=
  match r.ahead with
  | [] => { r with current := .atEnd r.finish }
  | s :: rest => { r with current := s.token, ahead := rest }.reportUpcoming

/-- Begins to read a clause. -/
def enter (r : TokenReader) (c : Clause) : TokenReader := { r with clause := some c }

/-- The reader at the first token of a stream. -/
def ofStream (s : TokenStream) : TokenReader :=
  (TokenReader.mk (.atEnd s.finish) s.steps s.trailing s.finish none []).reportUpcoming.advance

/-- The reader at the first token of a text. -/
def ofString (text : String) : TokenReader := ofStream (.ofString text)

/-! ## Moving on leaves fewer tokens -/

@[simp] theorem remaining_report (r : TokenReader) (cause : SyntaxError.Cause) (p : Position) :
    (r.report cause p).remaining = r.remaining := rfl

@[simp] theorem peek_report (r : TokenReader) (cause : SyntaxError.Cause) (p : Position) :
    (r.report cause p).peek = r.peek := rfl

theorem remaining_advance (r : TokenReader) : r.advance.remaining = r.remaining - 1 := by
  unfold remaining advance
  split <;> simp_all [reportUpcoming]

theorem remaining_advance_le (r : TokenReader) : r.advance.remaining ≤ r.remaining := by
  rw [remaining_advance]
  omega

/-- Before a token that is not the end, something is left. -/
theorem remaining_pos {r : TokenReader} (h : r.peek.isFinish = false) : 0 < r.remaining := by
  unfold peek at h
  unfold remaining
  split at h
  · simp at h
  · simp_all

/-- Moving on from such a token leaves fewer, which is what loops over tokens end by. -/
theorem remaining_advance_lt (r : TokenReader) (h : r.peek.isFinish = false) :
    r.advance.remaining < r.remaining := by
  have := remaining_pos h
  rw [remaining_advance]
  omega

/-- Moves on until the next token opens a clause, or to the end. -/
def skipToClause (r : TokenReader) : TokenReader :=
  if r.peek.isFinish || r.peek.opensClause then r else r.advance.skipToClause
termination_by r.remaining
decreasing_by exact r.remaining_advance_lt (by simp_all)

theorem current_advance (r : TokenReader) : r.advance.current = r.peek := by
  unfold advance peek
  split <;> rfl

end TokenReader

namespace Token

theorem isFinish_of_isName {t : Token} (h : t.isName = true) : t.isFinish = false := by
  simp only [isName] at h
  simp only [isFinish, beq_eq_false_iff_ne]
  intro hk
  simp [hk] at h

theorem isFinish_of_isMark {t : Token} {m : Mark} (h : t.isMark m = true) :
    t.isFinish = false := by
  simp only [isMark, mark?] at h
  simp only [isFinish, beq_eq_false_iff_ne]
  intro hk
  simp [hk] at h

theorem isFinish_of_isKeyword {t : Token} {k : Keyword} (h : t.isKeyword k = true) :
    t.isFinish = false := by
  simp only [isKeyword, keyword?] at h
  simp only [isFinish, beq_eq_false_iff_ne]
  intro hk
  simp [hk] at h

end Token

/-! ## Functions that read -/

/-- What comes of reading from `r`: the thing read, if it could be read, and the reader behind
it, which has no more tokens left than `r`. -/
structure Outcome (r : TokenReader) (α : Type) where
  value : Option α
  next : TokenReader
  le : next.remaining ≤ r.remaining

/-- A function that reads an `α`. -/
def Parse (α : Type) : Type := (r : TokenReader) → Outcome r α

namespace Parse

/-- Reads nothing. -/
def pure (a : α) : Parse α := fun r => ⟨some a, r, Nat.le_refl _⟩

/-- Reads one thing and then another that hangs on it. -/
def bind (p : Parse α) (f : α → Parse β) : Parse β := fun r =>
  match (p r).value with
  | some a =>
    let o := f a (p r).next
    ⟨o.value, o.next, Nat.le_trans o.le (p r).le⟩
  | none => ⟨none, (p r).next, (p r).le⟩

instance : Monad Parse where
  pure := Parse.pure
  bind := Parse.bind

/-- Reads nothing, and reports that the next token is not what is expected. -/
def fail (what : Expectation) : Parse α := fun r =>
  ⟨none, r.report (.expected what r.peek) r.peek.position, Nat.le_refl _⟩

/-- Looks at the next token. -/
def peek : Parse Token := fun r => ⟨some r.peek, r, Nat.le_refl _⟩

/-- Takes the next token. -/
def take : Parse Token := fun r => ⟨some r.peek, r.advance, r.remaining_advance_le⟩

/-- Takes the next token if it passes a test. -/
def accept (test : Token → Bool) (what : Expectation) : Parse Token := do
  if test (← peek) then take else fail what

/-- Takes the keyword `k`. -/
def keyword (k : Keyword) : Parse Token := accept (·.isKeyword k) (.keyword k)

/-- Takes the punctuation mark `m`. -/
def mark (m : Mark) : Parse Token := accept (·.isMark m) (.mark m)

/-- Takes a name. -/
def name (what : Expectation) : Parse Name := do
  return .ofToken (← accept Token.isName what)

/-- Takes a string. -/
def string (what : Expectation) : Parse StringLiteral := do
  return .ofToken (← accept (·.kind == .string) what)

/-! ## What a composed function leaves behind -/

/-- Two functions in a row give a result if both do. -/
theorem value_bind (p : Parse α) (f : α → Parse β) (r : TokenReader) :
    ((p >>= f) r).value = (p r).value.bind fun a => (f a (p r).next).value := by
  show (Parse.bind p f r).value = _
  unfold Parse.bind
  split <;> simp_all

theorem next_bind_of_some {p : Parse α} {r : TokenReader} {a : α} (h : (p r).value = some a)
    (f : α → Parse β) : ((p >>= f) r).next = (f a (p r).next).next := by
  show (Parse.bind p f r).next = _
  unfold Parse.bind
  split <;> simp_all

/-- Where the first of two functions fails, the second is not run, and the reader stays where the
first has left it. -/
theorem next_bind_of_none {p : Parse α} {r : TokenReader} (h : (p r).value = none)
    (f : α → Parse β) : ((p >>= f) r).next = (p r).next := by
  show (Parse.bind p f r).next = _
  unfold Parse.bind
  split <;> simp_all

theorem peek_bind (f : Token → Parse α) (r : TokenReader) : (peek >>= f) r = f r.peek r := rfl

/-! ## Taking tokens -/

/-- What is read from `r` by `p` takes a token at least. -/
def Consumes (p : Parse α) (r : TokenReader) : Prop :=
  ∀ a, (p r).value = some a → (p r).next.remaining < r.remaining

namespace Consumes

theorem take {r : TokenReader} (h : r.peek.isFinish = false) : Consumes take r :=
  fun _ _ => r.remaining_advance_lt h

theorem fail (what : Expectation) (r : TokenReader) : Consumes (fail what : Parse α) r :=
  fun _ h => nomatch h

theorem accept {test : Token → Bool} (h : ∀ t, test t = true → t.isFinish = false)
    (what : Expectation) (r : TokenReader) : Consumes (accept test what) r := by
  unfold Consumes Parse.accept
  rw [peek_bind]
  split
  · next ht => exact Consumes.take (h _ ht)
  · exact Consumes.fail what r

theorem bind {p : Parse α} {r : TokenReader} (h : Consumes p r) (f : α → Parse β) :
    Consumes (p >>= f) r := by
  intro b hb
  cases ha : (p r).value with
  | none => simp [value_bind, ha] at hb
  | some a =>
    rw [next_bind_of_some ha]
    exact Nat.lt_of_le_of_lt (f a _).le (h a ha)

end Consumes

end Parse

end RecordQuery
