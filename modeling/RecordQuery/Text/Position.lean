import RecordQuery.Text.Blank

/-! # Positions in a text

A position counts characters three ways: from the start of the text, by lines, and within the
line. A cursor is a position together with the text that still lies ahead of it. -/

namespace RecordQuery.Text

/-- A place in a text: its offset counts from 0, its line and column from 1. -/
structure Position where
  offset : Nat
  line : Nat
  column : Nat
deriving DecidableEq

namespace Position

/-- The place before the first character. -/
def start : Position := ⟨0, 1, 1⟩

/-- The place behind the character `c`. A line feed opens a new line, and a null character
takes no column. -/
def step (p : Position) (c : Char) : Position :=
  if c = '\n' then ⟨p.offset + 1, p.line + 1, 1⟩
  else if c = '\x00' then ⟨p.offset + 1, p.line, p.column⟩
  else ⟨p.offset + 1, p.line, p.column + 1⟩

/-- The place behind the characters `cs`. -/
def after (p : Position) (cs : List Char) : Position :=
  cs.foldl step p

/-- The words that name a place in a message. -/
def text (p : Position) : String :=
  "line " ++ toString p.line ++ ", column " ++ toString p.column

@[simp] theorem after_nil (p : Position) : p.after [] = p := rfl

@[simp] theorem after_cons (p : Position) (c : Char) (cs : List Char) :
    p.after (c :: cs) = (p.step c).after cs := rfl

/-- Going over two texts one after the other leads to the same place as going over both. -/
theorem after_append (p : Position) (cs ds : List Char) :
    p.after (cs ++ ds) = (p.after cs).after ds :=
  List.foldl_append

theorem step_offset (p : Position) (c : Char) : (p.step c).offset = p.offset + 1 := by
  unfold step
  split
  · rfl
  · split <;> rfl

/-- The offset counts characters, of whatever kind. -/
theorem after_offset (p : Position) (cs : List Char) :
    (p.after cs).offset = p.offset + cs.length := by
  induction cs generalizing p with
  | nil => rfl
  | cons c cs ih =>
    rw [after_cons, ih, step_offset, List.length_cons]
    omega

end Position

/-- A place in a text and the characters that follow it. -/
structure Cursor where
  position : Position
  rest : List Char
deriving DecidableEq

namespace Cursor

/-- The cursor before the text `s`. -/
def ofString (s : String) : Cursor := ⟨.start, s.toList⟩

/-- The cursor moved over the next `n` characters. -/
def advance (c : Cursor) (n : Nat) : Cursor :=
  ⟨c.position.after (c.rest.take n), c.rest.drop n⟩

/-- The cursor moved over the blanks ahead of it. -/
def skipBlanks (c : Cursor) : Cursor :=
  c.advance (c.rest.takeWhile isBlank).length

@[simp] theorem advance_rest (c : Cursor) (n : Nat) : (c.advance n).rest = c.rest.drop n := rfl

theorem advance_rest_length (c : Cursor) (n : Nat) :
    (c.advance n).rest.length = c.rest.length - n := by
  simp

theorem skipBlanks_rest (c : Cursor) : c.skipBlanks.rest = c.rest.dropWhile isBlank := by
  have h := List.takeWhile_append_dropWhile (p := isBlank) (l := c.rest)
  calc c.skipBlanks.rest = c.rest.drop (c.rest.takeWhile isBlank).length := rfl
    _ = (c.rest.takeWhile isBlank ++ c.rest.dropWhile isBlank).drop
          (c.rest.takeWhile isBlank).length := by rw [h]
    _ = c.rest.dropWhile isBlank := List.drop_left

theorem skipBlanks_rest_length_le (c : Cursor) : c.skipBlanks.rest.length ≤ c.rest.length := by
  simp [skipBlanks]

end Cursor

end RecordQuery.Text
