import RecordQuery.Text.Blank
import RecordQuery.Text.Hexadecimal

/-! # Flags of a pattern

How a pattern is matched. Flags are kept as the store counts them, as the bits of a word: the
lowest four have names, the others are carried along. -/

namespace RecordQuery

open Text

/-- How a pattern is matched. The flags without a name are the bits from the fifth on. -/
structure PatternFlags where
  extended : Bool
  ignoreCase : Bool
  noSubmatch : Bool
  newline : Bool
  unnamed : BitVec 28
deriving DecidableEq

namespace PatternFlags

/-- No flag. -/
def none : PatternFlags := ⟨false, false, false, false, 0⟩

/-- The flags that are in one of two sets. -/
def union (f g : PatternFlags) : PatternFlags where
  extended := f.extended || g.extended
  ignoreCase := f.ignoreCase || g.ignoreCase
  noSubmatch := f.noSubmatch || g.noSubmatch
  newline := f.newline || g.newline
  unnamed := f.unnamed ||| g.unnamed

/-- The flags as a number. -/
def bits (f : PatternFlags) : Nat :=
  f.extended.toNat + 2 * f.ignoreCase.toNat + 4 * f.noSubmatch.toNat + 8 * f.newline.toNat
    + 16 * f.unnamed.toNat

/-- The flags that are the word `n`. -/
def ofBits? (n : Nat) : Option PatternFlags :=
  if n < UInt32.size then
    some ⟨n.testBit 0, n.testBit 1, n.testBit 2, n.testBit 3, BitVec.ofNat 28 (n / 16)⟩
  else
    .none

/-! ## Text -/

/-- The names of the flags that have one, and after them the others in hexadecimal. -/
def names (f : PatternFlags) : List String :=
  (if f.extended then ["EXTENDED"] else []) ++ (if f.ignoreCase then ["ICASE"] else [])
    ++ (if f.noSubmatch then ["NOSUB"] else []) ++ (if f.newline then ["NEWLINE"] else [])
    ++ (if f.unnamed = 0 then []
        else ["0x" ++ String.ofList (hexDigits (16 * f.unnamed.toNat))])

/-- The flags with bars between them. -/
def text (f : PatternFlags) : String := " | ".intercalate f.names

/-- The value of hexadecimal digits, of which there must be one. A plus may stand before
them. -/
def hexValue? (cs : List Char) : Option Nat :=
  let digits := if cs.head? = some '+' then cs.tail else cs
  if digits.isEmpty then .none
  else digits.foldlM (fun n c => (hexDigitValue? c).map (16 * n + ·)) 0

/-- The flag of a name, or the flags of a hexadecimal number. -/
def ofName? (cs : List Char) : Option PatternFlags :=
  match cs with
  | '0' :: 'x' :: digits => (hexValue? digits).bind ofBits?
  | _ =>
    let name := String.ofList cs
    if name = "EXTENDED" then some { none with extended := true }
    else if name = "ICASE" then some { none with ignoreCase := true }
    else if name = "NOSUB" then some { none with noSubmatch := true }
    else if name = "NEWLINE" then some { none with newline := true }
    else .none

/-- The pieces of a text between bars. -/
def pieces : List Char → List (List Char)
  | [] => [[]]
  | c :: cs =>
    if c = '|' then [] :: pieces cs
    else match pieces cs with
      | [] => [[c]]
      | piece :: rest => (c :: piece) :: rest

/-- The flags of a text. Blanks around the names do not count, and a blank text is no flag. -/
def ofText? (s : String) : Option PatternFlags :=
  if (trim s.toList).isEmpty then some none
  else (pieces s.toList).foldlM (fun f piece => (ofName? (trim piece)).map f.union) none

end PatternFlags

end RecordQuery
