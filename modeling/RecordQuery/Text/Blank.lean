import RecordQuery.Text.Ranges

/-! # Blank characters

The characters of the Unicode property White_Space. They separate tokens, and they are what
trimming takes away from the two ends of a text. -/

namespace RecordQuery.Text

/-- The code points of white space. -/
def blankPoints : CodePoints where
  ranges :=
    [(0x9, 0xd), (0x20, 0x20), (0x85, 0x85), (0xa0, 0xa0), (0x1680, 0x1680), (0x2000, 0x200a),
    (0x2028, 0x2029), (0x202f, 0x202f), (0x205f, 0x205f), (0x3000, 0x3000)]
  isAscending := by decide +kernel

example : blankPoints.size = 25 := by decide +kernel

/-- Whether `c` has the property White_Space. -/
def isBlank (c : Char) : Bool :=
  blankPoints.contains c.toNat

/-- The blanks of the core library are blanks. -/
theorem isBlank_of_isWhitespace {c : Char} (h : c.isWhitespace = true) : isBlank c = true := by
  simp only [Char.isWhitespace, Bool.or_eq_true, decide_eq_true_eq] at h
  rcases h with ((rfl | rfl) | rfl) | rfl <;> decide

/-- The text `cs` without the blanks at its two ends. -/
def trim (cs : List Char) : List Char :=
  ((cs.dropWhile isBlank).reverse.dropWhile isBlank).reverse

@[simp] theorem trim_nil : trim [] = [] := rfl

/-- A text without blanks stays as it is. -/
theorem trim_eq_self {cs : List Char} (h : ∀ c ∈ cs, isBlank c = false) : trim cs = cs := by
  have drop {ds : List Char} (hd : ∀ c ∈ ds, isBlank c = false) : ds.dropWhile isBlank = ds := by
    cases ds with
    | nil => rfl
    | cons c ds => exact List.dropWhile_cons_of_neg (by simp [hd c List.mem_cons_self])
  rw [trim, drop h, drop fun c hc => h c (List.mem_reverse.mp hc), List.reverse_reverse]

theorem trim_cons_blank {c : Char} (hc : isBlank c = true) (cs : List Char) :
    trim (c :: cs) = trim cs := by
  rw [trim, List.dropWhile_cons_of_pos hc, trim]

theorem trim_concat_blank {c : Char} (hc : isBlank c = true) (cs : List Char) :
    trim (cs ++ [c]) = trim cs := by
  rw [trim, trim, List.dropWhile_append]
  split
  · next h =>
    rw [List.isEmpty_iff.mp h, List.dropWhile_cons_of_pos hc]
    rfl
  · rw [List.reverse_append, List.reverse_singleton, List.singleton_append,
      List.dropWhile_cons_of_pos hc]

end RecordQuery.Text
