import Mathlib.Data.List.DropRight
import RecordQuery.Text.Lines
import RecordQuery.Text.Position

/-! # Lines and columns

A position counts lines and columns character by character, while a text is split into lines all at
once. The two agree on the line of every character that does not end one
(`Text.exists_getElem?_lines`). Columns are counted from the last line feed on, but a null character
takes none (`Text.Position.after_column`). -/

namespace RecordQuery.Text

/-- The characters between the last line feed before place `n` of a text and that place. -/
def lineBefore (cs : List Char) (n : Nat) : List Char := (cs.take n).rtakeWhile (· != '\n')

theorem lineFeed_notMem_lineBefore (cs : List Char) (n : Nat) : '\n' ∉ lineBefore cs n := by
  intro h
  simpa using List.mem_rtakeWhile_imp h

/-- The column is counted from the last line feed on, past the null characters. -/
theorem Position.after_column (cs : List Char) :
    (Position.start.after cs).column =
      1 + ((cs.rtakeWhile (· != '\n')).filter (· != '\x00')).length := by
  induction cs using List.reverseRecOn with
  | nil => rfl
  | append_singleton cs c ih =>
    rw [after_append, after_cons, after_nil, List.rtakeWhile_concat]
    by_cases hn : c = '\n'
    · simp [step, hn]
    · by_cases hz : c = '\x00'
      · simp [step, hz, ih]
      · simp [step, hn, hz, ih]
        omega

/-! ## Lines one after the other -/

/-- A character that ends no line comes before the line behind it, unless it is a carriage return
that belongs to the line end behind it. -/
theorem lines_cons_cases {c : Char} (hn : c ≠ '\n') (cs : List Char) :
    (c = '\r' ∧ cs.head? = some '\n' ∧ lines (c :: cs) = lines cs) ∨
      (¬ (c = '\r' ∧ cs.head? = some '\n') ∧
        lines (c :: cs) = (c :: (lines cs).head?.getD []) :: (lines cs).tail) := by
  by_cases h : c = '\r' ∧ cs.head? = some '\n'
  · obtain ⟨rfl, hc⟩ := h
    obtain ⟨ds, rfl⟩ := List.head?_eq_some_iff.mp hc
    exact .inl ⟨rfl, rfl, rfl⟩
  · refine .inr ⟨h, ?_⟩
    rw [lines]
    · cases lines cs <;> rfl
    · exact hn
    · rintro ds rfl rfl
      exact h ⟨rfl, rfl⟩

theorem lines_ne_nil {cs : List Char} (h : cs ≠ []) : lines cs ≠ [] := by
  fun_cases lines cs <;> simp_all

/-- The lines behind a line feed are the lines of the text behind it. -/
theorem lines_append_lineFeed (front back : List Char) :
    lines (front ++ '\n' :: back) = lines (front ++ ['\n']) ++ lines back := by
  induction front with
  | nil => rfl
  | cons c front ih =>
    rw [List.cons_append, List.cons_append]
    by_cases hn : c = '\n'
    · subst hn
      exact congrArg ([] :: ·) ih
    · have hhead : (front ++ '\n' :: back).head? = (front ++ ['\n']).head? := by
        cases front <;> rfl
      have hne : lines (front ++ ['\n']) ≠ [] := lines_ne_nil (by simp)
      rcases lines_cons_cases hn (front ++ '\n' :: back) with ⟨hc, hh, h⟩ | ⟨hh, h⟩
      · rcases lines_cons_cases hn (front ++ ['\n']) with ⟨-, -, h'⟩ | ⟨hh', -⟩
        · rw [h, h', ih]
        · exact absurd ⟨hc, hhead ▸ hh⟩ hh'
      · rcases lines_cons_cases hn (front ++ ['\n']) with ⟨hc, hh', -⟩ | ⟨-, h'⟩
        · exact absurd ⟨hc, hhead ▸ hh'⟩ hh
        · rw [h, h', ih, List.head?_append_of_ne_nil _ hne, List.tail_append_of_ne_nil hne,
            List.cons_append]

/-- Each line feed ends one line. -/
theorem length_lines_concat_lineFeed (front : List Char) :
    (lines (front ++ ['\n'])).length = front.count '\n' + 1 := by
  induction front with
  | nil => rfl
  | cons c front ih =>
    rw [List.cons_append]
    by_cases hn : c = '\n'
    · subst hn
      rw [List.count_cons_self, ← ih]
      rfl
    · rw [List.count_cons_of_ne hn, ← ih]
      rcases lines_cons_cases hn (front ++ ['\n']) with ⟨-, -, h⟩ | ⟨-, h⟩
      · rw [h]
      · rw [h, List.length_cons, List.length_tail]
        omega

/-- A character stands in the line behind those that are before it in its line. -/
theorem exists_lines_append_cons {line : List Char} (h : '\n' ∉ line) {c : Char} (hn : c ≠ '\n')
    (hr : c ≠ '\r') (back : List Char) :
    ∃ rest more, lines (line ++ c :: back) = (line ++ c :: rest) :: more := by
  induction line with
  | nil =>
    rcases lines_cons_cases hn back with ⟨hc, -⟩ | ⟨-, hl⟩
    · exact absurd hc hr
    · exact ⟨_, _, hl⟩
  | cons d line ih =>
    rw [List.mem_cons, not_or] at h
    obtain ⟨rest, more, hl⟩ := ih h.2
    rcases lines_cons_cases (Ne.symm h.1) (line ++ c :: back) with ⟨-, hh, -⟩ | ⟨-, hl'⟩
    · cases line with
      | nil => exact absurd (Option.some.inj hh) hn
      | cons e line => exact absurd (List.mem_cons.mpr (.inl (Option.some.inj hh).symm)) h.2
    · exact ⟨rest, more, by rw [List.cons_append, hl', hl]; rfl⟩

/-- A text is cut behind its last line feed. -/
theorem eq_append_rtakeWhile (cs : List Char) :
    cs.rtakeWhile (· != '\n') = cs ∨
      ∃ front, cs = front ++ '\n' :: cs.rtakeWhile (· != '\n') := by
  induction cs using List.reverseRecOn with
  | nil => exact .inl rfl
  | append_singleton cs c ih =>
    by_cases hc : c = '\n'
    · subst hc
      exact .inr ⟨cs, by simp⟩
    · rw [List.rtakeWhile_concat_pos _ _ _ (by simpa using hc)]
      rcases ih with h | ⟨front, h⟩
      · exact .inl (by rw [h])
      · refine .inr ⟨front, ?_⟩
        conv_lhs => rw [h]
        simp

/-- The line that a position tells is that of the character behind it. -/
theorem exists_getElem?_lines {cs : List Char} {n : Nat} {c : Char} (hc : cs[n]? = some c)
    (hn : c ≠ '\n') (hr : c ≠ '\r') :
    ∃ rest, (lines cs)[(cs.take n).count '\n']? = some (lineBefore cs n ++ c :: rest) := by
  have hcs : cs = cs.take n ++ c :: cs.drop (n + 1) := by
    obtain ⟨hlt, rfl⟩ := List.getElem?_eq_some_iff.mp hc
    rw [← List.drop_eq_getElem_cons, List.take_append_drop]
  have hline := lineFeed_notMem_lineBefore cs n
  obtain ⟨rest, more, hl⟩ := exists_lines_append_cons hline hn hr (cs.drop (n + 1))
  refine ⟨rest, ?_⟩
  have hz : (lineBefore cs n).count '\n' = 0 := List.count_eq_zero.mpr hline
  rcases eq_append_rtakeWhile (cs.take n) with h | ⟨front, h⟩
  · change lineBefore cs n = cs.take n at h
    rw [h, ← hcs] at hl
    rw [h] at hz
    rw [hz, h, hl]
    rfl
  · change cs.take n = front ++ '\n' :: lineBefore cs n at h
    rw [h, List.append_assoc, List.cons_append] at hcs
    have hlen := length_lines_concat_lineFeed front
    have hcount : (cs.take n).count '\n' = (lines (front ++ ['\n'])).length := by
      rw [h, hlen, List.count_append, List.count_cons_self, hz]
    rw [hcount]
    conv_lhs => rw [hcs, lines_append_lineFeed, hl]
    simp

/-- No line has a line feed in it. -/
theorem lineFeed_notMem_of_mem_lines {cs line : List Char} (h : line ∈ lines cs) :
    '\n' ∉ line := by
  induction cs generalizing line with
  | nil => cases h
  | cons c cs ih =>
    by_cases hn : c = '\n'
    · subst hn
      cases h with
      | head => simp
      | tail _ h => exact ih h
    · rcases lines_cons_cases hn cs with ⟨-, -, hl⟩ | ⟨-, hl⟩
      · exact ih (hl ▸ h)
      · rw [hl] at h
        cases h with
        | head =>
          rw [List.mem_cons, not_or]
          refine ⟨Ne.symm hn, ?_⟩
          cases hc : lines cs with
          | nil => exact List.not_mem_nil
          | cons l ls =>
            have hm : l ∈ lines cs := hc ▸ List.mem_cons_self
            exact ih hm
        | tail _ h => exact ih (List.mem_of_mem_tail h)

end RecordQuery.Text
