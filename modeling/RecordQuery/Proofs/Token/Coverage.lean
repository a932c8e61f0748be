import Mathlib.Logic.Function.Iterate
import RecordQuery.Proofs.Token.Alone

/-! # What the tokens of a text cover

Tokens are taken from a text one after the other, and also when nothing is left of it. Every
character that is no blank belongs to exactly one token, every token but the one at the end takes a
character, and what a token takes can be read off its literal (`Token.covering_tokens`). -/

namespace RecordQuery

namespace Text

theorem Position.after_line (p : Position) (cs : List Char) :
    (p.after cs).line = p.line + cs.count '\n' := by
  induction cs generalizing p with
  | nil => rfl
  | cons c cs ih =>
    rw [after_cons, ih]
    by_cases hc : c = '\n'
    · subst hc
      simp only [step, if_true, List.count_cons_self]
      omega
    · have hs : (p.step c).line = p.line := by
        unfold step
        rw [if_neg hc]
        split <;> rfl
      rw [hs, List.count_cons_of_ne hc]

namespace Cursor

variable {c : Cursor} {s : String} {n : Nat}

theorem advance_offset (h : n ≤ c.rest.length) :
    (c.advance n).position.offset = c.position.offset + n := by
  rw [advance, Position.after_offset, List.length_take_of_le h]

/-- The cursor stands in the text `s`, at the place that its position tells. -/
structure StandsIn (c : Cursor) (s : String) : Prop where
  position : c.position = Position.start.after (s.toList.take c.position.offset)
  rest : c.rest = s.toList.drop c.position.offset

namespace StandsIn

theorem ofString (s : String) : (Cursor.ofString s).StandsIn s := ⟨rfl, rfl⟩

theorem offset_add_length (h : c.StandsIn s) : c.position.offset + c.rest.length = s.length := by
  have hp := congrArg Position.offset h.position
  rw [Position.after_offset, List.length_take, String.length_toList] at hp
  rw [h.rest, List.length_drop, String.length_toList]
  simp only [Position.start] at hp
  omega

theorem line (h : c.StandsIn s) :
    c.position.line = 1 + (s.toList.take c.position.offset).count '\n' := by
  have hl := Position.after_line .start (s.toList.take c.position.offset)
  rwa [← h.position] at hl

theorem advance (h : c.StandsIn s) (hn : n ≤ c.rest.length) : (c.advance n).StandsIn s := by
  constructor
  · rw [advance_offset hn, List.take_add, Position.after_append, ← h.position, ← h.rest]
    rfl
  · rw [advance_offset hn, advance_rest, h.rest, List.drop_drop]

theorem skipBlanks (h : c.StandsIn s) : c.skipBlanks.StandsIn s :=
  h.advance (List.takeWhile_prefix _).length_le

theorem getElem? (h : c.StandsIn s) (i : Nat) :
    s.toList[c.position.offset + i]? = c.rest[i]? := by
  rw [h.rest, List.getElem?_drop]

/-- Only blanks are skipped. -/
theorem isBlank_of_lt_skipBlanks (h : c.StandsIn s) {i : Nat} {b : Char}
    (hi : s.toList[i]? = some b) (hl : c.position.offset ≤ i)
    (hr : i < c.skipBlanks.position.offset) : isBlank b = true := by
  obtain ⟨j, rfl⟩ := Nat.exists_eq_add_of_le hl
  rw [h.getElem?] at hi
  rw [Cursor.skipBlanks, advance_offset (List.takeWhile_prefix _).length_le] at hr
  have hj : j < (c.rest.takeWhile isBlank).length := by omega
  have hm : (c.rest.takeWhile isBlank)[j]? = some b := by
    rw [← List.takeWhile_append_dropWhile (p := isBlank) (l := c.rest),
      List.getElem?_append_left hj] at hi
    exact hi
  exact List.all_eq_true.mp List.all_takeWhile b (List.mem_of_getElem? hm)

end StandsIn

end Cursor

end Text

open Text

namespace Token

/-! ## One token -/

/-- The token is written `cs` in its text: as its literal says, unless it is quoted. A quotation
that is not closed goes on to the end of the text. -/
structure WrittenAs (t : Token) (cs : List Char) : Prop where
  verbatim : cs.head? ≠ some '\'' → cs.head? ≠ some '"' → t.literal.toList = cs
  string : cs.head? = some '\'' → ∃ v, t.literal.toList = '\'' :: (v ++ ['\'']) ∧
    (t.kind = .string ∧ cs = '\'' :: (doubled '\'' v ++ ['\'']) ∨
      t.kind = .error .unterminatedString ∧ cs = '\'' :: doubled '\'' v)
  name : cs.head? = some '"' →
    t.kind = .identifier ∧ cs = '"' :: (doubled '"' t.literal.toList ++ ['"']) ∨
      t.kind = .error .unterminatedName ∧ cs = '"' :: doubled '"' t.literal.toList

theorem writtenAs_scan (c : Char) (cs : List Char) (p : Position) :
    WrittenAs ⟨(scan c cs).kind, String.ofList (scan c cs).literal, p⟩
      ((c :: cs).take (scan c cs).length) := by
  have hhead : ((c :: cs).take (scan c cs).length).head? = some c := by
    rw [← Nat.succ_pred_eq_of_pos (length_pos_scan c cs)]
    rfl
  constructor
  · intro h₁ h₂
    rw [hhead] at h₁ h₂
    obtain ⟨k, lit, hs, hl⟩ := scan_verbatim (by simpa using h₁) (by simpa using h₂) cs
    rw [hs]
    exact String.toList_ofList.trans (List.prefix_iff_eq_take.mp hl)
  · intro h
    obtain rfl : c = '\'' := Option.some.inj (hhead.symm.trans h)
    have ht := take_readQuoted '\'' cs
    have hs : scan '\'' cs = scanString cs := if_pos rfl
    rw [hs, scanString]
    refine ⟨_, String.toList_ofList, ?_⟩
    cases hq : (readQuoted '\'' cs).closed with
    | true => exact .inl ⟨rfl, by simp [ht, hq]⟩
    | false => exact .inr ⟨rfl, by simp [ht, hq]⟩
  · intro h
    obtain rfl : c = '"' := Option.some.inj (hhead.symm.trans h)
    have ht := take_readQuoted '"' cs
    have hs : scan '"' cs = scanQuotedName cs := by rw [scan, if_neg (by decide), if_pos rfl]
    rw [hs, scanQuotedName]
    cases hq : (readQuoted '"' cs).closed with
    | true => exact .inl ⟨rfl, by simp [ht, hq]⟩
    | false => exact .inr ⟨rfl, by simp [ht, hq]⟩

/-- What is taken at a cursor: the token at the end, or what is scanned behind the blanks. -/
theorem next_cases (c : Cursor) :
    (c.skipBlanks.rest = [] ∧ next c = (.atEnd c.skipBlanks.position, c.skipBlanks)) ∨
      ∃ d ds, c.skipBlanks.rest = d :: ds ∧
        next c = (⟨(scan d ds).kind, String.ofList (scan d ds).literal, c.skipBlanks.position⟩,
          c.skipBlanks.advance (scan d ds).length) := by
  unfold next
  dsimp only
  split
  · next h => exact .inl ⟨h, rfl⟩
  · next d ds h => exact .inr ⟨d, ds, h, rfl⟩

theorem next_position (c : Cursor) : (next c).1.position = c.skipBlanks.position := by
  rcases next_cases c with ⟨-, h⟩ | ⟨d, ds, -, h⟩
  · rw [h]
    rfl
  · rw [h]

theorem isFinish_next_iff (c : Cursor) : (next c).1.isFinish = true ↔ c.skipBlanks.rest = [] := by
  rcases next_cases c with ⟨hr, h⟩ | ⟨d, ds, hr, h⟩
  · simp [hr, h]
  · simpa [hr, h, isFinish] using kind_scan_ne_finish d ds

variable {c : Cursor} {s : String}

theorem next_of_rest_eq_nil (h : c.skipBlanks.rest = []) :
    next c = (.atEnd c.skipBlanks.position, c.skipBlanks) := by
  unfold next
  dsimp only
  rw [h]

/-- Behind the end of the text there is its end again. -/
theorem next_next_of_isFinish (h : (next c).1.isFinish = true) : next (next c).2 = next c := by
  have hr := (isFinish_next_iff c).mp h
  have hs : c.skipBlanks.skipBlanks = c.skipBlanks := by
    rw [Cursor.skipBlanks, hr]
    rfl
  rw [next_of_rest_eq_nil hr, next_of_rest_eq_nil (hs.symm ▸ hr), hs]

theorem next_standsIn (h : c.StandsIn s) : (next c).2.StandsIn s := by
  rcases next_cases c with ⟨-, hn⟩ | ⟨d, ds, hr, hn⟩
  · rw [hn]
    exact h.skipBlanks
  · rw [hn]
    exact h.skipBlanks.advance (hr ▸ length_scan_le d ds)

theorem offset_of_isFinish (h : c.StandsIn s) (hf : (next c).1.isFinish = true) :
    (next c).1.position.offset = s.length := by
  have hl := h.skipBlanks.offset_add_length
  rw [(isFinish_next_iff c).mp hf] at hl
  rwa [next_position]

/-- A token takes the characters from its place to where the next one is looked for. -/
theorem next_taken (h : c.StandsIn s) (hf : (next c).1.isFinish = false) :
    (next c).1.position.offset < (next c).2.position.offset ∧
      (next c).1.WrittenAs
        (s.toList.extract (next c).1.position.offset (next c).2.position.offset) := by
  rcases next_cases c with ⟨-, hn⟩ | ⟨d, ds, hr, hn⟩
  · rw [hn] at hf
    cases hf
  · rw [hn]
    have hw := writtenAs_scan d ds c.skipBlanks.position
    have ho := Cursor.advance_offset (hr ▸ length_scan_le d ds)
    have hpos := length_pos_scan d ds
    dsimp only
    rw [ho, List.extract_eq_take_drop, ← h.skipBlanks.rest, hr, Nat.add_sub_cancel_left]
    exact ⟨by omega, hw⟩

/-! ## One token after the other -/

/-- The cursor from which the token number `k` of the text `s` is taken, counting from 0. -/
def cursorAt (s : String) (k : Nat) : Cursor := (fun c => (next c).2)^[k] (.ofString s)

/-- The token number `k` of a text. -/
def nth (s : String) (k : Nat) : Token := (next (cursorAt s k)).1

/-- Where the token number `k` begins. -/
def startOf (s : String) (k : Nat) : Nat := (nth s k).position.offset

/-- Where the token number `k` ends and the next one is looked for. -/
def stopOf (s : String) (k : Nat) : Nat := (cursorAt s (k + 1)).position.offset

/-- The tokens of the text `s` cover it, and the one at its end has the number `m`. -/
structure Covering (s : String) (m : Nat) : Prop where
  le_length : m ≤ s.length
  isFinish_iff (k : Nat) : (nth s k).isFinish = true ↔ m ≤ k
  nth_eq {k : Nat} (h : m ≤ k) : nth s k = nth s m
  startOf_finish : startOf s m = s.length
  startOf_lt {j k : Nat} (h : j < k) (hk : k ≤ m) : startOf s j < startOf s k
  line (k : Nat) : (nth s k).position.line = 1 + (s.toList.take (startOf s k)).count '\n'
  startOf_lt_stopOf {k : Nat} (h : k < m) : startOf s k < stopOf s k
  stopOf_le_startOf {j k : Nat} (h : j < k) : stopOf s j ≤ startOf s k
  blank_before {i : Nat} {b : Char} (hb : s.toList[i]? = some b) (h : i < startOf s 0) :
    isBlank b = true
  blank_between {i : Nat} {b : Char} (hb : s.toList[i]? = some b) {k : Nat} (h : stopOf s k ≤ i)
    (h' : i < startOf s (k + 1)) : isBlank b = true
  existsUnique {i : Nat} {b : Char} (hb : s.toList[i]? = some b) (h : isBlank b = false) :
    ∃! k, k < m ∧ startOf s k ≤ i ∧ i < stopOf s k
  writtenAs {k : Nat} (h : k < m) :
    (nth s k).WrittenAs (s.toList.extract (startOf s k) (stopOf s k))

variable {j k m : Nat}

theorem cursorAt_succ (s : String) (k : Nat) : cursorAt s (k + 1) = (next (cursorAt s k)).2 :=
  Function.iterate_succ_apply' ..

theorem cursorAt_standsIn (s : String) (k : Nat) : (cursorAt s k).StandsIn s := by
  induction k with
  | zero => exact .ofString s
  | succ k ih => exact cursorAt_succ s k ▸ next_standsIn ih

theorem startOf_eq (s : String) (k : Nat) :
    startOf s k = (cursorAt s k).skipBlanks.position.offset := by
  rw [startOf, nth, next_position]

theorem skipBlanks_offset (c : Cursor) :
    c.position.offset ≤ c.skipBlanks.position.offset := by
  rw [Cursor.skipBlanks, Cursor.advance_offset (List.takeWhile_prefix _).length_le]
  exact Nat.le_add_right ..

theorem startOf_lt_stopOf_of_isFinish (h : (nth s k).isFinish = false) :
    startOf s k < stopOf s k := by
  rw [stopOf, cursorAt_succ]
  exact (next_taken (cursorAt_standsIn s k) h).1

theorem startOf_le_stopOf (s : String) (k : Nat) : startOf s k ≤ stopOf s k := by
  cases hf : (nth s k).isFinish with
  | false => exact Nat.le_of_lt (startOf_lt_stopOf_of_isFinish hf)
  | true =>
    have heq : stopOf s k = startOf s k := by
      rw [stopOf, cursorAt_succ, startOf_eq, next_of_rest_eq_nil ((isFinish_next_iff _).mp hf)]
    exact Nat.le_of_eq heq.symm

theorem stopOf_le_startOf_of_lt (s : String) (h : j < k) : stopOf s j ≤ startOf s k := by
  induction h with
  | refl => exact startOf_eq s (j + 1) ▸ skipBlanks_offset _
  | @step k _ ih =>
    have hle : stopOf s k ≤ startOf s (k + 1) := startOf_eq s (k + 1) ▸ skipBlanks_offset _
    exact Nat.le_trans ih (Nat.le_trans (startOf_le_stopOf s k) hle)

theorem isBlank_of_lt_startOf {i : Nat} {b : Char} (hb : s.toList[i]? = some b)
    (hl : (cursorAt s k).position.offset ≤ i) (hr : i < startOf s k) : isBlank b = true :=
  (cursorAt_standsIn s k).isBlank_of_lt_skipBlanks hb hl (startOf_eq s k ▸ hr)

/-- What stands before a token is a blank or belongs to an earlier one. -/
theorem exists_token_of_lt_startOf {i : Nat} {b : Char} (hb : s.toList[i]? = some b)
    (hn : isBlank b = false) (h : i < startOf s k) :
    ∃ j < k, startOf s j ≤ i ∧ i < stopOf s j := by
  induction k with
  | zero =>
    have hz : (cursorAt s 0).position.offset ≤ i := Nat.zero_le i
    simp [isBlank_of_lt_startOf hb hz h] at hn
  | succ k ih =>
    have hstop : i < stopOf s k := Nat.lt_of_not_le fun hle => by
      simp [isBlank_of_lt_startOf hb hle h] at hn
    rcases Nat.lt_or_ge i (startOf s k) with hlt | hge
    · obtain ⟨j, hj, hi⟩ := ih hlt
      exact ⟨j, Nat.lt_succ_of_lt hj, hi⟩
    · exact ⟨k, Nat.lt_succ_self k, hge, hstop⟩

/-! ## All tokens -/

/-- The list of the tokens ends where the end of the text is taken for the first time. -/
theorem isFinish_iterate_iff (c : Cursor) (k : Nat) :
    (next ((fun c => (next c).2)^[k] c)).1.isFinish = true ↔ (tokens c).length ≤ k := by
  induction k generalizing c with
  | zero =>
    rw [tokens]
    split
    · next h => simp [h]
    · next h => simp [h]
  | succ k ih =>
    rw [Function.iterate_succ_apply, ih]
    by_cases h : (next c).1.isFinish = true
    · have h' : (next (next c).2).1.isFinish = true := by rwa [next_next_of_isFinish h]
      have hc : tokens c = [] := by rw [tokens, if_pos h]
      have hc' : tokens (next c).2 = [] := by rw [tokens, if_pos h']
      simp [hc, hc']
    · have hc : tokens c = (next c).1 :: tokens (next c).2 := by rw [tokens, if_neg h]
      simp [hc]

theorem length_tokens_le (c : Cursor) : (tokens c).length ≤ c.rest.length := by
  induction c using cursor_induction with
  | finish p => simp [tokens_nil]
  | blank p b cs hb ih =>
    rw [tokens_blank p hb]
    exact Nat.le_succ_of_le ih
  | token p c cs hc ih =>
    have hpos := length_pos_scan c cs
    rw [tokens_cons p hc, List.length_cons]
    rw [Cursor.advance_rest_length] at ih
    simp only [List.length_cons] at ih ⊢
    omega

theorem nth_eq_of_isFinish (h : (nth s m).isFinish = true) (hk : m ≤ k) : nth s k = nth s m := by
  suffices hn : next (cursorAt s k) = next (cursorAt s m) from congrArg Prod.fst hn
  induction hk with
  | refl => rfl
  | step _ ih => rw [cursorAt_succ, ih, next_next_of_isFinish h]

/-- The tokens of a text cover it. -/
theorem covering_tokens (s : String) : Covering s (tokens (.ofString s)).length := by
  have hfin := isFinish_iterate_iff (.ofString s)
  have hnot {k} (h : k < (tokens (.ofString s)).length) : (nth s k).isFinish = false :=
    eq_false_of_ne_true fun hf => Nat.not_le_of_lt h ((hfin k).mp hf)
  have hend := (hfin _).mpr (Nat.le_refl _)
  have hlen : startOf s (tokens (.ofString s)).length = s.length :=
    offset_of_isFinish (cursorAt_standsIn s _) hend
  constructor
  case le_length => exact length_tokens_le (.ofString s)
  case isFinish_iff => exact hfin
  case nth_eq => exact nth_eq_of_isFinish hend
  case startOf_finish => exact hlen
  case startOf_lt =>
    intro j k h hk
    have hj := startOf_lt_stopOf_of_isFinish (hnot (Nat.lt_of_lt_of_le h hk))
    exact Nat.lt_of_lt_of_le hj (stopOf_le_startOf_of_lt s h)
  case line =>
    intro k
    rw [startOf, nth, next_position]
    exact (cursorAt_standsIn s k).skipBlanks.line
  case startOf_lt_stopOf => exact fun h => startOf_lt_stopOf_of_isFinish (hnot h)
  case stopOf_le_startOf => exact stopOf_le_startOf_of_lt s
  case blank_before => exact fun hb h => isBlank_of_lt_startOf hb (Nat.zero_le _) h
  case blank_between => exact fun hb _ h h' => isBlank_of_lt_startOf hb h h'
  case existsUnique =>
    intro i b hb hn
    have hi : i < s.length := String.length_toList ▸ (List.getElem?_eq_some_iff.mp hb).1
    obtain ⟨k, hk, hin⟩ := exists_token_of_lt_startOf hb hn (hlen ▸ hi)
    refine ⟨k, ⟨hk, hin⟩, fun j ⟨_, hj⟩ => ?_⟩
    rcases Nat.lt_trichotomy j k with hjk | rfl | hjk
    · have := stopOf_le_startOf_of_lt s hjk
      omega
    · rfl
    · have := stopOf_le_startOf_of_lt s hjk
      omega
  case writtenAs =>
    intro k hk
    rw [startOf, stopOf, cursorAt_succ]
    exact (next_taken (cursorAt_standsIn s k) (hnot hk)).2

end Token

end RecordQuery
