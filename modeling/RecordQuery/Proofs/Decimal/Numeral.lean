import RecordQuery.Decimal.Basic
import RecordQuery.Proofs.Decimal.Rounding
import RecordQuery.Proofs.Statement.PlainCondition

/-! # Numbers as they are written

A number in a statement has digits, and a fraction and an exponent if it needs them; a minus sign
may have been read before it. Such a text has a value (`WrittenNumber.value`), and it is read as
the decimal of that value, with one exception: of the digits of an exponent those are passed over
that come when it has reached `2 ^ 16`. -/

namespace RecordQuery

open Text Decimal

/-- One decimal digit or more. -/
def IsDigits (cs : List Char) : Prop := cs ≠ [] ∧ ∀ c ∈ cs, c.isDigit = true

instance (cs : List Char) : Decidable (IsDigits cs) :=
  decidable_of_iff (cs ≠ [] ∧ cs.all Char.isDigit = true) (and_congr_right' List.all_eq_true)

/-- An exponent as it is written. -/
structure WrittenExponent where
  mark : Char
  sign : List Char
  digits : List Char
  mark_eq : mark = 'e' ∨ mark = 'E'
  sign_eq : sign = [] ∨ sign = ['+'] ∨ sign = ['-']
  isDigits : IsDigits digits

/-- A number as it is written. -/
structure WrittenNumber where
  negative : Bool
  whole : List Char
  fraction : Option (List Char)
  exponent : Option WrittenExponent
  isDigits_whole : IsDigits whole
  isDigits_fraction : ∀ cs ∈ fraction, IsDigits cs

namespace WrittenExponent

variable (e : WrittenExponent)

def chars : List Char := e.mark :: (e.sign ++ e.digits)

/-- The integer with the sign of the exponent. -/
def signed (m : Nat) : ℤ := if e.sign = ['-'] then -(m : ℤ) else m

/-- The exponent. -/
def value : ℤ := e.signed (digitsValue e.digits)

/-- What is made of the exponent. -/
def read : ℤ := e.signed (exponentValue e.digits)

end WrittenExponent

namespace WrittenNumber

variable (n : WrittenNumber)

/-! ## Texts and values -/

def fractionChars : List Char := n.fraction.elim [] ('.' :: ·)

def exponentChars : List Char := n.exponent.elim [] (·.chars)

/-- The text without its sign. -/
def unsignedChars : List Char := n.whole ++ (n.fractionChars ++ n.exponentChars)

def text : String := String.ofList ((if n.negative then ['-'] else []) ++ n.unsignedChars)

/-- The number has neither a fraction nor an exponent. -/
def IsInteger : Prop := n.fraction = none ∧ n.exponent = none

/-- The value of the digits before and behind the point. -/
def base : ℚ :=
  digitsValue n.whole + n.fraction.elim 0 fun cs => (digitsValue cs : ℚ) / 10 ^ cs.length

/-- The value without the sign. -/
def magnitude : ℚ := n.base * 10 ^ n.exponent.elim 0 (·.value)

/-- The value without the sign, with the exponent that is made of the written one. -/
def readMagnitude : ℚ := n.base * 10 ^ n.exponent.elim 0 (·.read)

def value : ℚ := if n.negative then -n.magnitude else n.magnitude

end WrittenNumber

/-! ## Digits -/

/-- Each digit behind multiplies by ten what those before have made. -/
theorem foldl_digits (n : Nat) (cs : List Char) :
    cs.foldl (fun n c => 10 * n + digitValue c) n = n * 10 ^ cs.length + digitsValue cs := by
  induction cs generalizing n with
  | nil => simp [digitsValue]
  | cons c cs ih =>
    rw [digitsValue, List.foldl_cons, List.foldl_cons, ih, ih (10 * 0 + _), List.length_cons]
    ring

theorem digitsValue_append (cs ds : List Char) :
    digitsValue (cs ++ ds) = digitsValue cs * 10 ^ ds.length + digitsValue ds := by
  rw [digitsValue, List.foldl_append, foldl_digits]
  rfl

theorem digitsValue_concat (cs : List Char) (c : Char) :
    digitsValue (cs ++ [c]) = 10 * digitsValue cs + digitValue c := by
  rw [digitsValue, List.foldl_append]
  rfl

/-- An exponent is read as it is written if it is not that large. -/
theorem exponentValue_eq {cs : List Char} (h : digitsValue cs < 10 * 2 ^ 16) :
    exponentValue cs = digitsValue cs := by
  induction cs using List.reverseRecOn with
  | nil => rfl
  | append_singleton cs c ih =>
    rw [digitsValue_concat] at h ⊢
    have hcs : digitsValue cs < 0x10000 := by omega
    have ih : cs.foldl _ 0 = digitsValue cs := ih (by omega)
    rw [exponentValue, List.foldl_append, List.foldl_cons, List.foldl_nil, ih, if_pos hcs]

namespace IsDigits

variable {cs rest : List Char}

theorem exists_cons (h : IsDigits cs) : ∃ c ds, cs = c :: ds ∧ c.isDigit = true := by
  obtain ⟨c, ds, rfl⟩ := List.exists_cons_of_ne_nil h.1
  exact ⟨c, ds, rfl, h.2 c (by simp)⟩

theorem takeSign_append (h : IsDigits cs) (rest : List Char) :
    takeSign (cs ++ rest) = (false, cs ++ rest) := by
  obtain ⟨c, ds, rfl, hc⟩ := h.exists_cons
  have h₁ : c ≠ '-' := by rintro rfl; exact absurd hc (by decide)
  have h₂ : c ≠ '+' := by rintro rfl; exact absurd hc (by decide)
  unfold takeSign
  split
  · next he => exact absurd (List.cons.inj he).1 h₁
  · next he => exact absurd (List.cons.inj he).1 h₂
  · rfl

/-- The sign before digits is taken, if there is one. -/
theorem takeSign_sign_append (h : IsDigits cs) {sign : List Char}
    (hs : sign = [] ∨ sign = ['+'] ∨ sign = ['-']) :
    takeSign (sign ++ cs) = (decide (sign = ['-']), cs) := by
  rcases hs with rfl | rfl | rfl
  · simpa using h.takeSign_append []
  · rfl
  · rfl

theorem takeWhile_append (h : IsDigits cs) (hr : ∀ c ∈ rest.head?, c.isDigit = false) :
    (cs ++ rest).takeWhile Char.isDigit = cs := by
  rw [List.takeWhile_append_of_pos h.2]
  cases rest with
  | nil => simp
  | cons c rest => simp [hr c rfl]

theorem dropWhile_append (h : IsDigits cs) (hr : ∀ c ∈ rest.head?, c.isDigit = false) :
    (cs ++ rest).dropWhile Char.isDigit = rest := by
  rw [List.dropWhile_append_of_pos h.2]
  cases rest with
  | nil => rfl
  | cons c rest => simp [hr c rfl]

end IsDigits

/-! ## Reading a written number -/

namespace WrittenExponent

variable (e : WrittenExponent)

theorem takeSign_eq : takeSign (e.sign ++ e.digits) = (decide (e.sign = ['-']), e.digits) :=
  e.isDigits.takeSign_sign_append e.sign_eq

/-- The text of an exponent is read to its end. -/
theorem exponent?_chars : exponent? e.chars = some e.read := by
  have hm : (e.mark == 'e' || e.mark == 'E') = true := by
    rcases e.mark_eq with h | h <;> simp [h]
  have hall : e.digits.all Char.isDigit = true := List.all_eq_true.mpr e.isDigits.2
  have hne : e.digits.isEmpty = false := by simpa using e.isDigits.1
  simp only [chars, exponent?, takeSign_eq, hm, hall, hne, read, signed, decide_eq_true_eq,
    Bool.not_false, Bool.and_self, if_true]

end WrittenExponent

namespace WrittenNumber

variable (n : WrittenNumber)

theorem head?_exponentChars : ∀ c ∈ n.exponentChars.head?, c.isDigit = false ∧ c ≠ '.' := by
  unfold exponentChars
  cases n.exponent with
  | none => simp
  | some e =>
    rintro c ⟨⟩
    rcases e.mark_eq with h | h <;> simp [h]

/-- No digit stands behind the digits before the point. -/
theorem head?_fractionChars_append :
    ∀ c ∈ (n.fractionChars ++ n.exponentChars).head?, c.isDigit = false := by
  unfold fractionChars
  cases n.fraction with
  | none => exact fun c hc => (n.head?_exponentChars c hc).1
  | some cs =>
    rintro c ⟨⟩
    decide

/-- The fraction is taken with its point, and the exponent is left. -/
theorem takeFraction_eq : takeFraction (n.fractionChars ++ n.exponentChars) =
    (n.fraction.getD [], n.exponentChars) := by
  have hd : ∀ c ∈ n.exponentChars.head?, c.isDigit = false :=
    fun c hc => (n.head?_exponentChars c hc).1
  unfold fractionChars
  cases hf : n.fraction with
  | none =>
    have hp := n.head?_exponentChars
    simp only [Option.elim_none, List.nil_append, Option.getD_none]
    unfold takeFraction
    split
    · next h => exact absurd rfl (hp '.' (by simp [h])).2
    · rfl
  | some cs =>
    have hcs := n.isDigits_fraction cs hf
    simp only [Option.elim_some, List.cons_append, Option.getD_some, takeFraction,
      hcs.takeWhile_append hd, hcs.dropWhile_append hd]

theorem exponent?_exponentChars :
    exponent? n.exponentChars = some (n.exponent.elim 0 (·.read)) := by
  unfold exponentChars
  cases n.exponent with
  | none => rfl
  | some e => exact e.exponent?_chars

/-- The decimal that is made of a written number. -/
def decimal : Decimal :=
  let fraction := n.fraction.getD []
  ⟨n.negative, digitsValue (n.whole ++ fraction), n.exponent.elim 0 (·.read) - fraction.length⟩

/-- The text without its sign is taken apart into the parts that it was written from. -/
theorem unsigned?_unsignedChars : unsigned? n.negative n.unsignedChars = some n.decimal := by
  have hd := n.head?_fractionChars_append
  have hne : ¬ (n.whole ++ n.fraction.getD []).isEmpty = true := by
    simp [n.isDigits_whole.1]
  unfold unsigned? unsignedChars
  simp only [n.isDigits_whole.takeWhile_append hd, n.isDigits_whole.dropWhile_append hd,
    n.takeFraction_eq, hne, n.exponent?_exponentChars, Option.map_some, decimal]
  rfl

theorem takeSign_text : takeSign n.text.toList = (n.negative, n.unsignedChars) := by
  have := n.isDigits_whole.takeSign_append (n.fractionChars ++ n.exponentChars)
  unfold text
  rw [String.toList_ofList]
  cases n.negative with
  | false => exact this
  | true => rfl

theorem ofChars?_text : Numeral.ofChars? n.text.toList = some (.finite n.decimal) := by
  simp only [Numeral.ofChars?, takeSign_text, unsigned?_unsignedChars]

/-- The decimal has the value of the digits and of the exponent that was made of the written one. -/
theorem magnitude_decimal : n.decimal.magnitude = n.readMagnitude := by
  unfold Decimal.magnitude decimal readMagnitude base
  have hten : (10 : ℚ) ≠ 0 := by norm_num
  cases n.fraction with
  | none => simp
  | some cs =>
    simp only [Option.getD_some, Option.elim_some, digitsValue_append]
    rw [zpow_sub₀ hten, zpow_natCast]
    push_cast
    field_simp

/-- An integer is read with its sign, however many digits it has. -/
theorem integer?_text (h : n.IsInteger) : integer? n.text.toList =
    some (if n.negative then -(digitsValue n.whole : ℤ) else digitsValue n.whole) := by
  have hu : n.unsignedChars = n.whole := by
    simp [unsignedChars, fractionChars, exponentChars, h.1, h.2]
  have hne : n.whole.isEmpty = false := by simpa using n.isDigits_whole.1
  have hall : n.whole.all Char.isDigit = true := List.all_eq_true.mpr n.isDigits_whole.2
  simp only [integer?, takeSign_text, hu, hne, hall, Bool.not_true, Bool.or_self,
    Bool.false_eq_true, if_false]

/-- A point or the letter of an exponent keeps a number from being read as an integer. -/
theorem integer?_text_eq_none (h : ¬ n.IsInteger) : integer? n.text.toList = none := by
  have hother : ∃ c ∈ n.unsignedChars, c.isDigit = false := by
    unfold unsignedChars fractionChars exponentChars
    cases hf : n.fraction with
    | some cs => exact ⟨'.', by simp, by decide⟩
    | none =>
      cases he : n.exponent with
      | none => exact absurd ⟨hf, he⟩ h
      | some e =>
        refine ⟨e.mark, by simp [WrittenExponent.chars], ?_⟩
        rcases e.mark_eq with h | h <;> simp [h]
  have hall : n.unsignedChars.all Char.isDigit = false := by
    obtain ⟨c, hc, hd⟩ := hother
    exact List.all_eq_false.mpr ⟨c, hc, by simp [hd]⟩
  simp only [integer?, takeSign_text, hall, Bool.not_false, Bool.or_true, if_true]

theorem isBlank_of_mem_text {c : Char} (h : c ∈ n.text.toList) : isBlank c = false := by
  have digit {cs : List Char} (hcs : IsDigits cs) (hc : c ∈ cs) : isBlank c = false :=
    Token.isBlank_of_isDigit (hcs.2 c hc)
  rw [text, String.toList_ofList, unsignedChars, List.mem_append, List.mem_append,
    List.mem_append] at h
  rcases h with h | h | h | h
  · cases hn : n.negative <;> simp [hn] at h
    subst h
    decide
  · exact digit n.isDigits_whole h
  · unfold fractionChars at h
    cases hf : n.fraction with
    | none => simp [hf] at h
    | some cs =>
      rw [hf, Option.elim_some, List.mem_cons] at h
      rcases h with rfl | h
      · decide
      · exact digit (n.isDigits_fraction cs hf) h
  · unfold exponentChars at h
    cases he : n.exponent with
    | none => simp [he] at h
    | some e =>
      rw [he, Option.elim_some, WrittenExponent.chars, List.mem_cons, List.mem_append] at h
      rcases h with rfl | h | h
      · rcases e.mark_eq with h | h <;> rw [h] <;> decide
      · rcases e.sign_eq with hs | hs | hs <;> simp [hs] at h <;> subst h <;> decide
      · exact digit e.isDigits h

theorem trim_text : trim n.text.toList = n.text.toList :=
  trim_eq_self fun _ => n.isBlank_of_mem_text

end WrittenNumber

/-! ## The numbers that a statement can hold -/

namespace Token

/-- What is scanned as a fraction is none, or a point and digits. -/
theorem fractionOf_eq (cs : List Char) :
    fractionOf cs = [] ∨ ∃ ds, IsDigits ds ∧ fractionOf cs = '.' :: ds := by
  unfold fractionOf
  split
  · next c cs =>
    split
    · next hc =>
      refine .inr ⟨_, ⟨?_, fun d hd => isDigit_of_mem_takeWhile hd⟩, rfl⟩
      rw [List.takeWhile_cons_of_pos hc]
      exact List.cons_ne_nil _ _
    · exact .inl rfl
  · exact .inl rfl

theorem signOf_eq (cs : List Char) : signOf cs = [] ∨ signOf cs = ['+'] ∨ signOf cs = ['-'] := by
  unfold signOf
  split
  · next c _ =>
    by_cases h : (c == '+' || c == '-') = true
    · rw [if_pos h]
      simp only [Bool.or_eq_true, beq_iff_eq] at h
      rcases h with rfl | rfl
      · exact .inr (.inl rfl)
      · exact .inr (.inr rfl)
    · rw [if_neg h]
      exact .inl rfl
  · exact .inl rfl

theorem exists_writtenExponent {cs mark digits : List Char}
    (h : exponentOf cs = some (mark, digits)) (hne : digits ≠ []) :
    ∃ e : WrittenExponent, e.chars = mark ++ digits := by
  unfold exponentOf at h
  split at h
  · next c cs =>
    split at h
    · next hc =>
      obtain ⟨rfl, rfl⟩ := Prod.mk.inj (Option.some.inj h)
      simp only [Bool.or_eq_true, beq_iff_eq] at hc
      exact ⟨⟨c, _, _, hc, signOf_eq cs, hne, fun d hd => isDigit_of_mem_takeWhile hd⟩, rfl⟩
    · cases h
  · cases h

/-- A number without a sign is a written number. -/
theorem exists_writtenNumber {cs : List Char} (h : IsNumeral cs) (negative : Bool) :
    ∃ n : WrittenNumber, n.negative = negative ∧ n.unsignedChars = cs := by
  obtain ⟨c, ds, k, hcs, hc, hk, hs⟩ := h
  have hwhole : IsDigits (cs.takeWhile Char.isDigit) := by
    refine ⟨?_, fun d hd => isDigit_of_mem_takeWhile hd⟩
    rw [hcs, List.takeWhile_cons_of_pos hc]
    exact List.cons_ne_nil _ _
  have hfraction : ∃ o : Option (List Char), (∀ ds ∈ o, IsDigits ds) ∧
      fractionOf (cs.drop (cs.takeWhile Char.isDigit).length) = o.elim [] ('.' :: ·) := by
    rcases fractionOf_eq (cs.drop (cs.takeWhile Char.isDigit).length) with h | ⟨ds, hds, h⟩
    · exact ⟨none, by simp, h⟩
    · exact ⟨some ds, by simpa using hds, h⟩
  obtain ⟨fraction, hf, hfeq⟩ := hfraction
  unfold scanNumber at hs
  dsimp only at hs
  rw [hfeq] at hs
  generalize cs.takeWhile Char.isDigit = whole at hwhole hs
  split at hs
  · have hkind : _ = k := congrArg Scan.kind hs
    rcases hk with rfl | rfl <;> cases hkind
  · next mark digits hne he =>
    obtain ⟨e, hchars⟩ := exists_writtenExponent he hne
    refine ⟨⟨negative, whole, fraction, some e, hwhole, hf⟩, rfl, ?_⟩
    rw [← show _ = cs from congrArg Scan.literal hs]
    simp [WrittenNumber.unsignedChars, WrittenNumber.fractionChars, WrittenNumber.exponentChars,
      hchars]
  · refine ⟨⟨negative, whole, fraction, none, hwhole, hf⟩, rfl, ?_⟩
    rw [← show _ = cs from congrArg Scan.literal hs]
    simp [WrittenNumber.unsignedChars, WrittenNumber.fractionChars, WrittenNumber.exponentChars]

end Token

/-- A number that is read from a text keeps of its sign only the minus. -/
theorem NumberLiteral.SpelledBy.isPlain {n : NumberLiteral} {c : Cursor} {ts : List Token}
    (h : n.SpelledBy ts) (hts : ∀ t ∈ ts, t ∈ Token.tokens c) : n.IsPlain := by
  cases h with
  | unsigned hd => exact ⟨_, Token.lexesAlone_of_mem_tokens (hts _ (by simp)) hd, .inl rfl⟩
  | plus _ hd => exact ⟨_, Token.lexesAlone_of_mem_tokens (hts _ (by simp)) hd, .inl rfl⟩
  | minus _ hd => exact ⟨_, Token.lexesAlone_of_mem_tokens (hts _ (by simp)) hd, .inr rfl⟩

theorem NumberLiteral.IsPlain.exists_writtenNumber {l : NumberLiteral} (h : l.IsPlain) :
    ∃ n : WrittenNumber, l.text = n.text := by
  obtain ⟨s, hs, hl⟩ := h
  have hs := Token.isNumeral_of_lexesAlone hs
  rcases hl with hl | hl
  · obtain ⟨n, hn, hu⟩ := Token.exists_writtenNumber hs false
    exact ⟨n, by simp [hl, WrittenNumber.text, hn, hu]⟩
  · obtain ⟨n, hn, hu⟩ := Token.exists_writtenNumber hs true
    exact ⟨n, by simp [hl, WrittenNumber.text, hn, hu, String.ofList_cons]⟩

end RecordQuery
