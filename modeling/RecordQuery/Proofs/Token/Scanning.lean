import RecordQuery.Token.Lexer

/-! # Scanning a token before other text

The longest text of its form is taken for a token, so a token that is followed by more text is
scanned as it is alone only if the next character cannot belong to it. For each form of token it is
said which characters those are. -/

namespace RecordQuery

open Text

theorem takeWhile_append_of_head? {p : α → Bool} {xs ys : List α}
    (h : ∀ y ∈ ys.head?, p y = false) : (xs ++ ys).takeWhile p = xs.takeWhile p := by
  induction xs with
  | nil =>
    cases ys with
    | nil => rfl
    | cons y ys => simp [h y rfl]
  | cons x xs ih => by_cases hx : p x = true <;> simp [hx, ih]

namespace Token

@[simp] theorem Scan.verbatim_kind (k : Kind) (cs : List Char) : (Scan.verbatim k cs).kind = k :=
  rfl

@[simp] theorem Scan.verbatim_literal (k : Kind) (cs : List Char) :
    (Scan.verbatim k cs).literal = cs := rfl

@[simp] theorem Scan.verbatim_length (k : Kind) (cs : List Char) :
    (Scan.verbatim k cs).length = cs.length := rfl

/-! ## Numbers -/

/-- Whether a number can go on with `c`. -/
def continuesNumber (c : Char) : Bool :=
  c.isDigit || c == '.' || c == 'e' || c == 'E' || c == '+' || c == '-'

/-- No number goes on with the text. -/
def EndsNumber (cs : List Char) : Prop := ∀ c ∈ cs.head?, continuesNumber c = false

variable {cs rest : List Char}

theorem takeWhile_isDigit_append (h : EndsNumber rest) :
    (cs ++ rest).takeWhile Char.isDigit = cs.takeWhile Char.isDigit :=
  takeWhile_append_of_head? fun c hc => by
    have := h c hc
    simp only [continuesNumber, Bool.or_eq_false_iff] at this
    exact this.1.1.1.1.1

theorem fractionOf_of_ne {c : Char} (h : c ≠ '.') (cs : List Char) : fractionOf (c :: cs) = [] := by
  unfold fractionOf
  split
  · next heq => exact absurd (List.cons.inj heq).1 h
  · rfl

/-- A point begins a fraction only before a digit, and neither continues behind the number. -/
theorem fractionOf_append (h : EndsNumber rest) : fractionOf (cs ++ rest) = fractionOf cs := by
  cases cs with
  | nil =>
    cases rest with
    | nil => rfl
    | cons c rest =>
      have := h c rfl
      exact fractionOf_of_ne (by rintro rfl; exact absurd this (by decide)) rest
  | cons c cs =>
    by_cases hc : c = '.'
    · subst hc
      cases cs with
      | nil =>
        cases rest with
        | nil => rfl
        | cons d rest =>
          have := h d rfl
          simp only [continuesNumber, Bool.or_eq_false_iff] at this
          simp [fractionOf, this.1.1.1.1.1]
      | cons d cs =>
        have : (d :: cs ++ rest).takeWhile Char.isDigit = _ := takeWhile_isDigit_append h
        simp only [List.cons_append] at this
        simp [fractionOf, this]
    · rw [List.cons_append, fractionOf_of_ne hc, fractionOf_of_ne hc]

theorem fractionOf_head? (cs : List Char) :
    fractionOf cs = [] ∨ (fractionOf cs).head? = some '.' := by
  unfold fractionOf
  split
  · split
    · exact .inr rfl
    · exact .inl rfl
  · exact .inl rfl

theorem fractionOf_isPrefix (cs : List Char) : fractionOf cs <+: cs := by
  unfold fractionOf
  split
  · split
    · exact (List.prefix_cons_inj _).mpr (List.takeWhile_prefix _)
    · exact List.nil_prefix
  · exact List.nil_prefix

/-- A sign belongs to the exponent only if it stands before what ends the number. -/
theorem signOf_append (h : EndsNumber rest) : signOf (cs ++ rest) = signOf cs := by
  cases cs with
  | nil =>
    cases rest with
    | nil => rfl
    | cons c rest =>
      have := h c rfl
      simp only [continuesNumber, Bool.or_eq_false_iff] at this
      simp [signOf, this.1.2, this.2]
  | cons c cs => rfl

theorem signOf_isPrefix (cs : List Char) : signOf cs <+: cs := by
  cases cs with
  | nil => exact List.nil_prefix
  | cons c cs =>
    simp only [signOf]
    split
    · exact ⟨cs, rfl⟩
    · exact List.nil_prefix

/-- The letter of an exponent, its sign and its digits are all in front of what ends the number. -/
theorem exponentOf_append (h : EndsNumber rest) : exponentOf (cs ++ rest) = exponentOf cs := by
  cases cs with
  | nil =>
    cases rest with
    | nil => rfl
    | cons c rest =>
      have := h c rfl
      simp only [continuesNumber, Bool.or_eq_false_iff] at this
      simp [exponentOf, this.1.1.1.2, this.1.1.2]
  | cons c cs =>
    have hl := (signOf_isPrefix cs).length_le
    simp only [List.cons_append, exponentOf, signOf_append h, List.drop_append_of_le_length hl,
      takeWhile_isDigit_append h]

/-- A number is scanned as it is alone before anything that cannot go on with it. -/
theorem scanNumber_append (h : EndsNumber rest) : scanNumber (cs ++ rest) = scanNumber cs := by
  have hw := (List.takeWhile_prefix (l := cs) Char.isDigit).length_le
  have hf := (fractionOf_isPrefix (cs.drop (cs.takeWhile Char.isDigit).length)).length_le
  rw [List.length_drop] at hf
  have hm : (cs.takeWhile Char.isDigit ++
      fractionOf (cs.drop (cs.takeWhile Char.isDigit).length)).length ≤ cs.length := by
    rw [List.length_append]
    omega
  simp only [scanNumber, takeWhile_isDigit_append h, List.drop_append_of_le_length hw,
    fractionOf_append h, List.drop_append_of_le_length hm, exponentOf_append h]

/-! A number that is scanned again is scanned as it was. -/

theorem isDigit_of_mem_takeWhile {c : Char} (h : c ∈ cs.takeWhile Char.isDigit) :
    c.isDigit = true := by
  have := List.all_takeWhile (l := cs) (p := Char.isDigit)
  exact List.all_eq_true.mp this c h

theorem takeWhile_digits_append (cs : List Char) (h : ∀ c ∈ rest.head?, c.isDigit = false) :
    (cs.takeWhile Char.isDigit ++ rest).takeWhile Char.isDigit = cs.takeWhile Char.isDigit := by
  rw [List.takeWhile_append_of_pos fun c hc => isDigit_of_mem_takeWhile hc]
  cases rest with
  | nil => simp
  | cons c rest => simp [h c rfl]

theorem fractionOf_fractionOf (h : ∀ c ∈ rest.head?, c.isDigit = false ∧ c ≠ '.') :
    fractionOf (fractionOf cs ++ rest) = fractionOf cs := by
  have hnil : fractionOf rest = [] := by
    cases rest with
    | nil => rfl
    | cons c rest => exact fractionOf_of_ne (h c rfl).2 rest
  rcases cs with _ | ⟨c, _ | ⟨d, cs⟩⟩
  · exact hnil
  · by_cases hc : c = '.'
    · subst hc
      exact hnil
    · rw [fractionOf_of_ne hc]
      exact hnil
  · by_cases hc : c = '.'
    · subst hc
      by_cases hd : d.isDigit = true
      · have := takeWhile_digits_append (d :: cs) fun c hc => (h c hc).1
        simp only [hd, List.takeWhile_cons_of_pos, List.cons_append] at this
        simp [fractionOf, hd, this]
      · have hf : fractionOf ('.' :: d :: cs) = [] := by simp [fractionOf, hd]
        rw [hf]
        exact hnil
    · rw [fractionOf_of_ne hc]
      exact hnil

theorem signOf_digits (cs : List Char) : signOf (cs.takeWhile Char.isDigit) = [] := by
  cases hd : cs.takeWhile Char.isDigit with
  | nil => rfl
  | cons d ds =>
    have : d.isDigit = true := isDigit_of_mem_takeWhile (by rw [hd]; simp)
    have h₁ : d ≠ '+' := by rintro rfl; exact absurd this (by decide)
    have h₂ : d ≠ '-' := by rintro rfl; exact absurd this (by decide)
    simp [signOf, h₁, h₂]

theorem signOf_signOf (cs ds : List Char) :
    signOf (signOf cs ++ ds.takeWhile Char.isDigit) = signOf cs := by
  cases cs with
  | nil => exact signOf_digits ds
  | cons c cs =>
    by_cases hc : (c == '+' || c == '-') = true
    · simp [signOf, hc]
    · simpa [signOf, hc] using signOf_digits ds

/-- An exponent is found again at the start of its own text, and neither a digit nor a point begins
it. -/
theorem exponentOf_eq_some {mark digits : List Char} (h : exponentOf cs = some (mark, digits)) :
    mark ++ digits <+: cs ∧ exponentOf (mark ++ digits) = some (mark, digits) ∧
      ∀ c ∈ (mark ++ digits).head?, c.isDigit = false ∧ c ≠ '.' := by
  cases cs with
  | nil => cases h
  | cons c cs =>
    simp only [exponentOf] at h
    split at h
    · next hc =>
      cases h
      refine ⟨?_, ?_, ?_⟩
      · obtain ⟨ds, hs⟩ := signOf_isPrefix cs
        have hd : (signOf cs ++ ds).drop (signOf cs).length = ds := List.drop_left
        rw [hs] at hd
        have : signOf cs ++ ds.takeWhile Char.isDigit <+: signOf cs ++ ds :=
          (List.prefix_append_right_inj _).mpr (List.takeWhile_prefix _)
        rw [hs, ← hd] at this
        exact (List.prefix_cons_inj c).mpr this
      · have := @takeWhile_digits_append [] (cs.drop (signOf cs).length) nofun
        rw [List.append_nil] at this
        simp only [List.cons_append, exponentOf, hc, if_true, signOf_signOf, List.drop_left, this]
      · rintro _ ⟨⟩
        simp only [Bool.or_eq_true, beq_iff_eq] at hc
        rcases hc with rfl | rfl <;> decide
    · cases h

/-- The whole part and the fraction of a number are found again before its exponent. -/
theorem scanNumber_mantissa_append (cs : List Char) {rest : List Char}
    (h : ∀ c ∈ rest.head?, c.isDigit = false ∧ c ≠ '.') :
    let whole := cs.takeWhile Char.isDigit
    let fraction := fractionOf (cs.drop whole.length)
    scanNumber (whole ++ fraction ++ rest) =
      match exponentOf rest with
      | some (mark, []) => .verbatim (.error .exponentWithoutDigits) (whole ++ fraction ++ mark)
      | some (mark, digits) => .verbatim .float (whole ++ fraction ++ mark ++ digits)
      | none => .verbatim (if fraction.isEmpty then .integer else .float) (whole ++ fraction) := by
  intro whole fraction
  have hhead : ∀ c ∈ (fraction ++ rest).head?, c.isDigit = false := by
    rcases fractionOf_head? (cs.drop whole.length) with hf | hf
    · rw [show fraction = [] from hf]
      exact fun c hc => (h c hc).1
    · rw [List.head?_append, show fraction.head? = some '.' from hf]
      rintro _ ⟨⟩
      rfl
  have hw : (whole ++ (fraction ++ rest)).takeWhile Char.isDigit = whole :=
    takeWhile_digits_append cs hhead
  have hf : fractionOf (fraction ++ rest) = fraction := fractionOf_fractionOf h
  have hr : (whole ++ (fraction ++ rest)).drop (whole ++ fraction).length = rest := by
    rw [← List.append_assoc, List.drop_left]
  rw [List.append_assoc]
  rcases he : exponentOf rest with _ | ⟨mark, _ | ⟨d, ds⟩⟩ <;>
    simp only [scanNumber, hw, List.drop_left, hf, hr, he]

theorem append_prefix_of_drop {xs ys zs : List Char} (h : xs <+: zs)
    (h' : ys <+: zs.drop xs.length) : xs ++ ys <+: zs := by
  obtain ⟨us, rfl⟩ := h
  rw [List.drop_left] at h'
  exact (List.prefix_append_right_inj xs).mpr h'

/-- A number is spelled as it stands in the text, and is scanned from its spelling again. -/
theorem scanNumber_literal (hk : (scanNumber cs).kind = .integer ∨ (scanNumber cs).kind = .float) :
    ∃ k lit, scanNumber cs = .verbatim k lit ∧ lit <+: cs ∧ scanNumber lit = .verbatim k lit := by
  have hm := append_prefix_of_drop (List.takeWhile_prefix Char.isDigit)
    (fractionOf_isPrefix (cs.drop (cs.takeWhile Char.isDigit).length))
  have hparts {rest} := @scanNumber_mantissa_append cs rest
  generalize hs : scanNumber cs = s at hk ⊢
  unfold scanNumber at hs
  dsimp only at hs hparts
  generalize cs.takeWhile Char.isDigit ++ fractionOf (cs.drop (cs.takeWhile Char.isDigit).length) =
    mantissa at hm hs hparts
  cases he : exponentOf (cs.drop mantissa.length) with
  | none =>
    rw [he] at hs
    subst hs
    refine ⟨_, _, rfl, hm, ?_⟩
    have := @hparts [] nofun
    rwa [List.append_nil] at this
  | some e =>
    obtain ⟨mark, digits⟩ := e
    obtain ⟨hp, hee, hh⟩ := exponentOf_eq_some he
    rw [he] at hs
    cases digits with
    | nil =>
      subst hs
      simp [Scan.verbatim] at hk
    | cons d ds =>
      subst hs
      refine ⟨_, _, rfl, ?_, ?_⟩
      · rw [List.append_assoc]
        exact append_prefix_of_drop hm hp
      · rw [List.append_assoc, hparts hh, hee, ← List.append_assoc]

theorem scan_of_isDigit {c : Char} (h : c.isDigit = true) (cs : List Char) :
    scan c cs = scanNumber (c :: cs) := by
  have h₁ : c ≠ '\'' := by rintro rfl; exact absurd h (by decide)
  have h₂ : c ≠ '"' := by rintro rfl; exact absurd h (by decide)
  simp [scan, h₁, h₂, h]

/-! ## Words -/

/-- The decimal digits. -/
def digits : List Char := ['0', '1', '2', '3', '4', '5', '6', '7', '8', '9']

theorem mem_digits {c : Char} (h : c.isDigit = true) : c ∈ digits := by
  simp only [Char.isDigit, Bool.and_eq_true, decide_eq_true_eq, ge_iff_le] at h
  have h₁ : 48 ≤ c.toNat := h.1
  have h₂ : c.toNat ≤ 57 := h.2
  rw [← Char.ofNat_toNat c]
  generalize c.toNat = n at h₁ h₂
  have hn : n = 48 ∨ n = 49 ∨ n = 50 ∨ n = 51 ∨ n = 52 ∨ n = 53 ∨ n = 54 ∨ n = 55 ∨ n = 56 ∨
      n = 57 := by omega
  rcases hn with rfl | rfl | rfl | rfl | rfl | rfl | rfl | rfl | rfl | rfl <;> decide

theorem beginsName_of_isDigit {c : Char} (h : c.isDigit = true) : beginsName c = false := by
  have hall : digits.all (fun c => !beginsName c) = true := by decide
  simpa using List.all_eq_true.mp hall c (mem_digits h)

theorem begins_of_isDigit {c : Char} (h : c.isDigit = true) : Sign.begins c = false := by
  have hall : digits.all (fun c => !Sign.begins c) = true := by decide
  simpa using List.all_eq_true.mp hall c (mem_digits h)

theorem beginsName_of_mark {c : Char} (h : (Mark.ofChar? c).isSome = true) :
    beginsName c = false := by
  obtain ⟨m, hm⟩ := Option.isSome_iff_exists.mp h
  obtain rfl : m.char = c := by simpa using List.find?_some hm
  cases m <;> decide

theorem beginsName_of_begins {c : Char} (h : Sign.begins c = true) : beginsName c = false := by
  simp only [Sign.begins, Bool.or_eq_true, beq_iff_eq] at h
  rcases h with (((((rfl | rfl) | rfl) | rfl) | rfl) | rfl) | rfl <;> decide

/-- What can begin a name begins no token of another form. -/
theorem scan_of_beginsName {c : Char} (h : beginsName c = true) (cs : List Char) :
    scan c cs = scanWord c cs := by
  have hne {d : Char} (hd : beginsName d = false) : c ≠ d := by
    rintro rfl
    exact absurd h (by simp [hd])
  have hdigit : ¬ c.isDigit = true := fun hd => by simp [beginsName_of_isDigit hd] at h
  have hmark : ¬ (Mark.ofChar? c).isSome = true := fun hm => by simp [beginsName_of_mark hm] at h
  have hsign : ¬ Sign.begins c = true := fun hs => by simp [beginsName_of_begins hs] at h
  have h₁ : c ≠ '\'' := hne (by decide)
  have h₂ : c ≠ '"' := hne (by decide)
  have h₃ : c ≠ '#' := hne (by decide)
  have h₄ : c ≠ '-' := hne (by decide)
  have h₅ : c ≠ '/' := hne (by decide)
  rw [scan, if_neg h₁, if_neg h₂, if_neg hdigit, if_neg (by simp [h₃, h₄]), if_neg (by simp [h₅]),
    if_neg hmark, if_neg hsign, if_pos h]

/-- The kind of the token that is spelled like a name. -/
def kindOfWord (cs : List Char) : Kind :=
  if (Keyword.ofText? (String.ofList cs)).isSome then .keyword else .identifier

/-- The text is spelled like a name. -/
def IsWord (cs : List Char) : Prop :=
  ∃ c ds, cs = c :: ds ∧ beginsName c = true ∧ ∀ d ∈ ds, continuesName d = true

/-- A word ends before the first character that cannot be in it. -/
theorem scan_word {c : Char} {ds : List Char} (hc : beginsName c = true)
    (hds : ∀ d ∈ ds, continuesName d = true) (hr : ∀ d ∈ rest.head?, continuesName d = false) :
    scan c (ds ++ rest) = .verbatim (kindOfWord (c :: ds)) (c :: ds) := by
  have ht : (ds ++ rest).takeWhile continuesName = ds := by
    rw [takeWhile_append_of_head? hr]
    have : (ds ++ []).takeWhile continuesName = _ := List.takeWhile_append_of_pos hds
    simpa using this
  rw [scan_of_beginsName hc, scanWord, ht]
  rfl

/-! ## Strings, marks and signs -/

/-- A string ends at its quote, given that no second one comes right behind. -/
theorem scan_string (v : List Char) (hr : rest.head? ≠ some '\'') :
    scan '\'' (doubled '\'' v ++ '\'' :: rest) =
      ⟨.string, '\'' :: (v ++ ['\'']), (doubled '\'' v).length + 2⟩ := by
  simp [scan, scanString, readQuoted_doubled _ _ hr]

/-- A mark is one token, whatever comes behind it. -/
theorem scan_mark (m : Mark) (cs : List Char) :
    scan m.char cs = .verbatim .punctuator [m.char] := by
  cases m <;> rfl

/-- The second character of an operator sign could begin one too. -/
theorem begins_of_ofText? {c d : Char} (h : (Sign.ofText? (String.ofList [c, d])).isSome = true) :
    Sign.begins d = true := by
  obtain ⟨o, ho⟩ := Option.isSome_iff_exists.mp h
  have ho : o.text = String.ofList [c, d] := by simpa only [beq_iff_eq] using List.find?_some ho
  have ht : o.text.toList = [c, d] := by rw [ho, String.toList_ofList]
  cases o <;> simp [Sign.text] at ht
  all_goals
    obtain ⟨rfl, rfl⟩ := ht
    decide

theorem scanOperator_single {c : Char} (h : (Sign.ofText? (String.ofList [c])).isSome = true)
    (hr : ∀ d ∈ rest.head?, Sign.begins d = false) :
    scanOperator c rest = .verbatim .operator [c] := by
  unfold scanOperator
  cases rest with
  | nil => simp only [h, if_true]
  | cons d rest =>
    have : ¬ (Sign.ofText? (String.ofList [c, d])).isSome = true := fun hd => by
      simpa [hr d rfl] using begins_of_ofText? hd
    simp only [h, this, if_true, Bool.false_eq_true, if_false]

theorem scan_of_begins {c : Char} (h : Sign.begins c = true) (hr : rest.head? ≠ some '-') :
    scan c rest = scanOperator c rest := by
  simp only [Sign.begins, Bool.or_eq_true, beq_iff_eq] at h
  rcases h with (((((rfl | rfl) | rfl) | rfl) | rfl) | rfl) | rfl <;> simp [scan, hr] <;> rfl

/-- A sign is scanned whole before what can begin none. -/
theorem scan_sign (o : Sign) (hr : ∀ d ∈ rest.head?, Sign.begins d = false) :
    ∃ c cs, o.text.toList = c :: cs ∧ scan c (cs ++ rest) = .verbatim .operator (c :: cs) := by
  have hm : rest.head? ≠ some '-' := fun h => absurd (hr '-' h) (by decide)
  cases o with
  | equal | less | greater | plus | minus | star =>
    refine ⟨_, [], rfl, ?_⟩
    rw [List.nil_append, scan_of_begins rfl hm]
    exact scanOperator_single rfl hr
  | doubleEqual | notEqual | lessGreater | lessEqual | greaterEqual =>
    exact ⟨_, [_], rfl, rfl⟩

/-! ## What a token takes of the text -/

theorem commentBody_isPrefix (cs : List Char) : (commentBody cs).1 <+: cs := by
  fun_induction commentBody cs with
  | case1 cs => exact ⟨cs, rfl⟩
  | case2 c cs _ ih => exact (List.prefix_cons_inj c).mpr ih
  | case3 => exact List.nil_prefix

/-- What is scanned as a number, or as a fault in one, stands in the text as it is spelled. -/
theorem scanNumber_verbatim (cs : List Char) :
    ∃ k lit, scanNumber cs = .verbatim k lit ∧ lit <+: cs := by
  have hm := append_prefix_of_drop (List.takeWhile_prefix Char.isDigit)
    (fractionOf_isPrefix (cs.drop (cs.takeWhile Char.isDigit).length))
  unfold scanNumber
  dsimp only
  split
  · next mark he =>
    obtain ⟨hp, -⟩ := exponentOf_eq_some he
    rw [List.append_nil] at hp
    exact ⟨_, _, rfl, append_prefix_of_drop hm hp⟩
  · next mark digits _ he =>
    obtain ⟨hp, -⟩ := exponentOf_eq_some he
    rw [List.append_assoc]
    exact ⟨_, _, rfl, append_prefix_of_drop hm hp⟩
  · exact ⟨_, _, rfl, hm⟩

theorem scanOperator_verbatim (c : Char) (cs : List Char) :
    ∃ k lit, scanOperator c cs = .verbatim k lit ∧ lit <+: c :: cs := by
  unfold scanOperator
  cases cs with
  | nil => exact ⟨_, _, rfl, List.prefix_rfl⟩
  | cons d cs =>
    dsimp only
    split
    · exact ⟨_, _, rfl, cs, rfl⟩
    · exact ⟨_, _, rfl, d :: cs, rfl⟩

/-- What does not begin with a quote is spelled as it stands in the text. -/
theorem scan_verbatim {c : Char} (h₁ : c ≠ '\'') (h₂ : c ≠ '"') (cs : List Char) :
    ∃ k lit, scan c cs = .verbatim k lit ∧ lit <+: c :: cs := by
  unfold scan
  rw [if_neg h₁, if_neg h₂]
  split
  · exact scanNumber_verbatim (c :: cs)
  split
  · exact ⟨_, _, rfl, List.takeWhile_prefix _⟩
  split
  · next hc =>
    obtain ⟨rfl, hc⟩ := hc
    obtain ⟨ds, rfl⟩ := List.head?_eq_some_iff.mp hc
    refine ⟨_, _, rfl, ?_⟩
    exact (List.prefix_append_right_inj ['/', '*']).mpr (commentBody_isPrefix ds)
  split
  · exact ⟨_, _, rfl, cs, rfl⟩
  split
  · exact scanOperator_verbatim c cs
  split
  · exact ⟨_, _, rfl, (List.prefix_cons_inj c).mpr (List.takeWhile_prefix _)⟩
  · exact ⟨_, _, rfl, cs, rfl⟩

/-- A token is no longer than the text. -/
theorem length_scan_le (c : Char) (cs : List Char) : (scan c cs).length ≤ (c :: cs).length := by
  by_cases h₁ : c = '\''
  · simpa [scan, h₁, scanString] using readQuoted_length_le '\'' cs
  by_cases h₂ : c = '"'
  · simpa [scan, h₁, h₂, scanQuotedName] using readQuoted_length_le '"' cs
  obtain ⟨k, lit, hs, hl⟩ := scan_verbatim h₁ h₂ cs
  rw [hs]
  exact hl.length_le

end Token

end RecordQuery
