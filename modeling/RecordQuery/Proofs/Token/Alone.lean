import RecordQuery.Proofs.Token.Scanning
import RecordQuery.Proofs.Token.Tests

/-! # Texts that are one token

A text may be one token and spelled like that token. For names and numbers this is said of its
characters: names are not quoted, and numbers have no sign. -/

namespace RecordQuery

open Text

namespace Token

/-! ## The form of a token -/

/-- What is scanned where `c` stands before `cs`. A comment and an error are not for a parser to
see. -/
inductive Scan.HasForm (c : Char) (cs : List Char) : Scan → Prop
  | string (hc : c = '\'') (h : (readQuoted '\'' cs).closed = true) :
    HasForm c cs ⟨.string, '\'' :: ((readQuoted '\'' cs).content ++ ['\'']),
      (readQuoted '\'' cs).length + 1⟩
  | quotedName (hc : c = '"') (h : (readQuoted '"' cs).closed = true) :
    HasForm c cs ⟨.identifier, (readQuoted '"' cs).content, (readQuoted '"' cs).length + 1⟩
  | number {k : Kind} {lit : List Char} (hc : c.isDigit = true) (hk : k = .integer ∨ k = .float)
    (hl : lit <+: c :: cs) (h : scanNumber lit = .verbatim k lit) : HasForm c cs (.verbatim k lit)
  | mark : HasForm c cs (.verbatim .punctuator [c])
  | operator {lit : List Char} (hl : lit <+: c :: cs) : HasForm c cs (.verbatim .operator lit)
  | word {lit : List Char} (hw : IsWord lit) (hl : lit <+: c :: cs) :
    HasForm c cs (.verbatim (kindOfWord lit) lit)
  | silent {s : Scan} (h : s.kind = .comment ∨ ∃ fault, s.kind = .error fault) : HasForm c cs s

variable {c : Char} {cs : List Char}

theorem hasForm_scanString (hc : c = '\'') (cs : List Char) : (scanString cs).HasForm c cs := by
  cases h : (readQuoted '\'' cs).closed with
  | false => exact .silent (.inr ⟨.unterminatedString, by simp [scanString, h]⟩)
  | true => simpa [scanString, h] using Scan.HasForm.string hc h

theorem hasForm_scanQuotedName (hc : c = '"') (cs : List Char) :
    (scanQuotedName cs).HasForm c cs := by
  cases h : (readQuoted '"' cs).closed with
  | false => exact .silent (.inr ⟨.unterminatedName, by simp [scanQuotedName, h]⟩)
  | true => simpa [scanQuotedName, h] using Scan.HasForm.quotedName hc h

theorem kind_scanNumber (cs : List Char) :
    (scanNumber cs).kind = .error .exponentWithoutDigits ∨
      (scanNumber cs).kind = .integer ∨ (scanNumber cs).kind = .float := by
  unfold scanNumber
  dsimp only
  split
  · exact .inl rfl
  · exact .inr (.inr rfl)
  · simp only [Scan.verbatim]
    split
    · exact .inr (.inl rfl)
    · exact .inr (.inr rfl)

/-- Digits are scanned as a number or as a fault in one. -/
theorem hasForm_scanNumber (hc : c.isDigit = true) (cs : List Char) :
    (scanNumber (c :: cs)).HasForm c cs := by
  rcases kind_scanNumber (c :: cs) with hk | hk
  · exact .silent (.inr ⟨_, hk⟩)
  · obtain ⟨k, lit, hs, hl, h⟩ := scanNumber_literal hk
    rw [hs] at hk ⊢
    exact .number hc hk hl h

theorem hasForm_scanBlockComment (cs ds : List Char) : (scanBlockComment ds).HasForm c cs := by
  refine .silent ?_
  simp only [scanBlockComment, Scan.verbatim]
  split
  · exact .inl rfl
  · exact .inr ⟨_, rfl⟩

theorem hasForm_scanOperator (c : Char) (cs : List Char) : (scanOperator c cs).HasForm c cs := by
  have single (b : Bool) : (Scan.verbatim (if b = true then .operator
      else .error (.unknownOperator (String.ofList [c]))) [c]).HasForm c cs := by
    cases b with
    | false => exact .silent (.inr ⟨_, rfl⟩)
    | true => exact .operator ⟨cs, rfl⟩
  unfold scanOperator
  cases cs with
  | nil => exact single _
  | cons d cs =>
    dsimp only
    split
    · exact .operator ⟨cs, rfl⟩
    · exact single _

theorem hasForm_scanWord (hc : beginsName c = true) (cs : List Char) :
    (scanWord c cs).HasForm c cs :=
  .word ⟨c, _, rfl, hc, List.all_eq_true.mp List.all_takeWhile⟩
    ((List.prefix_cons_inj c).mpr (List.takeWhile_prefix _))

/-- What is scanned has one of these forms, and the characters at the start of the text tell which.
-/
theorem hasForm_scan (c : Char) (cs : List Char) : (scan c cs).HasForm c cs := by
  unfold scan
  split
  · next h => exact hasForm_scanString h cs
  split
  · next h => exact hasForm_scanQuotedName h cs
  split
  · next h => exact hasForm_scanNumber h cs
  split
  · exact .silent (.inl rfl)
  split
  · exact hasForm_scanBlockComment cs _
  split
  · exact .mark
  split
  · exact hasForm_scanOperator c cs
  split
  · next h => exact hasForm_scanWord h cs
  · exact .silent (.inr ⟨_, rfl⟩)

theorem kindOfWord_eq (cs : List Char) :
    kindOfWord cs = .identifier ∨ kindOfWord cs = .keyword := by
  unfold kindOfWord
  split
  · exact .inr rfl
  · exact .inl rfl

/-- No text is scanned as the end of the text. -/
theorem kind_scan_ne_finish (c : Char) (cs : List Char) : (scan c cs).kind ≠ .finish := by
  intro hk
  have h := hasForm_scan c cs
  generalize scan c cs = s at hk h
  cases h with
  | number _ h => rcases h with rfl | rfl <;> cases hk
  | @word lit => rcases kindOfWord_eq lit with h | h <;> simp [h] at hk
  | silent h => rcases h with h | ⟨_, h⟩ <;> simp [h] at hk
  | _ => cases hk

/-- A name in a text is quoted, or is spelled as it would be alone. -/
theorem isWord_of_kind (h : (scan c cs).kind = .identifier ∨ (scan c cs).kind = .keyword) :
    scan c cs = ⟨.identifier, (readQuoted '"' cs).content, (readQuoted '"' cs).length + 1⟩ ∨
      ∃ lit, scan c cs = .verbatim (kindOfWord lit) lit ∧ IsWord lit ∧ lit <+: c :: cs := by
  have hs := hasForm_scan c cs
  generalize scan c cs = s at h hs
  cases hs with
  | quotedName => exact .inl rfl
  | word hw hl => exact .inr ⟨_, rfl, hw, hl⟩
  | number _ hk => rcases hk with rfl | rfl <;> simp at h
  | silent hk => rcases hk with hk | ⟨_, hk⟩ <;> simp [hk] at h
  | _ => simp at h

/-- A number in a text is spelled as it would be alone. -/
theorem scanNumber_of_kind (h : (scan c cs).kind = .integer ∨ (scan c cs).kind = .float) :
    c.isDigit = true ∧ ∃ k lit, scan c cs = .verbatim k lit ∧ (k = .integer ∨ k = .float) ∧
      lit <+: c :: cs ∧ scanNumber lit = .verbatim k lit := by
  have hs := hasForm_scan c cs
  generalize scan c cs = s at h hs
  cases hs with
  | number hc hk hl hn => exact ⟨hc, _, _, rfl, hk, hl, hn⟩
  | @word lit => rcases kindOfWord_eq lit with hk | hk <;> simp [hk] at h
  | silent hk => rcases hk with hk | ⟨_, hk⟩ <;> simp [hk] at h
  | _ => simp at h

/-! ## The tokens of a text, one by one -/

theorem tokens_nil (p : Position) : tokens ⟨p, []⟩ = [] := by
  rw [tokens]
  rfl

/-- Blanks before a token only move the place where it begins. -/
theorem tokens_blank (p : Position) {b : Char} (h : isBlank b = true) (cs : List Char) :
    tokens ⟨p, b :: cs⟩ = tokens ⟨p.step b, cs⟩ := by
  have hn : next ⟨p, b :: cs⟩ = next ⟨p.step b, cs⟩ := by
    have hs : Cursor.skipBlanks ⟨p, b :: cs⟩ = Cursor.skipBlanks ⟨p.step b, cs⟩ := by
      simp [Cursor.skipBlanks, Cursor.advance, h]
    unfold next
    rw [hs]
  rw [tokens, hn, ← tokens]

theorem next_cons (p : Position) {c : Char} (h : isBlank c = false) (cs : List Char) :
    next ⟨p, c :: cs⟩ = (⟨(scan c cs).kind, String.ofList (scan c cs).literal, p⟩,
      Cursor.advance ⟨p, c :: cs⟩ (scan c cs).length) := by
  have hs : Cursor.skipBlanks ⟨p, c :: cs⟩ = ⟨p, c :: cs⟩ := by
    simp [Cursor.skipBlanks, Cursor.advance, h]
  unfold next
  rw [hs]

/-- The tokens of a text are the one that is scanned first, and those of the rest. -/
theorem tokens_cons (p : Position) {c : Char} (h : isBlank c = false) (cs : List Char) :
    tokens ⟨p, c :: cs⟩ =
      ⟨(scan c cs).kind, String.ofList (scan c cs).literal, p⟩ ::
        tokens (Cursor.advance ⟨p, c :: cs⟩ (scan c cs).length) := by
  rw [tokens, next_cons p h, if_neg]
  simpa [isFinish] using kind_scan_ne_finish c cs

/-- What holds at the end of a text, and before a blank or a token if it holds behind, holds
everywhere. -/
theorem cursor_induction {P : Cursor → Prop} (finish : ∀ p, P ⟨p, []⟩)
    (blank : ∀ p b cs, isBlank b = true → P ⟨p.step b, cs⟩ → P ⟨p, b :: cs⟩)
    (token : ∀ p c cs, isBlank c = false →
      P (Cursor.advance ⟨p, c :: cs⟩ (scan c cs).length) → P ⟨p, c :: cs⟩) (c : Cursor) : P c := by
  obtain ⟨p, cs⟩ := c
  induction h : cs.length using Nat.strongRecOn generalizing p cs with
  | ind n ih =>
    subst h
    cases cs with
    | nil => exact finish p
    | cons c cs =>
      cases hb : isBlank c with
      | true => exact blank p c cs hb (ih _ (by simp) _ _ rfl)
      | false =>
        have hpos := length_pos_scan c cs
        exact token p c cs hb (ih _ (by rw [List.length_drop]; simp; omega) _ _ rfl)

/-- A token of a text was scanned somewhere in it. -/
theorem exists_scan_of_mem_tokens {c : Cursor} {t : Token} (h : t ∈ tokens c) :
    ∃ d ds, d :: ds <:+ c.rest ∧ t.kind = (scan d ds).kind ∧
      t.literal.toList = (scan d ds).literal := by
  induction c using cursor_induction with
  | finish p => simp [tokens_nil] at h
  | blank p b cs hb ih =>
    obtain ⟨d, ds, hs, ht⟩ := ih (by rwa [tokens_blank p hb] at h)
    exact ⟨d, ds, hs.trans (List.suffix_cons b cs), ht⟩
  | token p c cs hc ih =>
    rw [tokens_cons p hc] at h
    rcases List.mem_cons.mp h with rfl | h
    · exact ⟨c, cs, List.suffix_rfl, rfl, String.toList_ofList⟩
    · obtain ⟨d, ds, hs, ht⟩ := ih h
      exact ⟨d, ds, hs.trans (List.drop_suffix _ _), ht⟩

theorem tokens_eq_cons {c : Cursor} {t : Token} {ts : List Token} (h : tokens c = t :: ts) :
    ∃ d ds, d :: ds <:+ c.rest ∧ t.kind = (scan d ds).kind ∧
      t.literal.toList = (scan d ds).literal := by
  obtain ⟨p, cs⟩ := c
  induction cs generalizing p with
  | nil =>
    rw [tokens_nil] at h
    cases h
  | cons c cs ih =>
    cases hb : isBlank c with
    | true =>
      rw [tokens_blank p hb] at h
      obtain ⟨d, ds, hs, ht⟩ := ih _ h
      exact ⟨d, ds, hs.trans (List.suffix_cons c cs), ht⟩
    | false =>
      rw [tokens_cons p hb] at h
      obtain ⟨rfl, -⟩ := List.cons.inj h
      exact ⟨c, cs, List.suffix_rfl, rfl, String.toList_ofList⟩

/-! ## A text that is one token -/

/-- The text is one token that passes the test, and is spelled like it. -/
def LexesAlone (test : Token → Bool) (s : String) : Prop :=
  ∃ t, tokens (.ofString s) = [t] ∧ test t = true ∧ t.literal = s

/-- A name is not quoted, and is no reserved word. -/
def IsPlainName (s : String) : Prop :=
  IsWord s.toList ∧ ∀ k, Keyword.ofText? s = some k → k.isReserved = false

/-- A number without a sign. -/
def IsNumeral (cs : List Char) : Prop :=
  ∃ c ds k, cs = c :: ds ∧ c.isDigit = true ∧ (k = .integer ∨ k = .float) ∧
    scanNumber cs = .verbatim k cs

/-- A word without quotes is a name unless it is reserved. -/
theorem isName_iff_of_kind {t : Token} (h : t.kind = kindOfWord t.literal.toList) :
    t.isName = true ↔ ∀ k, Keyword.ofText? t.literal = some k → k.isReserved = false := by
  rw [kindOfWord, String.ofList_toList] at h
  cases hk : Keyword.ofText? t.literal with
  | none => simp [isName, h, hk]
  | some k => simp [isName, isReserved, keyword?, h, hk]

theorem isName_of_isPlainName {s : String} (h : IsPlainName s) (p : Position) :
    (Token.mk (kindOfWord s.toList) s p).isName = true := by
  rw [isName_iff_of_kind]
  · exact h.2
  · dsimp only

theorem length_readQuoted_content_le (q : Char) (cs : List Char) :
    (readQuoted q cs).content.length ≤ (readQuoted q cs).length := by
  fun_induction readQuoted q cs with
  | case1 | case2 | case3 | case5 => simp
  | case4 cs ih =>
    simp only [Quotation.push, List.length_cons]
    omega
  | case6 c d cs hc ih =>
    simp only [Quotation.push, List.length_cons]
    omega

/-- A quoted name is longer than its literal, so a text that is spelled like its token has no
quotes. -/
theorem isPlainName_of_lexesAlone {s : String} (h : LexesAlone isName s) : IsPlainName s := by
  obtain ⟨t, ht, hn, rfl⟩ := h
  obtain ⟨c, ds, hs, hk, hlit⟩ := tokens_eq_cons ht
  have hle := List.IsSuffix.length_le hs
  rcases isWord_of_kind (hk ▸ kind_of_isName hn) with h | ⟨lit, h, hw, hl⟩
  · -- A quoted name is longer than its spelling.
    have h₁ := length_readQuoted_content_le '"' ds
    have h₂ := readQuoted_length_le '"' ds
    rw [Cursor.ofString, hlit, h, List.length_cons] at hle
    dsimp only at hle
    omega
  · rw [h] at hk hlit
    refine ⟨hlit ▸ hw, (isName_iff_of_kind ?_).mp hn⟩
    rw [hk, hlit, Scan.verbatim_kind, Scan.verbatim_literal]

theorem isNumeral_of_lexesAlone {s : String} (h : LexesAlone isNumber s) : IsNumeral s.toList := by
  obtain ⟨t, ht, hn, rfl⟩ := h
  obtain ⟨c, ds, hs, hk, hlit⟩ := tokens_eq_cons ht
  obtain ⟨hc, k, lit, h, hkind, hp, hl⟩ := scanNumber_of_kind (hk ▸ kind_of_isNumber hn)
  rw [h] at hlit
  rw [Scan.verbatim_literal] at hlit
  have hle : (c :: ds).length ≤ t.literal.toList.length := List.IsSuffix.length_le hs
  obtain rfl : lit = c :: ds := hp.eq_of_length (Nat.le_antisymm hp.length_le (hlit ▸ hle))
  exact ⟨c, ds, k, hlit, hc, hkind, hlit ▸ hl⟩

/-- The blank characters. -/
def blanks : List Char := blankPoints.members.map Char.ofNat

theorem mem_blanks {c : Char} (h : isBlank c = true) : c ∈ blanks :=
  List.mem_map.mpr ⟨c.toNat, CodePoints.mem_members.mpr h, Char.ofNat_toNat c⟩

theorem isBlank_of_beginsName {c : Char} (h : beginsName c = true) : isBlank c = false := by
  refine Bool.eq_false_iff.mpr fun hb => ?_
  have hall : blanks.all (fun c => !beginsName c) = true := by decide +kernel
  simpa [h] using List.all_eq_true.mp hall c (mem_blanks hb)

theorem isBlank_of_isDigit {c : Char} (h : c.isDigit = true) : isBlank c = false := by
  have hall : digits.all (fun c => !isBlank c) = true := by decide
  simpa using List.all_eq_true.mp hall c (mem_digits h)

/-- A text that is spelled like a name is one token. -/
theorem tokens_of_isWord {s : String} (h : IsWord s.toList) :
    tokens (.ofString s) = [⟨kindOfWord s.toList, s, .start⟩] := by
  obtain ⟨c, ds, hs, hc, hds⟩ := h
  have h : scan c (ds ++ []) = _ := scan_word hc hds (by simp)
  rw [List.append_nil, ← hs] at h
  rw [Cursor.ofString, hs, tokens_cons _ (isBlank_of_beginsName hc), h, ← hs]
  simp [Cursor.advance, tokens_nil]

/-- The texts that are a name by themselves are the words that are not reserved. -/
theorem lexesAlone_isName_iff {s : String} : LexesAlone isName s ↔ IsPlainName s :=
  ⟨isPlainName_of_lexesAlone, fun h => ⟨_, tokens_of_isWord h.1, isName_of_isPlainName h _, rfl⟩⟩

/-- The texts that are a number by themselves are those that are scanned as one to their end. -/
theorem lexesAlone_isNumber_iff {s : String} : LexesAlone isNumber s ↔ IsNumeral s.toList := by
  refine ⟨isNumeral_of_lexesAlone, ?_⟩
  rintro ⟨c, ds, k, hs, hc, hk, h⟩
  refine ⟨⟨k, s, .start⟩, ?_, by simpa [isNumber] using hk, rfl⟩
  rw [Cursor.ofString, hs, tokens_cons _ (isBlank_of_isDigit hc), scan_of_isDigit hc, ← hs, h]
  simp [Cursor.advance, tokens_nil]

/-- A number among the tokens of a text would be the same token alone. -/
theorem lexesAlone_of_mem_tokens {c : Cursor} {t : Token} (h : t ∈ tokens c)
    (hn : t.isNumber = true) : LexesAlone isNumber t.literal := by
  obtain ⟨d, ds, -, hk, hlit⟩ := exists_scan_of_mem_tokens h
  obtain ⟨hd, k, lit, hs, hkind, hp, hl⟩ := scanNumber_of_kind (hk ▸ kind_of_isNumber hn)
  have hpos := length_pos_scan d ds
  rw [hs] at hlit hpos
  rw [lexesAlone_isNumber_iff, hlit]
  cases lit with
  | nil => simp at hpos
  | cons c cs =>
    obtain ⟨rfl, -⟩ := List.cons_prefix_cons.mp hp
    exact ⟨c, cs, k, rfl, hd, hkind, hl⟩

end Token

end RecordQuery
