import RecordQuery.Proofs.Token.Agreement

/-! # Texts that are joined

A text that is followed by a blank and more text has the tokens that it has alone, and behind them
come those of the other text (`Token.tokens_append`). Two kinds of text are not like that: one
with a string, a name or a comment that is not closed, which is a fault, and one that ends in a
comment that only the end of the line would end. -/

namespace RecordQuery

open Text

/-- What is closed does not see what comes behind: a blank is no second quote, by which a quote at
the end of the text would be doubled. -/
theorem readQuoted_append {quote : Char} (hq : quote ≠ ' ') {cs : List Char}
    (h : (readQuoted quote cs).closed = true) (rest : List Char) :
    readQuoted quote (cs ++ ' ' :: rest) = readQuoted quote cs := by
  fun_induction readQuoted quote cs with
  | case1 => cases h
  | case2 => exact readQuoted_close (by simpa using hq.symm)
  | case3 => cases h
  | case4 cs ih =>
    rw [List.cons_append, List.cons_append, readQuoted_double, ih h]
  | case5 d cs hd => exact readQuoted_close (by simpa using hd)
  | case6 c d cs hc ih =>
    rw [List.cons_append, readQuoted_other hc (by simp), ih h]

theorem takeWhile_append_of_ne {p : α → Bool} {xs : List α} (h : xs.takeWhile p ≠ xs)
    (ys : List α) : (xs ++ ys).takeWhile p = xs.takeWhile p := by
  induction xs with
  | nil => exact absurd rfl h
  | cons x xs ih =>
    by_cases hx : p x = true
    · rw [List.takeWhile_cons_of_pos hx] at h
      rw [List.cons_append, List.takeWhile_cons_of_pos hx, List.takeWhile_cons_of_pos hx,
        ih (mt (congrArg (x :: ·)) h)]
    · simp [hx]

namespace Token

variable {c : Char} {cs : List Char}

/-! ## Scanning before a blank -/

theorem endsNumber_blank (rest : List Char) : EndsNumber (' ' :: rest) := by
  rintro _ ⟨⟩
  decide

theorem scanString_append (h : (readQuoted '\'' cs).closed = true) (rest : List Char) :
    scanString (cs ++ ' ' :: rest) = scanString cs := by
  rw [scanString, scanString, readQuoted_append (by decide) h]

theorem scanQuotedName_append (h : (readQuoted '"' cs).closed = true) (rest : List Char) :
    scanQuotedName (cs ++ ' ' :: rest) = scanQuotedName cs := by
  rw [scanQuotedName, scanQuotedName, readQuoted_append (by decide) h]

/-- A comment to the end of the line that ends before the text does is the same in a longer text. -/
theorem scanLineComment_append (h : (scanLineComment cs).literal ≠ cs) (rest : List Char) :
    scanLineComment (cs ++ rest) = scanLineComment cs := by
  rw [scanLineComment, scanLineComment, takeWhile_append_of_ne h]

/-- The body of a comment ends with the first mark that closes it. -/
theorem commentBody_append (h : (commentBody cs).2 = true) (rest : List Char) :
    commentBody (cs ++ rest) = commentBody cs := by
  fun_induction commentBody cs with
  | case1 => rfl
  | case2 c cs hc ih =>
    cases cs with
    | nil => cases h
    | cons d cs =>
      rw [List.cons_append, List.cons_append, commentBody, ← List.cons_append, ih h]
      intro ds h₁ h₂
      exact hc cs h₁ (by simp_all)
  | case3 => cases h

/-- An operator has two characters at most, and none has a blank as its second. -/
theorem scanOperator_append (c : Char) (cs rest : List Char) :
    scanOperator c (cs ++ ' ' :: rest) = scanOperator c cs := by
  cases cs with
  | nil =>
    have : ¬ (Sign.ofText? (String.ofList [c, ' '])).isSome = true := fun h => by
      cases begins_of_ofText? h
    simp only [List.nil_append, scanOperator, this, Bool.false_eq_true, if_false]
  | cons d cs => rfl

/-- A blank ends a word. -/
theorem scanWord_append (c : Char) (cs rest : List Char) :
    scanWord c (cs ++ ' ' :: rest) = scanWord c cs := by
  have h : ∀ d ∈ (' ' :: rest).head?, continuesName d = false := by
    rintro _ ⟨⟩
    decide +kernel
  rw [scanWord, scanWord, takeWhile_append_of_head? h]

theorem head?_append_blank {d : Char} (hd : d ≠ ' ') (cs rest : List Char) :
    (cs ++ ' ' :: rest).head? = some d ↔ cs.head? = some d := by
  cases cs with
  | nil => simpa using hd.symm
  | cons c cs => rfl

/-- What is scanned is no fault, and no comment that goes on to the end of the text and might go
on behind it. -/
structure Scan.Closed (s : Scan) (cs : List Char) : Prop where
  noFault : ∀ fault, s.kind ≠ .error fault
  noComment : s.kind = .comment → s.literal.head? ≠ some '/' → s.literal ≠ cs

/-- The step: a token that is closed is scanned as it is without what comes behind. The cases are
those of `scan`. -/
theorem scan_append (h : (scan c cs).Closed (c :: cs)) (rest : List Char) :
    scan c (cs ++ ' ' :: rest) = scan c cs := by
  unfold scan at h ⊢
  simp only [head?_append_blank (show '-' ≠ ' ' by decide),
    head?_append_blank (show '*' ≠ ' ' by decide)]
  by_cases h₁ : c = '\''
  · simp only [if_pos h₁] at h ⊢
    refine scanString_append (eq_true_of_ne_false fun hq => ?_) rest
    exact h.noFault .unterminatedString (by simp [scanString, hq])
  by_cases h₂ : c = '"'
  · simp only [if_neg h₁, if_pos h₂] at h ⊢
    refine scanQuotedName_append (eq_true_of_ne_false fun hq => ?_) rest
    exact h.noFault .unterminatedName (by simp [scanQuotedName, hq])
  by_cases h₃ : c.isDigit = true
  · simp only [if_neg h₁, if_neg h₂, if_pos h₃]
    rw [← List.cons_append]
    exact scanNumber_append (endsNumber_blank rest)
  by_cases h₄ : c = '#' ∨ c = '-' ∧ cs.head? = some '-'
  · simp only [if_neg h₁, if_neg h₂, if_neg h₃, if_pos h₄] at h ⊢
    rw [← List.cons_append]
    refine scanLineComment_append (h.noComment rfl ?_) (' ' :: rest)
    rcases h₄ with rfl | ⟨rfl, -⟩ <;> simp [scanLineComment]
  by_cases h₅ : c = '/' ∧ cs.head? = some '*'
  · simp only [if_neg h₁, if_neg h₂, if_neg h₃, if_neg h₄, if_pos h₅] at h ⊢
    obtain ⟨d, cs, rfl⟩ : ∃ d ds, cs = d :: ds := by
      cases cs with
      | nil => cases h₅.2
      | cons d ds => exact ⟨d, ds, rfl⟩
    have hb : (commentBody cs).2 = true := eq_true_of_ne_false fun hb =>
      h.noFault .unterminatedComment (by simp [scanBlockComment, hb])
    rw [List.cons_append, List.tail_cons, List.tail_cons, scanBlockComment, scanBlockComment,
      commentBody_append hb]
  simp only [if_neg h₁, if_neg h₂, if_neg h₃, if_neg h₄, if_neg h₅, scanOperator_append,
    scanWord_append]

/-! ## The tokens of two texts -/

/-- The text whose tokens are given ends in a comment that goes on in what is written behind. -/
def EndsInComment (cs : List Char) (ts : List Token) : Prop :=
  ∃ t ∈ ts.getLast?, t.kind = .comment ∧ t.literal.toList.head? ≠ some '/' ∧
    t.literal.toList <:+ cs

/-- If the rest of a text ends in an open comment, so does the text. -/
theorem EndsInComment.mono {cs ds : List Char} {ts us : List Token} (h : EndsInComment cs ts)
    (hs : cs <:+ ds) (ht : ∀ t ∈ ts.getLast?, t ∈ us.getLast?) : EndsInComment ds us := by
  obtain ⟨t, hm, hk, hh, hl⟩ := h
  exact ⟨t, ht t hm, hk, hh, hl.trans hs⟩

theorem length_of_comment (h : (scan c cs).kind = .comment) :
    (scan c cs).length = (scan c cs).literal.length := by
  by_cases h₁ : c = '\''
  · rw [scan, if_pos h₁, scanString] at h
    dsimp only at h
    split at h <;> cases h
  by_cases h₂ : c = '"'
  · rw [scan, if_neg h₁, if_pos h₂, scanQuotedName] at h
    dsimp only at h
    split at h <;> cases h
  obtain ⟨k, lit, hs, -⟩ := scan_verbatim h₁ h₂ cs
  rw [hs]
  rfl

/-- Where no token is a fault and the last one is no open comment, the token that is scanned next is
closed. -/
theorem closed_scan {p : Position} (hb : isBlank c = false)
    (hf : ∀ t ∈ tokens ⟨p, c :: cs⟩, t.fault? = none)
    (hc : ¬ EndsInComment (c :: cs) (tokens ⟨p, c :: cs⟩)) : (scan c cs).Closed (c :: cs) := by
  rw [tokens_cons p hb] at hf hc
  constructor
  · intro fault hk
    have := hf _ (List.mem_cons_self ..)
    simp [fault?, hk] at this
  · intro hk hh hl
    have hd : (c :: cs).drop (scan c cs).length = [] := by
      rw [length_of_comment hk, hl, List.drop_length]
    rw [Cursor.advance, hd, tokens_nil] at hc
    have hlit : (String.ofList (scan c cs).literal).toList = c :: cs :=
      String.toList_ofList.trans hl
    refine hc ⟨⟨(scan c cs).kind, String.ofList (scan c cs).literal, p⟩, rfl, hk, ?_, ?_⟩
    · rwa [String.toList_ofList]
    · exact hlit ▸ List.suffix_rfl

/-- The tokens of a text and a blank and more text are those of the text, and then those of the rest
from where it stands. -/
theorem tokens_append {p : Position} {cs : List Char} (hf : ∀ t ∈ tokens ⟨p, cs⟩, t.fault? = none)
    (hc : ¬ EndsInComment cs (tokens ⟨p, cs⟩)) (rest : List Char) :
    tokens ⟨p, cs ++ ' ' :: rest⟩ = tokens ⟨p, cs⟩ ++ tokens ⟨(p.after cs).step ' ', rest⟩ := by
  suffices h : ∀ c : Cursor, (∀ t ∈ tokens c, t.fault? = none) →
      ¬ EndsInComment c.rest (tokens c) → tokens ⟨c.position, c.rest ++ ' ' :: rest⟩ =
        tokens c ++ tokens ⟨(c.position.after c.rest).step ' ', rest⟩ from h ⟨p, cs⟩ hf hc
  clear hf hc p cs
  intro c hf hc
  induction c using cursor_induction with
  | finish p =>
    rw [List.nil_append, tokens_blank p (by decide), tokens_nil]
    rfl
  | blank p b cs hb ih =>
    rw [tokens_blank p hb] at hf hc ⊢
    rw [List.cons_append, tokens_blank p hb]
    exact ih hf fun h => hc (h.mono (List.suffix_cons b cs) fun _ => id)
  | token p c cs hb ih =>
    have hs := scan_append (closed_scan hb hf hc) rest
    have hl := length_scan_le c cs
    have ha : Cursor.advance ⟨p, c :: cs ++ ' ' :: rest⟩ (scan c cs).length =
        ⟨p.after ((c :: cs).take (scan c cs).length),
          (c :: cs).drop (scan c cs).length ++ ' ' :: rest⟩ := by
      rw [Cursor.advance, List.take_append_of_le_length hl, List.drop_append_of_le_length hl]
    rw [tokens_cons p hb] at hf hc ⊢
    rw [List.cons_append, tokens_cons p hb, hs, ← List.cons_append, ha, List.cons_append]
    have hlast : ¬ EndsInComment ((c :: cs).drop (scan c cs).length)
        (tokens (Cursor.advance ⟨p, c :: cs⟩ (scan c cs).length)) := by
      refine fun h => hc (h.mono (List.drop_suffix _ _) fun t ht => ?_)
      rw [List.getLast?_cons, ht]
      rfl
    have := ih (fun t ht => hf t (List.mem_cons_of_mem _ ht)) hlast
    rw [Cursor.advance_rest, Cursor.advance, ← Position.after_append, List.take_append_drop] at this
    exact congrArg _ this

/-- The text has no faults, and more text can be written behind it. -/
structure Sealed (s : String) : Prop where
  faultless : ∀ t ∈ tokens (.ofString s), t.fault? = none
  closed : ¬ EndsInComment s.toList (tokens (.ofString s))

/-- Where a text stands changes the positions of its tokens only, so the rest may be read from any
place. -/
theorem Sealed.agree_tokens {s : String} (h : Sealed s) (p q : Position) (rest : List Char) :
    AllAgree (tokens ⟨p, s.toList ++ ' ' :: rest⟩) (tokens (.ofString s) ++ tokens ⟨q, rest⟩) := by
  refine (Token.agree_tokens _ p .start).trans ?_
  rw [tokens_append h.faultless h.closed]
  exact (AllAgree.refl _).append (Token.agree_tokens rest _ q)

end Token

end RecordQuery
