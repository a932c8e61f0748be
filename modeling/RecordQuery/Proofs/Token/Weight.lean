import RecordQuery.Proofs.Text.Uppercase
import RecordQuery.Proofs.Token.Alone
import RecordQuery.Proofs.Token.Stream

/-! # The weight of tokens in a text

The quotes of a name are in the text, but not in the literal of its token. To tell whether tokens
were quoted, characters are given weights: tokens weigh no more than the text that they are read
from (`weigh_tokens`), and where they weigh as much, no name among them was quoted.

Characters that are not in upper case have a weight too, so a text that weighs as much as its
upper-case form is that form. -/

namespace RecordQuery

open Text

/-! ## Weights -/

/-- What opens a quoted name has a weight, and what is not in upper case. -/
def weight (c : Char) : Nat := if c = '"' ∨ uppercaseChar c ≠ [c] then 1 else 0

def weigh (cs : List Char) : Nat := cs.foldr (fun c n => weight c + n) 0

@[simp] theorem weigh_nil : weigh [] = 0 := rfl

@[simp] theorem weigh_cons (c : Char) (cs : List Char) :
    weigh (c :: cs) = weight c + weigh cs := rfl

@[simp] theorem weigh_append (cs ds : List Char) : weigh (cs ++ ds) = weigh cs + weigh ds := by
  induction cs with
  | nil => simp
  | cons c cs ih => rw [List.cons_append, weigh_cons, weigh_cons, ih, Nat.add_assoc]

theorem weigh_eq_zero {cs : List Char} (h : ∀ c ∈ cs, weight c = 0) : weigh cs = 0 := by
  induction cs with
  | nil => rfl
  | cons c cs ih => simp [h c (by simp), ih fun d hd => h d (by simp [hd])]

/-- What is left out of a text can only make it lighter. -/
theorem weigh_le_of_sublist {cs ds : List Char} (h : cs.Sublist ds) : weigh cs ≤ weigh ds := by
  induction h with
  | slnil => exact Nat.le_refl _
  | cons d _ ih =>
    rw [weigh_cons]
    omega
  | cons_cons d _ ih =>
    rw [weigh_cons, weigh_cons]
    omega

theorem weight_apostrophe : weight '\'' = 0 := by decide

theorem weight_quote : weight '"' = 1 := by decide

theorem weigh_uppercaseChar (c : Char) :
    weigh (uppercaseChar c) ≤ weight c ∧
      (weight c ≤ weigh (uppercaseChar c) → uppercaseChar c = [c]) := by
  by_cases hc : uppercaseChar c = [c]
  · simp [hc]
  · have hw : weight c = 1 := by simp [weight, hc]
    have hz : weigh (uppercaseChar c) = 0 := weigh_eq_zero fun d hd => by
      have hq : d ≠ '"' := by
        rintro rfl
        obtain rfl := eq_quote_of_mem hd
        exact hc (by decide)
      simp [weight, uppercaseChar_of_mem hd, hq]
    omega

/-- A text in upper case is no heavier than the text, and as heavy only if it is the text. -/
theorem weigh_uppercase (cs : List Char) :
    weigh (cs.flatMap uppercaseChar) ≤ weigh cs ∧
      (weigh cs ≤ weigh (cs.flatMap uppercaseChar) → cs.flatMap uppercaseChar = cs) := by
  induction cs with
  | nil => simp
  | cons c cs ih =>
    obtain ⟨h₁, h₂⟩ := weigh_uppercaseChar c
    rw [List.flatMap_cons, weigh_append, weigh_cons]
    refine ⟨by omega, fun h => ?_⟩
    rw [h₂ (by omega), ih.2 (by omega)]
    rfl

/-- The quotes of strings weigh nothing, so doubling them changes no weight. -/
theorem weigh_doubled (cs : List Char) : weigh (doubled '\'' cs) = weigh cs := by
  induction cs with
  | nil => rfl
  | cons c cs ih =>
    by_cases hc : c = '\''
    · simp [doubled, hc, ih, weight_apostrophe]
    · simp [doubled, hc, ih]

theorem weigh_unquoted_le (quote : Char) (cs : List Char) :
    weigh (unquoted quote cs) ≤ weigh cs := by
  unfold unquoted
  split
  · next c d cs =>
    split
    · exact weigh_le_of_sublist (.cons c (List.dropLast_sublist _))
    · exact Nat.le_refl _
  · exact Nat.le_refl _

/-- What is meant by a quotation is lighter than its text by the quote that closes it. -/
theorem weigh_readQuoted {quote : Char} {cs : List Char} (h : (readQuoted quote cs).closed = true) :
    weigh (readQuoted quote cs).content + weight quote ≤
      weigh (cs.take (readQuoted quote cs).length) := by
  fun_induction readQuoted quote cs with
  | case1 => cases h
  | case2 => simp
  | case3 => cases h
  | case4 cs ih =>
    have := ih h
    simp only [Quotation.push, List.take_succ_cons, weigh_cons]
    omega
  | case5 => simp
  | case6 c d cs hc ih =>
    have := ih h
    simp only [Quotation.push, List.take_succ_cons, weigh_cons]
    omega

namespace Token

/-! ## Tokens -/

/-- What the scan takes of the text is no lighter than its literal, and heavier if it is a quoted
name. -/
def Scan.Weighed (s : Scan) (cs : List Char) : Prop :=
  weigh s.literal ≤ weigh (cs.take s.length) ∧
    (weigh (cs.take s.length) ≤ weigh s.literal → s.kind = .identifier ∨ s.kind = .keyword →
      IsWord s.literal ∧ s.kind = kindOfWord s.literal)

theorem weighed_verbatim {k : Kind} {lit cs : List Char} (hp : lit <+: cs)
    (hk : k = .identifier ∨ k = .keyword → IsWord lit ∧ k = kindOfWord lit) :
    (Scan.verbatim k lit).Weighed cs := by
  have ht : cs.take lit.length = lit := (List.prefix_iff_eq_take.mp hp).symm
  exact ⟨by simp [ht], fun _ => hk⟩

/-- The literal of what is scanned for the parser to see is no heavier than what is taken of the
text, and that of a quoted name is lighter. -/
theorem weighed_scan (c : Char) (cs : List Char) :
    (∀ lit p, (Token.mk (scan c cs).kind lit p).matters = false) ∨
      (scan c cs).Weighed (c :: cs) := by
  have h := hasForm_scan c cs
  generalize scan c cs = s at h
  cases h with
  | string hc hcl =>
    have := weigh_readQuoted hcl
    subst hc
    refine .inr ⟨?_, by simp⟩
    simp only [List.take_succ_cons, weigh_cons, weigh_append, weigh_nil]
    omega
  | quotedName hc hcl =>
    have hle := weigh_readQuoted hcl
    subst hc
    simp only [Scan.Weighed, List.take_succ_cons, weigh_cons, weight_quote] at hle ⊢
    exact .inr ⟨by omega, by omega⟩
  | number _ hk hl =>
    refine .inr (weighed_verbatim hl fun h => ?_)
    rcases hk with rfl | rfl <;> simp at h
  | mark => exact .inr (weighed_verbatim ⟨cs, rfl⟩ (by simp))
  | operator hl => exact .inr (weighed_verbatim hl (by simp))
  | word hw hl => exact .inr (weighed_verbatim hl fun _ => ⟨hw, rfl⟩)
  | silent h =>
    refine .inl fun lit p => ?_
    rcases h with h | ⟨f, h⟩ <;> simp [matters, h]

/-! ## The tokens of a text -/

/-- The token is spelled like a name, without quotes. -/
def IsUnquoted (t : Token) : Prop :=
  IsWord t.literal.toList ∧ t.kind = kindOfWord t.literal.toList

theorem lexesAlone_of_isUnquoted {t : Token} (h : t.IsUnquoted) (hn : t.isName = true) :
    LexesAlone isName t.literal :=
  lexesAlone_isName_iff.mpr ⟨h.1, (isName_iff_of_kind h.2).mp hn⟩

/-- The weight of the literals of the tokens. -/
def weighAll (ts : List Token) : Nat :=
  ts.foldr (fun t n => weigh t.literal.toList + n) 0

@[simp] theorem weighAll_nil : weighAll [] = 0 := rfl

@[simp] theorem weighAll_cons (t : Token) (ts : List Token) :
    weighAll (t :: ts) = weigh t.literal.toList + weighAll ts := rfl

/-- Tokens weigh no more than the text, and if they weigh as much, none of them is a quoted name. -/
theorem weigh_tokens (c : Cursor) :
    weighAll ((tokens c).filter matters) ≤ weigh c.rest ∧
      (weigh c.rest ≤ weighAll ((tokens c).filter matters) →
        ∀ t ∈ (tokens c).filter matters, t.isName = true → t.IsUnquoted) := by
  induction c using cursor_induction with
  | finish p => simp [tokens_nil]
  | blank p b cs hb ih =>
    rw [tokens_blank p hb, weigh_cons]
    obtain ⟨h₁, h₂⟩ := ih
    dsimp only at h₁ h₂
    exact ⟨by omega, fun h => h₂ (by omega)⟩
  | token p c cs hc ih =>
    have hcut : weigh (c :: cs) = weigh ((c :: cs).take (scan c cs).length) +
        weigh ((c :: cs).drop (scan c cs).length) := by
      rw [← weigh_append, List.take_append_drop]
    obtain ⟨h₁, h₂⟩ := ih
    simp only [Cursor.advance_rest] at h₁ h₂
    rw [tokens_cons p hc, hcut]
    generalize hts : (tokens _).filter matters = ts at h₁ h₂
    generalize ht : Token.mk (scan c cs).kind (String.ofList (scan c cs).literal) p = t
    rcases weighed_scan c cs with hs | ⟨hle, hname⟩
    · rw [List.filter_cons_of_neg (by simp [← ht, hs]), hts]
      exact ⟨by omega, fun h => h₂ (by omega)⟩
    cases hm : t.matters with
    | false =>
      rw [List.filter_cons_of_neg (by simp [hm]), hts]
      exact ⟨by omega, fun h => h₂ (by omega)⟩
    | true =>
      have hlit : t.literal.toList = (scan c cs).literal := by simp [← ht]
      have hkind : t.kind = (scan c cs).kind := by simp [← ht]
      rw [List.filter_cons_of_pos hm, hts, weighAll_cons, hlit]
      refine ⟨by omega, fun h u hu hn => ?_⟩
      rcases List.mem_cons.mp hu with rfl | hu
      · rw [IsUnquoted, hlit, hkind]
        exact hname (by omega) (hkind ▸ kind_of_isName hn)
      · exact h₂ (by omega) u hu hn

end Token

end RecordQuery
