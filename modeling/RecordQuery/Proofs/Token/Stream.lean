import RecordQuery.Token.Stream

/-! # What a stream keeps of a text

A stream holds the tokens of a text that are neither comments nor errors, in their order, and it
has a fault for each error token. -/

namespace RecordQuery

namespace Token

/-- The fault of an error token. -/
def fault? (t : Token) : Option Misread :=
  match t.kind with
  | .error fault => some ⟨fault, t.position⟩
  | _ => none

/-- Whether the parser gets to see the token. -/
def matters (t : Token) : Bool :=
  match t.kind with
  | .comment | .error _ => false
  | _ => true

end Token

namespace TokenStream

/-- The tokens of the stream. -/
def tokens (s : TokenStream) : List Token := s.steps.map (·.token)

/-- The faults of the stream. -/
def faults (s : TokenStream) : List Misread := s.steps.flatMap (·.faults) ++ s.trailing

theorem tokens_withFault (s : TokenStream) (m : Misread) : (s.withFault m).tokens = s.tokens := by
  rcases s with ⟨_ | ⟨step, steps⟩, trailing, finish⟩ <;> rfl

theorem faults_withFault (s : TokenStream) (m : Misread) :
    (s.withFault m).faults = m :: s.faults := by
  rcases s with ⟨_ | ⟨step, steps⟩, trailing, finish⟩ <;> rfl

theorem tokens_ofTokens (p : Text.Position) (ts : List Token) :
    (ofTokens p ts).tokens = ts.filter Token.matters := by
  induction ts with
  | nil => rfl
  | cons t ts ih =>
    rw [ofTokens, List.foldr_cons, ← ofTokens, cons]
    split
    · next h => simp [Token.matters, h, ih]
    · next h => simp [Token.matters, h, ih, tokens_withFault]
    · next hc he =>
      have hm : t.matters = true := by
        unfold Token.matters
        split
        · contradiction
        · next h => exact absurd h (he _)
        · rfl
      rw [List.filter_cons_of_pos hm, ← ih]
      rfl

theorem faults_ofTokens (p : Text.Position) (ts : List Token) :
    (ofTokens p ts).faults = ts.filterMap Token.fault? := by
  induction ts with
  | nil => rfl
  | cons t ts ih =>
    rw [ofTokens, List.foldr_cons, ← ofTokens, cons]
    split
    · next h => simp [Token.fault?, h, ih]
    · next h => simp [Token.fault?, h, ih, faults_withFault]
    · next hc he =>
      have hm : t.fault? = none := by
        unfold Token.fault?
        split
        · next h => exact absurd h (he _)
        · rfl
      rw [List.filterMap_cons_none hm, ← ih]
      rfl

end TokenStream

end RecordQuery
