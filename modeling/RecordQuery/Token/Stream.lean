import RecordQuery.Token.Lexer

/-! # The tokens that matter

A parser reads names, words, signs and literals. Comments mean nothing to it, and error tokens
are only to be reported. A token stream keeps the tokens that matter, each with the faults
found right before it, so that it is clear when a reader gets to see a fault. -/

namespace RecordQuery

open Text

/-- A fault and where it is. -/
structure Misread where
  fault : Fault
  position : Position
deriving DecidableEq

/-- A token that matters, and the faults between the one before and this one. -/
structure Step where
  faults : List Misread
  token : Token
deriving DecidableEq

/-- The tokens that matter, the faults behind the last of them, and the end of the text. -/
structure TokenStream where
  steps : List Step
  trailing : List Misread
  finish : Position
deriving DecidableEq

namespace TokenStream

/-- The stream with one fault more, before all that it holds. -/
def withFault (s : TokenStream) (m : Misread) : TokenStream :=
  match s.steps with
  | [] => { s with trailing := m :: s.trailing }
  | step :: steps => { s with steps := { step with faults := m :: step.faults } :: steps }

/-- The stream with one token more, before all that it holds. -/
def cons (t : Token) (s : TokenStream) : TokenStream :=
  match t.kind with
  | .comment => s
  | .error fault => s.withFault ⟨fault, t.position⟩
  | _ => { s with steps := ⟨[], t⟩ :: s.steps }

/-- The stream of a list of tokens before the end of the text at `finish`. -/
def ofTokens (finish : Position) (ts : List Token) : TokenStream :=
  ts.foldr cons ⟨[], [], finish⟩

/-- The stream of a text. -/
def ofString (s : String) : TokenStream :=
  let c := Cursor.ofString s
  ofTokens (Token.last c).position (Token.tokens c)

end TokenStream

end RecordQuery
