import RecordQuery.Text.Escaped
import RecordQuery.Text.Position
import RecordQuery.Text.Uppercase

/-! # Tokens

A token has a kind, a literal and the place where it begins. The literal is the token as it
is spelled in the text, except that a string keeps its two quotes and has the doubled ones
inside undone, and that a quoted name is given without its quotes.

What the text gets wrong is a token too: its kind is `error`, with the fault. -/

namespace RecordQuery

open Text

/-! ## Words and signs -/

/-- The keywords, each named as it is written. They are matched in any ASCII case. -/
inductive Keyword
  | SELECT | FROM | WITH | WHERE | AND | OR | NOT | CONTAINS | WITHIN | BETWEEN
  | CAST | AS | LIKE | ANY | ALL | LIST | MAPKEYS | MAPVALUES
deriving DecidableEq

namespace Keyword

/-- All keywords. -/
def all : List Keyword :=
  [SELECT, FROM, WITH, WHERE, AND, OR, NOT, CONTAINS, WITHIN, BETWEEN,
   CAST, AS, LIKE, ANY, ALL, LIST, MAPKEYS, MAPVALUES]

/-- The keyword in upper case. -/
def text : Keyword → String
  | SELECT => "SELECT"
  | FROM => "FROM"
  | WITH => "WITH"
  | WHERE => "WHERE"
  | AND => "AND"
  | OR => "OR"
  | NOT => "NOT"
  | CONTAINS => "CONTAINS"
  | WITHIN => "WITHIN"
  | BETWEEN => "BETWEEN"
  | CAST => "CAST"
  | AS => "AS"
  | LIKE => "LIKE"
  | ANY => "ANY"
  | ALL => "ALL"
  | LIST => "LIST"
  | MAPKEYS => "MAPKEYS"
  | MAPVALUES => "MAPVALUES"

/-- The keyword spelled `s`, in any ASCII case. -/
def ofText? (s : String) : Option Keyword :=
  all.find? fun k => k.text == asciiUpper s

/-- Whether the keyword can name nothing unless it is quoted. -/
def isReserved : Keyword → Bool
  | SELECT | FROM | WITH | WHERE | AND | OR | NOT => true
  | _ => false

/-- Whether the keyword opens a clause that follows the list of bins. -/
def opensClause : Keyword → Bool
  | FROM | WITH | WHERE => true
  | _ => false

theorem ofText?_text (k : Keyword) : ofText? k.text = some k := by
  cases k <;> decide

end Keyword

/-- The operator signs. -/
inductive Sign
  | equal | doubleEqual | notEqual | lessGreater | less | lessEqual | greater | greaterEqual
  | plus | minus | star
deriving DecidableEq

namespace Sign

/-- All operator signs. -/
def all : List Sign :=
  [equal, doubleEqual, notEqual, lessGreater, less, lessEqual, greater, greaterEqual,
   plus, minus, star]

/-- The sign as it is written. -/
def text : Sign → String
  | equal => "="
  | doubleEqual => "=="
  | notEqual => "!="
  | lessGreater => "<>"
  | less => "<"
  | lessEqual => "<="
  | greater => ">"
  | greaterEqual => ">="
  | plus => "+"
  | minus => "-"
  | star => "*"

/-- The sign spelled `s`. -/
def ofText? (s : String) : Option Sign :=
  all.find? fun o => o.text == s

/-- Whether an operator sign can begin with `c`. -/
def begins (c : Char) : Bool :=
  c == '=' || c == '<' || c == '>' || c == '!' || c == '+' || c == '-' || c == '*'

theorem ofText?_text (o : Sign) : ofText? o.text = some o := by
  cases o <;> decide

end Sign

/-- The punctuation marks. -/
inductive Mark
  | comma | semicolon | openParen | closeParen | dot
deriving DecidableEq

namespace Mark

/-- All punctuation marks. -/
def all : List Mark := [comma, semicolon, openParen, closeParen, dot]

/-- The mark as a character. -/
def char : Mark → Char
  | comma => ','
  | semicolon => ';'
  | openParen => '('
  | closeParen => ')'
  | dot => '.'

/-- The mark as it is written. -/
def text (m : Mark) : String := String.singleton m.char

/-- The mark written `c`. -/
def ofChar? (c : Char) : Option Mark :=
  all.find? fun m => m.char == c

/-- The mark spelled `s`. -/
def ofText? (s : String) : Option Mark :=
  all.find? fun m => m.text == s

theorem ofText?_text (m : Mark) : ofText? m.text = some m := by
  cases m <;> decide

end Mark

/-! ## Faults -/

/-- What can be wrong with a piece of text on its own. -/
inductive Fault
  | unterminatedString
  | unterminatedName
  | unterminatedComment
  | exponentWithoutDigits
  | unknownOperator (spelling : String)
  | unknownCharacter (c : Char)
deriving DecidableEq

/-- The words of a fault. -/
def Fault.message : Fault → String
  | unterminatedString => "unterminated string literal"
  | unterminatedName => "unterminated quoted identifier starting with \""
  | unterminatedComment => "unterminated block comment"
  | exponentWithoutDigits => "invalid number format: exponent has no digits"
  | unknownOperator spelling => "unrecognized operator: " ++ spelling
  | unknownCharacter c => "unrecognized character: " ++ shown c

/-! ## Tokens -/

/-- The kinds of token. The token `finish` stands behind all others, at the end of the text. -/
inductive Token.Kind
  | identifier | keyword | string | integer | float | operator | punctuator | comment
  | error (fault : Fault)
  | finish
deriving DecidableEq

/-- The name of a kind. -/
def Token.Kind.text : Token.Kind → String
  | identifier => "IDENTIFIER"
  | keyword => "KEYWORD"
  | string => "STRING"
  | integer => "INTEGER"
  | float => "FLOAT"
  | operator => "OPERATOR"
  | punctuator => "PUNCTUATOR"
  | comment => "COMMENT"
  | error _ => "ERROR"
  | finish => "EOF"

/-- A piece of text with a meaning of its own. -/
structure Token where
  kind : Token.Kind
  literal : String
  position : Position
deriving DecidableEq

namespace Token

/-- The token at the end of a text. -/
def atEnd (p : Position) : Token := ⟨.finish, "", p⟩

/-- Whether the token stands at the end of the text. -/
def isFinish (t : Token) : Bool := t.kind == .finish

/-- The keyword that the token is. -/
def keyword? (t : Token) : Option Keyword :=
  if t.kind = .keyword then Keyword.ofText? t.literal else none

/-- The operator sign that the token is. -/
def sign? (t : Token) : Option Sign :=
  if t.kind = .operator then Sign.ofText? t.literal else none

/-- The punctuation mark that the token is. -/
def mark? (t : Token) : Option Mark :=
  if t.kind = .punctuator then Mark.ofText? t.literal else none

/-- Whether the token is the keyword `k`. -/
def isKeyword (t : Token) (k : Keyword) : Bool := t.keyword? == some k

/-- Whether the token is the operator sign `o`. -/
def isSign (t : Token) (o : Sign) : Bool := t.sign? == some o

/-- Whether the token is the punctuation mark `m`. -/
def isMark (t : Token) (m : Mark) : Bool := t.mark? == some m

/-- Whether the token is a keyword that has to be quoted to name something. -/
def isReserved (t : Token) : Bool :=
  match t.keyword? with
  | some k => k.isReserved
  | none => false

/-- Whether the token can name a bin, a namespace, a set, a variable or a type. -/
def isName (t : Token) : Bool :=
  match t.kind with
  | .identifier => true
  | .keyword => !t.isReserved
  | _ => false

/-- Whether the token opens a clause that follows the list of bins. -/
def opensClause (t : Token) : Bool :=
  match t.keyword? with
  | some k => k.opensClause
  | none => false

/-- Whether the token is a number without its sign. -/
def isNumber (t : Token) : Bool := t.kind == .integer || t.kind == .float

/-- The token as a message names it. -/
def text (t : Token) : String :=
  match t.kind with
  | .error fault => "ERROR: " ++ fault.message ++ " at " ++ t.position.text
  | .finish => "end of input"
  | .keyword => asciiUpper t.literal
  | _ => "'" ++ t.literal ++ "'"

@[simp] theorem isFinish_atEnd (p : Position) : (atEnd p).isFinish = true := rfl

end Token

end RecordQuery
