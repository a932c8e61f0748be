import RecordQuery.Program.Ordering

/-! # Expressions

A WHERE clause is a flat sequence of entries; an `Expression` is the tree that it stands for.
The tree keeps the parentheses, so it can be written out again as the entries it was read from
(`Expression.entries`). It is grouped as the clause is read (`Expression.WellGrouped`) if `NOT`
binds tighter than `AND`, `AND` tighter than `OR`, and chains of `AND` or `OR` lean to the left.
`Expression.IsReadingOf` puts the two together. -/

namespace RecordQuery

/-- A predicate with connectives, as it is grouped. -/
inductive Expression
  | atomic (a : Atomic)
  | group (opening closing : Token) (e : Expression)
  | not (e : Expression)
  | and (l r : Expression)
  | or (l r : Expression)
deriving DecidableEq

namespace Expression

/-- The entries of the clause that is written like the expression. -/
def entries : Expression → List WhereEntry
  | atomic a => [.atomic a]
  | group opening closing e => .openParen opening :: (e.entries ++ [.closeParen closing])
  | not e => .connective .not :: e.entries
  | and l r => l.entries ++ .connective .and :: r.entries
  | or l r => l.entries ++ .connective .or :: r.entries

/-- How tightly the outermost connective binds. What has none outside of parentheses binds
tightest. -/
def strength : Expression → Nat
  | or _ _ => 0
  | and _ _ => 1
  | not _ => 2
  | atomic _ | group _ _ _ => 3

/-- The operands of each connective bind as tightly as it needs them to: one to the right of
`AND` or `OR` tighter than the connective, any other at least as tightly. -/
def WellGrouped : Expression → Prop
  | atomic _ => True
  | group _ _ e => e.WellGrouped
  | not e => 2 ≤ e.strength ∧ e.WellGrouped
  | and l r => (1 ≤ l.strength ∧ l.WellGrouped) ∧ 2 ≤ r.strength ∧ r.WellGrouped
  | or l r => l.WellGrouped ∧ 1 ≤ r.strength ∧ r.WellGrouped

/-- The clause with the entries `es` stands for the expression. -/
def IsReadingOf (e : Expression) (es : List WhereEntry) : Prop := e.WellGrouped ∧ e.entries = es

/-- The number of predicates in the expression. -/
def count : Expression → Nat
  | atomic _ => 1
  | group _ _ e | not e => e.count
  | and l r | or l r => l.count + r.count

/-- The truth value of the expression if its predicates, counted from `k` in the order of the
text, have the truth values that `ν` gives them. -/
def value (ν : Nat → Bool) : Expression → Nat → Bool
  | atomic _, k => ν k
  | group _ _ e, k => e.value ν k
  | not e, k => !e.value ν k
  | and l r, k => l.value ν k && r.value ν (k + l.count)
  | or l r, k => l.value ν k || r.value ν (k + l.count)

/-- The predicates and connectives with every connective behind its operands. -/
def postOrder : Expression → List OrderedItem
  | atomic a => [.atomic a]
  | group _ _ e => e.postOrder
  | not e => e.postOrder ++ [.connective .not]
  | and l r => l.postOrder ++ r.postOrder ++ [.connective .and]
  | or l r => l.postOrder ++ r.postOrder ++ [.connective .or]

/-- Whether the outermost connective is `NOT`. -/
def isNot : Expression → Bool
  | not _ => true
  | _ => false

theorem strength_eq_three {e : Expression} (h : 2 ≤ e.strength) (hn : e.isNot = false) :
    e.strength = 3 := by
  cases e <;> simp_all [isNot, strength]

end Expression

/-! ## The form of a clause -/

namespace WhereEntry

/-- Operands and connectives alternate: an operand is a predicate behind any number of opening
parentheses and `NOT`s and before any number of closing parentheses, and between two operands
stands `AND` or `OR`. If `awaiting`, an operand is due at the start. -/
def alternates : Bool → List WhereEntry → Bool
  | true, .openParen _ :: es => alternates true es
  | true, .connective .not :: es => alternates true es
  | true, .atomic _ :: es => alternates false es
  | false, .closeParen _ :: es => alternates false es
  | false, .connective .and :: es => alternates true es
  | false, .connective .or :: es => alternates true es
  | false, [] => true
  | _, _ => false

/-- Every parenthesis has its partner, if `depth` of them are open at the start. -/
def balanced : Nat → List WhereEntry → Bool
  | depth, .openParen _ :: es => balanced (depth + 1) es
  | depth + 1, .closeParen _ :: es => balanced depth es
  | 0, .closeParen _ :: _ => false
  | depth, .connective _ :: es => balanced depth es
  | depth, .atomic _ :: es => balanced depth es
  | depth, [] => depth == 0

/-- A `NOT` stands right behind another. -/
def hasDoubleNot : List WhereEntry → Bool
  | .connective .not :: .connective .not :: _ => true
  | _ :: es => hasDoubleNot es
  | [] => false

end WhereEntry

end RecordQuery
