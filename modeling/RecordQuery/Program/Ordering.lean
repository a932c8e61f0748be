import RecordQuery.CompileError
import RecordQuery.Statement.Basic

/-! # The order of computation

A WHERE clause is written with connectives before and between predicates; a program has them
behind. The entries of the clause are taken one by one. A predicate goes to the output at once.
A connective waits on a stack until one comes that binds no tighter, or until its parenthesis
is closed.

`Connective.yieldsTo` says which connective gives way to which. It is not a ranking by strength:
`NOT` gives way to all, also to another `NOT`. -/

namespace RecordQuery

/-- Whether the waiting connective `top` goes to the output when `incoming` comes. -/
def Connective.yieldsTo (top incoming : Connective) : Bool :=
  match top with
  | not => true
  | and => incoming != not
  | or => incoming == or

/-- An entry of the output. -/
inductive OrderedItem
  | atomic (a : Atomic)
  | connective (c : Connective)
deriving DecidableEq

/-- What waits on the stack. A parenthesis is kept with its index in the clause. -/
inductive Waiting
  | openParen (index : Nat)
  | connective (c : Connective)
deriving DecidableEq

namespace Waiting

/-- The connectives on the top of a stack that give way to `incoming`, and the stack below. -/
def giveWay (incoming : Connective) : List Waiting → List OrderedItem × List Waiting
  | connective top :: rest =>
    if top.yieldsTo incoming then
      let (output, rest) := giveWay incoming rest
      (.connective top :: output, rest)
    else
      ([], connective top :: rest)
  | stack => ([], stack)

/-- The connectives on a stack down to an open parenthesis, and the stack below that. The
parenthesis at `index` closes it; if none is open, it is mismatched. -/
def close (index : Nat) : List Waiting → Except CompileError (List OrderedItem × List Waiting)
  | connective c :: rest => do
    let (output, rest) ← close index rest
    return (.connective c :: output, rest)
  | openParen _ :: rest => return ([], rest)
  | [] => throw (.mismatchedParentheses index)

/-- All connectives on a stack. A parenthesis that is still open is mismatched. -/
def flush : List Waiting → Except CompileError (List OrderedItem)
  | [] => return []
  | connective c :: rest => return .connective c :: (← flush rest)
  | openParen index :: _ => throw (.mismatchedParentheses index)

end Waiting

namespace WhereEntry

/-- Orders the entries of a clause from the one at `index` on, with what waits on `stack`. -/
def orderFrom (index : Nat) (stack : List Waiting) :
    List WhereEntry → Except CompileError (List OrderedItem)
  | [] => Waiting.flush stack
  | .atomic a :: items => return .atomic a :: (← orderFrom (index + 1) stack items)
  | .openParen _ :: items => orderFrom (index + 1) (.openParen index :: stack) items
  | .connective c :: items => do
    let (output, stack) := Waiting.giveWay c stack
    return output ++ (← orderFrom (index + 1) (.connective c :: stack) items)
  | .closeParen _ :: items => do
    let (output, stack) ← Waiting.close index stack
    return output ++ (← orderFrom (index + 1) stack items)

/-- The entries of a clause in the order of computation, without its parentheses. -/
def order (items : List WhereEntry) : Except CompileError (List OrderedItem) :=
  orderFrom 0 [] items

end WhereEntry

end RecordQuery
