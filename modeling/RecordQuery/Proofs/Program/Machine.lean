import RecordQuery.Compiler

/-! # The stack machine

A program leaves truth values on a stack. The instructions of one predicate end with its
relation, and that is when the truth value of the predicate is pushed; what stands before the
relation are its operands. A connective takes as many values as its arity says and pushes one.
The machine stops if it has to take a value from an empty stack.

Which truth values the predicates have is left open: `ν` gives them in the order in which the
machine pushes them. A program that is compiled pushes one for each predicate of its clause, in the
order of the text (`Program.PushesInOrder`), so `ν k` is the truth value of the `k`-th predicate
there. -/

namespace RecordQuery

/-- The truth value of a connective of the values that are taken for it. -/
def Connective.apply : Connective → List Bool → Bool
  | not, values => !values.all id
  | and, values => values.all id
  | or, values => values.any id

/-- The truth values on the stack, and the number of predicates that were pushed. -/
structure Machine where
  stack : List Bool
  pushed : Nat
deriving DecidableEq

namespace Machine

/-- The machine before a program is run. -/
def start : Machine := ⟨[], 0⟩

/-- The machine after the truth value of the next predicate is pushed. -/
def push (ν : Nat → Bool) (m : Machine) : Machine := ⟨ν m.pushed :: m.stack, m.pushed + 1⟩

/-- One instruction. -/
def step (ν : Nat → Bool) (m : Machine) : Instruction → Option Machine
  | .bin _ _ | .element _ _ | .value _ | .metadata _ | .iterate _ _ _ => some m
  | .equality _ _ | .comparison _ | .geo _ | .regex _ => some (m.push ν)
  | .logical op arity =>
    if arity.toNat ≤ m.stack.length then
      some ⟨op.apply (m.stack.take arity.toNat) :: m.stack.drop arity.toNat, m.pushed⟩
    else
      none

/-- All instructions of a program. -/
def run (ν : Nat → Bool) (m : Machine) (p : Program) : Option Machine := p.foldlM (step ν) m

/-- One predicate or connective. -/
def stepItem (ν : Nat → Bool) (m : Machine) : OrderedItem → Option Machine
  | .atomic _ => some (m.push ν)
  | .connective c => m.step ν (.ofConnective c)

/-- Predicates and connectives in the order of computation. -/
def runItems (ν : Nat → Bool) (m : Machine) (items : List OrderedItem) : Option Machine :=
  items.foldlM (stepItem ν) m

end Machine

/-- The truth values that a program leaves on the stack. -/
def Program.outcome (ν : Nat → Bool) (p : Program) : Option (List Bool) :=
  (Machine.start.run ν p).map Machine.stack

namespace Machine

theorem run_append (ν : Nat → Bool) (m : Machine) (p q : Program) :
    m.run ν (p ++ q) = (m.run ν p).bind (run ν · q) :=
  List.foldlM_append

theorem runItems_append (ν : Nat → Bool) (m : Machine) (xs ys : List OrderedItem) :
    m.runItems ν (xs ++ ys) = (m.runItems ν xs).bind (runItems ν · ys) :=
  List.foldlM_append

/-! ## The connectives -/

theorem step_not (ν : Nat → Bool) (v : Bool) (vs : List Bool) (k : Nat) :
    step ν ⟨v :: vs, k⟩ (.ofConnective .not) = some ⟨(!v) :: vs, k⟩ := by
  simp [step, Instruction.ofConnective, Connective.arity, Connective.apply]

/-- A `NOT` has nothing to take from an empty stack, and the machine stops. -/
theorem step_not_nil (ν : Nat → Bool) (k : Nat) :
    step ν ⟨[], k⟩ (.ofConnective .not) = none := by
  simp [step, Instruction.ofConnective, Connective.arity]

/-- The value on the top was pushed last, so it is that of the right operand. -/
theorem step_and (ν : Nat → Bool) (v w : Bool) (vs : List Bool) (k : Nat) :
    step ν ⟨v :: w :: vs, k⟩ (.ofConnective .and) = some ⟨(w && v) :: vs, k⟩ := by
  simp [step, Instruction.ofConnective, Connective.arity, Connective.apply, Bool.and_comm]

theorem step_or (ν : Nat → Bool) (v w : Bool) (vs : List Bool) (k : Nat) :
    step ν ⟨v :: w :: vs, k⟩ (.ofConnective .or) = some ⟨(w || v) :: vs, k⟩ := by
  simp [step, Instruction.ofConnective, Connective.arity, Connective.apply, Bool.or_comm]

/-! ## The instructions of one predicate -/

theorem run_singleton (ν : Nat → Bool) (m : Machine) (i : Instruction) :
    m.run ν [i] = m.step ν i :=
  bind_pure _

/-- The instructions push one truth value, whatever is on the stack. -/
def PushesOne (p : Program) : Prop := ∀ ν m, run ν m p = some (m.push ν)

end Machine

end RecordQuery
