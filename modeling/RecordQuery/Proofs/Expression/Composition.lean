import RecordQuery.Proofs.Compiler.Failure

/-! # Composition in parentheses

A clause that is put in parentheses is computed as it is alone, whatever waits when it comes and
whatever comes behind it (`WhereEntry.orderFrom_grouped`). So a clause that is combined of others,
each of them in parentheses, is computed as it is combined (`WhereEntry.order_grouped`).

The proof takes the clause twice: alone, over an empty stack, and over an open parenthesis. At each
entry the two stacks differ only below that parenthesis and in the places of those above it
(`Waiting.Framed`). So the same connectives come out, and closing the parenthesis is the same to
the one as the end of the clause is to the other. -/

namespace RecordQuery

/-! ## A stack over a parenthesis -/

namespace Waiting

/-- `whole` is `stack` over an open parenthesis with `below` under it. The parentheses on the two
stacks may have come at different places. -/
inductive Framed (below : List Waiting) : List Waiting → List Waiting → Prop
  | base (j : Nat) : Framed below [] (openParen j :: below)
  | openParen (i j : Nat) {stack whole : List Waiting} (h : Framed below stack whole) :
    Framed below (openParen i :: stack) (openParen j :: whole)
  | connective (c : Connective) {stack whole : List Waiting} (h : Framed below stack whole) :
    Framed below (connective c :: stack) (connective c :: whole)

namespace Framed

variable {below stack whole stack' : List Waiting} {out : List OrderedItem}

/-- Nothing below the parenthesis gives way. -/
theorem exists_giveWay (h : Framed below stack whole) {c : Connective}
    (hg : giveWay c stack = (out, stack')) :
    ∃ whole', giveWay c whole = (out, whole') ∧ Framed below stack' whole' := by
  induction h generalizing out with
  | base j =>
    obtain ⟨rfl, rfl⟩ := Prod.mk.inj hg
    exact ⟨_, rfl, .base j⟩
  | openParen i j h _ =>
    obtain ⟨rfl, rfl⟩ := Prod.mk.inj hg
    exact ⟨_, rfl, .openParen i j h⟩
  | connective d h ih =>
    rw [giveWay] at hg
    split at hg
    case isTrue hd =>
      obtain ⟨rfl, rfl⟩ := Prod.mk.inj hg
      obtain ⟨whole', hw, hf⟩ := ih rfl
      exact ⟨whole', by rw [giveWay, if_pos hd, hw], hf⟩
    case isFalse hd =>
      obtain ⟨rfl, rfl⟩ := Prod.mk.inj hg
      exact ⟨_, by rw [giveWay, if_neg hd], .connective d h⟩

/-- What is closed on the stack alone is closed above the parenthesis. -/
theorem exists_close (h : Framed below stack whole) {i : Nat}
    (hc : close i stack = .ok (out, stack')) (k : Nat) :
    ∃ whole', close k whole = .ok (out, whole') ∧ Framed below stack' whole' := by
  induction h generalizing out with
  | base j => cases hc
  | openParen _ _ h _ =>
    cases hc
    exact ⟨_, rfl, h⟩
  | connective d h ih =>
    obtain ⟨out', rfl, hs⟩ := exists_close_of_connective hc
    obtain ⟨whole', hw, hf⟩ := ih hs
    exact ⟨whole', by rw [close, hw]; rfl, hf⟩

/-- What is taken on the stack alone is taken above the parenthesis. -/
theorem exists_orderOne (h : Framed below stack whole) {e : WhereEntry} {i : Nat}
    (ht : e.orderOne i stack = .ok (out, stack')) (k : Nat) :
    ∃ whole', e.orderOne k whole = .ok (out, whole') ∧ Framed below stack' whole' := by
  cases e with
  | atomic a =>
    cases ht
    exact ⟨whole, rfl, h⟩
  | openParen t =>
    cases ht
    exact ⟨_, rfl, .openParen i k h⟩
  | connective c =>
    cases ht
    obtain ⟨whole', hw, hf⟩ := h.exists_giveWay (c := c) rfl
    exact ⟨_, by rw [WhereEntry.orderOne, hw], .connective c hf⟩
  | closeParen t => exact h.exists_close ht k

/-- What comes out at the end of the stack alone comes out when the parenthesis is closed. -/
theorem close_of_flush (h : Framed below stack whole) (hf : flush stack = .ok out) (k : Nat) :
    close k whole = .ok (out, below) := by
  induction h generalizing out with
  | base j => cases hf; rfl
  | openParen _ _ _ _ => cases hf
  | connective d h ih =>
    obtain ⟨items, hs, rfl⟩ := OrderedItem.before_eq_ok ((flush_connective d _).symm.trans hf)
    rw [close, ih hs]
    rfl

end Framed
end Waiting

/-! ## A clause in parentheses -/

namespace WhereEntry

open Waiting OrderedItem

/-- A clause in parentheses. -/
def grouped (s t : Token) (es : List WhereEntry) : List WhereEntry :=
  openParen s :: (es ++ [closeParen t])

variable {i : Nat} {stack whole below : List Waiting} {es : List WhereEntry}
  {items : List OrderedItem}

/-- Entries that come over an open parenthesis, up to the one that closes it. -/
theorem orderFrom_framed (h : Framed below stack whole)
    (ho : orderFrom i stack es = .ok items) (k : Nat) (t : Token) (rest : List WhereEntry) :
    orderFrom k whole (es ++ closeParen t :: rest) =
      before items (orderFrom (k + es.length + 1) below rest) := by
  induction es generalizing i k stack whole items with
  | nil => exact orderFrom_closeParen (h.close_of_flush ho k)
  | cons e es ih =>
    obtain ⟨out, stack', more, ht, hm, rfl⟩ := exists_of_orderFrom_cons_eq_ok ho
    obtain ⟨whole', hw, hf⟩ := h.exists_orderOne ht k
    rw [List.cons_append, orderFrom_cons_of_ok hw, ih hf hm, before_before, List.length_cons,
      Nat.add_right_comm k, Nat.add_assoc k]

/-- A clause in parentheses is computed as it is alone, and leaves what waits as it is. -/
theorem orderFrom_grouped (h : order es = .ok items) (k : Nat) (stack : List Waiting)
    (s t : Token) (rest : List WhereEntry) :
    orderFrom k stack (grouped s t es ++ rest) =
      before items (orderFrom (k + (grouped s t es).length) stack rest) := by
  have := orderFrom_framed (Framed.base k : Framed stack [] _) h (k + 1) t rest
  rw [grouped, List.cons_append, List.append_assoc, List.singleton_append, orderFrom_openParen,
    this, List.length_cons, List.length_append]
  congr 2
  rw [List.length_singleton]
  omega

variable {fs : List WhereEntry} {others : List OrderedItem}

theorem order_grouped_join (hA : order es = .ok items) (hB : order fs = .ok others)
    (c : Connective) (s t s' t' : Token) :
    order (grouped s t es ++ connective c :: grouped s' t' fs) =
      .ok (items ++ others ++ [.connective c]) := by
  have hw : giveWay c [] = ([], []) := rfl
  have hb := orderFrom_grouped hB ((grouped s t es).length + 1) [.connective c] s' t' []
  have hn (n : Nat) : orderFrom n [.connective c] [] = .ok [.connective c] := rfl
  rw [List.append_nil, hn, before_ok] at hb
  rw [order, orderFrom_grouped hA, Nat.zero_add, orderFrom_connective hw, before_nil, hb, before_ok,
    List.append_assoc]

theorem order_not_grouped (hA : order es = .ok items) (s t : Token) :
    order (connective .not :: grouped s t es) = .ok (items ++ [.connective .not]) := by
  have hw : giveWay .not [] = ([], []) := rfl
  have hb := orderFrom_grouped hA 1 [.connective .not] s t []
  have hn (n : Nat) : orderFrom n [.connective .not] [] = .ok [.connective .not] := rfl
  rw [List.append_nil, hn, before_ok] at hb
  rw [order, orderFrom_connective hw, before_nil, hb]

end WhereEntry

/-! ## Combinations -/

/-- A combination of clauses, as a generator of queries has it: every operand is written in
parentheses of its own, which the combination carries. -/
inductive Combination
  | clause (es : List WhereEntry)
  | not (s t : Token) (c : Combination)
  | and (s t : Token) (l : Combination) (s' t' : Token) (r : Combination)
  | or (s t : Token) (l : Combination) (s' t' : Token) (r : Combination)

namespace Combination

open WhereEntry

/-- The entries that are written for a combination. -/
def entries : Combination → List WhereEntry
  | clause es => es
  | not s t c => .connective .not :: grouped s t c.entries
  | and s t l s' t' r => grouped s t l.entries ++ .connective .and :: grouped s' t' r.entries
  | or s t l s' t' r => grouped s t l.entries ++ .connective .or :: grouped s' t' r.entries

/-- The combination of what its clauses compute: operands first, then their connective. -/
def order : Combination → Except CompileError (List OrderedItem)
  | clause es => WhereEntry.order es
  | not _ _ c => return (← c.order) ++ [.connective .not]
  | and _ _ l _ _ r => return (← l.order) ++ (← r.order) ++ [.connective .and]
  | or _ _ l _ _ r => return (← l.order) ++ (← r.order) ++ [.connective .or]

/-- A combination is computed as it is combined. -/
theorem order_entries (c : Combination) {items : List OrderedItem} (h : c.order = .ok items) :
    WhereEntry.order c.entries = .ok items := by
  induction c generalizing items with
  | clause es => exact h
  | not s t c ih =>
    obtain ⟨as, hc, h⟩ := bind_eq_ok_iff.mp h
    cases h
    exact order_not_grouped (ih hc) s t
  | and s t l s' t' r ihl ihr | or s t l s' t' r ihl ihr =>
    obtain ⟨as, hl, h⟩ := bind_eq_ok_iff.mp h
    obtain ⟨bs, hr, h⟩ := bind_eq_ok_iff.mp h
    cases h
    exact order_grouped_join (ihl hl) (ihr hr) _ s t s' t'

end Combination

namespace WhereEntry

/-- Clauses in parentheses are computed as they are alone, and then their connective, whatever
connectives and parentheses they have themselves. The same is true of all that is combined of
clauses in this way. -/
theorem order_grouped :
    (∀ (es fs : List WhereEntry) (items others : List OrderedItem),
      order es = .ok items → order fs = .ok others → ∀ s t s' t' : Token,
        order (grouped s t es ++ connective .and :: grouped s' t' fs) =
          .ok (items ++ others ++ [.connective .and]) ∧
        order (grouped s t es ++ connective .or :: grouped s' t' fs) =
          .ok (items ++ others ++ [.connective .or]) ∧
        order (connective .not :: grouped s t es) = .ok (items ++ [.connective .not])) ∧
    ∀ (c : Combination) (items : List OrderedItem),
      c.order = .ok items → order c.entries = .ok items := by
  constructor
  · intro es fs items others hA hB s t s' t'
    refine ⟨?_, ?_, ?_⟩
    · exact order_grouped_join hA hB .and s t s' t'
    · exact order_grouped_join hA hB .or s t s' t'
    · exact order_not_grouped hA s t
  · intro c items h
    exact c.order_entries h

/-- The entries of `a LIKE 'b' OR NOT NOT a LIKE 'b'`. -/
def doublyNegatedChoice : List WhereEntry :=
  let t := Token.atEnd .start
  let a := atomic ⟨.bin ⟨"a", t⟩, .like, .literal (.string ⟨"b", t⟩), t⟩
  [a, connective .or, connective .not, connective .not, a]

theorem order_grouped_doublyNegatedChoice :
    let t := Token.atEnd .start
    let a := OrderedItem.atomic ⟨.bin ⟨"a", t⟩, .like, .literal (.string ⟨"b", t⟩), t⟩
    let choice := [a, .connective .not, a, .connective .not, .connective .or]
    let pair := [a, .connective .not, a, a, .connective .not, .connective .or, .connective .and]
    order doublyNegatedChoice = .ok choice ∧ order negatedPair = .ok pair ∧
    order (grouped t t doublyNegatedChoice ++ connective .and :: grouped t t negatedPair) =
      .ok (choice ++ pair ++ [.connective .and]) ∧
    order (connective .not :: grouped t t doublyNegatedChoice) =
      .ok (choice ++ [.connective .not]) ∧
    order (connective .not :: grouped t t (grouped t t negatedPair ++ connective .or ::
      grouped t t (connective .not :: grouped t t doublyNegatedChoice))) =
      .ok (pair ++ (choice ++ [.connective .not]) ++ [.connective .or] ++ [.connective .not]) := by
  intro t a choice pair
  have hc : order doublyNegatedChoice = .ok choice := rfl
  have hp : order negatedPair = .ok pair := rfl
  have both := order_grouped.1 _ _ _ _ hc hp t t t t
  refine ⟨hc, hp, both.1, both.2.2, ?_⟩
  exact order_grouped.2 (.not t t (.or t t (.clause negatedPair) t t
    (.not t t (.clause doublyNegatedChoice)))) _ rfl

end WhereEntry
end RecordQuery
