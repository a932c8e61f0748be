import RecordQuery.Proofs.Expression.Reading

/-! # The order of computation of an expression

`WhereEntry.order` takes an expression to its predicates and connectives in the order of
computation, but a `NOT` right before another `NOT` comes out at once, in front of its operand
(`Expression.emitted`, `WhereEntry.order_entries`). Only without such a `NOT` does every
connective stand behind its operands (`Expression.emitted_eq_postOrder_iff`).

The proof follows an expression over a stack: the connectives that still wait when all of its
entries are taken are those on the right edge of its tree (`Expression.pending`), and none of
what waited before is touched, as long as the top of the stack does not give way to the
outermost connective. -/

namespace RecordQuery
namespace Expression

/-! ## What is computed -/

/-- The entries of the expression in the order in which they come out. -/
def emitted : Expression → List OrderedItem
  | atomic a => [.atomic a]
  | group _ _ e => e.emitted
  | not e => if e.isNot then .connective .not :: e.emitted else e.emitted ++ [.connective .not]
  | and l r => l.emitted ++ r.emitted ++ [.connective .and]
  | or l r => l.emitted ++ r.emitted ++ [.connective .or]

/-- The connectives that wait behind the last entry of the expression, from the top of the stack
down. -/
def pending : Expression → List Connective
  | atomic _ | group _ _ _ => []
  | not _ => [.not]
  | and _ r => r.pending ++ [.and]
  | or _ r => r.pending ++ [.or]

/-- What has come out behind the last entry of the expression. -/
def sent : Expression → List OrderedItem
  | atomic a => [.atomic a]
  | group _ _ e => e.emitted
  | not e => if e.isNot then .connective .not :: e.sent else e.emitted
  | and l r | or l r => l.emitted ++ r.sent

theorem pending_eq_of_isNot {e : Expression} (h : e.isNot = true) : e.pending = [.not] := by
  cases e <;> simp_all [isNot, pending]

theorem emitted_eq (e : Expression) : e.emitted = e.sent ++ e.pending.map .connective := by
  induction e with
  | atomic a | group _ _ e => simp [emitted, sent, pending]
  | not e ih =>
    by_cases h : e.isNot = true
    · simp only [emitted, sent, pending, h, if_true, List.cons_append]
      rw [ih, pending_eq_of_isNot h]
    · simp [emitted, sent, pending, h]
  | and l r _ ihr | or l r _ ihr => simp [emitted, sent, pending, ihr]

end Expression

/-! ## What gives way -/

namespace Waiting

/-- Nothing on the top of the stack gives way to `c`. -/
def Resists (stack : List Waiting) (c : Connective) : Prop := giveWay c stack = ([], stack)

/-- A stack that resists `c` resists every connective that gets less to give way than `c`. -/
theorem Resists.mono {c d : Connective} (hy : ∀ top : Connective, top.yieldsTo d → top.yieldsTo c)
    {stack : List Waiting} (h : Resists stack c) : Resists stack d := by
  cases stack with
  | nil => rfl
  | cons w stack =>
    cases w with
    | openParen i => rfl
    | connective top =>
      unfold Resists at h ⊢
      rw [giveWay] at h ⊢
      split at h
      · cases h
      · next hn => rw [if_neg fun ht => hn (hy top ht)]

theorem Resists.and {stack : List Waiting} (h : Resists stack .or) : Resists stack .and :=
  h.mono fun top => by cases top <;> decide

theorem Resists.not {stack : List Waiting} (h : Resists stack .and) : Resists stack .not :=
  h.mono fun top => by cases top <;> decide

theorem giveWay_append {cs : List Connective} {c : Connective} {stack : List Waiting}
    (h : ∀ d ∈ cs, d.yieldsTo c = true) (hs : Resists stack c) :
    giveWay c (cs.map .connective ++ stack) = (cs.map .connective, stack) := by
  induction cs with
  | nil => exact hs
  | cons d cs ih =>
    have hd := h d (by simp)
    have := ih fun d hd => h d (by simp [hd])
    simp [giveWay, hd, this]

theorem close_append (i j : Nat) (cs : List Connective) (stack : List Waiting) :
    close i (cs.map .connective ++ openParen j :: stack) = .ok (cs.map .connective, stack) := by
  induction cs with
  | nil => rfl
  | cons d cs ih => simp [close, ih, bind, Except.bind, pure, Except.pure]

theorem flush_map (cs : List Connective) :
    flush (cs.map .connective) = .ok (cs.map .connective) := by
  induction cs with
  | nil => rfl
  | cons d cs ih => simp [flush, ih, bind, Except.bind, pure, Except.pure]

end Waiting

/-! ## Taking the next entry -/

/-- The order of computation if `out` comes out before it. -/
def OrderedItem.before (out : List OrderedItem) (rest : Except CompileError (List OrderedItem)) :
    Except CompileError (List OrderedItem) :=
  (out ++ ·) <$> rest

namespace OrderedItem

@[simp] theorem before_ok (out items : List OrderedItem) :
    before out (.ok items) = .ok (out ++ items) := rfl

@[simp] theorem before_nil (rest : Except CompileError (List OrderedItem)) :
    before [] rest = rest := by
  cases rest <;> rfl

@[simp] theorem before_before (out out' : List OrderedItem)
    (rest : Except CompileError (List OrderedItem)) :
    before out (before out' rest) = before (out ++ out') rest := by
  cases rest with
  | error e => rfl
  | ok items => simp

theorem isOk_before (out : List OrderedItem) (rest : Except CompileError (List OrderedItem)) :
    (before out rest).isOk = rest.isOk := by
  cases rest <;> rfl

theorem before_eq_ok {out items : List OrderedItem} {rest : Except CompileError (List OrderedItem)}
    (h : before out rest = .ok items) : ∃ more, rest = .ok more ∧ items = out ++ more := by
  cases rest with
  | error e => cases h
  | ok more =>
    cases h
    exact ⟨more, rfl, rfl⟩

theorem eq_error_of_before {out : List OrderedItem}
    {rest : Except CompileError (List OrderedItem)} {e : CompileError}
    (h : before out rest = .error e) : rest = .error e := by
  cases rest with
  | error e' =>
    cases h
    rfl
  | ok more => cases h

end OrderedItem

namespace WhereEntry

open Waiting OrderedItem

variable {i : Nat} {stack : List Waiting} {es : List WhereEntry}

theorem orderFrom_openParen {t : Token} :
    orderFrom i stack (.openParen t :: es) = orderFrom (i + 1) (.openParen i :: stack) es := rfl

theorem orderFrom_connective {c : Connective} {out : List OrderedItem} {stack' : List Waiting}
    (h : giveWay c stack = (out, stack')) :
    orderFrom i stack (.connective c :: es) =
      before out (orderFrom (i + 1) (.connective c :: stack') es) := by
  rw [orderFrom, h]
  rfl

theorem orderFrom_closeParen {t : Token} {out : List OrderedItem} {stack' : List Waiting}
    (h : close i stack = .ok (out, stack')) :
    orderFrom i stack (.closeParen t :: es) = before out (orderFrom (i + 1) stack' es) := by
  rw [orderFrom, h]
  rfl

/-- What comes out when the entry at `index` is taken, and what waits then. -/
def orderOne (index : Nat) (stack : List Waiting) :
    WhereEntry → Except CompileError (List OrderedItem × List Waiting)
  | atomic a => .ok ([.atomic a], stack)
  | openParen _ => .ok ([], .openParen index :: stack)
  | connective c => .ok ((giveWay c stack).1, .connective c :: (giveWay c stack).2)
  | closeParen _ => close index stack

variable {e : WhereEntry} {out items : List OrderedItem} {stack' : List Waiting}
  {error : CompileError}

theorem orderFrom_cons_of_ok (h : e.orderOne i stack = .ok (out, stack')) :
    orderFrom i stack (e :: es) = before out (orderFrom (i + 1) stack' es) := by
  cases e with
  | atomic a | connective c =>
    cases h
    rfl
  | openParen t =>
    cases h
    rw [orderFrom_openParen, before_nil]
  | closeParen t => exact orderFrom_closeParen h

theorem orderFrom_cons_of_error (h : e.orderOne i stack = .error error) :
    orderFrom i stack (e :: es) = .error error := by
  cases e with
  | atomic a | openParen t | connective c => cases h
  | closeParen t =>
    have h : close i stack = .error error := h
    rw [orderFrom, h]
    rfl

/-- Entries that have an order of computation are taken one by one. -/
theorem exists_of_orderFrom_cons_eq_ok (h : orderFrom i stack (e :: es) = .ok items) :
    ∃ out stack' more, e.orderOne i stack = .ok (out, stack') ∧
      orderFrom (i + 1) stack' es = .ok more ∧ items = out ++ more := by
  cases ht : e.orderOne i stack with
  | error error => cases (orderFrom_cons_of_error ht).symm.trans h
  | ok taken =>
    obtain ⟨more, hm, rfl⟩ := before_eq_ok ((orderFrom_cons_of_ok ht).symm.trans h)
    exact ⟨_, _, more, rfl, hm, rfl⟩

/-- Either an entry cannot be taken, or those behind it have no order of computation. -/
theorem of_orderFrom_cons_eq_error (h : orderFrom i stack (e :: es) = .error error) :
    e.orderOne i stack = .error error ∨ ∃ out stack', e.orderOne i stack = .ok (out, stack') ∧
      orderFrom (i + 1) stack' es = .error error := by
  cases ht : e.orderOne i stack with
  | error error' =>
    obtain rfl := Except.error.inj ((orderFrom_cons_of_error ht).symm.trans h)
    exact .inl rfl
  | ok taken =>
    exact .inr ⟨_, _, rfl, eq_error_of_before ((orderFrom_cons_of_ok ht).symm.trans h)⟩

end WhereEntry

/-! ## Parentheses -/

namespace Waiting

/-- The number of open parentheses on a stack. -/
def depth : List Waiting → Nat
  | [] => 0
  | openParen _ :: stack => depth stack + 1
  | connective _ :: stack => depth stack

theorem depth_giveWay (c : Connective) (stack : List Waiting) :
    depth (giveWay c stack).2 = depth stack := by
  fun_induction giveWay c stack <;> simp_all [depth]

theorem close_eq_error {i : Nat} {stack : List Waiting} (h : depth stack = 0) :
    close i stack = .error (.mismatchedParentheses i) := by
  induction stack with
  | nil => rfl
  | cons w stack ih =>
    cases w with
    | openParen j => simp [depth] at h
    | connective c => rw [close, ih h]; rfl

theorem close_eq_ok {i n : Nat} {stack : List Waiting} (h : depth stack = n + 1) :
    ∃ out stack', close i stack = .ok (out, stack') ∧ depth stack' = n := by
  induction stack with
  | nil => simp [depth] at h
  | cons w stack ih =>
    cases w with
    | openParen j => exact ⟨[], stack, rfl, Nat.succ.inj h⟩
    | connective c =>
      obtain ⟨out, stack', hc, hd⟩ := ih h
      exact ⟨_ :: out, stack', by rw [close, hc]; rfl, hd⟩

theorem close_eq_error_iff {i : Nat} {stack : List Waiting} {e : CompileError} :
    close i stack = .error e ↔ depth stack = 0 ∧ e = .mismatchedParentheses i := by
  cases hd : depth stack with
  | zero =>
    rw [close_eq_error hd]
    simp [eq_comm]
  | succ n =>
    obtain ⟨out, stack', hc, -⟩ := close_eq_ok (i := i) hd
    simp [hc]

/-- Closing takes one connective from the stack after the other. -/
theorem exists_close_of_connective {i : Nat} {c : Connective} {stack stack' : List Waiting}
    {out : List OrderedItem} (h : close i (connective c :: stack) = .ok (out, stack')) :
    ∃ out', out = .connective c :: out' ∧ close i stack = .ok (out', stack') := by
  cases hc : close i stack with
  | error e => rw [close, hc] at h; cases h
  | ok result =>
    rw [close, hc] at h
    obtain ⟨rfl, rfl⟩ := Prod.mk.inj (Except.ok.inj h)
    exact ⟨_, rfl, rfl⟩

theorem flush_connective (c : Connective) (stack : List Waiting) :
    flush (connective c :: stack) = OrderedItem.before [.connective c] (flush stack) := rfl

theorem isOk_flush (stack : List Waiting) : (flush stack).isOk = (depth stack == 0) := by
  induction stack with
  | nil => rfl
  | cons w stack ih =>
    cases w with
    | openParen i => rfl
    | connective c => rw [depth, ← ih, flush_connective, OrderedItem.isOk_before]

end Waiting

namespace WhereEntry

open Waiting OrderedItem

variable {i : Nat} {stack stack' : List Waiting} {e : WhereEntry} {out : List OrderedItem}
  {error : CompileError}

/-- Only a parenthesis that closes nothing cannot be taken. -/
theorem eq_of_orderOne_eq_error (h : e.orderOne i stack = .error error) :
    (∃ t, e = closeParen t) ∧ depth stack = 0 ∧ error = .mismatchedParentheses i := by
  cases e with
  | atomic a | openParen t | connective c => cases h
  | closeParen t => exact ⟨⟨t, rfl⟩, close_eq_error_iff.mp h⟩

/-- When an entry is taken, the others match what is open then just if all matched what was open
before. -/
theorem balanced_of_orderOne_eq_ok (h : e.orderOne i stack = .ok (out, stack'))
    (es : List WhereEntry) : balanced (depth stack) (e :: es) = balanced (depth stack') es := by
  cases e with
  | atomic a =>
    cases h
    rw [balanced]
  | openParen t =>
    cases h
    rw [depth, balanced]
  | connective c =>
    cases h
    rw [depth, depth_giveWay, balanced]
  | closeParen t =>
    have h : close i stack = .ok (out, stack') := h
    cases hd : depth stack with
    | zero => cases (close_eq_error hd).symm.trans h
    | succ n =>
      obtain ⟨_, _, hc, rfl⟩ := close_eq_ok (i := i) hd
      cases hc.symm.trans h
      rw [balanced]

theorem balanced_of_orderOne_eq_error (h : e.orderOne i stack = .error error)
    (es : List WhereEntry) : balanced (depth stack) (e :: es) = false := by
  obtain ⟨⟨t, rfl⟩, hd, -⟩ := eq_of_orderOne_eq_error h
  rw [hd, balanced]

/-- Taking entries succeeds just if their parentheses match those that are open. -/
theorem isOk_orderFrom (i : Nat) (stack : List Waiting) (es : List WhereEntry) :
    (orderFrom i stack es).isOk = balanced (depth stack) es := by
  induction es generalizing i stack with
  | nil => cases hd : depth stack <;> simp [orderFrom, isOk_flush, balanced, hd]
  | cons e es ih =>
    cases ht : e.orderOne i stack with
    | error error =>
      rw [orderFrom_cons_of_error ht, balanced_of_orderOne_eq_error ht]
      rfl
    | ok taken =>
      rw [orderFrom_cons_of_ok ht, isOk_before, ih, balanced_of_orderOne_eq_ok ht]

theorem balanced_of_order {es : List WhereEntry} {items : List OrderedItem}
    (h : order es = .ok items) : balanced 0 es = true := by
  have := isOk_orderFrom 0 [] es
  rw [← order, h] at this
  exact this.symm

end WhereEntry

/-! ## An expression over a stack -/

namespace Expression

open WhereEntry Waiting OrderedItem

/-- The stack does not give way to the outermost connective of `e`. -/
def Over (e : Expression) (stack : List Waiting) : Prop :=
  match e with
  | atomic _ | group _ _ _ => True
  | not _ => Resists stack .not
  | and _ _ => Resists stack .and
  | or _ _ => Resists stack .or

theorem over_of_resists_not {e : Expression} (h : 2 ≤ e.strength) {stack : List Waiting}
    (hs : Resists stack .not) : e.Over stack := by
  cases e with
  | atomic a | group _ _ e => trivial
  | not e => exact hs
  | and l r | or l r => simp [strength] at h

theorem over_of_resists_and {e : Expression} (h : 1 ≤ e.strength) {stack : List Waiting}
    (hs : Resists stack .and) : e.Over stack := by
  cases e with
  | and l r => exact hs
  | or l r => simp [strength] at h
  | atomic _ | group _ _ _ => trivial
  | not _ => exact hs.not

theorem over_of_resists_or (e : Expression) {stack : List Waiting} (hs : Resists stack .or) :
    e.Over stack := by
  cases e with
  | or l r => exact hs
  | and l r => exact hs.and
  | atomic _ | group _ _ _ => trivial
  | not _ => exact hs.and.not

theorem yieldsTo_and_of_mem_pending {e : Expression} (h : 1 ≤ e.strength) (he : e.WellGrouped) :
    ∀ c ∈ e.pending, c.yieldsTo .and = true := by
  induction e with
  | atomic _ | group _ _ _ => simp [pending]
  | not e => simp [pending, Connective.yieldsTo]
  | and l r _ ih =>
    have := ih (Nat.le_of_succ_le he.2.1) he.2.2
    simpa [pending, Connective.yieldsTo, or_imp, forall_and] using this
  | or l r => simp [strength] at h

theorem yieldsTo_or (c : Connective) : c.yieldsTo .or = true := by
  cases c <;> rfl

/-- Taking the entries of an expression: what waited still waits, the pending connectives wait on
top of it, and the rest has come out. -/
theorem orderFrom_entries {e : Expression} (he : e.WellGrouped) :
    ∀ (i : Nat) (stack : List Waiting) (rest : List WhereEntry), e.Over stack →
      orderFrom i stack (e.entries ++ rest) = before e.sent
        (orderFrom (i + e.entries.length) (e.pending.map .connective ++ stack) rest) := by
  induction e with
  | atomic a => exact fun i stack rest _ => rfl
  | group s t e ih =>
    intro i stack rest _
    have h := ih he (i + 1) (.openParen i :: stack) (.closeParen t :: rest)
      (over_of_resists_or e rfl)
    rw [orderFrom_closeParen (close_append ..), before_before, ← emitted_eq] at h
    simpa [entries, orderFrom_openParen, sent, pending, Nat.add_assoc, Nat.add_comm 1] using h
  | not e ih =>
    intro i stack rest hs
    have hs : Resists stack .not := hs
    rw [entries, List.cons_append, orderFrom_connective hs, before_nil]
    by_cases hn : e.isNot = true
    · -- The `NOT` comes out at once, and the one behind it takes its place on the stack.
      obtain ⟨e, rfl⟩ : ∃ e', e = not e' := by cases e <;> simp_all [isNot]
      have h := ih he.2 (i + 1) stack rest hs
      have hw : giveWay .not (.connective .not :: stack) = ([.connective .not], stack) := by
        rw [giveWay, hs]; rfl
      rw [entries, List.cons_append, orderFrom_connective hs, before_nil] at h
      rw [entries, List.cons_append, orderFrom_connective hw, h]
      simp [sent, pending, isNot, Nat.add_assoc, Nat.add_comm 1]
    · have h3 := strength_eq_three he.1 (by simpa using hn)
      have hp : e.pending = [] := by cases e <;> simp_all [strength, pending]
      have ho : e.Over (.connective .not :: stack) := by cases e <;> simp_all [strength, Over]
      have h := ih he.2 (i + 1) (.connective .not :: stack) rest ho
      rw [h]
      simp [sent, pending, hn, hp, emitted_eq e, Nat.add_assoc, Nat.add_comm 1]
  | and l r ihl ihr =>
    obtain ⟨⟨hl, hlw⟩, hr, hrw⟩ := he
    intro i stack rest hs
    have hw := giveWay_append (yieldsTo_and_of_mem_pending hl hlw) hs
    have ho : r.Over (.connective .and :: stack) := over_of_resists_not hr rfl
    rw [entries, List.append_assoc, ihl hlw _ _ _ (over_of_resists_and hl hs), List.cons_append,
      orderFrom_connective hw, ihr hrw _ _ _ ho]
    simp [sent, pending, emitted_eq l, Nat.add_assoc, Nat.add_comm 1]
  | or l r ihl ihr =>
    obtain ⟨hlw, hr, hrw⟩ := he
    intro i stack rest hs
    have hw := giveWay_append (fun c (_ : c ∈ l.pending) => yieldsTo_or c) hs
    have ho : r.Over (.connective .or :: stack) := over_of_resists_and hr rfl
    rw [entries, List.append_assoc, ihl hlw _ _ _ (over_of_resists_or l hs), List.cons_append,
      orderFrom_connective hw, ihr hrw _ _ _ ho]
    simp [sent, pending, emitted_eq l, Nat.add_assoc, Nat.add_comm 1]

/-- The order of computation of a clause that stands for an expression. -/
theorem order_of_isReadingOf {e : Expression} {es : List WhereEntry} (h : e.IsReadingOf es) :
    order es = .ok e.emitted := by
  obtain ⟨hw, rfl⟩ := h
  have := orderFrom_entries hw 0 [] [] (over_of_resists_or e rfl)
  rw [List.append_nil, List.append_nil, orderFrom, flush_map] at this
  rw [order, this, before_ok, ← emitted_eq]

/-! ## The order of computation and the order of operands -/

theorem postOrder_eq_cons (e : Expression) :
    ∃ a items, e.postOrder = OrderedItem.atomic a :: items := by
  induction e with
  | atomic a => exact ⟨a, [], rfl⟩
  | group _ _ e ih => exact ih
  | not e ih =>
    obtain ⟨a, items, h⟩ := ih
    exact ⟨a, items ++ [.connective .not], by simp [postOrder, h]⟩
  | and l r ih | or l r ih =>
    obtain ⟨a, items, h⟩ := ih
    exact ⟨a, _, by rw [postOrder, h]; rfl⟩

theorem length_emitted (e : Expression) : e.emitted.length = e.postOrder.length := by
  induction e with
  | atomic a => rfl
  | group _ _ e ih => exact ih
  | not e ih => by_cases h : e.isNot <;> simp [emitted, postOrder, h, ih]
  | and l r ihl ihr | or l r ihl ihr => simp [emitted, postOrder, ihl, ihr]

/-- A `NOT` has another `NOT` as its operand, without a parenthesis between them. -/
def HasDoubleNot : Expression → Prop
  | atomic _ => False
  | group _ _ e => e.HasDoubleNot
  | not e => e.isNot = true ∨ e.HasDoubleNot
  | and l r | or l r => l.HasDoubleNot ∨ r.HasDoubleNot

/-- Every connective comes out behind its operands just if no `NOT` has a `NOT` as its operand. -/
theorem emitted_eq_postOrder_iff (e : Expression) :
    e.emitted = e.postOrder ↔ ¬ e.HasDoubleNot := by
  induction e with
  | atomic a => simp [emitted, postOrder, HasDoubleNot]
  | group _ _ e ih => exact ih
  | not e ih =>
    by_cases h : e.isNot = true
    · obtain ⟨a, items, he⟩ := e.postOrder_eq_cons
      simp [emitted, postOrder, HasDoubleNot, h, he]
    · simp [emitted, postOrder, HasDoubleNot, h, ih]
  | and l r ihl ihr | or l r ihl ihr =>
    simp only [emitted, postOrder, HasDoubleNot, not_or, ← ihl, ← ihr]
    constructor
    · intro h
      have h := List.append_inj_left' h rfl
      exact List.append_inj h l.length_emitted
    · rintro ⟨hl, hr⟩
      rw [hl, hr]

end Expression

namespace WhereEntry

theorem hasDoubleNot_cons {x : WhereEntry} (hx : x ≠ .connective .not) (es : List WhereEntry) :
    hasDoubleNot (x :: es) = hasDoubleNot es := by
  rw [hasDoubleNot]
  exact fun fs h => absurd h hx

theorem hasDoubleNot_not_cons (es : List WhereEntry) :
    hasDoubleNot (.connective .not :: es) =
      (es.head? == some (.connective .not) || hasDoubleNot es) := by
  cases es with
  | nil => rfl
  | cons e es =>
    by_cases he : e = .connective .not
    · simp [he, hasDoubleNot]
    · rw [hasDoubleNot]
      · simp [he]
      · simp [he]

theorem hasDoubleNot_append_cons {x : WhereEntry} (hx : x ≠ .connective .not)
    (es fs : List WhereEntry) :
    hasDoubleNot (es ++ x :: fs) = (hasDoubleNot es || hasDoubleNot fs) := by
  induction es with
  | nil => simp [hasDoubleNot_cons hx, hasDoubleNot]
  | cons e es ih =>
    rw [List.cons_append]
    by_cases he : e = .connective .not
    · subst he
      rw [hasDoubleNot_not_cons, hasDoubleNot_not_cons, ih, Bool.or_assoc]
      cases es <;> simp [hx]
    · rw [hasDoubleNot_cons he, hasDoubleNot_cons he, ih]

end WhereEntry

namespace Expression

open WhereEntry

theorem head?_entries_eq_not {e : Expression} (h : 2 ≤ e.strength) :
    e.entries.head? = some (.connective .not) ↔ e.isNot = true := by
  cases e with
  | atomic a | group _ _ e | not e => simp [entries, isNot]
  | and l r | or l r => simp [strength] at h

theorem hasDoubleNot_entries {e : Expression} (he : e.WellGrouped) :
    WhereEntry.hasDoubleNot e.entries = true ↔ e.HasDoubleNot := by
  induction e with
  | atomic a => simp [entries, WhereEntry.hasDoubleNot, HasDoubleNot]
  | group s t e ih =>
    rw [entries, hasDoubleNot_cons (by simp), hasDoubleNot_append_cons (by simp)]
    simpa [WhereEntry.hasDoubleNot, HasDoubleNot] using ih he
  | not e ih =>
    rw [entries, hasDoubleNot_not_cons, Bool.or_eq_true, beq_iff_eq, head?_entries_eq_not he.1,
      ih he.2]
    rfl
  | and l r ihl ihr =>
    rw [entries, hasDoubleNot_append_cons (by simp), Bool.or_eq_true, ihl he.1.2, ihr he.2.2]
    rfl
  | or l r ihl ihr =>
    rw [entries, hasDoubleNot_append_cons (by simp), Bool.or_eq_true, ihl he.1, ihr he.2.2]
    rfl

end Expression

namespace WhereEntry

/-- A clause in which operands and connectives alternate and the parentheses match stands for
one expression. Its order of computation lists that expression with every connective behind its
operands just if no `NOT` stands right behind another. -/
theorem order_eq_postOrder_iff {es : List WhereEntry} (ha : alternates true es = true)
    (hb : balanced 0 es = true) :
    (∃! e : Expression, e.IsReadingOf es) ∧ ∀ e : Expression, e.IsReadingOf es →
      (order es = .ok e.postOrder ↔ hasDoubleNot es = false) := by
  refine ⟨Expression.existsUnique_isReadingOf ha hb, fun e he => ?_⟩
  have hd : hasDoubleNot es = true ↔ e.HasDoubleNot := by
    rw [← he.2, Expression.hasDoubleNot_entries he.1]
  rw [Expression.order_of_isReadingOf he, Except.ok.injEq, Expression.emitted_eq_postOrder_iff,
    ← hd, Bool.not_eq_true]

/-- The entries of `NOT a LIKE 'b' AND (a LIKE 'b' OR NOT a LIKE 'b')`. -/
def negatedPair : List WhereEntry :=
  let t := Token.atEnd .start
  let a := atomic ⟨.bin ⟨"a", t⟩, .like, .literal (.string ⟨"b", t⟩), t⟩
  [connective .not, a, connective .and, openParen t, a, connective .or, connective .not, a,
    closeParen t]

theorem order_negatedPair_eq_postOrder_iff :
    alternates true negatedPair = true ∧ balanced 0 negatedPair = true ∧
    (∃! e : Expression, e.IsReadingOf negatedPair) ∧
    ∀ e : Expression, e.IsReadingOf negatedPair →
      (order negatedPair = .ok e.postOrder ↔ hasDoubleNot negatedPair = false) :=
  ⟨by decide, by decide, order_eq_postOrder_iff (by decide) (by decide)⟩

end WhereEntry

end RecordQuery
