import Mathlib.Order.Bounds.Basic
import RecordQuery.Proofs.Compiler.Failure

/-! # Clauses of any form

The order of computation is defined for entries in any sequence, also for those that no text has.
There is one just if the parentheses match, and then only connectives have moved
(`WhereEntry.Rearranges`). Otherwise a parenthesis without a partner is told
(`WhereEntry.Mismatch`): the first that closes nothing or, if there is none, the last that is
never closed. The two together are `WhereEntry.order_rearranges_or_mismatches`.

While entries are taken, the stack knows where the parentheses stand that are open
(`Waiting.openings`). From that the index of the error is read off, by one induction on the entries
that are left. -/

namespace RecordQuery

namespace WhereEntry

/-! ## Parentheses without a partner

Two parentheses are partners if the entries between them are balanced. -/

/-- A parenthesis at `k` closes nothing: it is the partner of none that is opened before it. -/
def Unopened (es : List WhereEntry) (k : Nat) : Prop :=
  ∃ front t back, es = front ++ closeParen t :: back ∧ front.length = k ∧
    ∀ outer s inner, front = outer ++ openParen s :: inner → balanced 0 inner = false

/-- A parenthesis at `k` is never closed: it is the partner of none that closes behind it. -/
def Unclosed (es : List WhereEntry) (k : Nat) : Prop :=
  ∃ front t back, es = front ++ openParen t :: back ∧ front.length = k ∧
    ∀ inner s outer, back = inner ++ closeParen s :: outer → balanced 0 inner = false

/-- The parenthesis at `k` is the one that is told to have no partner. -/
inductive Mismatch (es : List WhereEntry) (k : Nat) : Prop
  | unopened (h : IsLeast {j | Unopened es j} k)
  | unclosed (hn : ∀ j, ¬ Unopened es j) (h : IsGreatest {j | Unclosed es j} k)

/-- The output has the predicates in the order of the clause, each connective as often as the
clause, and nothing else. -/
structure Rearranges (es : List WhereEntry) (items : List OrderedItem) : Prop where
  predicates : OrderedItem.predicates items = predicates es
  count : ∀ c, items.count (.connective c) = es.count (.connective c)

/-! ## Counting parentheses -/

variable {es front back : List WhereEntry} {m n : Nat} {t : Token}

@[simp] theorem balanced_nil : balanced n [] = (n == 0) := by
  cases n <;> rfl

@[simp] theorem balanced_openParen : balanced n (openParen t :: es) = balanced (n + 1) es := by
  cases n <;> rfl

@[simp] theorem balanced_closeParen_zero : balanced 0 (closeParen t :: es) = false := rfl

@[simp] theorem balanced_closeParen_succ :
    balanced (n + 1) (closeParen t :: es) = balanced n es := rfl

@[simp] theorem balanced_connective {c : Connective} :
    balanced n (connective c :: es) = balanced n es := by
  cases n <;> rfl

@[simp] theorem balanced_atomic {a : Atomic} : balanced n (atomic a :: es) = balanced n es := by
  cases n <;> rfl

/-- Entries that close all of `n` parentheses leave those open that were open before them. -/
theorem balanced_append (h : balanced n front = true) (m : Nat) (back : List WhereEntry) :
    balanced (m + n) (front ++ back) = balanced m back := by
  induction front generalizing n with
  | nil =>
    obtain rfl : n = 0 := by simpa using h
    rfl
  | cons e front ih =>
    cases e with
    | openParen t =>
      rw [balanced_openParen] at h
      rw [List.cons_append, balanced_openParen]
      exact ih h
    | closeParen t =>
      cases n with
      | zero => cases h
      | succ n => exact ih h
    | connective c | atomic a => simpa using ih (by simpa using h)

theorem balanced_add (h : balanced n es = true) (m : Nat) : balanced (m + n) es = (m == 0) := by
  simpa using balanced_append h m []

/-- What is left of entries that match closes what is then open. -/
theorem exists_balanced_of_append (h : balanced n (front ++ back) = true) :
    ∃ m, balanced m back = true := by
  induction front generalizing n with
  | nil => exact ⟨n, h⟩
  | cons e front ih =>
    cases e with
    | openParen t => exact ih (n := n + 1) (by simpa using h)
    | closeParen t =>
      cases n with
      | zero => cases h
      | succ n => exact ih h
    | connective c | atomic a => exact ih (by simpa using h)

/-- Of `n + 1 + m` parentheses that are closed, one is closed when `m` have been and `n` still
are to be. -/
theorem exists_closeParen (h : balanced (n + 1 + m) es = true) :
    ∃ inner t outer, es = inner ++ closeParen t :: outer ∧ balanced m inner = true ∧
      balanced n outer = true := by
  induction es generalizing m with
  | nil => simp at h
  | cons e es ih =>
    cases e with
    | openParen t =>
      rw [balanced_openParen] at h
      obtain ⟨inner, s, outer, rfl, hi, ho⟩ := ih (m := m + 1) h
      exact ⟨openParen t :: inner, s, outer, rfl, by simpa using hi, ho⟩
    | closeParen t =>
      cases m with
      | zero => exact ⟨[], t, es, rfl, rfl, h⟩
      | succ m =>
        obtain ⟨inner, s, outer, rfl, hi, ho⟩ := ih h
        exact ⟨closeParen t :: inner, s, outer, rfl, hi, ho⟩
    | connective c | atomic a =>
      obtain ⟨inner, s, outer, rfl, hi, ho⟩ := ih (by simpa using h)
      exact ⟨_ :: inner, s, outer, rfl, by simpa using hi, ho⟩

/-- A parenthesis that closes one in a balanced sequence is the partner of one before it, or closes
one of the `n` that are open at the start. -/
theorem exists_openParen (h : balanced n (front ++ closeParen t :: back) = true) :
    (∃ outer s inner, front = outer ++ openParen s :: inner ∧ balanced 0 inner = true) ∨
      ∃ m < n, balanced m front = true := by
  induction front generalizing n with
  | nil =>
    cases n with
    | zero => cases h
    | succ n => exact .inr ⟨0, n.succ_pos, rfl⟩
  | cons e front ih =>
    have further : (∃ outer s inner, front = outer ++ openParen s :: inner ∧
          balanced 0 inner = true) →
        ∃ outer s inner, e :: front = outer ++ openParen s :: inner ∧ balanced 0 inner = true :=
      fun ⟨outer, s, inner, he, hi⟩ => ⟨e :: outer, s, inner, by rw [he]; rfl, hi⟩
    cases e with
    | openParen s =>
      rcases ih (n := n + 1) (by simpa using h) with hi | ⟨m, hm, hb⟩
      · exact .inl (further hi)
      · cases m with
        | zero => exact .inl ⟨[], s, front, rfl, hb⟩
        | succ m => exact .inr ⟨m, Nat.lt_of_succ_lt_succ hm, by simpa using hb⟩
    | closeParen s =>
      cases n with
      | zero => cases h
      | succ n =>
        rcases ih h with hi | ⟨m, hm, hb⟩
        · exact .inl (further hi)
        · exact .inr ⟨m + 1, Nat.succ_lt_succ hm, hb⟩
    | connective c | atomic a =>
      rcases ih (by simpa using h) with hi | ⟨m, hm, hb⟩
      · exact .inl (further hi)
      · exact .inr ⟨m, hm, by simpa using hb⟩

/-! ## Which parenthesis has no partner -/

/-- A later entry of a sequence, seen from an earlier one. -/
theorem exists_of_append_cons_eq {x y : WhereEntry} {front' back' : List WhereEntry}
    (h : front ++ x :: back = front' ++ y :: back') (hl : front.length < front'.length) :
    ∃ mid, front' = front ++ x :: mid ∧ back = mid ++ y :: back' := by
  rcases List.append_eq_append_iff.mp h with ⟨mid, rfl, hm⟩ | ⟨mid, rfl, -⟩
  · cases mid with
    | nil => simp at hl
    | cons z mid =>
      obtain ⟨rfl, rfl⟩ := List.cons.inj hm
      exact ⟨mid, rfl, rfl⟩
  · rw [List.length_append] at hl
    omega

theorem not_unopened_of_balanced (h : balanced 0 es = true) (k : Nat) : ¬ Unopened es k := by
  rintro ⟨front, t, back, rfl, -, hf⟩
  rcases exists_openParen h with ⟨outer, s, inner, rfl, hi⟩ | ⟨m, hm, -⟩
  · exact absurd hi (by simp [hf outer s inner rfl])
  · exact absurd hm m.not_lt_zero

theorem not_unclosed_of_balanced (h : balanced n es = true) (k : Nat) : ¬ Unclosed es k := by
  rintro ⟨front, t, back, rfl, -, hb⟩
  obtain ⟨m, hm⟩ := exists_balanced_of_append h
  rw [balanced_openParen] at hm
  obtain ⟨inner, s, outer, rfl, hi, -⟩ := exists_closeParen (m := 0) hm
  exact absurd hi (by simp [hb inner s outer rfl])

/-- A parenthesis that closes where all before it match is the first that closes nothing. -/
theorem isLeast_unopened (h : balanced 0 front = true) (t : Token) (back : List WhereEntry) :
    IsLeast {k | Unopened (front ++ closeParen t :: back) k} front.length := by
  constructor
  · refine ⟨front, t, back, rfl, rfl, ?_⟩
    rintro outer s inner rfl
    obtain ⟨m, hm⟩ := exists_balanced_of_append h
    rw [balanced_openParen] at hm
    by_contra hi
    have := balanced_add (by simpa using hi) (m + 1)
    rw [Nat.add_zero, hm] at this
    cases this
  · rintro k ⟨front', s, back', he, rfl, hf⟩
    by_contra hl
    obtain ⟨mid, rfl, -⟩ := exists_of_append_cons_eq he.symm (not_le.mp hl)
    exact not_unopened_of_balanced h _ ⟨front', s, mid, rfl, rfl, hf⟩

/-- A parenthesis that is open where all behind it match is the last that is never closed. -/
theorem isGreatest_unclosed (h : balanced 0 back = true) (front : List WhereEntry) (t : Token) :
    IsGreatest {k | Unclosed (front ++ openParen t :: back) k} front.length := by
  constructor
  · refine ⟨front, t, back, rfl, rfl, ?_⟩
    rintro inner s outer rfl
    by_contra hi
    have := balanced_append (by simpa using hi) 0 (closeParen s :: outer)
    rw [Nat.add_zero, h] at this
    cases this
  · rintro k ⟨front', s, back', he, rfl, hb⟩
    by_contra hl
    obtain ⟨mid, -, rfl⟩ := exists_of_append_cons_eq he (not_le.mp hl)
    exact not_unclosed_of_balanced h _ ⟨mid, s, back', rfl, rfl, hb⟩

namespace Mismatch

variable {j k : Nat}

theorem unique (hj : Mismatch es j) (hk : Mismatch es k) : j = k := by
  cases hj with
  | unopened hj =>
    cases hk with
    | unopened hk => exact hj.unique hk
    | unclosed hn _ => exact absurd hj.1 (hn j)
  | unclosed hn hj =>
    cases hk with
    | unopened hk => exact absurd hk.1 (hn k)
    | unclosed _ hk => exact hj.unique hk

theorem not_balanced (h : Mismatch es k) : balanced 0 es = false := by
  by_contra hb
  have hb : balanced 0 es = true := by simpa using hb
  cases h with
  | unopened h => exact not_unopened_of_balanced hb k h.1
  | unclosed _ h => exact not_unclosed_of_balanced hb k h.1

end Mismatch

end WhereEntry

/-! ## The parentheses on the stack -/

namespace Waiting

open OrderedItem

variable {i : Nat} {stack stack' : List Waiting} {out : List OrderedItem}

/-- The indices of the open parentheses on a stack, from its top down. -/
def openings : List Waiting → List Nat
  | [] => []
  | openParen i :: stack => i :: openings stack
  | connective _ :: stack => openings stack

theorem length_openings (stack : List Waiting) : (openings stack).length = depth stack := by
  induction stack with
  | nil => rfl
  | cons w stack ih =>
    cases w with
    | openParen i => exact congrArg (· + 1) ih
    | connective c => exact ih

theorem openings_giveWay (c : Connective) (stack : List Waiting) :
    openings (giveWay c stack).2 = openings stack := by
  fun_induction giveWay c stack <;> simp_all [openings]

/-- Closing takes the parenthesis from the stack that was opened last. -/
theorem exists_openings_eq_cons (h : close i stack = .ok (out, stack')) :
    ∃ j, openings stack = j :: openings stack' := by
  induction stack generalizing out with
  | nil => cases h
  | cons w stack ih =>
    cases w with
    | openParen j =>
      cases h
      exact ⟨j, rfl⟩
    | connective c =>
      obtain ⟨out', -, hc⟩ := exists_close_of_connective h
      exact ih hc

/-- What is left open is told from the inside. -/
theorem exists_of_flush_eq_error {e : CompileError} (h : flush stack = .error e) :
    ∃ j js, openings stack = j :: js ∧ e = .mismatchedParentheses j := by
  induction stack with
  | nil => cases h
  | cons w stack ih =>
    cases w with
    | openParen j =>
      cases h
      exact ⟨j, _, rfl, rfl⟩
    | connective c => exact ih (eq_error_of_before ((flush_connective c stack).symm.trans h))

/-! ## Connectives on the stack -/

theorem count_giveWay (c d : Connective) (stack : List Waiting) :
    (giveWay c stack).1.count (.connective d) + (giveWay c stack).2.count (.connective d) =
      stack.count (.connective d) := by
  fun_induction giveWay c stack with
  | case1 top stack hy output rest he ih =>
    simp only [he] at ih
    simp only [List.count_cons, beq_iff_eq, OrderedItem.connective.injEq,
      Waiting.connective.injEq]
    omega
  | case2 top stack hy => simp
  | case3 stack hs => simp

theorem count_close (h : close i stack = .ok (out, stack')) (d : Connective) :
    out.count (.connective d) + stack'.count (.connective d) = stack.count (.connective d) := by
  induction stack generalizing out with
  | nil => cases h
  | cons w stack ih =>
    cases w with
    | openParen j =>
      cases h
      simp
    | connective c =>
      obtain ⟨out', rfl, hc⟩ := exists_close_of_connective h
      have := ih hc
      simp only [List.count_cons, beq_iff_eq, OrderedItem.connective.injEq,
        Waiting.connective.injEq]
      omega

theorem count_flush (h : flush stack = .ok out) (d : Connective) :
    out.count (.connective d) = stack.count (.connective d) := by
  induction stack generalizing out with
  | nil =>
    cases h
    rfl
  | cons w stack ih =>
    cases w with
    | openParen j => cases h
    | connective c =>
      obtain ⟨out', hf, rfl⟩ := before_eq_ok ((flush_connective c stack).symm.trans h)
      simp [List.count_cons, ih hf]

end Waiting

/-! ## Taking the entries of a clause -/

namespace WhereEntry

open Waiting OrderedItem

variable {i k : Nat} {stack stack' : List Waiting} {es front back : List WhereEntry}
  {e : WhereEntry} {t : Token} {out items : List OrderedItem} {error : CompileError}

theorem count_orderOne (h : e.orderOne i stack = .ok (out, stack')) (d : Connective) :
    out.count (.connective d) + stack'.count (.connective d) =
      stack.count (.connective d) + [e].count (.connective d) := by
  cases e with
  | atomic a | openParen t =>
    cases h
    simp
  | connective c =>
    cases h
    have hg := count_giveWay c d stack
    simp only [List.count_cons, List.count_nil, beq_iff_eq, Waiting.connective.injEq,
      WhereEntry.connective.injEq]
    omega
  | closeParen t => simpa using count_close h d

/-- Every connective that waits, or is still to come, comes out. -/
theorem count_orderFrom (h : orderFrom i stack es = .ok items) (d : Connective) :
    items.count (.connective d) = stack.count (.connective d) + es.count (.connective d) := by
  induction es generalizing i stack items with
  | nil => exact count_flush h d
  | cons e es ih =>
    obtain ⟨out, stack', more, ht, hm, rfl⟩ := exists_of_orderFrom_cons_eq_ok h
    have ht := count_orderOne ht d
    rw [← List.singleton_append, List.count_append, List.count_append, ih hm]
    omega

/-- A parenthesis that closes nothing ends the order of computation. -/
theorem orderFrom_append_closeParen (h : balanced (depth stack) front = true) :
    orderFrom i stack (front ++ closeParen t :: back) =
      .error (.mismatchedParentheses (i + front.length)) := by
  induction front generalizing i stack with
  | nil => exact orderFrom_cons_of_error (close_eq_error (by simpa using h))
  | cons e front ih =>
    cases ht : e.orderOne i stack with
    | error error =>
      rw [balanced_of_orderOne_eq_error ht] at h
      cases h
    | ok taken =>
      rw [balanced_of_orderOne_eq_ok ht] at h
      rw [List.cons_append, orderFrom_cons_of_ok ht, ih h, List.length_cons, Nat.add_right_comm,
        Nat.add_assoc]
      rfl

/-- The parenthesis at `k` has no partner, if `es` are the entries from the one at `i` on and
those of `opened` are the parentheses that are open before them. -/
inductive Lacks (i : Nat) (opened : List Nat) (es : List WhereEntry) (k : Nat) : Prop
  | unopened (front back : List WhereEntry) (t : Token) (he : es = front ++ closeParen t :: back)
    (hb : balanced opened.length front = true) (hk : i + front.length = k)
  | unclosed (front back : List WhereEntry) (t : Token) (he : es = front ++ openParen t :: back)
    (hb : balanced 0 back = true) (hk : i + front.length = k)
  | earlier {n : Nat} (hb : balanced n es = true) (hk : opened[n]? = some k)

/-- An entry in front makes a difference to what is open before the others, not to what has no
partner among them. -/
theorem Lacks.cons {e : WhereEntry} {opened opened' : List Nat} (h : Lacks (i + 1) opened' es k)
    (hb : ∀ fs, balanced opened'.length fs = true → balanced opened.length (e :: fs) = true)
    (ho : ∀ n, balanced n es = true → opened'[n]? = some k → Lacks i opened (e :: es) k) :
    Lacks i opened (e :: es) k := by
  cases h with
  | unopened front back t he hf hk =>
    exact .unopened (e :: front) back t (by rw [he]; rfl) (hb front hf)
      (by rw [← hk, List.length_cons]; omega)
  | unclosed front back t he hf hk =>
    exact .unclosed (e :: front) back t (by rw [he]; rfl) hf
      (by rw [← hk, List.length_cons]; omega)
  | earlier hf hk => exact ho _ hf hk

/-- What lacks a partner behind an entry that is taken lacks one from that entry on. -/
theorem Lacks.of_orderOne (ht : e.orderOne i stack = .ok (out, stack'))
    (h : Lacks (i + 1) (openings stack') es k) : Lacks i (openings stack) (e :: es) k := by
  cases e with
  | atomic a =>
    cases ht
    exact h.cons (fun _ => balanced_atomic.trans)
      fun n hb ho => .earlier (balanced_atomic.trans hb) ho
  | connective c =>
    cases ht
    rw [openings, openings_giveWay] at h
    exact h.cons (fun _ => balanced_connective.trans)
      fun n hb ho => .earlier (balanced_connective.trans hb) ho
  | openParen t =>
    cases ht
    refine h.cons (fun _ => balanced_openParen.trans) fun n hb ho => ?_
    cases n with
    | zero => exact .unclosed [] es t rfl hb (Option.some.inj ho)
    | succ n => exact .earlier (balanced_openParen.trans hb) ho
  | closeParen t =>
    obtain ⟨j, hj⟩ := exists_openings_eq_cons ht
    rw [hj]
    exact h.cons (fun _ => id) fun n hb ho => .earlier (n := n + 1) hb ho

/-- If the entries have no order of computation, the error tells of a parenthesis without a
partner. -/
theorem exists_lacks_of_orderFrom (h : orderFrom i stack es = .error error) :
    ∃ k, error = .mismatchedParentheses k ∧ Lacks i (openings stack) es k := by
  induction es generalizing i stack with
  | nil =>
    obtain ⟨j, js, hj, rfl⟩ := exists_of_flush_eq_error h
    exact ⟨j, rfl, .earlier (n := 0) rfl (by rw [hj]; rfl)⟩
  | cons e es ih =>
    rcases of_orderFrom_cons_eq_error h with ht | ⟨out, stack', ht, hm⟩
    · obtain ⟨⟨t, rfl⟩, hd, rfl⟩ := eq_of_orderOne_eq_error ht
      exact ⟨i, rfl, .unopened [] es t rfl (by simp [length_openings, hd]) rfl⟩
    · obtain ⟨k, rfl, hk⟩ := ih hm
      exact ⟨k, rfl, hk.of_orderOne ht⟩

/-! ## What comes of a clause -/

theorem rearranges_of_order (h : order es = .ok items) : Rearranges es items where
  predicates := predicates_order h
  count c := by simpa using count_orderFrom h c

/-- Where a parenthesis closes nothing, the first that does so is behind a balanced sequence. -/
theorem Unopened.exists_balanced (h : Unopened es k) :
    ∃ front t back, es = front ++ closeParen t :: back ∧ balanced 0 front = true := by
  obtain ⟨front, t, back, rfl, -, hf⟩ := h
  cases ho : order front with
  | ok items => exact ⟨front, t, back, rfl, balanced_of_order ho⟩
  | error e =>
    obtain ⟨j, rfl, hj⟩ := exists_lacks_of_orderFrom ho
    cases hj with
    | unopened front' back' s he hb =>
      exact ⟨front', s, back' ++ closeParen t :: back, by rw [he]; simp, hb⟩
    | unclosed _ _ _ he hb => exact absurd hb (by simp [hf _ _ _ he])
    | earlier _ hk => cases hk

theorem exists_mismatch_of_order (h : order es = .error error) :
    ∃ k, error = .mismatchedParentheses k ∧ Mismatch es k := by
  -- One that closes nothing ends the taking of entries, so what is open then is not told.
  by_cases hu : ∃ front t back, es = front ++ closeParen t :: back ∧ balanced 0 front = true
  · obtain ⟨front, t, back, rfl, hf⟩ := hu
    have he : order (front ++ closeParen t :: back) = .error (.mismatchedParentheses _) :=
      orderFrom_append_closeParen hf
    rw [Nat.zero_add] at he
    exact ⟨_, Except.error.inj (h.symm.trans he), .unopened (isLeast_unopened hf t back)⟩
  · obtain ⟨k, rfl, hk⟩ := exists_lacks_of_orderFrom h
    refine ⟨k, rfl, ?_⟩
    cases hk with
    | unopened _ _ _ he hb => exact absurd ⟨_, _, _, he, hb⟩ hu
    | unclosed _ _ _ he hb hk =>
      obtain rfl : _ = k := (Nat.zero_add _).symm.trans hk
      exact .unclosed (fun j hj => hu hj.exists_balanced) (he ▸ isGreatest_unclosed hb _ _)
    | earlier _ hk => cases hk

theorem order_eq_error_iff :
    order es = .error error ↔ ∃ k, error = .mismatchedParentheses k ∧ Mismatch es k := by
  refine ⟨exists_mismatch_of_order, ?_⟩
  rintro ⟨k, rfl, hk⟩
  cases ho : order es with
  | ok items => exact absurd (balanced_of_order ho) (by simp [hk.not_balanced])
  | error e =>
    obtain ⟨j, rfl, hj⟩ := exists_mismatch_of_order ho
    rw [hj.unique hk]

theorem exists_order_eq_ok : (∃ items, order es = .ok items) ↔ balanced 0 es = true := by
  rw [← isOk_order]
  cases order es <;> simp [Except.isOk, Except.toBool]

/-- Entries in any sequence have an order of computation just if their parentheses match. It keeps
the predicates in their order and every connective. Otherwise the first parenthesis that closes
nothing is told or, if there is none, the last that is never closed. -/
theorem order_rearranges_or_mismatches (es : List WhereEntry) :
    ((∃ items, order es = .ok items) ↔ balanced 0 es = true) ∧
    (∀ items, order es = .ok items → Rearranges es items) ∧
    ∀ e, order es = .error e ↔ ∃ k, e = .mismatchedParentheses k ∧ Mismatch es k :=
  ⟨exists_order_eq_ok, fun _ => rearranges_of_order, fun _ => order_eq_error_iff⟩

example (t : Token) : order [openParen t, openParen t, closeParen t, closeParen t, closeParen t,
    openParen t] = .error (.mismatchedParentheses 4) := rfl

end WhereEntry

end RecordQuery
