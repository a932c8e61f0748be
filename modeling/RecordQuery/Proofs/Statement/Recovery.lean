import RecordQuery.Proofs.Statement.Holding
import RecordQuery.Proofs.Statement.Stopping

/-! # Reading on behind a clause

A clause is tried on the tokens up to the next one that opens a clause. There are three ways in
which that can end (`TokenReader.Tries`). The clause has the tokens to itself and is read from all
of them; or it cannot be read, then this is reported and all of them are passed over; or it is read
from the first of them, and the others are left over. Only in the last case is the next clause not
found where it begins. -/

namespace RecordQuery

open TokenReader

namespace TokenReader

/-- The reader has the tokens `ts` left and no faults among them, it reads the clause `c`, and its
errors so far are `es`. -/
structure Meets (r : TokenReader) (c : Option Clause) (ts : List Token) (es : List SyntaxError) :
    Prop where
  clause : r.clause = c
  tokens : r.ahead.map (·.token) = ts
  errors : r.errors = es
  unseen : r.unseen = []

variable {r r' m : TokenReader} {c : Option Clause} {t : Token} {ts us : List Token}
  {es : List SyntaxError}

namespace Meets

theorem peek (h : r.Meets c (t :: ts) es) : r.peek = t := Faces.peek h.tokens

theorem peek_nil (h : r.Meets c [] es) : r.peek.isFinish = true :=
  Faces.isFinish_peek h.tokens

theorem advance (h : r.Meets c (t :: ts) es) : r.advance.Meets c ts es := by
  rcases r with ⟨current, _ | ⟨s, steps⟩, trailing, finish, clause, errors⟩
  · cases h.tokens
  · obtain ⟨hc, ht, he, hu⟩ := h
    rw [unseen_cons] at hu
    obtain ⟨hup, hu⟩ := List.append_eq_nil_iff.mp hu
    refine ⟨hc, (List.cons.inj ht).2, ?_, hu⟩
    simp [TokenReader.advance, reportUpcoming, hup, he]

theorem enter (h : r.Meets c ts es) (c' : Clause) : (r.enter c').Meets (some c') ts es :=
  ⟨rfl, h.tokens, h.errors, h.unseen⟩

theorem report (h : r.Meets c ts es) (cause : SyntaxError.Cause) (p : Text.Position) :
    (r.report cause p).Meets c ts (es ++ [⟨cause, p, c⟩]) :=
  ⟨h.clause, h.tokens, by rw [TokenReader.report, h.errors, h.clause], h.unseen⟩

theorem takes (h : r.Meets c ts es) (ht : r.Takes us r') :
    ∃ vs, ts = us ++ vs ∧ r'.Meets c vs es := by
  induction us generalizing r ts with
  | nil =>
    obtain rfl := ht
    exact ⟨ts, rfl, h⟩
  | cons u us ih =>
    obtain ⟨⟨hp, hf⟩, ht⟩ := ht
    cases ts with
    | nil => simp [← hp, h.peek_nil] at hf
    | cons t ts =>
      obtain rfl := h.peek.symm.trans hp
      obtain ⟨vs, rfl, h'⟩ := ih h.advance ht
      exact ⟨vs, rfl, h'⟩

theorem exists_takes (h : r.Meets c (ts ++ us) es) (hf : ∀ t ∈ ts, t.isFinish = false) :
    ∃ r', r.Takes ts r' ∧ r'.Meets c us es := by
  obtain ⟨r', ht, -⟩ := Faces.takes h.tokens hf
  obtain ⟨vs, he, h'⟩ := h.takes ht
  obtain rfl := List.append_cancel_left he
  exact ⟨r', ht, h'⟩

/-- A reader that looks for the next clause finds it. -/
theorem skipToClause (h : r.Meets c (ts ++ us) es)
    (hts : ∀ t ∈ ts, t.isFinish = false ∧ t.opensClause = false)
    (hus : ∀ u ∈ us.head?, u.opensClause = true) : r.skipToClause.Meets c us es := by
  induction ts generalizing r with
  | nil =>
    rw [TokenReader.skipToClause, if_pos]
    · exact h
    · cases us with
      | nil => rw [h.peek_nil, Bool.true_or]
      | cons u us => rw [h.peek, hus u rfl, Bool.or_true]
  | cons t ts ih =>
    obtain ⟨hf, ho⟩ := hts t (List.mem_cons_self ..)
    rw [TokenReader.skipToClause, h.peek, hf, ho, if_neg (by simp)]
    exact ih h.advance fun t hm => hts t (List.mem_cons_of_mem _ hm)

end Meets

/-! ## Trying a clause -/

/-- The tokens begin with a whole node, and what follows it is not part of it. -/
def Overruns (S : α → List Token → Prop) (Q : α → Token → Prop) (ts : List Token) : Prop :=
  ∃ a us t vs, ts = us ++ t :: vs ∧ S a us ∧ Q a t

/-- What comes of trying a clause on the tokens `ts` when those behind it are `us`. -/
inductive Tries (S : α → List Token → Prop) (Q : α → Token → Prop) (c : Option Clause)
    (ts us : List Token) (es : List SyntaxError) : Option α × TokenReader → Prop
  | whole {a : α} {r : TokenReader} (ha : S a ts) (ho : ¬ Overruns S Q ts) (h : r.Meets c us es) :
    Tries S Q c ts us es (some a, r)
  | overrun {a : α} {r : TokenReader} {t : Token} {vs : List Token} (hs : t :: vs <:+ ts)
    (hw : ∀ a, ¬ S a ts) (ho : Overruns S Q ts) (h : r.Meets c (t :: vs ++ us) es) :
    Tries S Q c ts us es (some a, r)
  | failed {e : SyntaxError} {r : TokenReader} (hw : ∀ a, ¬ S a ts) (ho : ¬ Overruns S Q ts)
    (he : e.clause = c) (h : r.Meets c us (es ++ [e])) : Tries S Q c ts us es (none, r)

theorem prefix_of_opensClause {vs ws : List Token} (h : ts ++ us = vs ++ ws)
    (hus : ∀ u ∈ us.head?, u.opensClause = true) (hvs : ∀ v ∈ vs, v.clause? = none) :
    ∃ xs, ts = vs ++ xs ∧ ws = xs ++ us := by
  rcases List.append_eq_append_iff.mp h with ⟨xs, rfl, rfl⟩ | h
  · cases xs with
    | nil => exact ⟨[], by simp, rfl⟩
    | cons x xs =>
      have := Token.opensClause_of_clause? (hvs x (by simp))
      rw [hus x rfl] at this
      cases this
  · exact h

theorem Meets.not_more (h : r.Meets c us es) : ¬ r.Meets c (t :: ts ++ us) es := by
  intro h'
  have := congrArg List.length (h.tokens.symm.trans h'.tokens)
  rw [List.length_append, List.length_cons] at this
  omega

section

variable {S : α → List Token → Prop} {Q : α → Token → Prop} {p : Parse α} {a : α}

theorem Meets.exists_reads (h : m.Meets c (ts ++ us) es) (hts : ∀ t ∈ ts, t.isFinish = false)
    (hr : ∀ a r', Parse.Reads p r a r' ↔ ∃ vs, S a vs ∧ m.Takes vs r' ∧ Q a r'.peek)
    (hq : ∀ a (r' : TokenReader), r'.Meets c us es → Q a r'.peek) (ha : S a ts) :
    ∃ r', Parse.Reads p r a r' ∧ r'.Meets c us es := by
  obtain ⟨r', ht, h'⟩ := h.exists_takes hts
  exact ⟨r', (hr a r').mpr ⟨ts, ha, ht, hq a r' h'⟩, h'⟩

theorem Meets.exists_reads_of_overruns (h : m.Meets c (ts ++ us) es)
    (hts : ∀ t ∈ ts, t.isFinish = false)
    (hr : ∀ a r', Parse.Reads p r a r' ↔ ∃ vs, S a vs ∧ m.Takes vs r' ∧ Q a r'.peek)
    (ho : Overruns S Q ts) :
    ∃ a r' t vs, Parse.Reads p r a r' ∧ r'.Meets c (t :: vs ++ us) es := by
  obtain ⟨a, vs, t, ws, rfl, ha, hQ⟩ := ho
  rw [List.append_assoc] at h
  obtain ⟨r', ht, h'⟩ := h.exists_takes fun t hm => hts t (List.mem_append_left _ hm)
  exact ⟨a, r', t, ws, (hr a r').mpr ⟨vs, ha, ht, h'.peek ▸ hQ⟩, h'⟩

/-- A report about one of the tokens is all that comes of them. -/
theorem Meets.tries_of_refused (h : m.Meets c (ts ++ us) es)
    (hts : ∀ t ∈ ts, t.isFinish = false ∧ t.opensClause = false)
    (hus : ∀ u ∈ us.head?, u.opensClause = true) (hw : ∀ a, ¬ S a ts) (ho : ¬ Overruns S Q ts)
    {next : TokenReader} (hl : Parse.Leaves m (none : Option α) next) :
    Tries S Q c ts us es (none, next.skipToClause) := by
  cases hl with
  | refused ht hc =>
    obtain ⟨vs, he, h'⟩ := h.takes ht
    obtain ⟨xs, rfl, rfl⟩ := prefix_of_opensClause he hus hc
    exact .failed hw ho rfl
      ((h'.report _ _).skipToClause (fun t hm => hts t (List.mem_append_right _ hm)) hus)

/-- What is read does not reach into the next clause. -/
theorem Meets.exists_rest (h : m.Meets c (ts ++ us) es)
    (hus : ∀ u ∈ us.head?, u.opensClause = true) {next : TokenReader}
    (hl : Parse.Leaves m (some a) next) {vs : List Token} (ht : m.Takes vs next) :
    ∃ xs, ts = vs ++ xs ∧ next.Meets c (xs ++ us) es := by
  cases hl with
  | read ht' hc =>
    obtain ⟨ws, he', h'⟩ := h.takes ht'
    obtain ⟨xs, rfl, rfl⟩ := prefix_of_opensClause he' hus hc
    obtain ⟨ys, he, h''⟩ := h.takes ht
    obtain rfl : ys = xs ++ us := h''.tokens.symm.trans h'.tokens
    rw [← List.append_assoc] at he
    exact ⟨xs, List.append_cancel_right he, h'⟩

/-- How the try of `p` ends, if `p` reads from `r` what is spelled by the tokens behind `m`. -/
theorem Meets.tries (h : m.Meets c (ts ++ us) es)
    (hts : ∀ t ∈ ts, t.isFinish = false ∧ t.opensClause = false)
    (hus : ∀ u ∈ us.head?, u.opensClause = true)
    (hr : ∀ a r', Parse.Reads p r a r' ↔ ∃ vs, S a vs ∧ m.Takes vs r' ∧ Q a r'.peek)
    (hl : Parse.Leaves m (p r).value (p r).next)
    (hq : ∀ a (r' : TokenReader), r'.Meets c us es → Q a r'.peek) :
    Tries S Q c ts us es (r.attempt p) := by
  have hf := fun t hm => (hts t hm).1
  unfold attempt
  cases hv : (p r).value with
  | none =>
    rw [hv] at hl
    have hn {a : α} {r' : TokenReader} (h : Parse.Reads p r a r') : False := by
      cases hv.symm.trans h.1
    refine h.tries_of_refused hts hus (fun a ha => ?_) (fun ho => ?_) hl
    · obtain ⟨r', hr, -⟩ := h.exists_reads hf hr hq ha
      exact hn hr
    · obtain ⟨a, r', -, -, hr, -⟩ := h.exists_reads_of_overruns hf hr ho
      exact hn hr
  | some a =>
    rw [hv] at hl
    have hnext {b : α} {r' : TokenReader} (h : Parse.Reads p r b r') : (p r).next = r' := h.2
    obtain ⟨vs, ha, ht, hQ⟩ := (hr a _).mp ⟨hv, rfl⟩
    obtain ⟨xs, rfl, h'⟩ := h.exists_rest hus hl ht
    cases xs with
    | nil =>
      rw [List.append_nil] at h hf ⊢
      refine .whole ha (fun ho => ?_) h'
      obtain ⟨b, r', t, xs, hr, hm⟩ := h.exists_reads_of_overruns hf hr ho
      exact h'.not_more (hnext hr ▸ hm)
    | cons t xs =>
      refine .overrun (List.suffix_append _ _) (fun b hb => ?_) ⟨a, vs, t, xs, rfl, ha, ?_⟩ h'
      · obtain ⟨r', hr, hm⟩ := h.exists_reads hf hr hq hb
        rw [← hnext hr] at hm
        exact hm.not_more h'
      · rwa [Meets.peek h'] at hQ

end

end TokenReader

end RecordQuery
