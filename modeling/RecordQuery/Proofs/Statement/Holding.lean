import RecordQuery.Proofs.Statement.Taking
import RecordQuery.Proofs.Token.Stream

/-! # The tokens that a reader has left

A reader reports a fault when the token behind it comes into view. So a reader that has taken all
its tokens has no errors just if the text has no faults: `TokenReader.Holds` is kept by taking
tokens, in both directions. -/

namespace RecordQuery
namespace TokenReader

/-- The faults that the reader has not reported yet. -/
def unseen (r : TokenReader) : List Misread :=
  match r.ahead with
  | [] => []
  | _ :: steps => steps.flatMap (·.faults) ++ r.trailing

theorem unseen_cons (current : Token) (s : Step) (steps : List Step) (trailing : List Misread)
    (finish : Text.Position) (clause : Option Clause) (errors : List SyntaxError) :
    unseen ⟨current, s :: steps, trailing, finish, clause, errors⟩ =
      upcoming ⟨s.token, steps, trailing, finish, clause, errors⟩ ++
      unseen ⟨s.token, steps, trailing, finish, clause, errors⟩ := by
  cases steps <;> simp [unseen, upcoming]

/-- The reader has the tokens `ts` left. It has nothing to report, and there will be nothing to
report while it takes them. -/
structure Holds (r : TokenReader) (ts : List Token) : Prop where
  tokens : r.ahead.map (·.token) = ts
  errors : r.errors = []
  unseen : r.unseen = []

variable {r r' : TokenReader} {t : Token} {ts us : List Token}

/-- A reader has a token left, and nothing to report on the way to it, just if the reader behind it
has the rest left and nothing to report. -/
theorem holds_cons (hp : r.peek = t) (hf : t.isFinish = false) :
    r.Holds (t :: ts) ↔ r.advance.Holds ts := by
  rcases r with ⟨current, _ | ⟨s, steps⟩, trailing, finish, clause, errors⟩
  · subst hp
    cases hf
  · have ht : s.token = t := hp
    subst ht
    have hs := unseen_cons current s steps trailing finish clause errors
    constructor
    · rintro ⟨ht, he, hu⟩
      obtain ⟨hup, hu⟩ := List.append_eq_nil_iff.mp (hs.symm.trans hu)
      exact ⟨(List.cons.inj ht).2, List.append_eq_nil_iff.mpr ⟨he, List.map_eq_nil_iff.mpr hup⟩, hu⟩
    · rintro ⟨ht, he, hu⟩
      obtain ⟨he, hup⟩ := List.append_eq_nil_iff.mp he
      exact ⟨congrArg _ ht, he, hs.trans (by rw [List.map_eq_nil_iff.mp hup]; exact hu)⟩

/-- Taking tokens neither loses nor finds errors: it is the same to have the tokens left and to have
the rest left behind them. -/
theorem Takes.holds_iff (h : r.Takes ts r') : r.Holds (ts ++ us) ↔ r'.Holds us := by
  induction ts generalizing r with
  | nil =>
    obtain rfl := h
    exact Iff.rfl
  | cons t ts ih =>
    obtain ⟨⟨hp, hf⟩, h⟩ := h
    exact (holds_cons hp hf).trans (ih h)

/-- The reader has the tokens `ts` left, whatever faults there are among them. -/
def Faces (r : TokenReader) (ts : List Token) : Prop := r.ahead.map (·.token) = ts

namespace Faces

theorem peek (h : r.Faces (t :: ts)) : r.peek = t := by
  unfold TokenReader.peek
  cases ha : r.ahead with
  | nil => simp [Faces, ha] at h
  | cons s steps =>
    rw [Faces, ha] at h
    exact (List.cons.inj h).1

theorem isFinish_peek (h : r.Faces []) : r.peek.isFinish = true := by
  unfold TokenReader.peek
  rw [List.map_eq_nil_iff.mp h]
  rfl

theorem advance (h : r.Faces (t :: ts)) : r.advance.Faces ts := by
  rcases r with ⟨current, _ | ⟨s, steps⟩, trailing, finish, clause, errors⟩
  · cases h
  · exact (List.cons.inj h).2

theorem enter (h : r.Faces ts) (c : Clause) : (r.enter c).Faces ts := h

/-- Tokens that a reader has left can be taken, and then it has the others left. -/
theorem takes (h : r.Faces (ts ++ us)) (hf : ∀ t ∈ ts, t.isFinish = false) :
    ∃ r', r.Takes ts r' ∧ r'.Faces us := by
  induction ts generalizing r with
  | nil => exact ⟨r, rfl, h⟩
  | cons t ts ih =>
    obtain ⟨r', ht, h'⟩ := ih (Faces.advance h) fun t hm => hf t (List.mem_cons_of_mem _ hm)
    exact ⟨r', ⟨⟨Faces.peek h, hf t List.mem_cons_self⟩, ht⟩, h'⟩

theorem isKeyword_peek {k : Keyword} (h : r.Faces ts)
    (ht : ∀ t ∈ ts.head?, t.isKeyword k = false) : r.peek.isKeyword k = false := by
  cases ts with
  | nil => exact Token.isKeyword_of_isFinish h.isFinish_peek k
  | cons t ts => exact h.peek ▸ ht t rfl

theorem isMark_peek {m : Mark} (h : r.Faces ts) (ht : ∀ t ∈ ts.head?, t.isMark m = false) :
    r.peek.isMark m = false := by
  cases ts with
  | nil => exact Token.isMark_of_isFinish h.isFinish_peek m
  | cons t ts => exact h.peek ▸ ht t rfl

end Faces

theorem holds_enter {c : Clause} : (r.enter c).Holds ts ↔ r.Holds ts :=
  ⟨fun ⟨h₁, h₂, h₃⟩ => ⟨h₁, h₂, h₃⟩, fun ⟨h₁, h₂, h₃⟩ => ⟨h₁, h₂, h₃⟩⟩

/-- The reader is at `r'` when it has taken the tokens `ts`, whatever clauses it has begun to read
meanwhile. -/
structure Passes (r : TokenReader) (ts : List Token) (r' : TokenReader) : Prop where
  holds_iff : ∀ us, r.Holds (ts ++ us) ↔ r'.Holds us
  suffix : r'.ahead <:+ r.ahead

theorem Passes.append {m : TokenReader} (h : r.Passes ts m) (h' : m.Passes us r') :
    r.Passes (ts ++ us) r' :=
  ⟨fun vs => by rw [List.append_assoc, h.holds_iff, h'.holds_iff], h'.suffix.trans h.suffix⟩

/-- Moving on takes from the front of what is left. -/
theorem ahead_advance_suffix (r : TokenReader) : r.advance.ahead <:+ r.ahead := by
  unfold advance
  split
  · next h => exact List.suffix_refl _
  · next s steps h =>
    rw [h]
    exact List.suffix_cons s steps

/-- To take tokens is to pass them within one clause. -/
theorem Takes.passes (h : r.Takes ts r') : r.Passes ts r' := by
  refine ⟨fun _ => h.holds_iff, ?_⟩
  induction ts generalizing r with
  | nil =>
    obtain rfl := h
    exact List.suffix_refl _
  | cons t ts ih => exact (ih h.2).trans r.ahead_advance_suffix

theorem Passes.of_enter {c : Clause} (h : (r.enter c).Passes ts r') : r.Passes ts r' :=
  ⟨fun us => holds_enter.symm.trans (h.holds_iff us), h.suffix⟩

/-- At the end of a text whose tokens are all taken, nothing is left. -/
theorem Passes.holds_of_isFinish (h : r.Passes ts r') (hf : ∀ s ∈ r.ahead, s.token.isFinish = false)
    (hend : r'.peek.isFinish = true) (he : r'.errors = []) : r.Holds ts := by
  have ha : r'.ahead = [] := by
    cases ha : r'.ahead with
    | nil => rfl
    | cons s steps =>
      have hs := hf s (h.suffix.mem (by simp [ha]))
      rw [TokenReader.peek, ha] at hend
      exact absurd hend (by simp [hs])
  have h' : r'.Holds [] := ⟨by rw [ha]; rfl, he, by rw [unseen, ha]⟩
  simpa using (h.holds_iff []).mpr h'

end TokenReader
end RecordQuery
