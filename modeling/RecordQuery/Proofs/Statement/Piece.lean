import Mathlib.Data.List.Chain
import RecordQuery.Proofs.Statement.Spelling
import RecordQuery.Proofs.Token.Alone
import RecordQuery.Proofs.Token.Stream

/-! # Printed pieces

A text that is printed is made of pieces: words, names, literals, signs and marks, and the blanks
between them. Two pieces may meet if the first cannot run on into the second (`Piece.fits`). If all
that meet do so, and names and numbers are spelled as they have to be (`Piece.Whole`), the text is
taken apart again into the same pieces, a token for each (`Piece.spelledBy_tokens`). -/

namespace RecordQuery

open Text

theorem unquoted_quoted (quote : Char) (cs : List Char) :
    unquoted quote (quote :: (cs ++ [quote])) = cs := by
  cases cs with
  | nil => simp [unquoted]
  | cons c cs =>
    rw [List.cons_append, unquoted, ← List.cons_append, if_pos ⟨rfl, by rw [List.getLast?_concat]⟩,
      List.dropLast_concat]

theorem MetadataName.ofText?_text (m : MetadataName) : ofText? m.text = some m := by
  cases m <;> decide

theorem Relation.ofText?_text (r : Relation) : ofText? r.text = some r := by
  rcases r with (_ | _) | (_ | _ | _ | _) <;> decide

/-- Relations are written as signs. -/
theorem Relation.exists_sign (r : Relation) : ∃ o : Sign, r.text = o.text := by
  rcases r with (_ | _) | (_ | _ | _ | _)
  · exact ⟨.equal, rfl⟩
  · exact ⟨.notEqual, rfl⟩
  · exact ⟨.greater, rfl⟩
  · exact ⟨.greaterEqual, rfl⟩
  · exact ⟨.less, rfl⟩
  · exact ⟨.lessEqual, rfl⟩

/-- A piece of a printed text. -/
inductive Piece
  | blank
  | keyword (k : Keyword)
  | fact (m : MetadataName)
  | name (s : String)
  | typeName (s : String)
  | numeral (s : String)
  | string (s : String)
  | sign (o : Sign)
  | relation (r : Relation)
  | mark (m : Mark)
deriving DecidableEq

namespace Piece

/-- The characters of the piece. -/
def text : Piece → List Char
  | blank => [' ']
  | keyword k => k.text.toList
  | fact m => m.text.toList
  | name s | typeName s | numeral s => s.toList
  | string s => (singleQuoted s).toList
  | sign o => o.text.toList
  | relation r => r.text.toList
  | mark m => [m.char]

/-- The piece is spelled so that it is one token of its sort. The name of a type is in upper
case. -/
def Whole : Piece → Prop
  | name s => Token.LexesAlone Token.isName s
  | typeName s => Token.LexesAlone Token.isName s ∧ uppercase s = s
  | numeral s => Token.LexesAlone Token.isNumber s
  | _ => True

/-- The token spells the piece. -/
def SpelledBy : Piece → Token → Prop
  | blank, _ => False
  | keyword k, t => t.isKeyword k = true
  | fact m, t => t.kind = .identifier ∧ MetadataName.ofText? t.literal = some m
  | name s, t => t.isName = true ∧ t.literal = s
  | typeName s, t => t.isName = true ∧ uppercase t.literal = s
  | numeral s, t => t.isNumber = true ∧ t.literal = s
  | string s, t => t.kind = .string ∧ (StringLiteral.ofToken t).value = s
  | sign o, t => t.isSign o = true
  | relation r, t => r.SpelledBy t
  | mark m, t => t.isMark m = true

/-- The tokens spell the pieces. No token spells a blank. -/
inductive AllSpelledBy : List Piece → List Token → Prop
  | nil : AllSpelledBy [] []
  | blank {ps : List Piece} {ts : List Token} (h : AllSpelledBy ps ts) :
    AllSpelledBy (.blank :: ps) ts
  | cons {p : Piece} {ps : List Piece} {t : Token} {ts : List Token} (hp : p.SpelledBy t)
    (h : AllSpelledBy ps ts) : AllSpelledBy (p :: ps) (t :: ts)

section

variable {p : Piece} {ps qs : List Piece} {ts : List Token}

@[simp] theorem allSpelledBy_nil : AllSpelledBy [] ts ↔ ts = [] := by
  constructor
  · rintro ⟨⟩
    rfl
  · rintro rfl
    exact .nil

@[simp] theorem allSpelledBy_blank : AllSpelledBy (.blank :: ps) ts ↔ AllSpelledBy ps ts := by
  refine ⟨fun h => ?_, .blank⟩
  cases h with
  | blank h => exact h
  | cons hp => exact hp.elim

@[simp] theorem allSpelledBy_cons (hb : p ≠ .blank) :
    AllSpelledBy (p :: ps) ts ↔ ∃ t, p.SpelledBy t ∧ ∃ us, AllSpelledBy ps us ∧ ts = t :: us := by
  constructor
  · intro h
    cases h with
    | blank => exact absurd rfl hb
    | cons hp h => exact ⟨_, hp, _, h, rfl⟩
  · rintro ⟨t, hp, us, h, rfl⟩
    exact .cons hp h

@[simp] theorem allSpelledBy_append :
    AllSpelledBy (ps ++ qs) ts ↔
      ∃ us, AllSpelledBy ps us ∧ ∃ vs, AllSpelledBy qs vs ∧ ts = us ++ vs := by
  constructor
  · intro h
    induction ps generalizing ts with
    | nil => exact ⟨[], .nil, ts, h, rfl⟩
    | cons p ps ih =>
      rw [List.cons_append] at h
      cases h with
      | blank h =>
        obtain ⟨us, hps, vs, hqs, rfl⟩ := ih h
        exact ⟨us, .blank hps, vs, hqs, rfl⟩
      | cons hp h =>
        obtain ⟨us, hps, vs, hqs, rfl⟩ := ih h
        exact ⟨_ :: us, .cons hp hps, vs, hqs, rfl⟩
  · rintro ⟨us, hps, vs, hqs, rfl⟩
    induction hps with
    | nil => exact hqs
    | blank _ ih => exact .blank ih
    | cons hp _ ih => exact .cons hp ih

end

/-- Whether the piece may stand right before another. -/
def fits : Piece → Piece → Bool
  | blank, _ | mark _, _ | _, blank => true
  | numeral _, mark m => m == .closeParen
  | _, mark _ => true
  | sign _, numeral _ => true
  | _, _ => false

/-- All pieces that meet may do so. -/
def Fitting (ps : List Piece) : Prop := ps.IsChain fun p q => p.fits q = true

/-! ## The tokens of printed pieces -/

/-- The piece ends where the text begins. -/
def EndsBefore : Piece → List Char → Prop
  | blank, _ | mark _, _ => True
  | keyword _, cs | fact _, cs | name _, cs | typeName _, cs =>
    ∀ c ∈ cs.head?, Token.continuesName c = false
  | numeral _, cs => Token.EndsNumber cs
  | string _, cs => cs.head? ≠ some '\''
  | sign _, cs | relation _, cs => ∀ c ∈ cs.head?, Sign.begins c = false

theorem endsBefore_nil (p : Piece) : p.EndsBefore [] := by
  cases p with
  | blank | mark _ => trivial
  | _ => exact nofun

theorem endsBefore_blank (p : Piece) (cs : List Char) : p.EndsBefore (' ' :: cs) := by
  cases p with
  | blank | mark _ => trivial
  | string _ => exact (by decide : some ' ' ≠ some '\'')
  | _ =>
    rintro _ ⟨⟩
    decide

theorem endsBefore_mark {p : Piece} {m : Mark} (h : p.fits (.mark m) = true) (cs : List Char) :
    p.EndsBefore (m.char :: cs) := by
  cases p with
  | blank | mark _ => trivial
  | string _ => cases m <;> simp [EndsBefore, Mark.char]
  | numeral _ =>
    obtain rfl : m = .closeParen := by simpa [fits] using h
    rintro _ ⟨⟩
    decide
  | _ =>
    rintro _ ⟨⟩
    cases m <;> decide

/-- Two pieces that fit are told apart by the first character of the second. -/
theorem endsBefore_of_fits {p q : Piece} (h : p.fits q = true) (hq : q.Whole) (cs : List Char) :
    p.EndsBefore (q.text ++ cs) := by
  cases q with
  | blank => exact p.endsBefore_blank cs
  | mark m => exact endsBefore_mark h cs
  | numeral s =>
    obtain ⟨c, ds, k, hs, hc, -⟩ := Token.lexesAlone_isNumber_iff.mp hq
    cases p with
    | blank | mark _ => trivial
    | sign _ =>
      rw [text, hs]
      rintro _ ⟨⟩
      exact Token.begins_of_isDigit hc
    | _ => cases h
  | _ =>
    cases p with
    | blank | mark _ => trivial
    | _ => cases h

theorem isWord_keyword (k : Keyword) : Token.IsWord k.text.toList := by
  cases k <;> exact ⟨_, _, rfl, by decide, List.all_eq_true.mp (by decide)⟩

theorem isWord_fact (m : MetadataName) : Token.IsWord m.text.toList := by
  cases m <;> exact ⟨_, _, rfl, by decide, List.all_eq_true.mp (by decide)⟩

/-- The text of a keyword is scanned as a keyword, never as a name that is none. -/
theorem kindOfWord_keyword (k : Keyword) : Token.kindOfWord k.text.toList = .keyword := by
  cases k <;> decide

theorem kindOfWord_fact (m : MetadataName) : Token.kindOfWord m.text.toList = .identifier := by
  cases m <;> decide

/-- In front of `rest`, the piece is scanned as one token that spells it. -/
def Scans (p : Piece) (rest : List Char) : Prop :=
  ∃ c cs k lit, p.text = c :: cs ∧ isBlank c = false ∧
    Token.scan c (cs ++ rest) = ⟨k, lit, p.text.length⟩ ∧
    ∀ pos, p.SpelledBy ⟨k, String.ofList lit, pos⟩

/-- A piece that is spelled like a name is scanned up to the first character that no name goes on
with. -/
theorem scans_word {p : Piece} {s : String} (ht : p.text = s.toList) (h : Token.IsWord s.toList)
    {rest : List Char} (hr : ∀ c ∈ rest.head?, Token.continuesName c = false)
    (hs : ∀ pos, p.SpelledBy ⟨Token.kindOfWord s.toList, s, pos⟩) : p.Scans rest := by
  obtain ⟨c, ds, he, hc, hds⟩ := h
  refine ⟨c, ds, Token.kindOfWord s.toList, s.toList, ht.trans he,
    Token.isBlank_of_beginsName hc, ?_, fun pos => ?_⟩
  · rw [Token.scan_word hc hds hr, ht, he]
    rfl
  · rw [String.ofList_toList]
    exact hs pos

theorem scans_sign {p : Piece} {o : Sign} (ht : p.text = o.text.toList) {rest : List Char}
    (hr : ∀ c ∈ rest.head?, Sign.begins c = false)
    (hs : ∀ pos, p.SpelledBy ⟨.operator, o.text, pos⟩) : p.Scans rest := by
  obtain ⟨c, cs, he, h⟩ := Token.scan_sign o hr
  refine ⟨c, cs, .operator, o.text.toList, ht.trans he, ?_, ?_, fun pos => ?_⟩
  · cases o <;> cases he <;> decide
  · rw [h, ht, ← he]
    rfl
  · rw [String.ofList_toList]
    exact hs pos

/-- A piece is scanned as one token that spells it. -/
theorem scans_of_endsBefore {p : Piece} (hb : p ≠ blank) (hw : p.Whole) {rest : List Char}
    (hr : p.EndsBefore rest) : p.Scans rest := by
  cases p with
  | blank => exact absurd rfl hb
  | keyword k =>
    refine scans_word (s := k.text) rfl (isWord_keyword k) hr fun pos => ?_
    simp [SpelledBy, kindOfWord_keyword, Token.isKeyword, Token.keyword?, Keyword.ofText?_text]
  | fact m =>
    refine scans_word (s := m.text) rfl (isWord_fact m) hr fun pos => ?_
    rw [kindOfWord_fact]
    exact ⟨rfl, MetadataName.ofText?_text m⟩
  | name s =>
    have hp := Token.lexesAlone_isName_iff.mp hw
    exact scans_word (s := s) rfl hp.1 hr fun pos => ⟨Token.isName_of_isPlainName hp pos, rfl⟩
  | typeName s =>
    have hp := Token.lexesAlone_isName_iff.mp hw.1
    exact scans_word (s := s) rfl hp.1 hr fun pos => ⟨Token.isName_of_isPlainName hp pos, hw.2⟩
  | numeral s =>
    obtain ⟨c, cs, k, hs, hc, hk, h⟩ := Token.lexesAlone_isNumber_iff.mp hw
    refine ⟨c, cs, k, s.toList, hs, Token.isBlank_of_isDigit hc, ?_, fun pos => ?_⟩
    · rw [Token.scan_of_isDigit hc, ← List.cons_append, ← hs, Token.scanNumber_append hr, h]
      rfl
    · exact ⟨by simpa [Token.isNumber] using hk, String.ofList_toList⟩
  | string s =>
    refine ⟨'\'', doubled '\'' s.toList ++ ['\''], .string, '\'' :: (s.toList ++ ['\'']),
      by simp [text, singleQuoted], by decide, ?_, fun pos => ⟨rfl, ?_⟩⟩
    · rw [List.append_assoc, List.singleton_append, Token.scan_string s.toList hr]
      simp [text, singleQuoted]
    · simp [StringLiteral.ofToken, unquoted_quoted]
  | sign o =>
    refine scans_sign (o := o) rfl hr fun pos => ?_
    simp [SpelledBy, Token.isSign, Token.sign?, Sign.ofText?_text]
  | relation r =>
    obtain ⟨o, ho⟩ := r.exists_sign
    have ht : (relation r).text = o.text.toList := congrArg String.toList ho
    refine scans_sign ht hr fun pos => ⟨rfl, ?_⟩
    rw [← ho]
    exact Relation.ofText?_text r
  | mark m =>
    refine ⟨m.char, [], .punctuator, [m.char], rfl, by cases m <;> decide, ?_, fun pos => ?_⟩
    · rw [List.nil_append, Token.scan_mark]
      rfl
    · simpa [SpelledBy, Token.isMark, Token.mark?, Mark.text] using Mark.ofText?_text m

/-- The tokens of a text that is printed from pieces spell the pieces. -/
theorem spelledBy_tokens {ps : List Piece} (hf : Fitting ps) (hw : ∀ p ∈ ps, p.Whole)
    (pos : Position) : AllSpelledBy ps (Token.tokens ⟨pos, ps.flatMap text⟩) := by
  induction ps generalizing pos with
  | nil =>
    rw [List.flatMap_nil, Token.tokens_nil]
    exact .nil
  | cons p ps ih =>
    have hfs : Fitting ps := List.IsChain.of_cons hf
    have hws := fun q hq => hw q (List.mem_cons_of_mem p hq)
    by_cases hb : p = blank
    · subst hb
      rw [List.flatMap_cons, text, List.singleton_append, Token.tokens_blank _ (by decide)]
      exact .blank (ih hfs hws _)
    · have hr : p.EndsBefore (ps.flatMap text) := by
        cases ps with
        | nil => exact p.endsBefore_nil
        | cons q ps =>
          exact endsBefore_of_fits (List.isChain_cons_cons.mp hf).1 (hw q (by simp)) _
      obtain ⟨c, cs, k, lit, ht, hc, hscan, hs⟩ := scans_of_endsBefore hb (hw p (by simp)) hr
      have hd : Cursor.advance ⟨pos, c :: (cs ++ ps.flatMap text)⟩ p.text.length =
          ⟨pos.after p.text, ps.flatMap text⟩ := by
        rw [← List.cons_append, ← ht]
        simp [Cursor.advance]
      rw [List.flatMap_cons, ht, List.cons_append, Token.tokens_cons _ hc, hscan, hd]
      exact .cons (hs pos) (ih hfs hws _)

end Piece

end RecordQuery
