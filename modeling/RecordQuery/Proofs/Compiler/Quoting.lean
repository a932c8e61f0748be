import RecordQuery.Proofs.Compiler.Layout
import RecordQuery.Proofs.Statement.PlainCondition

/-! # Quoted text as it is compiled

A string between single quotes is one token and a name between double quotes is one token, whatever
is in them and whatever follows, unless that is one more quote. So no string ends its quotation
early, and a statement that asks for a string is compiled to a program with just this string
(`quoting_isLossless`). -/

namespace RecordQuery

open Text

/-! ## Tokens -/

/-- The name `s` as it is written between double quotes. -/
def Text.doubleQuoted (s : String) : String :=
  String.ofList ('"' :: (doubled '"' s.toList ++ ['"']))

namespace Token

variable {rest : List Char}

theorem scan_quotedName (v : List Char) (hr : rest.head? ≠ some '"') :
    scan '"' (doubled '"' v ++ '"' :: rest) =
      ⟨.identifier, v, (doubled '"' v).length + 2⟩ := by
  simp [scan, scanQuotedName, readQuoted_doubled _ _ hr]

/-- A quotation that is scanned as one token is the next token, and the cursor moves right behind
it. -/
theorem next_quotation {quote : Char} {v lit : List Char} {k : Kind} (hq : isBlank quote = false)
    (h : scan quote (doubled quote v ++ quote :: rest) = ⟨k, lit, (doubled quote v).length + 2⟩)
    (p : Position) :
    next ⟨p, quote :: (doubled quote v ++ [quote]) ++ rest⟩ =
      (⟨k, String.ofList lit, p⟩, ⟨p.after (quote :: (doubled quote v ++ [quote])), rest⟩) := by
  have hl : (quote :: (doubled quote v ++ [quote])).length = (doubled quote v).length + 2 := by
    simp
  have hcs : quote :: (doubled quote v ++ quote :: rest) =
      quote :: (doubled quote v ++ [quote]) ++ rest := by
    simp
  rw [← hcs, next_cons p hq, h, ← hl, Cursor.advance, hcs]
  dsimp only
  rw [List.take_left, List.drop_left]

/-- A string between single quotes is read as one token. -/
theorem next_singleQuoted (s : String) (hr : rest.head? ≠ some '\'') (p : Position) :
    next ⟨p, (singleQuoted s).toList ++ rest⟩ =
      (⟨.string, String.ofList ('\'' :: (s.toList ++ ['\''])), p⟩,
        ⟨p.after (singleQuoted s).toList, rest⟩) := by
  rw [singleQuoted, String.toList_ofList]
  exact next_quotation rfl (scan_string s.toList hr) p

/-- A name between double quotes is read as one token. -/
theorem next_doubleQuoted (s : String) (hr : rest.head? ≠ some '"') (p : Position) :
    next ⟨p, (doubleQuoted s).toList ++ rest⟩ =
      (⟨.identifier, s, p⟩, ⟨p.after (doubleQuoted s).toList, rest⟩) := by
  have h := next_quotation rfl (scan_quotedName s.toList hr) p
  rw [String.ofList_toList] at h
  rwa [doubleQuoted, String.toList_ofList]

end Token

/-! ## Statements -/

namespace Statement

/-- The statement that selects what the clause holds of, in the namespace `space`. -/
def ofClause (space : String) (w : WhereClause) : Statement :=
  ⟨.star, ⟨⟨space, .forgotten⟩, none⟩, none, some w, .forgotten⟩

variable {space : String} {w : WhereClause}

theorem text_ofClause (space : String) (w : WhereClause) :
    (ofClause space w).text = "SELECT * FROM " ++ space ++ " WHERE " ++ w.text := by
  apply String.toList_inj.mp
  simp [ofClause, text, SelectList.text, Source.fullName]

/-- A statement with one clause that has plain names is read from its text. -/
theorem exists_parse_ofClause (hs : Token.LexesAlone Token.isName space)
    (ha : WhereEntry.alternates true w.items = true) (hp : ∀ a, .atomic a ∈ w.items → a.IsPlain) :
    ∃ s, parse (ofClause space w).text = .ok s ∧ s.bare = (ofClause space w).bare := by
  have hf : (ofClause space w).HasForm := by
    refine ⟨by simp [ofClause], by simp [ofClause], ?_⟩
    intro v hv
    cases hv
    exact ⟨ha, fun a hm => (hp a hm).hasForm⟩
  have hr : (ofClause space w).IsReprintable := by
    refine ⟨?_, by simp [ofClause]⟩
    have hw := WhereEntry.whole_piecesAll (fun a hm => (hp a hm).whole) true
    simpa [ofClause, pieces, SelectList.pieces, Source.pieces, Piece.Whole] using ⟨hs, hw⟩
  exact exists_parse_text hf hr

end Statement

/-- The clause that asks for the string `s` in the bin `bin`. -/
def WhereClause.ofEqual (bin s : String) : WhereClause :=
  ⟨[.atomic ⟨.bin ⟨bin, .forgotten⟩, .relation (.equality .equal),
    .literal (.string ⟨s, .forgotten⟩), .forgotten⟩], .forgotten⟩

theorem WhereClause.text_ofEqual (bin s : String) :
    (ofEqual bin s).text = bin ++ " = " ++ singleQuoted s := by
  apply String.toList_inj.mp
  simp [ofEqual, text, WhereEntry.textAll, WhereEntry.text, Atomic.text, Subject.text,
    AtomicOperator.text, Relation.text, Equality.text, Operand.text, Literal.text,
    StringLiteral.text]

variable {space bin : String} {σ : Schema}

/-- The clause is compiled to the bin, the string and the relation. -/
theorem WhereClause.result_ofEqual {types : Option TypeTable} (h : typeIn types bin = .string)
    (s : String) :
    WhereEntry.order (ofEqual bin s).items >>= Program.ofItems types =
      .ok [.bin bin .string, .value (.string s), .equality .equal .string] := by
  have hv : literalValue types bin s = .ok (.string s) := by
    rw [literalValue, h]
  have hf : Fragment.ofBin types bin s (.equality .equal .string) =
      ⟨[.bin bin .string, .value (.string s), .equality .equal .string], none⟩ := by
    rw [Fragment.ofBin, hv]
    rfl
  change (do
    let first ← (Fragment.ofBin types bin s (.equality .equal .string)).result
    let rest ← Program.ofItems types []
    return first ++ rest : Except CompileError Program) = _
  rw [hf]
  rfl

theorem Statement.compile_ofEqual (h : σ.typeOf? space bin = some .string) (s : String) :
    (ofClause space (.ofEqual bin s)).compile σ =
      .ok ⟨.allBins, space, none, none,
        some [.bin bin .string, .value (.string s), .equality .equal .string]⟩ := by
  have ht : typeIn (σ.typeTable? space) bin = .string :=
    congrArg (fun t : Option ParticleType => t.getD .string) h
  have hr := WhereClause.result_ofEqual ht s
  rw [compile_eq]
  change (do
    let program ← WhereEntry.order (WhereClause.ofEqual bin s).items >>=
      Program.ofItems (σ.typeTable? space)
    return Descriptor.mk .allBins space none none
      (if program.isEmpty then none else some program)) = _
  rw [hr]
  rfl

/-- A statement with the string is compiled as the statement that was built for it. -/
theorem compile_singleQuoted (hs : Token.LexesAlone Token.isName space)
    (hb : Token.LexesAlone Token.isName bin) (h : σ.typeOf? space bin = some .string)
    (s : String) :
    compile σ ("SELECT * FROM " ++ space ++ " WHERE " ++ bin ++ " = " ++ singleQuoted s) =
      .ok ⟨.allBins, space, none, none,
        some [.bin bin .string, .value (.string s), .equality .equal .string]⟩ := by
  have hplain : ∀ a, .atomic a ∈ (WhereClause.ofEqual bin s).items → a.IsPlain := by
    intro a ha
    cases List.mem_singleton.mp ha
    exact .relation hb trivial
  obtain ⟨s', hp, hbare⟩ := Statement.exists_parse_ofClause hs rfl hplain
  have hc := Statement.unplaced_compile_eq_of_bare_eq hbare σ
  rw [Statement.compile_ofEqual h] at hc
  rw [Statement.text_ofClause, WhereClause.text_ofEqual, ← String.append_assoc,
    ← String.append_assoc] at hp
  rw [compile_eq_of_parse hp]
  cases hd : s'.compile σ with
  | error e =>
    rw [hd] at hc
    cases hc
  | ok d =>
    rw [hd] at hc
    cases hc
    rfl

/-! ## Strings as they are printed -/

/-- The text is printed for the string `s`: for a literal of a statement, for a value of a program
or for one of a filter. -/
inductive PrintedFor (s : String) : String → Prop
  | literal (t : Token) : PrintedFor s (StringLiteral.text ⟨s, t⟩)
  | value : PrintedFor s (Value.string s).text
  | probe : PrintedFor s (ProbeValue.string s).text

theorem PrintedFor.eq_singleQuoted {s w : String} (h : PrintedFor s w) : w = singleQuoted s := by
  cases h <;> rfl

/-- Quoting loses nothing and cannot be escaped from. What is printed for a string is one token that
stands for the string, and a name between double quotes is one token that is the name; behind either
the lexer stands at the text that follows. So a statement with the printed string in it asks for
just this string. -/
theorem quoting_isLossless (s : String) :
    (∀ w, PrintedFor s w → ∀ (p : Position) (rest : List Char), rest.head? ≠ some '\'' →
      ∃ t, Token.next ⟨p, w.toList ++ rest⟩ = (t, ⟨p.after w.toList, rest⟩) ∧
        t.position = p ∧ t.kind = .string ∧ (StringLiteral.ofToken t).value = s) ∧
    (∀ (p : Position) (rest : List Char), rest.head? ≠ some '"' →
      ∃ t, Token.next ⟨p, (doubleQuoted s).toList ++ rest⟩ =
          (t, ⟨p.after (doubleQuoted s).toList, rest⟩) ∧
        t.position = p ∧ t.kind = .identifier ∧ (Name.ofToken t).text = s) ∧
    ∀ w, PrintedFor s w → ∀ (σ : Schema) (space bin : String),
      Token.LexesAlone Token.isName space → Token.LexesAlone Token.isName bin →
      σ.typeOf? space bin = some .string →
      compile σ ("SELECT * FROM " ++ space ++ " WHERE " ++ bin ++ " = " ++ w) =
        .ok ⟨.allBins, space, none, none,
          some [.bin bin .string, .value (.string s), .equality .equal .string]⟩ := by
  refine ⟨?_, ?_, ?_⟩
  · intro w hw p rest hr
    rw [hw.eq_singleQuoted]
    refine ⟨_, Token.next_singleQuoted s hr p, rfl, rfl, ?_⟩
    simp [StringLiteral.ofToken, unquoted_quoted]
  · intro p rest hr
    exact ⟨_, Token.next_doubleQuoted s hr p, rfl, rfl, rfl⟩
  · intro w hw σ space bin hs hb h
    rw [hw.eq_singleQuoted]
    exact compile_singleQuoted hs hb h s

/-- A string that does what it can to end its quotation. -/
def breakout : String := "'' OR ''=' -- \n/* \x00 WHERE \" */'"

theorem quoting_isLossless_breakout :
    (∃ t, Token.next ⟨.start, (Value.string breakout).text.toList ++ ['"']⟩ =
        (t, ⟨Position.start.after (Value.string breakout).text.toList, ['"']⟩) ∧
      t.position = .start ∧ t.kind = .string ∧ (StringLiteral.ofToken t).value = breakout) ∧
    (∃ t, Token.next ⟨.start, (doubleQuoted breakout).toList ++ ['\'']⟩ =
        (t, ⟨Position.start.after (doubleQuoted breakout).toList, ['\'']⟩) ∧
      t.position = .start ∧ t.kind = .identifier ∧ (Name.ofToken t).text = breakout) ∧
    compile (Schema.empty.add "ns" "list" .string)
        ("SELECT * FROM ns WHERE list = " ++ (Value.string breakout).text) =
      .ok ⟨.allBins, "ns", none, none, some [.bin "list" .string, .value (.string breakout),
        .equality .equal .string]⟩ := by
  have hs : Token.LexesAlone Token.isName "ns" :=
    ⟨⟨.identifier, "ns", .start⟩, by decide +kernel, rfl, rfl⟩
  have hb : Token.LexesAlone Token.isName "list" :=
    ⟨⟨.keyword, "list", .start⟩, by decide +kernel, by decide, rfl⟩
  obtain ⟨hstring, hname, hcompile⟩ := quoting_isLossless breakout
  refine ⟨hstring _ .value .start ['"'] (by decide), hname .start ['\''] (by decide), ?_⟩
  exact hcompile _ .value _ "ns" "list" hs hb (by decide)

end RecordQuery
