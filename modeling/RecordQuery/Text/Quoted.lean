/-! # Quoted text

A text stands between two quote characters, and a quote inside it is written twice. A string
is quoted by `'` and keeps its quotes as part of its spelling; a name is quoted by `"`.

Reading undoes writing (`readQuoted_doubled`), so no text can end its own quotation early. -/

namespace RecordQuery.Text

/-- The text `cs` with every `quote` in it written twice. -/
def doubled (quote : Char) : List Char → List Char
  | [] => []
  | c :: cs => if c = quote then quote :: quote :: doubled quote cs else c :: doubled quote cs

/-- The string `s` as it is written between single quotes. -/
def singleQuoted (s : String) : String :=
  String.ofList ('\'' :: (doubled '\'' s.toList ++ ['\'']))

/-- What is found behind an opening quote: the text meant, the number of characters it takes
with its closing quote, and whether that closing quote is there. -/
structure Quotation where
  content : List Char
  length : Nat
  closed : Bool
deriving DecidableEq

/-- The quotation `q` with one more character in front, written with `width` characters. -/
def Quotation.push (c : Char) (width : Nat) (q : Quotation) : Quotation :=
  ⟨c :: q.content, q.length + width, q.closed⟩

/-- Reads on behind an opening quote, up to the first quote that is not written twice. -/
def readQuoted (quote : Char) : List Char → Quotation
  | [] => ⟨[], 0, false⟩
  | [c] => if c = quote then ⟨[], 1, true⟩ else ⟨[c], 1, false⟩
  | c :: d :: cs =>
    if c = quote then
      if d = quote then (readQuoted quote cs).push quote 2 else ⟨[], 1, true⟩
    else
      (readQuoted quote (d :: cs)).push c 1

/-- The text between the first and the last character, if both of them are quotes. -/
def unquoted (quote : Char) : List Char → List Char
  | c :: d :: cs =>
    if c = quote ∧ (d :: cs).getLast? = some quote then (d :: cs).dropLast else c :: d :: cs
  | cs => cs

/-! ## Reading undoes writing -/

@[simp] theorem doubled_nil (quote : Char) : doubled quote [] = [] := rfl

theorem readQuoted_close {quote : Char} {rest : List Char} (h : rest.head? ≠ some quote) :
    readQuoted quote (quote :: rest) = ⟨[], 1, true⟩ := by
  cases rest with
  | nil => simp [readQuoted]
  | cons d rest => simp_all [readQuoted]

theorem readQuoted_double (quote : Char) (cs : List Char) :
    readQuoted quote (quote :: quote :: cs) = (readQuoted quote cs).push quote 2 := by
  simp [readQuoted]

theorem readQuoted_other {quote c : Char} (h : c ≠ quote) {cs : List Char} (hcs : cs ≠ []) :
    readQuoted quote (c :: cs) = (readQuoted quote cs).push c 1 := by
  cases cs with
  | nil => contradiction
  | cons d cs => simp [readQuoted, h]

/-- A text written with its quotes doubled and closed reads back as itself, and reading stops
right behind the closing quote. -/
theorem readQuoted_doubled (quote : Char) (cs : List Char) {rest : List Char}
    (h : rest.head? ≠ some quote) :
    readQuoted quote (doubled quote cs ++ quote :: rest) =
      ⟨cs, (doubled quote cs).length + 1, true⟩ := by
  induction cs with
  | nil => exact readQuoted_close h
  | cons c cs ih =>
    by_cases hc : c = quote
    · subst hc
      simp [doubled, readQuoted_double, ih, Quotation.push]
    · simp [doubled, hc, readQuoted_other hc, ih, Quotation.push]

theorem readQuoted_length_le (quote : Char) (cs : List Char) :
    (readQuoted quote cs).length ≤ cs.length := by
  fun_induction readQuoted quote cs <;> simp_all [Quotation.push]

/-- What is read of a quotation is its content with the quotes in it written twice, and the closing
quote if there is one. -/
theorem take_readQuoted (quote : Char) (cs : List Char) :
    cs.take (readQuoted quote cs).length =
      doubled quote (readQuoted quote cs).content ++
        bif (readQuoted quote cs).closed then [quote] else [] := by
  fun_induction readQuoted quote cs with
  | case1 => rfl
  | case2 => rfl
  | case3 c hc => simp [doubled, hc]
  | case4 cs ih =>
    simp only [Quotation.push, doubled, if_true, List.take_succ_cons, ih, List.cons_append]
  | case5 d cs hd => rfl
  | case6 c d cs hc ih =>
    simp only [Quotation.push, doubled, hc, if_false, List.take_succ_cons, ih, List.cons_append]

end RecordQuery.Text
