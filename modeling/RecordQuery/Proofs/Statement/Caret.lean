import RecordQuery.Proofs.Statement.Placing
import RecordQuery.Proofs.Text.Lines

/-! # What a caret points at

A diagnostic is shown with the line that it is about and a caret below. The line is that of the
character at which the error was found, and the caret stands right below that character just if no
null character comes before it in its line (`Statement.caret_of_parse`). -/

namespace RecordQuery

open Text

/-- `shown` is a line of text with a caret below, right under the character `c` of it. -/
def PointsAt (shown : String) (c : Char) : Prop :=
  ∃ line n, shown = line ++ "\n" ++ caret n ∧ '\n' ∉ line.toList ∧ line.toList[n]? = some c

variable {source line : String} {d : Diagnostic} {c : Char}

/-! ## Diagnostics in front of their line -/

theorem lineAt?_eq_some {n : Nat} (hn : 0 < n) {l : List Char}
    (h : (lines source.toList)[n - 1]? = some l) : lineAt? source n = some (String.ofList l) := by
  rw [lineAt?, if_neg (Nat.ne_of_gt hn), h]
  rfl

theorem lineFeed_notMem_of_lineAt? {n : Nat} (h : lineAt? source n = some line) :
    '\n' ∉ line.toList := by
  unfold lineAt? at h
  split at h
  · cases h
  · obtain ⟨l, hl, rfl⟩ := Option.map_eq_some_iff.mp h
    rw [String.toList_ofList]
    exact lineFeed_notMem_of_mem_lines (List.mem_of_getElem? hl)

theorem Diagnostic.textIn_eq (h : lineAt? source d.position.line = some line) :
    d.textIn source = d.text ++ "\n" ++ (line ++ "\n" ++ caret (d.position.column - 1)) := by
  simp [textIn, h, String.append_assoc]

theorem Diagnostic.exists_textIn (h : lineAt? source d.position.line = some line)
    (hc : line.toList[d.position.column - 1]? = some c) :
    ∃ shown, d.textIn source = d.text ++ "\n" ++ shown ∧ PointsAt shown c :=
  ⟨_, textIn_eq h, line, _, rfl, lineFeed_notMem_of_lineAt? h, hc⟩

namespace Report

theorem lineFeed_notMem_label (n : Nat) : '\n' ∉ ("Line " ++ toString n ++ ": ").toList := by
  have hd : ∀ c ∈ (toString n).toList, c.isDigit = true := by
    intro c hc
    rw [Nat.toString_eq_repr, Nat.toList_repr] at hc
    exact Nat.isDigit_of_mem_toDigits (by omega) (by omega) hc
  rw [String.toList_append, String.toList_append]
  simp only [List.mem_append, not_or]
  refine ⟨⟨by decide, ?_⟩, by decide⟩
  intro h
  have := hd _ h
  revert this
  decide

theorem excerpt_eq (h : lineAt? source d.position.line = some line) :
    excerpt source d = ("Line " ++ toString d.position.line ++ ": ") ++ line ++ "\n" ++
      caret (("Line " ++ toString d.position.line ++ ": ").length + (d.position.column - 1)) ++
      "\n" := by
  rw [excerpt, h]

theorem exists_excerpt (h : lineAt? source d.position.line = some line)
    (hc : line.toList[d.position.column - 1]? = some c) :
    ∃ shown, excerpt source d = shown ++ "\n" ∧ PointsAt shown c := by
  refine ⟨_, excerpt_eq h, _, _, rfl, ?_, ?_⟩
  · rw [String.toList_append, List.mem_append, not_or]
    exact ⟨lineFeed_notMem_label _, lineFeed_notMem_of_lineAt? h⟩
  · rw [String.toList_append, List.getElem?_append_right (by rw [String.length_toList]; omega),
      String.length_toList, Nat.add_sub_cancel_left]
    exact hc

theorem exists_paragraph (source : String) (n : Nat) (d : Diagnostic) :
    ∃ above below, paragraph source n d = above ++ excerpt source d ++ below := by
  let clause := if d.context = "" then "" else "Clause: " ++ d.context ++ "\n"
  refine ⟨"Error " ++ toString n ++ ": " ++ d.message ++ "\n" ++ clause,
    "Suggestion: " ++ d.suggestion ++ "\n\n", ?_⟩
  unfold paragraph
  simp only [String.append_assoc]
  rfl

theorem exists_paragraphs (source : String) (n : Nat) {ds : List Diagnostic} (hd : d ∈ ds) :
    ∃ above below, paragraphs source n ds = above ++ excerpt source d ++ below := by
  induction ds generalizing n with
  | nil => cases hd
  | cons d' ds ih =>
    cases hd with
    | head =>
      obtain ⟨above, below, h⟩ := exists_paragraph source n d
      refine ⟨above, below ++ paragraphs source (n + 1) ds, ?_⟩
      rw [paragraphs, h, String.append_assoc]
    | tail _ hd =>
      obtain ⟨above, below, h⟩ := ih (n + 1) hd
      refine ⟨paragraph source n d' ++ above, below, ?_⟩
      rw [paragraphs, h]
      simp only [String.append_assoc]

/-- The excerpt of each diagnostic is in the whole report. -/
theorem exists_fullText {r : Report} (hd : d ∈ r.entries) :
    ∃ above below, r.fullText = above ++ excerpt r.source d ++ below := by
  obtain ⟨above, below, h⟩ := exists_paragraphs r.source 1 hd
  have hne : r.isEmpty = false := List.isEmpty_eq_false_iff.mpr (List.ne_nil_of_mem hd)
  refine ⟨"AQL parsing failed with " ++ toString r.length ++ " error(s):\n\n" ++ above, below, ?_⟩
  rw [fullText, hne, if_neg Bool.false_ne_true, h]
  simp only [String.append_assoc]

end Report

/-! ## Errors of a text -/

/-- Every error of a text is shown with the line that it is in. Its column counts the characters
that are before it in that line but for null characters. So, given that there are none of these,
it is the number of the column, and the caret is right below the character at which the error was
found. -/
theorem Statement.caret_of_parse {text : String} {errors : List SyntaxError}
    (h : Statement.parse text = .error errors) {e : SyntaxError} (he : e ∈ errors) {c : Char}
    (hc : text.toList[e.position.offset]? = some c) :
    let before := lineBefore text.toList e.position.offset
    (e.position.column = 1 + before.length ↔ '\x00' ∉ before) ∧
    e.position.column = 1 + (before.filter (· != '\x00')).length ∧
    (∃ rest, lineAt? text e.position.line = some (String.ofList (before ++ c :: rest))) ∧
    ('\x00' ∉ before →
      (∃ shown, e.diagnostic.textIn text = e.diagnostic.text ++ "\n" ++ shown ∧
        PointsAt shown c) ∧
      (∃ shown, Report.excerpt text e.diagnostic = shown ++ "\n" ∧ PointsAt shown c)) ∧
    ∃ above below, (SyntaxError.report text errors).fullText =
      above ++ Report.excerpt text e.diagnostic ++ below := by
  intro before
  have hm := Statement.marksIn_of_parse h e he
  have hb := hm.isBlank c hc
  have hcolumn : e.position.column = 1 + (before.filter (· != '\x00')).length := by
    have := Position.after_column (text.toList.take e.position.offset)
    rwa [← hm.eq_after] at this
  have hline : e.position.line = 1 + (text.toList.take e.position.offset).count '\n' := by
    have := Position.after_line .start (text.toList.take e.position.offset)
    rwa [← hm.eq_after] at this
  have hn : c ≠ '\n' := by
    rintro rfl
    revert hb
    decide
  have hr : c ≠ '\r' := by
    rintro rfl
    revert hb
    decide
  obtain ⟨rest, hrest⟩ := exists_getElem?_lines hc hn hr
  have hat : lineAt? text e.position.line = some (String.ofList (before ++ c :: rest)) := by
    apply lineAt?_eq_some
    · omega
    · rw [hline, Nat.add_sub_cancel_left]
      exact hrest
  have hiff : e.position.column = 1 + before.length ↔ '\x00' ∉ before := by
    rw [hcolumn, Nat.add_left_cancel_iff, List.length_filter_eq_length_iff]
    simp only [bne_iff_ne]
    exact ⟨fun h hz => h _ hz rfl, fun h c hc hz => h (hz ▸ hc)⟩
  refine ⟨hiff, hcolumn, ⟨rest, hat⟩, ?_, ?_⟩
  · intro hz
    have hi : (String.ofList (before ++ c :: rest)).toList[e.position.column - 1]? = some c := by
      rw [hiff.mpr hz, Nat.add_sub_cancel_left, String.toList_ofList]
      simp
    exact ⟨Diagnostic.exists_textIn hat hi, Report.exists_excerpt hat hi⟩
  · exact Report.exists_fullText (List.mem_map_of_mem he)

/-- A statement over four lines, one of them within a pattern, with a null character in a comment
and a string too many at the end. -/
def surplusString : String := "SELECT a\r\n  FROM\tns -- \x00\n WHERE a LIKE 'x\r\ny' 'z'"

theorem Statement.caret_of_parse_surplusString :
    ∃ e, Statement.parse surplusString = .error [e] ∧
      surplusString.toList[e.position.offset]? = some '\'' ∧
      '\x00' ∉ lineBefore surplusString.toList e.position.offset ∧
      e.position.column = 1 + (lineBefore surplusString.toList e.position.offset).length ∧
      ∃ shown, e.diagnostic.textIn surplusString = e.diagnostic.text ++ "\n" ++ shown ∧
        PointsAt shown '\'' := by
  let e : SyntaxError :=
    ⟨.expected .connective ⟨.string, "'z'", ⟨46, 4, 4⟩⟩, ⟨46, 4, 4⟩, some .condition⟩
  have hp : Statement.parse surplusString = .error [e] := by decide +kernel
  have hc : surplusString.toList[e.position.offset]? = some '\'' := by decide
  have hz : '\x00' ∉ lineBefore surplusString.toList e.position.offset := by decide
  obtain ⟨hiff, -, -, hshown, -⟩ := Statement.caret_of_parse hp List.mem_cons_self hc
  exact ⟨e, hp, hc, hz, hiff.mpr hz, (hshown hz).1⟩

/-- A statement with a null character in a string, and a name too many behind it. -/
def nullString : String := "SELECT * FROM ns WHERE a = '\x00' b"

/-- The caret below `nullString` is one column short of the name. -/
theorem Statement.not_caret_nullString :
    ∃ e, Statement.parse nullString = .error [e] ∧
      nullString.toList[e.position.offset]? = some 'b' ∧
      e.position.column ≠ 1 + (lineBefore nullString.toList e.position.offset).length ∧
      e.diagnostic.textIn nullString =
        e.diagnostic.text ++ "\n" ++ nullString ++ "\n" ++ caret (e.position.column - 1) ∧
      nullString.toList[e.position.column - 1]? ≠ some 'b' :=
  ⟨⟨.expected .connective ⟨.identifier, "b", ⟨31, 1, 31⟩⟩, ⟨31, 1, 31⟩, some .condition⟩,
    by decide +kernel, by decide, by decide, by decide +kernel, by decide⟩

end RecordQuery
