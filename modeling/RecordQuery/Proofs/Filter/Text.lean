import RecordQuery.Proofs.Filter.Clause
import RecordQuery.Proofs.Statement.ClauseTexts

/-! # Filters that are printed and asked again

The text of a filter asks what the filter asks just if the name of its bin needs no quotes and there
are none in its region (`Filter.exists_parse_text_iff`).

If the text asks for the filter, its tokens are as heavy as the text is, so none of them is a quoted
name. And one of them stands for the region, so the text has the region with its quotes written
twice in it, though the filter has written each of them once. -/

namespace RecordQuery

open Text

open Piece (SpelledWithin)

/-! ## Strings of a text -/

/-- A string is written in the text that it is read from. -/
theorem Token.singleQuoted_infix {c : Cursor} {t : Token} (h : t ∈ tokens c)
    (hk : t.kind = .string) :
    (singleQuoted (StringLiteral.ofToken t).value).toList <:+: c.rest := by
  obtain ⟨d, ds, hs, hkind, hlit⟩ := exists_scan_of_mem_tokens h
  have hscan := hasForm_scan d ds
  rw [hkind] at hk
  generalize scan d ds = s at hk hlit hscan
  cases hscan with
  | string hc hclosed =>
    subst hc
    have hv : (StringLiteral.ofToken t).value = String.ofList (readQuoted '\'' ds).content := by
      rw [StringLiteral.ofToken, hlit, unquoted_quoted]
    have htake := take_readQuoted '\'' ds
    rw [hclosed, cond_true] at htake
    rw [hv, singleQuoted, String.toList_ofList, String.toList_ofList, ← htake]
    exact ((List.prefix_cons_inj _).mpr (List.take_prefix _ _)).isInfix.trans hs.isInfix
  | number _ hn => rcases hn with rfl | rfl <;> cases hk
  | @word lit => rcases kindOfWord_eq lit with h | h <;> simp [h] at hk
  | silent h => rcases h with h | ⟨_, h⟩ <;> simp [h] at hk
  | _ => cases hk

theorem count_doubled (quote : Char) (cs : List Char) :
    (doubled quote cs).count quote = 2 * cs.count quote := by
  induction cs with
  | nil => rfl
  | cons c cs ih =>
    by_cases hc : c = quote
    · subst hc
      simp [doubled, ih]
      omega
    · simp [doubled, hc, ih]

theorem count_singleQuoted (s : String) :
    (singleQuoted s).toList.count '\'' = 2 * s.toList.count '\'' + 2 := by
  simp [singleQuoted, count_doubled]

theorem Piece.SpelledWithin.exists_mem {ps : List Piece} {ts : List Token} {p : Piece}
    (h : SpelledWithin ps ts) (hp : p ∈ ps) (hb : p ≠ .blank) : ∃ t ∈ ts, p.SpelledBy t := by
  induction h with
  | nil => cases hp
  | blank _ ih =>
    rcases List.mem_cons.mp hp with rfl | hp
    · exact absurd rfl hb
    · exact ih hp
  | @cons q _ t _ hq _ ih =>
    rcases List.mem_cons.mp hp with rfl | hp
    · exact ⟨t, List.mem_cons_self, hq⟩
    · obtain ⟨u, hu, hpu⟩ := ih hp
      exact ⟨u, List.mem_cons_of_mem _ hu, hpu⟩
  | extra _ ih =>
    obtain ⟨u, hu, hpu⟩ := ih hp
    exact ⟨u, List.mem_cons_of_mem _ hu, hpu⟩

/-! ## The weight of a filter -/

/-- The characters of the string that is asked for. -/
def ProbeValue.chars : ProbeValue → List Char
  | integer _ => []
  | string s => s.toList

/-- The characters of the string or the region that is asked for. -/
def Probe.chars : Probe → List Char
  | equal v | contains v => v.chars
  | range _ _ => []
  | geoContains region | geoWithin region => region.toList

theorem weigh_toString (n : ℤ) : weigh (toString n).toList = 0 := by
  have hd {c : Char} (h : c.isDigit = true) : weight c = 0 := by
    have hall : Token.digits.all (fun c => weight c == 0) = true := by decide
    simpa using List.all_eq_true.mp hall c (Token.mem_digits h)
  have hds (m : Nat) : weigh (Nat.toDigits 10 m) = 0 :=
    weigh_eq_zero fun c hc => hd (Json.isDigit_of_mem_toDigits m c hc)
  rw [Json.toList_toString]
  split
  · exact hds _
  · rw [weigh_cons, hds]
    decide

theorem ProbeValue.weigh_text (v : ProbeValue) : weigh v.text.toList = weigh v.chars := by
  cases v with
  | integer n => exact weigh_toString n.toInt
  | string s => exact Piece.weigh_singleQuoted s

theorem IndexCollection.weigh_text (c : IndexCollection) :
    weigh (if c = .scalar then "" else c.text ++ " ").toList = 0 := by
  cases c <;> decide

/-- All that has a weight in the text of a filter is its bin and the string. -/
theorem Filter.weigh_text (f : Filter) :
    weigh f.text.toList = weigh f.bin.toList + weigh f.probe.chars := by
  have hwords : ∀ w ∈ [" = ", " CONTAINS ", " BETWEEN ", " AND ", " WITHIN ", "CAST('",
      "' AS GEOJSON)"], weigh w.toList = 0 := by decide
  simp only [List.forall_mem_cons] at hwords
  obtain ⟨h₁, h₂, h₃, h₄, h₅, h₆, h₇, -⟩ := hwords
  obtain ⟨bin, c, p⟩ := f
  simp only [text, String.toList_append, weigh_append, IndexCollection.weigh_text]
  cases p <;>
    simp only [Probe.chars, regionText, String.toList_append, weigh_append, weigh_toString,
      ProbeValue.weigh_text, weigh_nil, h₁, h₂, h₃, h₄, h₅, h₆, h₇, Nat.zero_add, Nat.add_zero]

theorem Literal.weigh_chars_le {l : Literal} {v : ProbeValue} (h : l.probeValue = .ok v) :
    weigh v.chars ≤ weigh (l.pieces.flatMap Piece.text) := by
  cases l with
  | number n =>
    obtain ⟨m, -, rfl⟩ := map_eq_ok_iff.mp h
    exact Nat.zero_le _
  | string s =>
    cases h
    simp [pieces, Piece.text, Piece.weigh_singleQuoted, ProbeValue.chars]

theorem IndexArgument.AsksFor.weigh_chars_le {r : IndexLookup} {a : IndexArgument} {p : Probe}
    (h : AsksFor r a p) : weigh p.chars ≤ weigh ((a.pieces r).flatMap Piece.text) := by
  cases h with
  | equal hl | contains hl =>
    have := Literal.weigh_chars_le hl
    simp only [pieces, Probe.chars, List.flatMap_cons, weigh_append]
    omega
  | range => exact Nat.zero_le _
  | geoContains | geoWithin =>
    simp only [pieces, Cast.pieces, Probe.chars, List.flatMap_cons, weigh_append, Piece.text,
      Piece.weigh_singleQuoted]
    omega

/-- The clause that the filter is compiled from is no lighter than the filter. -/
theorem IndexClause.weigh_text_le {e : IndexClause} {f : Filter} (hf : e.filter = .ok f) :
    weigh f.text.toList ≤ weigh (e.pieces.flatMap Piece.text) := by
  obtain ⟨hb, -, hp⟩ := filter_eq_ok_iff.mp hf
  have := hp.weigh_chars_le
  rw [f.weigh_text, hb, pieces]
  split <;> simp only [List.flatMap_cons, weigh_append, Piece.text] <;> omega

/-! ## What is read of the text of a filter -/

theorem IndexArgument.AsksFor.string_mem_pieces {r : IndexLookup} {a : IndexArgument} {p : Probe}
    {region : String} (h : AsksFor r a p) (hr : p.region? = some region) :
    .string region ∈ a.pieces r := by
  cases h with
  | geoContains | geoWithin =>
    cases hr
    simp [pieces, Cast.pieces]
  | _ => cases hr

theorem IndexClause.mem_pieces {e : IndexClause} {p : Piece}
    (h : p ∈ .name e.bin.text :: .blank :: e.operand.pieces e.relation) : p ∈ e.pieces := by
  unfold pieces
  split
  · exact List.mem_cons_of_mem _ (List.mem_cons_of_mem _ h)
  · exact h

theorem Token.IsWord.apostrophe_notMem {cs : List Char} (h : IsWord cs) : '\'' ∉ cs := by
  obtain ⟨c, ds, rfl, hc, hds⟩ := h
  rintro (_ | ⟨_, hd⟩)
  · exact absurd hc (by decide)
  · exact absurd (hds _ hd) (by decide)

namespace Filter

variable {e : IndexClause} {f : Filter}

/-- If the text of a filter asks for it, there are the pieces of a clause that does among the
tokens. -/
theorem exists_spelledWithin_of_parse {s : Statement} {text : String}
    (hp : Statement.parse ("SELECT * FROM ns WITH " ++ text) = .ok s)
    (hf : s.filter = .ok (some f)) :
    ∃ e : IndexClause, e.filter = .ok f ∧ SpelledWithin e.pieces (Token.visible text) := by
  obtain ⟨s', hb, vs, us, xs, hvs, -, -, hts⟩ :=
    Statement.exists_spelledBy_of_parse_star (.inl rfl) hp
  obtain ⟨e, he, hf⟩ := Statement.filter_eq_ok_some_iff.mp
    ((Statement.filter_eq_ok_iff_of_bare_eq hb).mpr hf)
  rw [he] at hvs
  cases hvs with | @some word _ ts hw hts' =>
  obtain ⟨-, hts⟩ := List.cons.inj hts
  have hn := Statement.numbersAlone_tokens (.ofString text)
  refine ⟨e, hf, ?_⟩
  rw [hts]
  refine ((hts'.within fun t ht => hn t ?_).append_right us).append_right xs
  change t ∈ Token.visible text
  simp [hts, ht]

theorem isIndexRelation_of_identifier {t : Token} (hb : Token.LexesAlone Token.isName f.bin)
    (ht : Token.tokens (.ofString f.bin) = [t]) (hk : t.kind = .identifier) :
    Name.isIndexRelation ⟨f.bin, .forgotten⟩ = false := by
  have hword := Token.tokens_of_isWord (Token.lexesAlone_isName_iff.mp hb).1
  obtain rfl := List.singleton_injective (ht.symm.trans hword)
  have hn : Keyword.ofText? f.bin = none := by
    simpa [Token.kindOfWord] using hk
  simp [Name.isIndexRelation, hn]

theorem lexesAlone_bin (hf : e.filter = .ok f)
    (hw : SpelledWithin e.pieces (Token.visible f.text)) :
    Token.LexesAlone Token.isName f.bin := by
  obtain ⟨hle, hu⟩ := Token.weigh_tokens (.ofString f.text)
  have htext := IndexClause.weigh_text_le hf
  have hwhole := hw.whole (hle.trans htext) (hu (htext.trans hw.weigh_le))
    (Statement.numbersAlone_tokens _)
  rw [(IndexClause.filter_eq_ok_iff.mp hf).1]
  exact hwhole (.name e.bin.text) (IndexClause.mem_pieces List.mem_cons_self)

theorem count_text {r : String} (hb : '\'' ∉ f.bin.toList) (hr : f.probe.region? = some r) :
    f.text.toList.count '\'' = r.toList.count '\'' + 2 := by
  have hb := List.count_eq_zero.mpr hb
  have hc (c : IndexCollection) :
      (if c = .scalar then "" else c.text ++ " ").toList.count '\'' = 0 := by
    cases c <;> decide
  have hcontains : " CONTAINS ".toList.count '\'' = 0 := by decide
  have hwithin : " WITHIN ".toList.count '\'' = 0 := by decide
  have hopen : "CAST('".toList.count '\'' = 1 := by decide
  have hclose : "' AS GEOJSON)".toList.count '\'' = 1 := by decide
  obtain ⟨bin, c, p⟩ := f
  cases p with
  | geoContains s | geoWithin s =>
    cases hr
    simp only [text, regionText, String.toList_append, List.count_append, hc, hb, hcontains,
      hwithin, hopen, hclose]
    omega
  | _ => cases hr

/-- A region with quotes is not found in the text, where they would have to be doubled. -/
theorem notMem_region (hf : e.filter = .ok f) (hb : '\'' ∉ f.bin.toList)
    (hw : SpelledWithin e.pieces (Token.visible f.text)) :
    ∀ r ∈ f.probe.region?, '\'' ∉ r.toList := by
  intro r hr
  have hpiece : .string r ∈ e.operand.pieces e.relation :=
    (IndexClause.filter_eq_ok_iff.mp hf).2.2.string_mem_pieces hr
  obtain ⟨t, ht, hk, rfl⟩ := hw.exists_mem (IndexClause.mem_pieces
    (List.mem_cons_of_mem _ (List.mem_cons_of_mem _ hpiece))) nofun
  have hinfix := Token.singleQuoted_infix (List.mem_of_mem_filter ht) hk
  have hcount := hinfix.sublist.count_le '\''
  rw [count_singleQuoted, Cursor.ofString, count_text hb hr] at hcount
  exact List.count_eq_zero.mp (by omega)

/-- Printing and asking again: the text of a filter whose bin has the name of one identifier asks
what the filter asks, just if the name is spelled as the identifier and no quotes are in the
region. -/
theorem exists_parse_text_iff {t : Token} (hf : e.filter = .ok f)
    (ht : Token.tokens (.ofString f.bin) = [t]) (hk : t.kind = .identifier) :
    (∃ s, Statement.parse ("SELECT * FROM ns WITH " ++ f.text) = .ok s ∧
        s.filter = .ok (some f)) ↔
      t.literal = f.bin ∧ ∀ r ∈ f.probe.region?, '\'' ∉ r.toList := by
  constructor
  · rintro ⟨s, hp, hs⟩
    obtain ⟨e', hf', hw⟩ := exists_spelledWithin_of_parse hp hs
    have hb := lexesAlone_bin hf' hw
    have hword := (Token.lexesAlone_isName_iff.mp hb).1
    obtain ⟨u, hu, -, hl⟩ := hb
    obtain rfl : t = u := List.singleton_injective (ht.symm.trans hu)
    exact ⟨hl, notMem_region hf' hword.apostrophe_notMem hw⟩
  · rintro ⟨hl, hq⟩
    have hb : Token.LexesAlone Token.isName f.bin := ⟨t, ht, by simp [Token.isName, hk], hl⟩
    rw [← text_clause hq]
    exact exists_parse_clause hf hb (isIndexRelation_of_identifier hb ht hk)

/-- The clause asks for the keys of a map in a range from the least word on. -/
def leastKeys : IndexClause :=
  ⟨some .mapKeys, ⟨"m", .forgotten⟩, .between,
    .between ⟨⟨"-9223372036854775808", .forgotten⟩, ⟨"1.99e1", .forgotten⟩, .forgotten⟩, .forgotten⟩

theorem exists_parse_text_leastKeys :
    leastKeys.filter = .ok ⟨"m", .mapKeys, .range Int64.minValue 19⟩ ∧
      ∃ s, Statement.parse
          "SELECT * FROM ns WITH MAPKEYS m BETWEEN -9223372036854775808 AND 19" = .ok s ∧
        s.filter = .ok (some ⟨"m", .mapKeys, .range Int64.minValue 19⟩) := by
  have hf : leastKeys.filter = .ok ⟨"m", .mapKeys, .range Int64.minValue 19⟩ := by
    decide +kernel
  have ht : Token.tokens (.ofString "m") = [⟨.identifier, "m", .start⟩] := by decide +kernel
  exact ⟨hf, (exists_parse_text_iff hf ht rfl).mpr ⟨rfl, nofun⟩⟩

/-- A statement that asks for the points of a region with a quote in it. -/
def quotedRegion : Statement :=
  ⟨.star, ⟨⟨"ns", ⟨.identifier, "ns", ⟨14, 1, 15⟩⟩⟩, none⟩,
    some ⟨none, ⟨"gj", ⟨.identifier, "gj", ⟨22, 1, 23⟩⟩⟩, .within,
      .cast ⟨⟨"a'b", ⟨.string, "'a'b'", ⟨37, 1, 38⟩⟩⟩, "GEOJSON", ⟨.keyword, "CAST", ⟨32, 1, 33⟩⟩⟩,
      ⟨.identifier, "gj", ⟨22, 1, 23⟩⟩⟩,
    none, ⟨.keyword, "SELECT", .start⟩⟩

/-- The text of its filter is not read. -/
theorem not_exists_parse_text_quotedRegion :
    Statement.parse "SELECT * FROM ns WITH gj WITHIN CAST('a''b' AS GEOJSON)" = .ok quotedRegion ∧
      Token.tokens (.ofString "gj") = [⟨.identifier, "gj", .start⟩] ∧
      ∃ f, quotedRegion.filter = .ok (some f) ∧ f.bin = "gj" ∧
        f.text = "gj WITHIN CAST('a'b' AS GEOJSON)" ∧
        ∀ s, Statement.parse ("SELECT * FROM ns WITH " ++ f.text) ≠ .ok s :=
  ⟨eq_ok_of_toOption (by decide +kernel), by decide +kernel,
    ⟨"gj", .scalar, .geoWithin "a'b"⟩, rfl, rfl, by decide +kernel,
    Statement.ne_ok_of_isOk (by decide +kernel)⟩

end Filter

end RecordQuery
