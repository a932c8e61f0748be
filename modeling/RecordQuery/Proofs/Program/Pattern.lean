import Mathlib.Data.List.TakeWhile
import RecordQuery.Program.Pattern
import RecordQuery.Proofs.Text.Latin

/-! # How a pattern is cut

A pattern between slashes is cut at the first and at the last of them, whatever stands between, and
the characters behind the last one name its flags (`Pattern.Cut`). The flags are looked for in lower
case, where a capital `İ` is an `i` with a dot, so that one is taken for the name of a flag too, and
nothing else is (`Pattern.cut_ofString_iff`). -/

namespace RecordQuery

open Text

namespace Pattern

/-- The string is `body` between slashes, and `suffix` stands behind the last slash. -/
structure IsDelimited (s body suffix : String) : Prop where
  eq : s = "/" ++ body ++ "/" ++ suffix
  notMem : '/' ∉ suffix.toList

/-- The flags are those that the characters of `suffix` name: letters in either case, and the
question mark. No other character counts. -/
structure NamedBy (suffix : String) (f : PatternFlags) : Prop where
  extended : f.extended = true ↔ 'e' ∈ suffix.toList ∨ 'E' ∈ suffix.toList
  ignoreCase : f.ignoreCase = true ↔ 'i' ∈ suffix.toList ∨ 'I' ∈ suffix.toList
  noSubmatch : f.noSubmatch = true ↔ '?' ∈ suffix.toList
  newline : f.newline = true ↔ ¬ ('s' ∈ suffix.toList ∨ 'S' ∈ suffix.toList)
  unnamed : f.unnamed = 0

/-- The string is cut into the body and the flags of the pattern. Without a slash at its beginning
and another one behind it, the string is the pattern as it is. -/
inductive Cut (s : String) : Pattern → Prop
  | delimited {body suffix : String} {f : PatternFlags} (hs : IsDelimited s body suffix)
    (hf : NamedBy suffix f) : Cut s ⟨body, f⟩
  | whole (hs : ∀ body suffix, ¬ IsDelimited s body suffix) : Cut s ⟨s, plainFlags⟩

/-- A capital `İ` stands behind the last slash of the string, and no other letter for an `i`. -/
def LeansOnDotted (s : String) : Prop :=
  ∃ body suffix, IsDelimited s body suffix ∧
    '\u0130' ∈ suffix.toList ∧ ¬ ('i' ∈ suffix.toList ∨ 'I' ∈ suffix.toList)

/-! ## The last slash -/

theorem splitAtLastSlash_append (body : List Char) {suffix : List Char} (h : '/' ∉ suffix) :
    splitAtLastSlash (body ++ '/' :: suffix) = some (body, suffix) := by
  have hpos : ∀ c ∈ suffix.reverse, (c != '/') = true := by
    intro c hc
    rw [bne_iff_ne]
    rintro rfl
    exact h (List.mem_reverse.mp hc)
  have htake : (body ++ '/' :: suffix).reverse.takeWhile (· != '/') = suffix.reverse := by
    rw [List.reverse_append, List.reverse_cons, List.append_assoc,
      List.takeWhile_append_of_pos hpos]
    exact List.append_nil _
  have hlength : suffix.length ≠ (body ++ '/' :: suffix).length := by
    rw [List.length_append, List.length_cons]
    omega
  have hbefore : (body ++ '/' :: suffix).length - suffix.length - 1 = body.length := by
    rw [List.length_append, List.length_cons]
    omega
  simp only [splitAtLastSlash, htake, List.reverse_reverse, if_neg hlength, hbefore,
    List.take_left']

theorem splitAtLastSlash_of_notMem {cs : List Char} (h : '/' ∉ cs) :
    splitAtLastSlash cs = none := by
  have htake : cs.reverse.takeWhile (· != '/') = cs.reverse := by
    rw [List.takeWhile_eq_self_iff]
    intro c hc
    rw [bne_iff_ne]
    rintro rfl
    exact h (List.mem_reverse.mp hc)
  simp only [splitAtLastSlash, htake, List.reverse_reverse, if_true]

/-- Where a slash is, there is a last one. -/
theorem exists_last_slash {cs : List Char} (h : '/' ∈ cs) :
    ∃ body suffix, cs = body ++ '/' :: suffix ∧ '/' ∉ suffix := by
  obtain ⟨before, after, he, hn⟩ := List.eq_append_cons_of_mem (List.mem_reverse.mpr h)
  refine ⟨after.reverse, before.reverse, ?_, fun hm => hn (List.mem_reverse.mp hm)⟩
  rw [← List.reverse_reverse cs, he]
  simp

variable {s body suffix : String}

theorem IsDelimited.ofString_eq (h : IsDelimited s body suffix) :
    ofString s = ⟨body, flagsOfSuffix suffix.toList⟩ := by
  have hs : s.toList = '/' :: (body.toList ++ '/' :: suffix.toList) := by simp [h.eq]
  simp only [ofString, hs, ofChars, splitAtLastSlash_append _ h.notMem, String.ofList_toList]

theorem IsDelimited.suffix_eq (h : IsDelimited s body suffix) {body' suffix' : String}
    (h' : IsDelimited s body' suffix') : suffix = suffix' := by
  have hcut := splitAtLastSlash_append body.toList h.notMem
  have hcut' := splitAtLastSlash_append body'.toList h'.notMem
  have hs : body.toList ++ '/' :: suffix.toList = body'.toList ++ '/' :: suffix'.toList := by
    simpa using congrArg String.toList (h.eq.symm.trans h'.eq)
  rw [hs, hcut'] at hcut
  exact String.toList_inj.mp (Prod.mk.inj (Option.some.inj hcut)).2.symm

theorem exists_isDelimited_iff : (∃ body suffix, IsDelimited s body suffix) ↔
    ∃ rest, s.toList = '/' :: rest ∧ '/' ∈ rest := by
  constructor
  · rintro ⟨body, suffix, rfl, -⟩
    exact ⟨body.toList ++ '/' :: suffix.toList, by simp, by simp⟩
  · rintro ⟨rest, hs, hrest⟩
    obtain ⟨body, suffix, rfl, hn⟩ := exists_last_slash hrest
    refine ⟨String.ofList body, String.ofList suffix, ?_, by rwa [String.toList_ofList]⟩
    rw [← String.toList_inj, hs]
    simp

theorem ofString_eq_whole (h : ∀ body suffix, ¬ IsDelimited s body suffix) :
    ofString s = ⟨s, plainFlags⟩ := by
  unfold ofString ofChars
  split
  · next rest hs =>
    have hrest : '/' ∉ rest := by
      intro hm
      obtain ⟨body, suffix, hd⟩ := exists_isDelimited_iff.mpr ⟨rest, hs, hm⟩
      exact h body suffix hd
    simp only [splitAtLastSlash_of_notMem hrest, String.ofList_toList]
  · rw [String.ofList_toList]

/-! ## The flags behind it -/

/-- Which characters of a text are found as `d` in lower case. -/
theorem contains_lowercase_iff (cs : List Char) {d : Char} (hd : IsBasicLatin d) (hk : d ≠ 'k')
    (hlower : d.toLower = d) : (cs.flatMap lowercaseChar).contains d = true ↔
      (d ∈ cs ∨ d.toUpper ∈ cs) ∨ d = 'i' ∧ '\u0130' ∈ cs := by
  simp only [List.contains_iff_mem, List.mem_flatMap, mem_lowercaseChar_iff hd,
    toLower_eq_iff hlower, hk, and_false, or_false, and_or_left, exists_or]
  simp [and_comm]

variable (suffix)

/-- The flags that `suffix` names. -/
def namedFlags : PatternFlags :=
  { flagsOfSuffix suffix.toList with
    ignoreCase := suffix.toList.contains 'i' || suffix.toList.contains 'I' }

theorem namedBy_namedFlags : NamedBy suffix (namedFlags suffix) where
  extended := by
    have := contains_lowercase_iff suffix.toList (d := 'e') (by decide) (by decide) rfl
    simpa [namedFlags, flagsOfSuffix] using this
  ignoreCase := by simp [namedFlags]
  noSubmatch := by
    have := contains_lowercase_iff suffix.toList (d := '?') (by decide) (by decide) rfl
    simpa [namedFlags, flagsOfSuffix] using this
  newline := by
    have := contains_lowercase_iff suffix.toList (d := 's') (by decide) (by decide) rfl
    simpa [namedFlags, flagsOfSuffix] using not_congr this
  unnamed := rfl

theorem ignoreCase_flagsOfSuffix : (flagsOfSuffix suffix.toList).ignoreCase = true ↔
    ('i' ∈ suffix.toList ∨ 'I' ∈ suffix.toList) ∨ '\u0130' ∈ suffix.toList := by
  have := contains_lowercase_iff suffix.toList (d := 'i') (by decide) (by decide) rfl
  simpa [flagsOfSuffix] using this

/-- The flags that are found are those that `suffix` names, with one more at most. -/
theorem flagsOfSuffix_eq_or : flagsOfSuffix suffix.toList = namedFlags suffix ∨
    flagsOfSuffix suffix.toList = { namedFlags suffix with ignoreCase := true } := by
  have hset {b : Bool} (hb : (flagsOfSuffix suffix.toList).ignoreCase = b) :
      flagsOfSuffix suffix.toList = { flagsOfSuffix suffix.toList with ignoreCase := b } :=
    congrArg (fun b => { flagsOfSuffix suffix.toList with ignoreCase := b }) hb
  cases hi : (flagsOfSuffix suffix.toList).ignoreCase with
  | true => exact .inr (hset hi)
  | false =>
    left
    have hno : ¬ ('i' ∈ suffix.toList ∨ 'I' ∈ suffix.toList) := by
      intro h
      rw [(ignoreCase_flagsOfSuffix suffix).mpr (.inl h)] at hi
      cases hi
    have hn : (namedFlags suffix).ignoreCase = false :=
      Bool.eq_false_iff.mpr fun h => hno ((namedBy_namedFlags suffix).ignoreCase.mp h)
    exact hset (hi.trans hn.symm)

variable {suffix}

theorem namedBy_flagsOfSuffix_iff : NamedBy suffix (flagsOfSuffix suffix.toList) ↔
    ('\u0130' ∈ suffix.toList → 'i' ∈ suffix.toList ∨ 'I' ∈ suffix.toList) := by
  constructor
  · intro h hdotted
    exact h.ignoreCase.mp ((ignoreCase_flagsOfSuffix suffix).mpr (.inr hdotted))
  · intro h
    have hn := namedBy_namedFlags suffix
    refine ⟨hn.extended, ?_, hn.noSubmatch, hn.newline, hn.unnamed⟩
    rw [ignoreCase_flagsOfSuffix]
    exact ⟨fun hi => hi.elim id h, .inl⟩

/-! ## Cutting -/

theorem Cut.namedBy {p : Pattern} (h : Cut s p) (hs : IsDelimited s body suffix) :
    NamedBy suffix p.flags := by
  cases h with
  | delimited hs' hf => exact hs.suffix_eq hs' ▸ hf
  | whole hno => exact absurd hs (hno body suffix)

/-- A string is cut where its slashes are and gets the flags that are named behind the last one,
unless a capital `İ` alone stands for an `i` there. In all cases it gets the body and the flags that
it asks for, and at most one flag more. -/
theorem cut_ofString_iff (s : String) :
    (Cut s (ofString s) ↔ ¬ LeansOnDotted s) ∧
      ∃ p, Cut s p ∧ (ofString s = p ∨
        ofString s = { p with flags := { p.flags with ignoreCase := true } }) := by
  by_cases hs : ∃ body suffix, IsDelimited s body suffix
  · obtain ⟨body, suffix, hs⟩ := hs
    have heq := hs.ofString_eq
    refine ⟨⟨?_, ?_⟩, ⟨body, namedFlags suffix⟩, .delimited hs (namedBy_namedFlags suffix), ?_⟩
    · rintro hcut ⟨body', suffix', hs', hdotted, hi⟩
      obtain rfl := hs.suffix_eq hs'
      have hf := hcut.namedBy hs
      rw [heq] at hf
      exact hi (namedBy_flagsOfSuffix_iff.mp hf hdotted)
    · intro hleans
      rw [heq]
      refine .delimited hs (namedBy_flagsOfSuffix_iff.mpr fun hdotted => ?_)
      by_contra hi
      exact hleans ⟨body, suffix, hs, hdotted, hi⟩
    · rw [heq]
      rcases flagsOfSuffix_eq_or suffix with hf | hf
      · exact .inl (congrArg (Pattern.mk body) hf)
      · exact .inr (congrArg (Pattern.mk body) hf)
  · have hs : ∀ body suffix, ¬ IsDelimited s body suffix := fun b x h => hs ⟨b, x, h⟩
    have hcut : Cut s ⟨s, plainFlags⟩ := .whole hs
    rw [ofString_eq_whole hs]
    refine ⟨iff_of_true hcut ?_, _, hcut, .inl rfl⟩
    rintro ⟨body, suffix, hd, -⟩
    exact hs body suffix hd

/-- A capital `İ` has the flag for an `i`, though it is none. -/
theorem not_cut_dotted : ofString "/a/\u0130" = ⟨"a", { plainFlags with ignoreCase := true }⟩ ∧
    ¬ Cut "/a/\u0130" (ofString "/a/\u0130") := by
  have hs : IsDelimited "/a/\u0130" "a" "\u0130" := ⟨by decide, by decide⟩
  refine ⟨by decide, fun h => ?_⟩
  exact absurd ((h.namedBy hs).ignoreCase.mp (by decide)) (by decide)

end Pattern

end RecordQuery
