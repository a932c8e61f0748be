import Mathlib.Data.List.Basic
import RecordQuery.Text.Lowercase

/-! # Latin letters in the other case

Some characters outside the first 128 become Latin letters when they are folded. In lower case these
are the capital `İ` and the sign for Kelvin (`mem_lowercaseChar_iff`). In upper case they are `ß`,
`ı`, `ſ` and seven ligatures: a text is folded to Latin letters just if its own Latin letters are,
once these characters are written out (`uppercase_eq_iff`). -/

namespace RecordQuery.Text

/-- The character is one of the first 128, and not the one that stands for none. -/
def IsBasicLatin (c : Char) : Prop := 0 < c.toNat ∧ c.toNat < 128

instance (c : Char) : Decidable (IsBasicLatin c) := inferInstanceAs (Decidable (_ ∧ _))

theorem not_isBasicLatin_ofNat {n : Nat} (hn : 128 ≤ n) : ¬ IsBasicLatin (Char.ofNat n) := by
  rintro ⟨h₀, h⟩
  by_cases hv : n.isValidChar
  · rw [Char.ofNat, dif_pos hv] at h
    exact absurd h (Nat.not_lt.mpr hn)
  · rw [Char.ofNat, dif_neg hv] at h₀
    exact absurd h₀ (by decide)

/-! ## The first 128 characters -/

theorem toLower_eq_self {c : Char} (h : 128 ≤ c.toNat) : c.toLower = c := by
  rw [← Char.toNat_inj, toNat_toLower, if_neg (by omega)]

theorem toUpper_eq_self_of_le {c : Char} (h : 128 ≤ c.toNat) : c.toUpper = c := by
  rw [← Char.toNat_inj, toNat_toUpper, if_neg (by omega)]

/-- What becomes a character in lower case is the character itself or its capital. -/
theorem toLower_eq_iff {c d : Char} (hd : d.toLower = d) :
    c.toLower = d ↔ c = d ∨ c = d.toUpper := by
  rw [← Char.toNat_inj, toNat_toLower] at hd ⊢
  rw [← Char.toNat_inj, ← Char.toNat_inj, toNat_toUpper]
  split at hd <;> split <;> split <;> omega

/-! ## Lower case -/

/-- No other code point of the table than that of the Kelvin sign has a Latin letter as its form. -/
theorem target_of_mem_lowercaseRuns : ∀ run ∈ lowercaseRuns,
    128 ≤ run.target ∨ run.first = 0x212a ∧ run.last = 0x212a := by
  decide +kernel

theorem not_isBasicLatin_of_mem_lowercaseChar {c d : Char} (hc : 128 ≤ c.toNat)
    (hdotted : c ≠ '\u0130') (hkelvin : c ≠ '\u212a') (h : d ∈ lowercaseChar c) :
    ¬ IsBasicLatin d := by
  rw [lowercaseChar, if_neg (Nat.not_lt.mpr hc), if_neg hdotted] at h
  split at h
  · next form hf =>
    obtain ⟨run, hrun, hf⟩ := List.exists_of_findSome?_eq_some hf
    obtain ⟨⟨h₁, h₂, -⟩, rfl⟩ := CaseRun.form?_eq_some_iff.mp hf
    rw [List.mem_singleton.mp h]
    rcases target_of_mem_lowercaseRuns run hrun with htarget | ⟨hfirst, hlast⟩
    · exact not_isBasicLatin_ofNat (by omega)
    · have hn : c.toNat = 0x212a := by omega
      exact absurd (Char.toNat_inj.mp hn) hkelvin
  · rw [List.mem_singleton.mp h]
    exact fun hd => absurd hd.2 (Nat.not_lt.mpr hc)

/-- Beside the capitals, `İ` and the Kelvin sign have Latin letters in their lower-case forms. -/
theorem mem_lowercaseChar_iff {c d : Char} (hd : IsBasicLatin d) :
    d ∈ lowercaseChar c ↔
      c.toLower = d ∨ c = '\u0130' ∧ d = 'i' ∨ c = '\u212a' ∧ d = 'k' := by
  by_cases hc : c.toNat < 128
  · have hdotted : c ≠ '\u0130' := by rintro rfl; exact absurd hc (by decide)
    have hkelvin : c ≠ '\u212a' := by rintro rfl; exact absurd hc (by decide)
    simp [lowercaseChar, hc, hdotted, hkelvin, eq_comm]
  · have hc : 128 ≤ c.toNat := Nat.not_lt.mp hc
    have hne : c ≠ d := by
      rintro rfl
      exact absurd hd.2 (Nat.not_lt.mpr hc)
    rw [toLower_eq_self hc]
    by_cases hdotted : c = '\u0130'
    · have hdot : d ≠ '\u0307' := by rintro rfl; exact absurd hd (by decide)
      subst hdotted
      simp [show lowercaseChar '\u0130' = ['i', '\u0307'] by decide, hne, hdot]
    by_cases hkelvin : c = '\u212a'
    · subst hkelvin
      simp [show lowercaseChar '\u212a' = ['k'] by decide, hne]
    refine iff_of_false (fun h => ?_) (by simp [hne, hdotted, hkelvin])
    exact not_isBasicLatin_of_mem_lowercaseChar hc hdotted hkelvin h hd

/-! ## Upper case -/

/-- The characters that are no Latin letters and have such letters only in their upper-case forms,
each with the letters that it is written out with. -/
def latinForms : List (Char × List Char) :=
  [('ß', ['s', 's']), ('ı', ['i']), ('ſ', ['s']), ('\ufb00', ['f', 'f']), ('\ufb01', ['f', 'i']),
  ('\ufb02', ['f', 'l']), ('\ufb03', ['f', 'f', 'i']), ('\ufb04', ['f', 'f', 'l']),
  ('\ufb05', ['s', 't']), ('\ufb06', ['s', 't'])]

/-- The character, written out with Latin letters if they are its upper-case form. -/
def latinChar (c : Char) : List Char := (latinForms.lookup c).getD [c]

/-- The text with such characters written out. -/
def latinized (s : String) : String := String.ofList (s.toList.flatMap latinChar)

theorem latinChar_eq_self {c : Char} (h : ∀ e ∈ latinForms, e.1 ≠ c) : latinChar c = [c] := by
  have hl : latinForms.lookup c = none :=
    List.lookup_eq_none_iff.mpr fun e he => bne_iff_ne.mpr (h e he).symm
  rw [latinChar, hl, Option.getD_none]

theorem latinChar_of_lt {c : Char} (h : c.toNat < 128) : latinChar c = [c] := by
  refine latinChar_eq_self ?_
  rintro e he rfl
  have hforms : ∀ e ∈ latinForms, 128 ≤ e.1.toNat := by decide
  exact absurd h (Nat.not_lt.mpr (hforms e he))

theorem uppercaseChar_of_mem_latinForms : ∀ e ∈ latinForms,
    uppercaseChar e.1 = (latinChar e.1).map Char.toUpper := by
  decide +kernel

/-- Only written-out characters have several code points with Latin letters only as their form. -/
theorem latin_of_mem_uppercaseExpansions : ∀ e ∈ uppercaseExpansions,
    (∃ n ∈ e.2, 128 ≤ n) ∨ ∃ f ∈ latinForms, f.1.toNat = e.1 := by
  decide +kernel

/-- Only written-out characters have one code point that is a Latin letter as their form. -/
theorem latin_of_mem_uppercaseRuns : ∀ run ∈ uppercaseRuns,
    128 ≤ run.target ∨ run.first = run.last ∧ ∃ f ∈ latinForms, f.1.toNat = run.first := by
  decide +kernel

/-- A character that is not written out has a form with other characters than Latin letters. -/
theorem exists_not_isBasicLatin {c : Char} (hc : 128 ≤ c.toNat) (hf : ∀ e ∈ latinForms, e.1 ≠ c) :
    ∃ d ∈ uppercaseChar c, ¬ IsBasicLatin d := by
  have hno (n : Nat) (hn : c.toNat = n) : ¬ ∃ f ∈ latinForms, f.1.toNat = n := by
    rintro ⟨f, hmem, hfn⟩
    exact hf f hmem (Char.toNat_inj.mp (hfn.trans hn.symm))
  rw [uppercaseChar, if_neg (Nat.not_lt.mpr hc)]
  split
  · next forms hforms =>
    obtain ⟨before, after, he, -⟩ := List.lookup_eq_some_iff.mp hforms
    have hm : (c.toNat, forms) ∈ uppercaseExpansions := by simp [he]
    obtain ⟨n, hn, hle⟩ := (latin_of_mem_uppercaseExpansions _ hm).resolve_right (hno _ rfl)
    exact ⟨_, List.mem_map_of_mem hn, not_isBasicLatin_ofNat hle⟩
  split
  · next form hform =>
    obtain ⟨run, hrun, hform⟩ := List.exists_of_findSome?_eq_some hform
    obtain ⟨⟨h₁, h₂, -⟩, rfl⟩ := CaseRun.form?_eq_some_iff.mp hform
    refine ⟨_, List.mem_singleton_self _, ?_⟩
    rcases latin_of_mem_uppercaseRuns run hrun with htarget | ⟨hlast, hlatin⟩
    · exact not_isBasicLatin_ofNat (by omega)
    · exact absurd hlatin (hno _ (by omega))
  · exact ⟨c, List.mem_singleton_self _, fun hd => absurd hd.2 (Nat.not_lt.mpr hc)⟩

theorem uppercaseChar_eq_or (c : Char) :
    uppercaseChar c = (latinChar c).map Char.toUpper ∨
      (∃ d ∈ uppercaseChar c, ¬ IsBasicLatin d) ∧
        ∃ d ∈ (latinChar c).map Char.toUpper, ¬ IsBasicLatin d := by
  by_cases hc : c.toNat < 128
  · left
    rw [uppercaseChar_of_lt hc, latinChar_of_lt hc]
    rfl
  have hc : 128 ≤ c.toNat := Nat.not_lt.mp hc
  by_cases hf : ∃ e ∈ latinForms, e.1 = c
  · obtain ⟨e, he, rfl⟩ := hf
    exact .inl (uppercaseChar_of_mem_latinForms e he)
  · have hf : ∀ e ∈ latinForms, e.1 ≠ c := fun e he h => hf ⟨e, he, h⟩
    refine .inr ⟨exists_not_isBasicLatin hc hf, c, ?_, fun hd => absurd hd.2 (Nat.not_lt.mpr hc)⟩
    rw [latinChar_eq_self hf, List.map_singleton, toUpper_eq_self_of_le hc]
    exact List.mem_singleton_self c

/-- A text is folded to Latin letters by the full mapping just if it is so by the mapping of the
Latin letters once it is written out. -/
theorem uppercase_eq_iff {s t : String} (ht : ∀ d ∈ t.toList, IsBasicLatin d) :
    uppercase s = t ↔ asciiUpper (latinized s) = t := by
  rw [uppercase, asciiUpper, latinized, String.toList_ofList, List.map_flatMap]
  by_cases hall : ∀ c ∈ s.toList, uppercaseChar c = (latinChar c).map Char.toUpper
  · rw [List.flatMap_congr hall]
  · obtain ⟨c, hc, hne⟩ := not_forall₂.mp hall
    obtain ⟨⟨d, hd, hdn⟩, d', hd', hdn'⟩ := (uppercaseChar_eq_or c).resolve_left hne
    refine iff_of_false ?_ ?_
    · rintro rfl
      rw [String.toList_ofList] at ht
      exact hdn (ht d (List.mem_flatMap.mpr ⟨c, hc, hd⟩))
    · rintro rfl
      rw [String.toList_ofList] at ht
      exact hdn' (ht d' (List.mem_flatMap.mpr ⟨c, hc, hd'⟩))

/-- Nothing is written out in a text of Latin letters. -/
theorem latinized_eq_self {s t : String} (ht : ∀ d ∈ t.toList, IsBasicLatin d)
    (h : asciiUpper s = t) : latinized s = s := by
  have hlatin (c : Char) (hc : c ∈ s.toList) : latinChar c = [c] := by
    by_cases hlt : c.toNat < 128
    · exact latinChar_of_lt hlt
    · have hu := toUpper_eq_self_of_le (Nat.not_lt.mp hlt)
      rw [← h, asciiUpper, String.toList_ofList] at ht
      exact absurd (hu ▸ ht _ (List.mem_map_of_mem hc)).2 hlt
  rw [latinized, List.flatMap_congr hlatin, List.flatMap_singleton', String.ofList_toList]

end RecordQuery.Text
