import RecordQuery.ParticleType
import RecordQuery.Proofs.Statement.Parsing.Literal
import RecordQuery.Proofs.Text.Latin

/-! # Names in any case

A keyword, the name of a fact and the name of a type may be written in any case. Keywords and facts
are matched in any case of their Latin letters and in no other spelling. The names of types, of the
parts that an index is built over and of the type of a cast are folded with the full mapping. They
are matched in any case of their Latin letters as well, and also where some of these letters are
written with a character that stands for Latin letters in upper case only (`foldsNames_types`). -/

namespace RecordQuery

open Text TokenReader

/-- The texts differ in the case of Latin letters at most. -/
def SameButCase (s t : String) : Prop := asciiUpper s = asciiUpper t

/-- The text is one of the names, in any case of the Latin letters. -/
def Named (names : List String) (s : String) : Prop := ∃ n ∈ names, SameButCase s n

/-- The text becomes one of the names only when its characters that stand for Latin letters are
written out. -/
def Disguised (names : List String) (s : String) : Prop :=
  Named names (latinized s) ∧ latinized s ≠ s

instance (s t : String) : Decidable (SameButCase s t) := inferInstanceAs (Decidable (_ = _))

instance (names : List String) (s : String) : Decidable (Named names s) :=
  inferInstanceAs (Decidable (∃ n ∈ names, SameButCase s n))

instance (names : List String) (s : String) : Decidable (Disguised names s) :=
  inferInstanceAs (Decidable (_ ∧ _))

/-- The text passes just if it is one of the names, unless it is disguised as one of them. Then it
passes although it is none. -/
structure FoldsNames (passes : Prop) (names : List String) (s : String) : Prop where
  passes_iff : (passes ↔ Named names s) ↔ ¬ Disguised names s
  of_disguised : Disguised names s → passes

/-! ## Names in capitals -/

/-- The names are in upper case and in Latin letters. -/
def AreCapitals (names : List String) : Prop :=
  ∀ n ∈ names, asciiUpper n = n ∧ ∀ d ∈ n.toList, IsBasicLatin d

instance (names : List String) : Decidable (AreCapitals names) :=
  decidable_of_iff (names.all fun n => asciiUpper n = n ∧ n.toList.all (IsBasicLatin ·))
    (by simp [AreCapitals])

namespace AreCapitals

variable {names : List String} {s : String}

theorem named_iff (hn : AreCapitals names) : Named names s ↔ asciiUpper s ∈ names := by
  constructor
  · rintro ⟨n, hmem, h⟩
    have h : asciiUpper s = n := h.trans (hn n hmem).1
    exact h ▸ hmem
  · exact fun h => ⟨_, h, (hn _ h).1.symm⟩

theorem latinized_eq_self (hn : AreCapitals names) (h : Named names s) : latinized s = s :=
  Text.latinized_eq_self (hn _ (hn.named_iff.mp h)).2 rfl

/-- What the full mapping folds to a name is a name once it is written out. -/
theorem uppercase_mem_iff (hn : AreCapitals names) :
    uppercase s ∈ names ↔ Named names (latinized s) := by
  rw [hn.named_iff]
  constructor
  · intro h
    rw [(uppercase_eq_iff (hn _ h).2).mp rfl]
    exact h
  · intro h
    rw [(uppercase_eq_iff (hn _ h).2).mpr rfl]
    exact h

theorem foldsNames (hn : AreCapitals names) {passes : Prop} (hp : passes ↔ uppercase s ∈ names) :
    FoldsNames passes names s := by
  have hpasses : passes ↔ Named names (latinized s) := hp.trans hn.uppercase_mem_iff
  refine ⟨?_, fun h => hpasses.mpr h.1⟩
  constructor
  · rintro h ⟨hlatin, hne⟩
    exact hne (hn.latinized_eq_self (h.mp (hpasses.mpr hlatin)))
  · intro hno
    rw [hpasses]
    constructor
    · intro h
      by_cases hs : latinized s = s
      · rwa [hs] at h
      · exact absurd ⟨h, hs⟩ hno
    · intro h
      rwa [hn.latinized_eq_self h]

end AreCapitals

/-! ## Types, parts, keywords and facts -/

/-- The names of all types. -/
def typeNames : List String :=
  ["INTEGER", "INT", "LONG", "DOUBLE", "FLOAT", "STRING", "TEXT", "GEOJSON", "MAP", "LIST"]

/-- The names of the parts that an index is built over. -/
def partNames : List String := ["DEFAULT", "LIST", "MAPKEYS", "MAPVALUES"]

/-- The names of the facts about a record. -/
def factNames : List String := ["DIGEST", "LUT", "RECSIZE", "TTL"]

theorem isSome_find?_text {α : Type} (text : α → String) (all : List α) (s : String) :
    (all.find? fun a => text a == s).isSome = true ↔ s ∈ all.map text := by
  simp only [List.find?_isSome, beq_iff_eq, List.mem_map]

theorem ParticleType.isSome_ofText? (s : String) :
    (ParticleType.ofText? s).isSome = true ↔ uppercase s ∈ typeNames := by
  rw [show typeNames = all.flatMap names from rfl, List.mem_flatMap]
  simp only [ofText?, List.find?_isSome, List.contains_iff_mem]

/-- Names of types and of parts of a bin, and the name of the type of a cast that is read, are
folded with the full mapping. Keywords and facts are folded with that of the Latin letters. -/
theorem foldsNames_types (s : String) (r r' : TokenReader) (c : Cast) :
    FoldsNames (ParticleType.ofText? s).isSome typeNames s ∧
    FoldsNames (IndexCollection.ofText? s).isSome partNames s ∧
    (Parse.Reads Parse.cast r c r' → ∃ cast opening value as type closing : Token,
      r.Takes [cast, opening, value, as, type, closing] r' ∧ type.isName = true ∧
        FoldsNames c.isGeoJson ["GEOJSON"] type.literal) ∧
    ((Keyword.ofText? s).isSome ↔ Named (Keyword.all.map Keyword.text) s) ∧
    ((MetadataName.ofText? s).isSome ↔ Named factNames s) := by
  refine ⟨?_, ?_, ?_, ?_, ?_⟩
  · exact AreCapitals.foldsNames (by decide) (ParticleType.isSome_ofText? s)
  · exact AreCapitals.foldsNames (by decide) (isSome_find?_text _ _ _)
  · intro h
    obtain ⟨ts, hc, ht⟩ := Parse.reads_cast.mp h
    cases hc with
    | mk _ _ _ _ hname =>
      refine ⟨_, _, _, _, _, _, ht, hname, AreCapitals.foldsNames (by decide) ?_⟩
      simp [Cast.isGeoJson]
  · rw [AreCapitals.named_iff (by decide)]
    exact isSome_find?_text _ _ _
  · rw [AreCapitals.named_iff (by decide)]
    exact isSome_find?_text _ _ _

/-- A reader before a cast whose type is written with `ſ`. -/
def longReader : TokenReader := .ofString "WITHIN CAST('p' AS GeoJ\u017fON)"

/-- The cast that is read there. -/
def longCast : Cast :=
  ⟨⟨"p", ⟨.string, "'p'", ⟨12, 1, 13⟩⟩⟩, "GEOJSON", ⟨.keyword, "CAST", ⟨7, 1, 8⟩⟩⟩

theorem foldsNames_types_longCast :
    Parse.Reads Parse.cast longReader longCast (Parse.cast longReader).next ∧
      ∃ cast opening value as type closing : Token,
        longReader.Takes [cast, opening, value, as, type, closing] (Parse.cast longReader).next ∧
          type.isName = true ∧ FoldsNames longCast.isGeoJson ["GEOJSON"] type.literal := by
  have hread : Parse.Reads Parse.cast longReader longCast (Parse.cast longReader).next :=
    ⟨by decide +kernel, rfl⟩
  obtain ⟨-, -, hcast, -⟩ := foldsNames_types "GeoJ\u017fON" _ _ _
  exact ⟨hread, hcast hread⟩

/-- With `ſ` for an `s` these are no names of a type or of a part in any case of the Latin letters,
but they pass. -/
theorem not_named_longS :
    ¬ ((ParticleType.ofText? "\u017ftring").isSome ↔ Named typeNames "\u017ftring") ∧
      ¬ ((IndexCollection.ofText? "mapkey\u017f").isSome ↔ Named partNames "mapkey\u017f") ∧
      (Parse.cast longReader).value = some longCast ∧
      ¬ (longCast.isGeoJson ↔ Named ["GEOJSON"] "GeoJ\u017fON") := by
  decide +kernel

end RecordQuery
