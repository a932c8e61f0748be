import Mathlib.Data.List.TakeWhile
import RecordQuery.Program.PatternFlags

/-! # Flags that are written and read again

The text of a set of flags has the names of the flags, with bars between them, and behind them the
flags without a name as one number. It is read piece by piece, and the pieces are the names again
(`PatternFlags.map_trim_pieces`), so it is read as the same set (`PatternFlags.ofText?_text`). -/

namespace RecordQuery

open Text

theorem Text.trim_ne_nil {c : Char} (hc : isBlank c = false) (cs : List Char) :
    trim (c :: cs) ≠ [] := by
  intro h
  rw [trim, List.dropWhile_cons_of_neg (by simp [hc]), List.reverse_eq_nil_iff,
    List.dropWhile_eq_nil_iff] at h
  have := h c (by simp)
  rw [hc] at this
  cases this

namespace PatternFlags

/-! ## Pieces -/

/-- The text can stand between bars: it has neither bars nor blanks. -/
def IsPiece (cs : List Char) : Prop := ∀ c ∈ cs, c ≠ '|' ∧ isBlank c = false

instance (cs : List Char) : Decidable (IsPiece cs) :=
  decidable_of_iff (cs.all (fun c => c ≠ '|' ∧ isBlank c = false) = true) (by simp [IsPiece])

theorem pieces_ne_nil (cs : List Char) : pieces cs ≠ [] := by
  cases cs with
  | nil => exact List.cons_ne_nil _ _
  | cons c cs =>
    rw [pieces]
    split
    · exact List.cons_ne_nil _ _
    · split <;> exact List.cons_ne_nil _ _

/-- A text without bars goes on with the first piece of what follows it. -/
theorem pieces_append {cs ds : List Char} (hcs : ∀ c ∈ cs, c ≠ '|') {p : List Char}
    {ps : List (List Char)} (h : pieces ds = p :: ps) : pieces (cs ++ ds) = (cs ++ p) :: ps := by
  induction cs with
  | nil => exact h
  | cons c cs ih =>
    obtain ⟨hc, hcs⟩ := List.forall_mem_cons.mp hcs
    rw [List.cons_append, pieces, if_neg hc, ih hcs]
    rfl

/-- The text with the pieces `names` is taken apart again into them. -/
theorem map_trim_pieces {names : List (List Char)} (hne : names ≠ [])
    (h : ∀ cs ∈ names, IsPiece cs) :
    (pieces ([' ', '|', ' '].intercalate names)).map trim = names := by
  induction names with
  | nil => exact absurd rfl hne
  | cons cs names ih =>
    obtain ⟨hcs, h⟩ := List.forall_mem_cons.mp h
    have hbar : ∀ c ∈ cs, c ≠ '|' := fun c hc => (hcs c hc).1
    have hblank : trim cs = cs := trim_eq_self fun c hc => (hcs c hc).2
    cases names with
    | nil =>
      have hp : pieces (cs ++ []) = [cs ++ []] := pieces_append hbar rfl
      rw [List.append_nil] at hp
      rw [List.intercalate_singleton, hp, List.map_singleton, hblank]
    | cons ds names =>
      have ih := ih (List.cons_ne_nil _ _) h
      obtain ⟨p, ps, hp⟩ := List.exists_cons_of_ne_nil
        (pieces_ne_nil ([' ', '|', ' '].intercalate (ds :: names)))
      rw [hp, List.map_cons] at ih
      have htail : pieces ('|' :: ' ' :: [' ', '|', ' '].intercalate (ds :: names)) =
          [] :: (' ' :: p) :: ps := by
        have hblank : ∀ c ∈ [' '], c ≠ '|' := by simp
        have := pieces_append hblank hp
        rw [pieces, if_pos rfl]
        exact congrArg _ this
      have hconcat : ∀ c ∈ cs ++ [' '], c ≠ '|' := by
        intro c hc
        rcases List.mem_append.mp hc with hc | hc
        · exact hbar c hc
        · rw [List.mem_singleton.mp hc]
          decide
      have hfull := pieces_append hconcat htail
      rw [List.append_nil, List.append_assoc] at hfull
      rw [List.intercalate_cons_cons, List.append_assoc]
      refine (congrArg (List.map trim) hfull).trans ?_
      rw [List.map_cons, List.map_cons, trim_concat_blank rfl, hblank, trim_cons_blank rfl, ih]

/-! ## Hexadecimal numbers -/

theorem exists_of_mem_hexDigits {n : Nat} {c : Char} (h : c ∈ hexDigits n) :
    ∃ d < 16, c = Nat.digitChar d := by
  rw [hexDigits] at h
  induction n using Nat.base_induction 16 (by omega) with
  | single m hm =>
    rw [Nat.toDigits_of_lt_base hm] at h
    exact ⟨m, hm, List.mem_singleton.mp h⟩
  | digit m k hk hm ih =>
    rw [← Nat.toDigits_append_toDigits (by omega) hm hk, Nat.toDigits_of_lt_base hk] at h
    rcases List.mem_append.mp h with h | h
    · exact ih h
    · exact ⟨k, hk, List.mem_singleton.mp h⟩

theorem hexDigit_ne {d : Nat} (h : d < 16) :
    Nat.digitChar d ≠ '+' ∧ Nat.digitChar d ≠ '|' ∧ isBlank (Nat.digitChar d) = false := by
  revert d
  decide

/-- A number is read from its hexadecimal digits. -/
theorem hexValue?_hexDigits (n : Nat) : hexValue? (hexDigits n) = some n := by
  have hfold (m : Nat) : (Nat.toDigits 16 m).foldlM
      (fun n c => (hexDigitValue? c).map (16 * n + ·)) 0 = some m := by
    induction m using Nat.base_induction 16 (by omega) with
    | single m hm =>
      rw [Nat.toDigits_of_lt_base hm]
      simp [hexDigitValue?_digitChar hm]
    | digit m k hk hm ih =>
      rw [← Nat.toDigits_append_toDigits (by omega) hm hk, List.foldlM_append, ih,
        Nat.toDigits_of_lt_base hk]
      simp [hexDigitValue?_digitChar hk]
  have hplus : (hexDigits n).head? ≠ some '+' := by
    intro h
    obtain ⟨d, hd, hc⟩ := exists_of_mem_hexDigits (List.mem_of_head? h)
    exact (hexDigit_ne hd).1 hc.symm
  have hne : (hexDigits n).isEmpty = false := by simp [hexDigits]
  rw [hexValue?, if_neg hplus, hne]
  exact hfold n

/-- The flags without a name, as they stand in the text of a set. -/
def unnamedChars (u : BitVec 28) : List Char := '0' :: 'x' :: hexDigits (16 * u.toNat)

theorem isPiece_unnamedChars (u : BitVec 28) : IsPiece (unnamedChars u) := by
  intro c hc
  rcases List.mem_cons.mp hc with rfl | hc
  · decide
  rcases List.mem_cons.mp hc with rfl | hc
  · decide
  obtain ⟨d, hd, rfl⟩ := exists_of_mem_hexDigits hc
  exact (hexDigit_ne hd).2

/-- The flags without a name are read from their number. -/
theorem ofName?_unnamedChars (u : BitVec 28) :
    ofName? (unnamedChars u) = some { none with unnamed := u } := by
  have hu : 16 * u.toNat < UInt32.size := by
    have := u.isLt
    change 16 * u.toNat < 4294967296
    omega
  have hbit {i : Nat} (hi : i < 4) : (16 * u.toNat).testBit i = false := by
    rw [show 16 * u.toNat = 2 ^ 4 * u.toNat from rfl, Nat.testBit_two_pow_mul]
    simp [Nat.not_le.mpr hi]
  have hdiv : 16 * u.toNat / 16 = u.toNat := by omega
  rw [unnamedChars, ofName?, hexValue?_hexDigits, Option.bind_some, ofBits?, if_pos hu,
    hbit (by omega), hbit (by omega), hbit (by omega), hbit (by omega), hdiv, BitVec.ofNat_toNat,
    BitVec.setWidth_eq]
  rfl

/-! ## Sets of flags -/

variable {f g : PatternFlags}

/-- A piece that is there or not, with the flags that it stands for. -/
def part (present : Bool) (cs : List Char) (flags : PatternFlags) :
    List (List Char × PatternFlags) :=
  bif present then [(cs, flags)] else []

/-- The pieces of the text of a set. -/
def parts (f : PatternFlags) : List (List Char × PatternFlags) :=
  part f.extended "EXTENDED".toList { none with extended := true }
    ++ part f.ignoreCase "ICASE".toList { none with ignoreCase := true }
    ++ part f.noSubmatch "NOSUB".toList { none with noSubmatch := true }
    ++ part f.newline "NEWLINE".toList { none with newline := true }
    ++ part (f.unnamed != 0) (unnamedChars f.unnamed) { none with unnamed := f.unnamed }

/-- The piece is read as the flags that it stands for. -/
def IsPart (p : List Char × PatternFlags) : Prop :=
  p.1 ≠ [] ∧ IsPiece p.1 ∧ ofName? p.1 = some p.2

theorem forall_mem_part {present : Bool} {cs : List Char} {flags : PatternFlags}
    (h : IsPart (cs, flags)) : ∀ p ∈ part present cs flags, IsPart p := by
  intro p hp
  cases present with
  | false => cases hp
  | true => rwa [List.mem_singleton.mp hp]

/-- Each name is read as its flag, and the number as the flags without a name. -/
theorem isPart_of_mem_parts (f : PatternFlags) : ∀ p ∈ f.parts, IsPart p := by
  have hu : IsPart (unnamedChars f.unnamed, { none with unnamed := f.unnamed }) :=
    ⟨List.cons_ne_nil _ _, isPiece_unnamedChars _, ofName?_unnamedChars _⟩
  have he : IsPart ("EXTENDED".toList, { none with extended := true }) :=
    ⟨by decide, by decide, by decide⟩
  have hi : IsPart ("ICASE".toList, { none with ignoreCase := true }) :=
    ⟨by decide, by decide, by decide⟩
  have hs : IsPart ("NOSUB".toList, { none with noSubmatch := true }) :=
    ⟨by decide, by decide, by decide⟩
  have hn : IsPart ("NEWLINE".toList, { none with newline := true }) :=
    ⟨by decide, by decide, by decide⟩
  simp only [parts, List.forall_mem_append]
  exact ⟨⟨⟨⟨forall_mem_part he, forall_mem_part hi⟩, forall_mem_part hs⟩, forall_mem_part hn⟩,
    forall_mem_part hu⟩

theorem map_fst_part (present : Bool) (cs : List Char) (flags : PatternFlags) :
    (part present cs flags).map Prod.fst = bif present then [cs] else [] := by
  cases present <;> rfl

theorem map_toList_names (f : PatternFlags) : f.names.map String.toList = f.parts.map Prod.fst := by
  have named (b : Bool) (s : String) :
      (if b then [s] else []).map String.toList = bif b then [s.toList] else [] := by
    cases b <;> rfl
  have unnamed : (if f.unnamed = 0 then []
      else ["0x" ++ String.ofList (hexDigits (16 * f.unnamed.toNat))]).map String.toList =
      bif f.unnamed != 0 then [unnamedChars f.unnamed] else [] := by
    by_cases h : f.unnamed = 0
    · rw [if_pos h, bne_eq_false_iff_eq.mpr h]
      rfl
    · rw [if_neg h, bne_iff_ne.mpr h, List.map_singleton]
      simp [unnamedChars]
  simp only [names, parts, List.map_append, named, unnamed, map_fst_part]

theorem foldl_part (present : Bool) (cs : List Char) (flags g : PatternFlags) :
    ((part present cs flags).map Prod.snd).foldl union g =
      bif present then g.union flags else g := by
  cases present <;> rfl

/-- A set is the union of its parts. -/
theorem foldl_parts (f : PatternFlags) : (f.parts.map Prod.snd).foldl union none = f := by
  have unnamed (g : PatternFlags) (h : g.unnamed = 0) :
      (bif f.unnamed != 0 then g.union { none with unnamed := f.unnamed } else g) =
        { g with unnamed := f.unnamed } := by
    by_cases hu : f.unnamed = 0
    · rw [bne_eq_false_iff_eq.mpr hu, hu, ← h]
      rfl
    · rw [bne_iff_ne.mpr hu]
      simp [union, none, h]
  simp only [parts, List.map_append, List.foldl_append, foldl_part]
  rw [unnamed]
  · obtain ⟨extended, ignoreCase, noSubmatch, newline, u⟩ := f
    cases extended <;> cases ignoreCase <;> cases noSubmatch <;> cases newline <;> rfl
  · cases f.extended <;> cases f.ignoreCase <;> cases f.noSubmatch <;> cases f.newline <;> rfl

theorem foldlM_fst {ps : List (List Char × PatternFlags)} (h : ∀ p ∈ ps, IsPart p)
    (g : PatternFlags) :
    (ps.map Prod.fst).foldlM (fun f piece => (ofName? piece).map f.union) g =
      some ((ps.map Prod.snd).foldl union g) := by
  induction ps generalizing g with
  | nil => rfl
  | cons p ps ih =>
    obtain ⟨hp, h⟩ := List.forall_mem_cons.mp h
    rw [List.map_cons, List.foldlM_cons, hp.2.2]
    exact ih h (g.union p.2)

theorem toList_text (f : PatternFlags) :
    f.text.toList = [' ', '|', ' '].intercalate (f.parts.map Prod.fst) := by
  rw [← map_toList_names]
  exact String.toList_intercalate

/-- A set of flags is read as it was written. -/
theorem ofText?_text (f : PatternFlags) : ofText? f.text = some f := by
  have hparts := f.isPart_of_mem_parts
  have hfold := foldlM_fst hparts none
  rw [foldl_parts] at hfold
  by_cases hne : f.parts = []
  · -- Without a piece the text is empty, and there is no flag.
    have hf := f.foldl_parts
    rw [hne] at hf
    rw [ofText?, toList_text, hne]
    exact congrArg some hf
  · have hpieces : (pieces f.text.toList).map trim = f.parts.map Prod.fst := by
      rw [toList_text]
      apply map_trim_pieces (by simpa using hne)
      intro cs hcs
      obtain ⟨p, hp, rfl⟩ := List.mem_map.mp hcs
      exact (hparts p hp).2.1
    have htrim : (trim f.text.toList).isEmpty = false := by
      obtain ⟨p, ps, hp⟩ := List.exists_cons_of_ne_nil hne
      obtain ⟨hnil, hpiece, -⟩ := hparts p (by simp [hp])
      obtain ⟨c, cs, hc⟩ := List.exists_cons_of_ne_nil hnil
      have hb : isBlank c = false := (hpiece c (by simp [hc])).2
      obtain ⟨ds, hds⟩ : ∃ ds, f.text.toList = c :: ds := by
        rw [toList_text, hp, List.map_cons, hc]
        cases ps with
        | nil => exact ⟨_, List.intercalate_singleton⟩
        | cons q qs => exact ⟨_, List.intercalate_cons_cons⟩
      rw [hds]
      simpa using trim_ne_nil hb ds
    rw [ofText?, htrim]
    rw [← hpieces, List.foldlM_map] at hfold
    exact hfold

end PatternFlags

end RecordQuery
