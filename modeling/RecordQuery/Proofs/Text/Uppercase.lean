import RecordQuery.Text.Uppercase

/-! # Upper case is reached in one step

No upper-case form has a character with another upper-case form, so a text that has been folded is
not changed by folding it again (`uppercase_uppercase`). This is a fact about the tables: the code
points that are changed and those that they are changed into have none in common. Sets of code
points are compared as the bits of a number. -/

namespace RecordQuery.Text

/-! ## Sets of code points -/

/-- The number that has the bits `ns`. -/
def bits (ns : List Nat) : Nat := ns.foldr (fun n m => 1 <<< n ||| m) 0

theorem testBit_bits {ns : List Nat} {n : Nat} : (bits ns).testBit n = true ↔ n ∈ ns := by
  induction ns with
  | nil => simp [bits]
  | cons m ns ih =>
    have hm : (1 <<< m).testBit n = true ↔ n = m := by
      rw [Nat.one_shiftLeft, Nat.testBit_two_pow, decide_eq_true_eq, eq_comm]
    rw [bits, List.foldr_cons, ← bits, Nat.testBit_or, Bool.or_eq_true, hm, ih, List.mem_cons]

theorem not_mem_of_bits {ms ns : List Nat} (h : bits ms &&& bits ns = 0) {n : Nat} (hn : n ∈ ns) :
    n ∉ ms := by
  intro hm
  have := Nat.testBit_and (bits ms) (bits ns) n
  rw [h, testBit_bits.mpr hm, testBit_bits.mpr hn] at this
  simp at this

/-! ## The tables -/

/-- As many code points from `n` on as the run has, with its step. -/
def CaseRun.points (run : CaseRun) (n : Nat) : List Nat :=
  List.range' n ((run.last - run.first) / run.step + 1) run.step

/-- The code points that have another upper-case form. -/
def lowercasePoints : List Nat :=
  List.range' 97 26 ++ uppercaseExpansions.map (·.1) ++
    uppercaseRuns.flatMap fun r => r.points r.first

/-- The code points of the upper-case forms of others. What is no character counts as zero. -/
def uppercasePoints : List Nat :=
  0 :: (List.range' 65 26 ++ uppercaseExpansions.flatMap (·.2) ++
    uppercaseRuns.flatMap fun r => r.points r.target)

theorem not_mem_lowercasePoints {n : Nat} (h : n ∈ uppercasePoints) :
    n ∉ 34 :: lowercasePoints :=
  not_mem_of_bits (by decide +kernel) h

theorem CaseRun.form?_eq_some {run : CaseRun} {n form : Nat} (h : run.form? n = some form) :
    n ∈ run.points run.first ∧ form ∈ run.points run.target := by
  obtain ⟨⟨h₁, h₂, h₃⟩, rfl⟩ := form?_eq_some_iff.mp h
  have hdiv := Nat.mul_div_cancel' (Nat.dvd_of_mod_eq_zero h₃)
  have hlt : (n - run.first) / run.step < (run.last - run.first) / run.step + 1 :=
    Nat.lt_succ_of_le (Nat.div_le_div_right (by omega))
  refine ⟨List.mem_range'.mpr ⟨_, hlt, ?_⟩, List.mem_range'.mpr ⟨_, hlt, ?_⟩⟩
  · rw [hdiv]
    omega
  · rw [hdiv]

/-! ## Characters -/

theorem toUpper_eq_self {c : Char} (h : c.toNat ∉ List.range' 97 26) : c.toUpper = c := by
  rw [List.mem_range'_1] at h
  rw [← Char.toNat_inj, toNat_toUpper, if_neg (by omega)]

theorem uppercaseChar_eq_self {c : Char} (h : c.toNat ∉ lowercasePoints) :
    uppercaseChar c = [c] := by
  simp only [lowercasePoints, List.mem_append, List.mem_map, List.mem_flatMap, not_or,
    not_exists, not_and] at h
  unfold uppercaseChar
  split
  · rw [toUpper_eq_self h.1.1]
  · have hl : uppercaseExpansions.lookup c.toNat = none :=
      List.lookup_eq_none_iff.mpr fun e he => bne_iff_ne.mpr fun hc => h.1.2 e he hc.symm
    have hr : uppercaseRuns.findSome? (·.form? c.toNat) = none :=
      List.findSome?_eq_none_iff.mpr fun run hrun =>
        Option.eq_none_iff_forall_ne_some.mpr fun form hf =>
          h.2 run hrun (CaseRun.form?_eq_some hf).1
    rw [hl, hr]

theorem toNat_ofNat_mem {n : Nat} (h : n ∈ uppercasePoints) :
    (Char.ofNat n).toNat ∈ uppercasePoints := by
  by_cases hv : n.isValidChar
  · rw [Char.ofNat, dif_pos hv]
    exact h
  · rw [Char.ofNat, dif_neg hv]
    exact List.mem_cons_self ..

theorem toNat_toUpper_mem {c : Char} (h : c.toNat ∈ List.range' 97 26) :
    c.toUpper.toNat ∈ uppercasePoints := by
  rw [List.mem_range'_1] at h
  refine List.mem_cons_of_mem _ (List.mem_append_left _ (List.mem_append_left _ ?_))
  rw [toNat_toUpper, if_pos (by omega), List.mem_range'_1]
  omega

theorem mem_uppercasePoints {c d : Char} (h : d ∈ uppercaseChar c) :
    uppercaseChar c = [c] ∨ d.toNat ∈ uppercasePoints := by
  by_cases hs : uppercaseChar c = [c]
  · exact .inl hs
  refine .inr ?_
  unfold uppercaseChar at h hs
  split at h
  · next hc =>
    rw [if_pos hc] at hs
    obtain rfl := List.mem_singleton.mp h
    refine toNat_toUpper_mem (Decidable.byContradiction fun hn => hs ?_)
    rw [toUpper_eq_self hn]
  next hc =>
  rw [if_neg hc] at hs
  split at h
  · next forms hf =>
    obtain ⟨n, hn, rfl⟩ := List.mem_map.mp h
    obtain ⟨before, after, he, -⟩ := List.lookup_eq_some_iff.mp hf
    have hm : (c.toNat, forms) ∈ uppercaseExpansions := by simp [he]
    refine toNat_ofNat_mem (List.mem_cons_of_mem _ (List.mem_append_left _ ?_))
    exact List.mem_append_right _ (List.mem_flatMap.mpr ⟨_, hm, hn⟩)
  split at h
  · next form hf =>
    obtain ⟨run, hrun, hf⟩ := List.exists_of_findSome?_eq_some hf
    obtain rfl := List.mem_singleton.mp h
    refine toNat_ofNat_mem (List.mem_cons_of_mem _ (List.mem_append_right _ ?_))
    exact List.mem_flatMap.mpr ⟨run, hrun, (CaseRun.form?_eq_some hf).2⟩
  · next hl _ hr =>
    rw [hl, hr] at hs
    exact absurd rfl hs

/-- The characters of an upper-case form are in upper case. -/
theorem uppercaseChar_of_mem {c d : Char} (h : d ∈ uppercaseChar c) : uppercaseChar d = [d] := by
  rcases mem_uppercasePoints h with hc | hd
  · obtain rfl : d = c := by simpa [hc] using h
    exact hc
  · exact uppercaseChar_eq_self fun hm => not_mem_lowercasePoints hd (List.mem_cons_of_mem _ hm)

/-- No other character becomes a quote. -/
theorem eq_quote_of_mem {c : Char} (h : '"' ∈ uppercaseChar c) : c = '"' := by
  rcases mem_uppercasePoints h with hc | hd
  · simpa [hc, eq_comm] using h
  · exact absurd (List.mem_cons_self ..) (not_mem_lowercasePoints hd)

/-- Folding a text to upper case again does not change it. -/
theorem uppercase_uppercase (s : String) : uppercase (uppercase s) = uppercase s := by
  have hself (cs : List Char) (h : ∀ d ∈ cs, uppercaseChar d = [d]) :
      cs.flatMap uppercaseChar = cs := by
    induction cs with
    | nil => rfl
    | cons c cs ih => rw [List.flatMap_cons, h c (by simp), ih fun d hd => h d (by simp [hd])]; rfl
  unfold uppercase
  rw [String.toList_ofList, hself]
  intro d hd
  obtain ⟨c, -, hc⟩ := List.mem_flatMap.mp hd
  exact uppercaseChar_of_mem hc

end RecordQuery.Text
