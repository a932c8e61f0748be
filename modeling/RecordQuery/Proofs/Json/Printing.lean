import Mathlib.Data.List.Basic
import RecordQuery.Json.Parser
import RecordQuery.Json.Printer

/-! # Documents that are written and read again

The text of a value is read as that value, whatever stands behind it in an array or an object
(`Json.readValue_text`), so a document is read as it was written (`Json.parse?_text`). Left out are
the numbers that are no integers, since they are known by their text alone, and the values that nest
deeper than the reader goes (`Json.Within`). -/

namespace RecordQuery.Json

open Text Decimal

/-- The value nests at most `depth` levels deep, and its numbers are integers. -/
def Within : (depth : Nat) → Json → Prop
  | _, real _ => False
  | depth + 1, array elements => ∀ j ∈ elements, Within depth j
  | depth + 1, object members => ∀ m ∈ members, Within depth m.2
  | 0, array _ => False
  | 0, object _ => False
  | _, _ => True

section

variable {depth : Nat}

@[simp] theorem within_null : Within depth null := by
  cases depth <;> trivial

@[simp] theorem within_integer (n : Int) : Within depth (integer n) := by
  cases depth <;> trivial

@[simp] theorem within_string (s : String) : Within depth (string s) := by
  cases depth <;> trivial

@[simp] theorem within_array {elements : List Json} :
    Within (depth + 1) (array elements) ↔ ∀ j ∈ elements, Within depth j := Iff.rfl

@[simp] theorem within_object {members : List (String × Json)} :
    Within (depth + 1) (object members) ↔ ∀ m ∈ members, Within depth m.2 := Iff.rfl

end

/-- What may stand behind a value. -/
def Closes (cs : List Char) : Prop := ∀ c ∈ cs.head?, c = ',' ∨ c = ']' ∨ c = '\x7d'

variable {rest : List Char}

/-! ## Strings -/

/-- A control character is read by its code point. -/
theorem readEscape_control {c : Char} (h : c.toNat < 32) (cs : List Char) :
    readEscape ((controlEscape c).tail ++ cs) = some (c, cs) := by
  have hhigh := hexDigitValue?_digitChar (n := c.toNat / 16) (by omega)
  have hlow := hexDigitValue?_digitChar (n := c.toNat % 16) (by omega)
  have hzero : hexDigitValue? '0' = some 0 := rfl
  have hc : c.toNat / 16 * 16 + c.toNat % 16 = c.toNat := by omega
  have h₁ : ¬ (0xdc00 ≤ c.toNat ∧ c.toNat ≤ 0xdfff) := by omega
  have h₂ : ¬ (0xd800 ≤ c.toNat ∧ c.toNat ≤ 0xdbff) := by omega
  simp [controlEscape, readEscape, readUnicode, readUnit, hhigh, hlow, hzero, hc, h₁, h₂]

theorem readString_backslash {cs ds : List Char} {c : Char} (h : readEscape cs = some (c, ds))
    (limit : Nat) :
    readString (limit + 1) ('\\' :: cs) =
      (readString limit ds).map fun r => (c :: r.1, r.2) := by
  rw [readString, h, Option.bind_eq_bind, Option.bind_some]
  dsimp only
  cases readString limit ds <;> rfl

theorem readString_cons {c : Char} (hq : c ≠ '"') (hb : c ≠ '\\') (hc : ¬ c.toNat < 32)
    (limit : Nat) (cs : List Char) :
    readString (limit + 1) (c :: cs) = (readString limit cs).map fun r => (c :: r.1, r.2) := by
  rw [readString.eq_def]
  split
  · next h => exact absurd (List.cons.inj h).1 hq
  · next h => exact absurd (List.cons.inj h).1 hb
  · next hl h =>
    cases hl
    cases h
    rw [if_neg hc]
    cases readString limit cs <;> rfl
  · next h => exact (h limit c cs rfl rfl).elim

/-- A character is read as it is written in a string. -/
theorem readString_escape (limit : Nat) (c : Char) (cs : List Char) :
    readString (limit + 1) (escape c ++ cs) =
      (readString limit cs).map fun r => (c :: r.1, r.2) := by
  rw [escape]
  split
  · next h => exact readString_backslash (by rw [h]; rfl) limit
  split
  · next h => exact readString_backslash (by rw [h]; rfl) limit
  split
  · next h => exact readString_backslash (by rw [h]; rfl) limit
  split
  · next h => exact readString_backslash (by rw [h]; rfl) limit
  split
  · next h => exact readString_backslash (by rw [h]; rfl) limit
  split
  · next h => exact readString_backslash (by rw [h]; rfl) limit
  split
  · next h => exact readString_backslash (by rw [h]; rfl) limit
  split
  · next h => exact readString_backslash (readEscape_control h cs) limit
  · next hq hb _ _ _ _ _ hc => exact readString_cons hq hb hc limit cs

theorem readString_quoted (cs rest : List Char) {limit : Nat} (h : cs.length ≤ limit) :
    readString limit (cs.flatMap escape ++ '"' :: rest) = some (cs, rest) := by
  induction cs generalizing limit with
  | nil => cases limit <;> rfl
  | cons c cs ih =>
    cases limit with
    | zero => cases h
    | succ limit =>
      rw [List.flatMap_cons, List.append_assoc, readString_escape, ih (Nat.le_of_succ_le_succ h)]
      rfl

theorem length_escape_pos (c : Char) : 0 < (escape c).length := by
  grind [escape, controlEscape]

theorem length_le_flatMap_escape (cs : List Char) : cs.length ≤ (cs.flatMap escape).length := by
  induction cs with
  | nil => exact Nat.zero_le _
  | cons c cs ih =>
    have := length_escape_pos c
    rw [List.flatMap_cons, List.length_append, List.length_cons]
    omega

theorem toList_quoted (s : String) :
    (quoted s).toList = '"' :: (s.toList.flatMap escape ++ ['"']) :=
  String.toList_ofList

/-- A string is read as it was written. -/
theorem readQuoted_quoted (s : String) (rest : List Char) :
    readQuoted ((quoted s).toList ++ rest) = some (s, rest) := by
  have hl : s.toList.length ≤ (s.toList.flatMap escape ++ '"' :: rest).length := by
    have := length_le_flatMap_escape s.toList
    rw [List.length_append]
    omega
  rw [toList_quoted, List.cons_append, List.append_assoc, List.singleton_append, readQuoted,
    readString_quoted _ _ hl]
  exact congrArg (fun s => some (s, rest)) String.ofList_toList

/-! ## Numbers -/

namespace Closes

theorem head?_isDigit (h : Closes rest) : (rest.head?.map Char.isDigit).getD false = false := by
  cases rest with
  | nil => rfl
  | cons c rest => rcases h c rfl with rfl | rfl | rfl <;> rfl

theorem fractionMarkOf_eq (h : Closes rest) : fractionMarkOf rest = [] := by
  cases rest with
  | nil => rfl
  | cons c rest => rcases h c rfl with rfl | rfl | rfl <;> rfl

theorem exponentMarkOf_eq (h : Closes rest) : exponentMarkOf rest = [] := by
  cases rest with
  | nil => rfl
  | cons c rest => rcases h c rfl with rfl | rfl | rfl <;> cases rest <;> rfl

end Closes

theorem isDigit_of_mem_toDigits (n : Nat) : ∀ c ∈ Nat.toDigits 10 n, c.isDigit = true :=
  fun _ => Nat.isDigit_of_mem_toDigits (by omega) (by omega)

theorem digitsValue_toDigits (n : Nat) : digitsValue (Nat.toDigits 10 n) = n :=
  Nat.ofDigitChars_ten_toDigits

theorem head?_toDigits {n : Nat} (h : n ≠ 0) : (Nat.toDigits 10 n).head? ≠ some '0' := by
  induction n using Nat.base_induction 10 (by omega) with
  | single m hm =>
    rw [Nat.toDigits_of_lt_base hm]
    simpa using h
  | digit m k hk hm ih =>
    have hne : Nat.toDigits 10 m ≠ [] := Nat.toDigits_ne_nil
    rw [← Nat.toDigits_append_toDigits (by omega) hm hk, List.head?_append_of_ne_nil _ hne]
    exact ih (Nat.ne_of_gt hm)

theorem takeWhile_toDigits (h : Closes rest) (n : Nat) :
    (Nat.toDigits 10 n ++ rest).takeWhile Char.isDigit = Nat.toDigits 10 n := by
  rw [List.takeWhile_append_of_pos (isDigit_of_mem_toDigits n)]
  cases rest with
  | nil => exact List.append_nil _
  | cons c rest =>
    have hc : c.isDigit = false := h.head?_isDigit
    rw [List.takeWhile_cons_of_neg (by simp [hc]), List.append_nil]

theorem wholeOf_toDigits (h : Closes rest) (n : Nat) :
    wholeOf (Nat.toDigits 10 n ++ rest) = Nat.toDigits 10 n := by
  by_cases hn : n = 0
  · rw [hn, Nat.toDigits_zero]
    rfl
  · rw [wholeOf.eq_def]
    split
    · next hd =>
      have := congrArg List.head? hd
      rw [List.head?_append_of_ne_nil _ Nat.toDigits_ne_nil] at this
      exact absurd this (head?_toDigits hn)
    · exact takeWhile_toDigits h n

/-- A number is read as it was written behind its sign. Minus zero is not written. -/
theorem readNumeral_toDigits {negative : Bool} {n : Nat} (hn : negative = true → n ≠ 0)
    (h : Closes rest) :
    readNumeral negative (Nat.toDigits 10 n ++ rest) =
      some (.integer (if negative then -(n : Int) else n), rest) := by
  have hne : (Nat.toDigits 10 n).isEmpty = false := by simp
  have hz : (negative && n == 0) = false := by
    cases negative with
    | false => rfl
    | true => simpa using hn rfl
  rw [readNumeral]
  simp only [wholeOf_toDigits h, hne, List.drop_left, h.head?_isDigit, Bool.and_false,
    h.fractionMarkOf_eq, readPart, List.isEmpty_nil, if_true, Option.bind_eq_bind,
    Option.bind_some, h.exponentMarkOf_eq, digitsValue_toDigits, hz]
  simp

theorem toList_toString (n : Int) :
    (toString n).toList =
      if 0 ≤ n then Nat.toDigits 10 n.toNat else '-' :: Nat.toDigits 10 (-n).toNat := by
  rw [Int.toString_eq_repr, Int.repr_eq_if]
  split
  · exact Nat.toList_repr
  · rw [String.toList_append, Nat.toList_repr]
    rfl

theorem exists_toDigits_eq_cons (n : Nat) :
    ∃ c cs, Nat.toDigits 10 n = c :: cs ∧ c.isDigit = true := by
  obtain ⟨c, cs, hc⟩ := List.exists_cons_of_ne_nil (Nat.toDigits_ne_nil (n := n) (b := 10))
  exact ⟨c, cs, hc, isDigit_of_mem_toDigits n c (hc ▸ List.mem_cons_self)⟩

theorem ne_of_isDigit {c d : Char} (hc : c.isDigit = true) (hd : d.isDigit = false) : c ≠ d := by
  intro h
  exact Bool.false_ne_true (hd.symm.trans (h ▸ hc))

theorem readScalar_digit {c : Char} (h : c.isDigit = true) (cs : List Char) :
    readScalar (c :: cs) = readNumeral false (c :: cs) := by
  have hne {d : Char} {ds : List Char} (hd : d.isDigit = false) : c :: cs ≠ d :: ds :=
    fun he => ne_of_isDigit h hd (List.cons.inj he).1
  rw [readScalar.eq_def]
  split
  · next hc => exact absurd hc (hne rfl)
  · next hc => exact absurd hc (hne rfl)
  · next hc => exact absurd hc (hne rfl)
  · next hc => exact absurd hc (hne rfl)
  · next hc => exact absurd hc (hne rfl)
  · rfl

theorem readScalar_integer (n : Int) (h : Closes rest) :
    readScalar ((toString n).toList ++ rest) = some (.integer n, rest) := by
  rw [toList_toString]
  split
  · next hn =>
    obtain ⟨c, cs, hc, hd⟩ := exists_toDigits_eq_cons n.toNat
    calc readScalar (Nat.toDigits 10 n.toNat ++ rest)
        = readNumeral false (Nat.toDigits 10 n.toNat ++ rest) := by
          rw [hc, List.cons_append, readScalar_digit hd]
      _ = some (.integer n.toNat, rest) := readNumeral_toDigits nofun h
      _ = some (.integer n, rest) := by rw [Int.toNat_of_nonneg hn]
  · next hn =>
    have hm : (((-n).toNat : Nat) : Int) = -n := by omega
    calc readScalar ('-' :: Nat.toDigits 10 (-n).toNat ++ rest)
        = readNumeral true (Nat.toDigits 10 (-n).toNat ++ rest) := rfl
      _ = some (.integer (-((-n).toNat : Nat)), rest) := readNumeral_toDigits (by omega) h
      _ = some (.integer n, rest) := by rw [hm, Int.neg_neg]

/-! ## Sequences -/

/-- Things with commas between them are read one by one, if each is. -/
theorem readMany_intercalate {α : Type} {read : List Char → Option (α × List Char)}
    {write : α → List Char} {close : Char} (hc : close = ']' ∨ close = '\x7d') {as : List α}
    (hne : as ≠ [])
    (hr : ∀ a ∈ as, ∀ rest, Closes rest → read (write a ++ rest) = some (a, rest))
    {limit : Nat} (hl : as.length ≤ limit) (rest : List Char) :
    readMany read close limit ([','].intercalate (as.map write) ++ close :: rest) =
      some (as, rest) := by
  have hspace {c : Char} (h : c = ',' ∨ c = close) (cs : List Char) :
      skipSpace (c :: cs) = c :: cs := by
    rcases h with rfl | rfl
    · rfl
    · rcases hc with rfl | rfl <;> rfl
  induction as generalizing limit with
  | nil => exact absurd rfl hne
  | cons a as ih =>
    obtain ⟨ha, has⟩ := List.forall_mem_cons.mp hr
    cases limit with
    | zero => cases hl
    | succ limit =>
      cases as with
      | nil =>
        have hclose : Closes (close :: rest) := by
          intro c h
          cases h
          exact .inr hc
        rw [List.map_singleton, List.intercalate_singleton, readMany, ha _ hclose]
        simp [hspace (.inr rfl)]
      | cons b bs =>
        have hcomma (cs : List Char) : Closes (',' :: cs) := by
          intro c h
          cases h
          exact .inl rfl
        have hne : (',' : Char) ≠ close := by
          rcases hc with rfl | rfl <;> exact of_decide_eq_true rfl
        have hlast := ih (List.cons_ne_nil b bs) has (Nat.le_of_succ_le_succ hl)
        rw [List.map_cons, List.map_cons, List.intercalate_cons_cons, List.append_assoc,
          List.append_assoc, List.singleton_append, readMany, ha _ (hcomma _)]
        rw [List.map_cons] at hlast
        simp [hspace (.inl rfl), hne, hlast]

theorem length_le_intercalate (texts : List (List Char)) :
    texts.length ≤ ([','].intercalate texts).length + 1 := by
  induction texts with
  | nil => exact Nat.zero_le _
  | cons t ts ih =>
    cases ts with
    | nil => exact Nat.le_add_left _ _
    | cons u us =>
      rw [List.intercalate_cons_cons, List.length_append, List.length_append]
      simp only [List.length_cons, List.length_nil] at ih ⊢
      omega

/-- The character is neither a blank nor a closing mark. -/
def Opens (c : Char) : Prop := isSpace c = false ∧ c ≠ ']' ∧ c ≠ '\x7d'

instance (c : Char) : Decidable (Opens c) :=
  inferInstanceAs (Decidable (isSpace c = false ∧ c ≠ ']' ∧ c ≠ '\x7d'))

theorem opens_of_isDigit {c : Char} (h : c.isDigit = true) : Opens c := by
  have hne {d : Char} (hd : d.isDigit = false) : c ≠ d := ne_of_isDigit h hd
  refine ⟨?_, hne rfl, hne rfl⟩
  simp [isSpace, hne (d := ' ') rfl, hne (d := '\t') rfl, hne (d := '\n') rfl, hne (d := '\r') rfl]

theorem Opens.skipSpace_eq {c : Char} (h : Opens c) (cs : List Char) :
    skipSpace (c :: cs) = c :: cs :=
  List.dropWhile_cons_of_neg (by simp [h.1])

theorem readAll_intercalate {α : Type} {read : List Char → Option (α × List Char)}
    {write : α → List Char} {close : Char} (hc : close = ']' ∨ close = '\x7d') {as : List α}
    (ho : ∀ a ∈ as, ∃ c cs, write a = c :: cs ∧ Opens c)
    (hr : ∀ a ∈ as, ∀ rest, Closes rest → read (write a ++ rest) = some (a, rest))
    (rest : List Char) :
    readAll read close ([','].intercalate (as.map write) ++ close :: rest) = some (as, rest) := by
  cases as with
  | nil => rcases hc with rfl | rfl <;> rfl
  | cons a as =>
    have hl : (a :: as).length ≤
        ([','].intercalate ((a :: as).map write) ++ close :: rest).length := by
      have := length_le_intercalate ((a :: as).map write)
      rw [List.length_map] at this
      rw [List.length_append, List.length_cons (a := close)]
      omega
    have hmany := readMany_intercalate hc (List.cons_ne_nil a as) hr hl rest
    obtain ⟨c, cs, hw, hopen⟩ := ho a List.mem_cons_self
    have hne : c ≠ close := by
      rcases hc with rfl | rfl
      · exact hopen.2.1
      · exact hopen.2.2
    have hcons : ∃ ds, [','].intercalate ((a :: as).map write) ++ close :: rest = c :: ds := by
      rw [List.map_cons, hw]
      cases as with
      | nil => exact ⟨_, rfl⟩
      | cons b bs => exact ⟨_, by rw [List.map_cons, List.intercalate_cons_cons]; rfl⟩
    obtain ⟨ds, hds⟩ := hcons
    rw [hds] at hmany ⊢
    rw [readAll, hopen.skipSpace_eq]
    exact (if_neg hne).trans hmany

/-! ## Values -/

/-- A member of an object with its value. -/
def memberChars (m : String × Json) : List Char := (quoted m.1).toList ++ ':' :: m.2.text.toList

theorem toList_elementsText (elements : List Json) :
    (elementsText elements).toList = [','].intercalate (elements.map (·.text.toList)) := by
  induction elements with
  | nil => rfl
  | cons j js ih =>
    cases js with
    | nil => simp [elementsText]
    | cons k ks => simp [elementsText, String.toList_append, ih]

theorem toList_membersText (members : List (String × Json)) :
    (membersText members).toList = [','].intercalate (members.map memberChars) := by
  induction members with
  | nil => rfl
  | cons m ms ih =>
    cases ms with
    | nil => simp [membersText, memberChars, String.toList_append]
    | cons k ks => simp [membersText, memberChars, String.toList_append, ih]

/-- The text of a value begins with a character that opens it, and it tells whether the value has
parts. -/
theorem exists_text_eq_cons {depth : Nat} {j : Json} (h : j.Within depth) :
    ∃ c cs, j.text.toList = c :: cs ∧ Opens c ∧ (j.Within 0 → c ≠ '[' ∧ c ≠ '\x7b') := by
  cases j with
  | null => exact ⟨'n', _, rfl, by decide, fun _ => by decide⟩
  | bool b =>
    cases b with
    | false => exact ⟨'f', _, rfl, by decide, fun _ => by decide⟩
    | true => exact ⟨'t', _, rfl, by decide, fun _ => by decide⟩
  | integer n =>
    rw [text, toList_toString]
    split
    · obtain ⟨c, cs, hc, hd⟩ := exists_toDigits_eq_cons n.toNat
      exact ⟨c, cs, hc, opens_of_isDigit hd, fun _ => ⟨ne_of_isDigit hd rfl, ne_of_isDigit hd rfl⟩⟩
    · exact ⟨'-', _, rfl, by decide, fun _ => by decide⟩
  | real text => cases depth <;> cases h
  | string s => exact ⟨'"', _, toList_quoted s, by decide, fun _ => by decide⟩
  | array elements => exact ⟨'[', _, by simp [text]; rfl, by decide, False.elim⟩
  | object members => exact ⟨'\x7b', _, by simp [text]; rfl, by decide, False.elim⟩

theorem readValue_of_opens {c : Char} (h : Opens c) (ha : c ≠ '[') (hb : c ≠ '\x7b') (depth : Nat)
    (cs : List Char) : readValue depth (c :: cs) = readScalar (c :: cs) := by
  cases depth with
  | zero => rw [readValue, h.skipSpace_eq]
  | succ depth =>
    rw [readValue, h.skipSpace_eq]
    split
    · next hc => exact absurd (List.cons.inj hc).1 ha
    · next hc => exact absurd (List.cons.inj hc).1 hb
    · rfl

theorem readMember_memberChars {read : List Char → Option (Json × List Char)}
    {m : String × Json} (hr : read (m.2.text.toList ++ rest) = some (m.2, rest)) :
    readMember read (memberChars m ++ rest) = some (m, rest) := by
  have hq := readQuoted_quoted m.1 (':' :: (m.2.text.toList ++ rest))
  have hs (cs : List Char) : skipSpace ((quoted m.1).toList ++ cs) = (quoted m.1).toList ++ cs := by
    rw [toList_quoted]
    rfl
  have hc (cs : List Char) : skipSpace (':' :: cs) = ':' :: cs := rfl
  rw [memberChars, List.append_assoc, List.cons_append, readMember, hs, hq]
  simp [hc, hr]

theorem readScalar_text {j : Json} (h : j.Within 0) (hr : Closes rest) :
    readScalar (j.text.toList ++ rest) = some (j, rest) := by
  cases j with
  | null => rfl
  | bool b => cases b <;> rfl
  | integer n => exact readScalar_integer n hr
  | real text => cases h
  | string s =>
    have hq := readQuoted_quoted s rest
    rw [toList_quoted, List.cons_append] at hq
    rw [text, toList_quoted, List.cons_append, readScalar, hq]
    rfl
  | array elements => cases h
  | object members => cases h

/-- The text of a value is read as the value. -/
theorem readValue_text {depth : Nat} {j : Json} (h : j.Within depth) (hr : Closes rest) :
    readValue depth (j.text.toList ++ rest) = some (j, rest) := by
  have scalar {depth : Nat} {j : Json} (h : j.Within 0) {rest : List Char} (hr : Closes rest) :
      readValue depth (j.text.toList ++ rest) = some (j, rest) := by
    obtain ⟨c, cs, hc, hopen, hne⟩ := exists_text_eq_cons h
    rw [← readScalar_text h hr, hc, List.cons_append]
    exact readValue_of_opens hopen (hne h).1 (hne h).2 depth _
  induction depth generalizing j rest with
  | zero => exact scalar h hr
  | succ depth ih =>
    cases j with
    | array elements =>
      have hall := readAll_intercalate (.inl rfl)
        (fun j hj => (exists_text_eq_cons (h j hj)).imp fun _ => .imp fun _ h => ⟨h.1, h.2.1⟩)
        (fun j hj rest hr => ih (h j hj) hr) rest
      have ht : (text (array elements)).toList ++ rest =
          '[' :: ([','].intercalate (elements.map (·.text.toList)) ++ ']' :: rest) := by
        simp [text, String.toList_append, toList_elementsText]
      have hs (cs : List Char) : skipSpace ('[' :: cs) = '[' :: cs := rfl
      rw [ht, readValue, hs]
      exact congrArg (Option.map _) hall
    | object members =>
      have hall := readAll_intercalate (.inr rfl)
        (fun m _ => ⟨'"', _, by rw [memberChars, toList_quoted]; rfl, by decide⟩)
        (fun m hm rest hr => readMember_memberChars (ih (h m hm) hr)) rest
      have ht : (text (object members)).toList ++ rest =
          '\x7b' :: ([','].intercalate (members.map memberChars) ++ '\x7d' :: rest) := by
        simp [text, String.toList_append, toList_membersText]
      have hs (cs : List Char) : skipSpace ('\x7b' :: cs) = '\x7b' :: cs := rfl
      rw [ht, readValue, hs]
      exact congrArg (Option.map _) hall
    | real text => cases h
    | _ =>
      refine scalar ?_ hr
      trivial

/-- A document is read as it was written. -/
theorem parse?_text {j : Json} (h : j.Within maxDepth) : parse? j.text = some j := by
  have hr : Closes [] := nofun
  have := readValue_text h hr
  rw [List.append_nil] at this
  rw [parse?, this]
  rfl

end RecordQuery.Json
