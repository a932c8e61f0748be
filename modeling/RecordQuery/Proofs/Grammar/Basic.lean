import Mathlib.Computability.Language
import Mathlib.Order.CompletePartialOrder
import RecordQuery.Proofs.Statement.Spelling
import RecordQuery.Proofs.Statement.Rereading

/-! # The grammar

The productions of the language without its WITH clause, each as a regular language over tokens.
A word of a production spells a node of the tree, and every node that is spelled by some tokens
is spelled by a word of its production. So the relations `SpelledBy`, which tell the tree from the
tokens, and the productions, which know nothing of trees, have the same words. -/

namespace RecordQuery
namespace Grammar

open Computability

/-! ## Tokens -/

/-- The words of one token that passes the test. -/
def one (test : Token → Prop) : Language Token := {ts | ∃ t, ts = [t] ∧ test t}

/-- A keyword, in any case. -/
def keyword (k : Keyword) : Language Token := one fun t => t.isKeyword k = true

/-- A punctuation mark. -/
def mark (m : Mark) : Language Token := one fun t => t.isMark m = true

/-- An operator sign. -/
def sign (o : Sign) : Language Token := one fun t => t.isSign o = true

/-- The keywords that name nothing unless they are quoted. -/
def reserved : List Keyword := [.SELECT, .FROM, .WITH, .WHERE, .AND, .OR, .NOT]

/-- A name: an identifier, or a keyword that is not reserved. -/
def name : Language Token :=
  one fun t => t.kind = .identifier ∨ t.kind = .keyword ∧ ∀ k ∈ reserved, t.isKeyword k = false

/-- A string. -/
def string : Language Token := one fun t => t.kind = .string

/-- The word for a fact about the record. A keyword is never one. -/
def fact (m : MetadataName) : Language Token :=
  one fun t => t.kind = .identifier ∧ MetadataName.ofText? t.literal = some m

/-! ## Productions -/

/-- A number, with a sign or without. -/
def number : Language Token :=
  (1 + sign .minus + sign .plus) * one fun t => t.kind = .integer ∨ t.kind = .float

def literal : Language Token := string + number

def equality : Language Token :=
  sign .equal + sign .doubleEqual + sign .notEqual + sign .lessGreater

def comparison : Language Token :=
  sign .greater + sign .greaterEqual + sign .less + sign .lessEqual

def relation : Language Token := equality + comparison

def cast : Language Token :=
  keyword .CAST * mark .openParen * string * keyword .AS * name * mark .closeParen

/-- A condition on one element of a collection. -/
def element : Language Token :=
  mark .openParen * name * relation * literal * mark .closeParen

def metadata : Language Token :=
  fact .digest * mark .openParen * number * mark .closeParen +
    (fact .lastUpdate + fact .recordSize + fact .timeToLive) * mark .openParen * mark .closeParen

def quantifier : Language Token := keyword .ANY + keyword .ALL

def part : Language Token := keyword .CONTAINS + keyword .MAPKEYS + keyword .MAPVALUES

def region : Language Token := keyword .CONTAINS + keyword .WITHIN

/-- A predicate without connectives. -/
def atomic : Language Token :=
  metadata * relation * number +
    name * relation * literal +
    name * (1 + quantifier) * part * element +
    name * region * cast +
    name * keyword .LIKE * string

/-- What may stand before a predicate. -/
def opening : Language Token := mark .openParen + keyword .NOT

/-- What stands between two operands. -/
def link : Language Token := keyword .AND + keyword .OR

/-- A predicate with what stands before and behind it. No one counts the parentheses. -/
def operand : Language Token := opening∗ * atomic * (mark .closeParen)∗

def condition : Language Token := operand * (link * operand)∗

def selection : Language Token := sign .star + name * (mark .comma * name)∗

def source : Language Token := name * (1 + mark .dot * name)

/-- A statement without a WITH clause. -/
def statement : Language Token :=
  keyword .SELECT * selection * keyword .FROM * source * (1 + keyword .WHERE * condition) *
    (1 + mark .semicolon)

/-! ## Words of a product -/

variable {test : Token → Prop} {ts : List Token} {L : Language Token}

theorem mem_one : ts ∈ one test ↔ ∃ t, ts = [t] ∧ test t := Iff.rfl

theorem one_congr {p q : Token → Prop} (h : ∀ t, p t ↔ q t) : one p = one q :=
  congrArg one (funext fun t => propext (h t))

theorem mem_one_mul : ts ∈ one test * L ↔ ∃ t us, ts = t :: us ∧ test t ∧ us ∈ L := by
  rw [Language.mem_mul]
  constructor
  · rintro ⟨_, ⟨t, rfl, ht⟩, us, hus, rfl⟩
    exact ⟨t, us, rfl, ht, hus⟩
  · rintro ⟨t, us, rfl, ht, hus⟩
    exact ⟨[t], ⟨t, rfl, ht⟩, us, hus, rfl⟩

theorem mem_mul_one : ts ∈ L * one test ↔ ∃ us t, ts = us ++ [t] ∧ us ∈ L ∧ test t := by
  rw [Language.mem_mul]
  constructor
  · rintro ⟨us, hus, _, ⟨t, rfl, ht⟩, rfl⟩
    exact ⟨us, t, rfl, hus, ht⟩
  · rintro ⟨us, t, rfl, hus, ht⟩
    exact ⟨us, hus, [t], ⟨t, rfl, ht⟩, rfl⟩

theorem one_add (p q : Token → Prop) : one p + one q = one fun t => p t ∨ q t := by
  ext ts
  simp only [Language.mem_add, mem_one, and_or_left, exists_or]

/-! ## Words that spell a node -/

/-- The names of the grammar are those that the parser takes. -/
theorem isName_iff {t : Token} : t.isName = true ↔
    t.kind = .identifier ∨ t.kind = .keyword ∧ ∀ k ∈ reserved, t.isKeyword k = false := by
  have hr (k : Keyword) : k.isReserved = true ↔ k ∈ reserved := by cases k <;> decide
  constructor
  · intro h
    refine (Token.kind_of_isName h).imp_right fun hk => ⟨hk, fun k hm => ?_⟩
    exact Token.isKeyword_of_isName h ((hr k).mpr hm)
  · rintro (hk | ⟨hk, h⟩)
    · simp [Token.isName, hk]
    · simp only [Token.isName, hk, Token.isReserved, Bool.not_eq_true']
      cases hw : t.keyword? with
      | none => rfl
      | some k =>
        have : t.isKeyword k = true := beq_iff_eq.mpr hw
        rw [← Bool.not_eq_true, hr]
        exact fun hm => absurd this (by simp [h k hm])

theorem name_eq : name = one fun t => t.isName = true :=
  one_congr fun _ => isName_iff.symm

/-- The numbers of the grammar are those that a literal is spelled by. -/
theorem mem_number : ts ∈ number ↔ ∃ n : NumberLiteral, n.SpelledBy ts := by
  have hd (t : Token) : (t.kind = .integer ∨ t.kind = .float) ↔ t.isNumber = true := by
    simp [Token.isNumber]
  simp only [number, sign, hd, add_mul, one_mul, Language.mem_add, mem_one, mem_one_mul]
  constructor
  · rintro ((⟨d, rfl, hd⟩ | ⟨s, _, rfl, hs, d, rfl, hd⟩) | ⟨s, _, rfl, hs, d, rfl, hd⟩)
    · exact ⟨_, .unsigned hd⟩
    · exact ⟨_, .minus hs hd⟩
    · exact ⟨_, .plus hs hd⟩
  · rintro ⟨_, hd | ⟨hs, hd⟩ | ⟨hs, hd⟩⟩
    · exact .inl (.inl ⟨_, rfl, hd⟩)
    · exact .inr ⟨_, _, rfl, hs, _, rfl, hd⟩
    · exact .inl (.inr ⟨_, _, rfl, hs, _, rfl, hd⟩)

theorem mem_literal : ts ∈ literal ↔ ∃ l : Literal, l.SpelledBy ts := by
  rw [literal, Language.mem_add, mem_number]
  constructor
  · rintro (⟨t, rfl, ht⟩ | ⟨n, hn⟩)
    · exact ⟨_, .string ht⟩
    · exact ⟨_, .number hn⟩
  · rintro ⟨_, hn | ht⟩
    · exact .inr ⟨_, hn⟩
    · exact .inl ⟨_, rfl, ht⟩

theorem exists_equality_iff {s : String} : (∃ op, Equality.ofText? s = some op) ↔
    s = "=" ∨ s = "==" ∨ s = "!=" ∨ s = "<>" := by
  unfold Equality.ofText?
  split
  · simp_all [← or_assoc]
  · split
    · simp_all
    · simp_all

theorem exists_comparison_iff {s : String} : (∃ op, Comparison.ofText? s = some op) ↔
    s = ">" ∨ s = ">=" ∨ s = "<" ∨ s = "<=" := by
  rw [← Option.isSome_iff_exists, Comparison.ofText?, List.find?_isSome]
  simp [Comparison.text, @eq_comm _ s]

theorem exists_relation_iff {s : String} : (∃ r, Relation.ofText? s = some r) ↔
    (∃ op, Equality.ofText? s = some op) ∨ ∃ op, Comparison.ofText? s = some op := by
  unfold Relation.ofText?
  cases Equality.ofText? s <;> simp

/-- The grammar lists the spellings of the relations, and each is one token. -/
theorem relation_eq : relation = one fun t => ∃ r : Relation, r.SpelledBy t := by
  simp only [relation, equality, comparison, sign, one_add, Token.isSign_iff, ← and_or_left]
  refine one_congr fun t => ?_
  simp only [Relation.SpelledBy, exists_and_left, exists_relation_iff, exists_equality_iff,
    exists_comparison_iff, Sign.text, or_assoc]

/-- The casts of the grammar, token by token. -/
theorem mem_cast : ts ∈ cast ↔ ∃ c : Cast, c.SpelledBy ts := by
  simp only [cast, keyword, mark, string, name_eq, mul_assoc, mem_one_mul, mem_one]
  constructor
  · rintro ⟨_, _, rfl, hc, _, _, rfl, ho, _, _, rfl, hv, _, _, rfl, ha, _, _, rfl, ht, _, rfl, hcl⟩
    exact ⟨_, .mk hc ho hv ha ht hcl⟩
  · rintro ⟨_, hc, ho, hv, ha, ht, hcl⟩
    exact ⟨_, _, rfl, hc, _, _, rfl, ho, _, _, rfl, hv, _, _, rfl, ha, _, _, rfl, ht, _, rfl, hcl⟩

theorem mem_element : ts ∈ element ↔ ∃ i : Iteration, i.SpelledBy ts := by
  simp only [element, mark, name_eq, relation_eq, mul_assoc, mem_one_mul, mem_mul_one, mem_literal]
  constructor
  · rintro ⟨_, _, rfl, ho, _, _, rfl, he, _, _, rfl, ⟨r, hr⟩, _, _, rfl, ⟨l, hl⟩, hc⟩
    exact ⟨_, .mk ho he hr hl hc⟩
  · rintro ⟨_, ho, he, hr, hl, hc⟩
    exact ⟨_, _, rfl, ho, _, _, rfl, he, _, _, rfl, ⟨_, hr⟩, _, _, rfl, ⟨_, hl⟩, hc⟩

theorem quantifier_eq :
    quantifier = one fun t => ∃ q : Quantifier, t.isKeyword q.keyword = true := by
  simp only [quantifier, keyword, one_add]
  refine one_congr fun t => ⟨?_, ?_⟩
  · rintro (h | h)
    · exact ⟨.any, h⟩
    · exact ⟨.all, h⟩
  · rintro ⟨_ | _, h⟩
    · exact .inr h
    · exact .inl h

theorem part_eq : part = one fun t => ∃ p : CollectionPart, t.isKeyword p.keyword = true := by
  simp only [part, keyword, one_add]
  refine one_congr fun t => ⟨?_, ?_⟩
  · rintro ((h | h) | h)
    · exact ⟨.list, h⟩
    · exact ⟨.mapKeys, h⟩
    · exact ⟨.mapValues, h⟩
  · rintro ⟨_ | _ | _, h⟩
    · exact .inl (.inl h)
    · exact .inl (.inr h)
    · exact .inr h

theorem region_eq : region = one fun t => ∃ r : RegionRelation, t.isKeyword r.keyword = true := by
  simp only [region, keyword, one_add]
  refine one_congr fun t => ⟨?_, ?_⟩
  · rintro (h | h)
    · exact ⟨.contains, h⟩
    · exact ⟨.within, h⟩
  · rintro ⟨_ | _, h⟩
    · exact .inl h
    · exact .inr h

/-- Three of the words for facts take nothing in their parentheses, and the fourth is the digest. -/
theorem facts_eq : fact .lastUpdate + fact .recordSize + fact .timeToLive =
    one fun t => t.kind = .identifier ∧ ∃ m ≠ .digest, MetadataName.ofText? t.literal = some m := by
  simp only [fact, one_add, ← and_or_left]
  refine one_congr fun t => and_congr_right fun _ => ⟨?_, ?_⟩
  · rintro ((h | h) | h)
    · exact ⟨.lastUpdate, nofun, h⟩
    · exact ⟨.recordSize, nofun, h⟩
    · exact ⟨.timeToLive, nofun, h⟩
  · rintro ⟨_ | _ | _ | _, hd, h⟩
    · exact absurd rfl hd
    · exact .inl (.inl h)
    · exact .inl (.inr h)
    · exact .inr h

/-- The words in front of the relation of a predicate on a fact. -/
theorem mem_metadata : ts ∈ metadata ↔ ∃ first name m opening us closing,
    ts = first :: opening :: (us ++ [closing]) ∧
      (first.kind = .identifier ∧ MetadataName.ofText? first.literal = some name) ∧
      opening.isMark .openParen = true ∧ name.ModuloSpelledBy m us ∧
      closing.isMark .closeParen = true := by
  rw [metadata, facts_eq]
  simp only [fact, mark, mul_assoc, Language.mem_add, mem_one_mul, mem_one]
  constructor
  · rintro (⟨_, _, rfl, hf, _, _, rfl, ho, h⟩ | ⟨_, _, rfl, ⟨hk, name, hd, hn⟩, _, _, rfl, ho, _,
      rfl, hc⟩)
    · obtain ⟨us, _, rfl, hn, hc⟩ := mem_mul_one.mp h
      obtain ⟨n, hn⟩ := mem_number.mp hn
      exact ⟨_, .digest, some n, _, us, _, rfl, hf, ho, ⟨rfl, hn⟩, hc⟩
    · exact ⟨_, name, none, _, [], _, rfl, ⟨hk, hn⟩, ho, ⟨hd, rfl⟩, hc⟩
  · rintro ⟨_, name, m, _, us, closing, rfl, ⟨hk, hn⟩, ho, hm, hc⟩
    cases m with
    | some n =>
      obtain ⟨rfl, hm⟩ := hm
      refine .inl ⟨_, _, rfl, ⟨hk, hn⟩, _, _, rfl, ho, ?_⟩
      exact mem_mul_one.mpr ⟨us, closing, rfl, mem_number.mpr ⟨n, hm⟩, hc⟩
    | none =>
      obtain ⟨hd, rfl⟩ := hm
      exact .inr ⟨_, _, rfl, ⟨hk, name, hd, hn⟩, _, _, rfl, ho, _, rfl, hc⟩

/-- The productions of a predicate are its forms, where a walk over a collection with a quantifier
and one without it are one production. -/
theorem mem_atomic : ts ∈ atomic ↔ ∃ a : Atomic, a.SpelledBy ts := by
  simp only [atomic, keyword, name_eq, relation_eq, quantifier_eq, part_eq, region_eq, string,
    add_mul, one_mul, mul_add, mul_assoc, Language.mem_add, mem_one_mul, mem_one,
    mem_literal, mem_element, mem_cast]
  constructor
  · rintro ((((h | h) | (h | h)) | h) | h)
    · obtain ⟨_, hm, _, hr, rfl⟩ := Language.mem_mul.mp h
      obtain ⟨_, _, _, _, us, _, rfl, ⟨hf, hn⟩, ho, hm, hc⟩ := mem_metadata.mp hm
      obtain ⟨_, _, rfl, ⟨r, hr⟩, hv⟩ := mem_one_mul.mp hr
      obtain ⟨n, hv⟩ := mem_number.mp hv
      exact ⟨_, by simpa using Atomic.SpelledBy.metadata hf hn ho hm hc hr hv⟩
    · obtain ⟨_, _, rfl, hb, _, _, rfl, ⟨r, hr⟩, l, hl⟩ := h
      exact ⟨_, .relation hb hr hl⟩
    · obtain ⟨_, _, rfl, hb, _, _, rfl, ⟨p, hp⟩, i, hi⟩ := h
      exact ⟨_, .iterate hb hp hi⟩
    · obtain ⟨_, _, rfl, hb, _, _, rfl, ⟨q, hq⟩, _, _, rfl, ⟨p, hp⟩, i, hi⟩ := h
      exact ⟨_, .quantified hb hq hp hi⟩
    · obtain ⟨_, _, rfl, hb, _, _, rfl, ⟨r, hr⟩, c, hc⟩ := h
      exact ⟨_, .region hb hr hc⟩
    · obtain ⟨_, _, rfl, hb, _, _, rfl, hw, _, rfl, hp⟩ := h
      exact ⟨_, .like hb hw hp⟩
  · rintro ⟨_, h⟩
    cases h with
    | @metadata first opening closing sign name m r n us vs hf hn ho hm hc hr hv =>
      have hm : first :: opening :: (us ++ [closing]) ∈ metadata :=
        mem_metadata.mpr ⟨_, name, m, _, us, _, rfl, ⟨hf, hn⟩, ho, hm, hc⟩
      have hr : sign :: vs ∈ (one fun t => ∃ r : Relation, r.SpelledBy t) * number :=
        mem_one_mul.mpr ⟨sign, vs, rfl, ⟨r, hr⟩, mem_number.mpr ⟨n, hv⟩⟩
      have h := Language.append_mem_mul hm hr
      exact .inl (.inl (.inl (.inl (by simpa using h))))
    | relation hb hr hl => exact .inl (.inl (.inl (.inr ⟨_, _, rfl, hb, _, _, rfl, ⟨_, hr⟩, _, hl⟩)))
    | region hb hr hc => exact .inl (.inr ⟨_, _, rfl, hb, _, _, rfl, ⟨_, hr⟩, _, hc⟩)
    | like hb hw hp => exact .inr ⟨_, _, rfl, hb, _, _, rfl, hw, _, rfl, hp⟩
    | iterate hb hw hi =>
      exact .inl (.inl (.inr (.inl ⟨_, _, rfl, hb, _, _, rfl, ⟨_, hw⟩, _, hi⟩)))
    | quantified hb hq hw hi =>
      exact .inl (.inl (.inr (.inr ⟨_, _, rfl, hb, _, _, rfl, ⟨_, hq⟩, _, _, rfl, ⟨_, hw⟩, _, hi⟩)))

end Grammar
end RecordQuery
