import RecordQuery.Proofs.Expression.Basic
import RecordQuery.Statement.Parser

/-! # The tokens that spell a statement

For every kind of node the relation `SpelledBy` says by which tokens the node is spelled. It is
the grammar of the language: it leaves open what the parser does not care about, such as the case
of a keyword, a plus before a number, or the parentheses around a WITH clause, and it fixes which
tokens the node keeps. -/

namespace RecordQuery

open Text

/-! ## Words -/

/-- The keyword that asks for the part. -/
def CollectionPart.keyword : CollectionPart → Keyword
  | list => .CONTAINS
  | mapKeys => .MAPKEYS
  | mapValues => .MAPVALUES

/-- The keyword of the quantifier. -/
def Quantifier.keyword : Quantifier → Keyword
  | all => .ALL
  | any => .ANY

/-- The keyword of the relation. -/
def RegionRelation.keyword : RegionRelation → Keyword
  | contains => .CONTAINS
  | within => .WITHIN

/-- The keyword of the connective. -/
def Connective.keyword : Connective → Keyword
  | not => .NOT
  | and => .AND
  | or => .OR

/-- The token is a sign for the relation. -/
def Relation.SpelledBy (r : Relation) (t : Token) : Prop :=
  t.kind = .operator ∧ Relation.ofText? t.literal = some r

/-! ## Literals and casts -/

inductive NumberLiteral.SpelledBy : NumberLiteral → List Token → Prop
  | unsigned {digits : Token} (hd : digits.isNumber = true) :
    SpelledBy ⟨digits.literal, digits⟩ [digits]
  | plus {sign digits : Token} (hs : sign.isSign .plus = true) (hd : digits.isNumber = true) :
    SpelledBy ⟨digits.literal, sign⟩ [sign, digits]
  | minus {sign digits : Token} (hs : sign.isSign .minus = true) (hd : digits.isNumber = true) :
    SpelledBy ⟨"-" ++ digits.literal, sign⟩ [sign, digits]

inductive Literal.SpelledBy : Literal → List Token → Prop
  | number {n : NumberLiteral} {ts : List Token} (hn : n.SpelledBy ts) : SpelledBy (.number n) ts
  | string {t : Token} (ht : t.kind = .string) : SpelledBy (.string (.ofToken t)) [t]

inductive Cast.SpelledBy : Cast → List Token → Prop
  | mk {cast opening value as type closing : Token} (hc : cast.isKeyword .CAST = true)
    (ho : opening.isMark .openParen = true) (hv : value.kind = .string)
    (ha : as.isKeyword .AS = true) (ht : type.isName = true)
    (hcl : closing.isMark .closeParen = true) :
    SpelledBy ⟨.ofToken value, uppercase type.literal, cast⟩
      [cast, opening, value, as, type, closing]

/-! ## Predicates -/

inductive Iteration.SpelledBy : Iteration → List Token → Prop
  | mk {opening element sign closing : Token} {r : Relation} {v : Literal} {ts : List Token}
    (ho : opening.isMark .openParen = true) (he : element.isName = true) (hr : r.SpelledBy sign)
    (hv : v.SpelledBy ts) (hc : closing.isMark .closeParen = true) :
    SpelledBy ⟨.ofToken element, r, v, opening⟩ (opening :: element :: sign :: (ts ++ [closing]))

/-- The tokens spell the number that the fact is taken modulo. No other fact than the digest has
one. -/
def MetadataName.ModuloSpelledBy (name : MetadataName) : Option NumberLiteral → List Token → Prop
  | some n, ts => name = .digest ∧ n.SpelledBy ts
  | none, ts => name ≠ .digest ∧ ts = []

inductive Atomic.SpelledBy : Atomic → List Token → Prop
  | metadata {first opening closing sign : Token} {name : MetadataName} {m : Option NumberLiteral}
    {r : Relation} {n : NumberLiteral} {ts us : List Token} (hf : first.kind = .identifier)
    (hn : MetadataName.ofText? first.literal = some name) (ho : opening.isMark .openParen = true)
    (hm : name.ModuloSpelledBy m ts) (hc : closing.isMark .closeParen = true)
    (hr : r.SpelledBy sign) (hv : n.SpelledBy us) :
    SpelledBy ⟨.metadata ⟨name, m, first⟩, .relation r, .literal (.number n), first⟩
      (first :: opening :: (ts ++ closing :: sign :: us))
  | relation {bin sign : Token} {r : Relation} {l : Literal} {ts : List Token}
    (hb : bin.isName = true) (hr : r.SpelledBy sign) (hl : l.SpelledBy ts) :
    SpelledBy ⟨.bin (.ofToken bin), .relation r, .literal l, bin⟩ (bin :: sign :: ts)
  | region {bin word : Token} {r : RegionRelation} {c : Cast} {ts : List Token}
    (hb : bin.isName = true) (hr : word.isKeyword r.keyword = true) (hc : c.SpelledBy ts) :
    SpelledBy ⟨.bin (.ofToken bin), .geo r, .cast c, bin⟩ (bin :: word :: ts)
  | like {bin word pattern : Token} (hb : bin.isName = true) (hw : word.isKeyword .LIKE = true)
    (hp : pattern.kind = .string) :
    SpelledBy ⟨.bin (.ofToken bin), .like, .literal (.string (.ofToken pattern)), bin⟩
      [bin, word, pattern]
  | iterate {bin word : Token} {part : CollectionPart} {i : Iteration} {ts : List Token}
    (hb : bin.isName = true) (hw : word.isKeyword part.keyword = true) (hi : i.SpelledBy ts) :
    SpelledBy ⟨.bin (.ofToken bin), .iterate part none, .iteration i, bin⟩ (bin :: word :: ts)
  | quantified {bin first word : Token} {part : CollectionPart} {q : Quantifier} {i : Iteration}
    {ts : List Token} (hb : bin.isName = true) (hq : first.isKeyword q.keyword = true)
    (hw : word.isKeyword part.keyword = true) (hi : i.SpelledBy ts) :
    SpelledBy ⟨.bin (.ofToken bin), .iterate part (some q), .iteration i, bin⟩
      (bin :: first :: word :: ts)

/-! ## The WHERE clause -/

inductive WhereEntry.SpelledBy : WhereEntry → List Token → Prop
  | openParen {t : Token} (ht : t.isMark .openParen = true) : SpelledBy (.openParen t) [t]
  | closeParen {t : Token} (ht : t.isMark .closeParen = true) : SpelledBy (.closeParen t) [t]
  | connective {t : Token} {c : Connective} (ht : t.isKeyword c.keyword = true) :
    SpelledBy (.connective c) [t]
  | atomic {a : Atomic} {ts : List Token} (ha : a.SpelledBy ts) : SpelledBy (.atomic a) ts

/-- The tokens spell the entries, one after the other. -/
inductive WhereEntry.AllSpelledBy : List WhereEntry → List Token → Prop
  | nil : AllSpelledBy [] []
  | cons {e : WhereEntry} {es : List WhereEntry} {ts us : List Token} (he : e.SpelledBy ts)
    (hes : AllSpelledBy es us) : AllSpelledBy (e :: es) (ts ++ us)

inductive WhereClause.SpelledBy : WhereClause → List Token → Prop
  | mk {word : Token} {es : List WhereEntry} {ts : List Token} (hw : word.isKeyword .WHERE = true)
    (ha : WhereEntry.alternates true es = true) (hes : WhereEntry.AllSpelledBy es ts) :
    SpelledBy ⟨es, word⟩ (word :: ts)

/-! ## The WITH clause -/

/-- The tokens spell the relation and the operand of a WITH clause. -/
inductive IndexArgument.SpelledBy : IndexLookup → IndexArgument → List Token → Prop
  | literal {relation : IndexLookup} {sign : Token} {l : Literal} {ts : List Token}
    (hs : sign.indexRelation? = some relation) (hr : relation ≠ .between) (hl : l.SpelledBy ts) :
    SpelledBy relation (.literal l) (sign :: ts)
  | cast {relation : IndexLookup} {sign : Token} {c : Cast} {ts : List Token}
    (hs : sign.indexRelation? = some relation) (hr : relation ≠ .between) (hc : c.SpelledBy ts) :
    SpelledBy relation (.cast c) (sign :: ts)
  | between {sign word : Token} {low high : NumberLiteral} {ts us : List Token}
    (hs : sign.indexRelation? = some .between) (hl : low.SpelledBy ts)
    (hw : word.isKeyword .AND = true) (hh : high.SpelledBy us) :
    SpelledBy .between (.between ⟨low, high, sign⟩) (sign :: (ts ++ word :: us))

/-- The tokens spell a WITH clause, without its keyword. Where the word for a collection could be
the name of the bin, it is that name, unless a parenthesis stands before the bin. -/
inductive IndexClause.SpelledBy : IndexClause → List Token → Prop
  | plain {bin : Token} {relation : IndexLookup} {a : IndexArgument} {ts : List Token}
    (hb : bin.isName = true) (ha : IndexArgument.SpelledBy relation a ts) :
    SpelledBy ⟨none, .ofToken bin, relation, a, bin⟩ (bin :: ts)
  | paren {opening bin closing : Token} {relation : IndexLookup} {a : IndexArgument}
    {ts : List Token} (ho : opening.isMark .openParen = true) (hb : bin.isName = true)
    (ha : IndexArgument.SpelledBy relation a ts) (hc : closing.isMark .closeParen = true) :
    SpelledBy ⟨none, .ofToken bin, relation, a, opening⟩ (opening :: bin :: (ts ++ [closing]))
  | declared {word bin : Token} {collection : IndexCollection} {relation : IndexLookup}
    {a : IndexArgument} {ts : List Token} (hw : word.indexCollection? = some collection)
    (hb : bin.isName = true) (hn : bin.beginsIndexRelation = false)
    (ha : IndexArgument.SpelledBy relation a ts) :
    SpelledBy ⟨some collection, .ofToken bin, relation, a, word⟩ (word :: bin :: ts)
  | declaredParen {word opening bin closing : Token} {collection : IndexCollection}
    {relation : IndexLookup} {a : IndexArgument} {ts : List Token}
    (hw : word.indexCollection? = some collection) (ho : opening.isMark .openParen = true)
    (hb : bin.isName = true) (ha : IndexArgument.SpelledBy relation a ts)
    (hc : closing.isMark .closeParen = true) :
    SpelledBy ⟨some collection, .ofToken bin, relation, a, word⟩
      (word :: opening :: bin :: (ts ++ [closing]))

/-! ## The statement -/

/-- The tokens spell the names of bins, with commas between them. -/
inductive Name.AllSpelledBy : List Name → List Token → Prop
  | last {t : Token} (ht : t.isName = true) : AllSpelledBy [.ofToken t] [t]
  | cons {t comma : Token} {ns : List Name} {ts : List Token} (ht : t.isName = true)
    (hc : comma.isMark .comma = true) (hns : AllSpelledBy ns ts) :
    AllSpelledBy (.ofToken t :: ns) (t :: comma :: ts)

inductive SelectList.SpelledBy : SelectList → List Token → Prop
  | star {t : Token} (ht : t.isSign .star = true) : SpelledBy .star [t]
  | bins {ns : List Name} {ts : List Token} (hns : Name.AllSpelledBy ns ts) :
    SpelledBy (.bins ns) ts

inductive Source.SpelledBy : Source → List Token → Prop
  | space {word t : Token} (hw : word.isKeyword .FROM = true) (ht : t.isName = true) :
    SpelledBy ⟨.ofToken t, none⟩ [word, t]
  | set {word t dot u : Token} (hw : word.isKeyword .FROM = true) (ht : t.isName = true)
    (hd : dot.isMark .dot = true) (hu : u.isName = true) :
    SpelledBy ⟨.ofToken t, some (.ofToken u)⟩ [word, t, dot, u]

/-- The tokens spell a WITH clause or, if there is none, are none. -/
inductive IndexClause.OptionSpelledBy : Option IndexClause → List Token → Prop
  | none : OptionSpelledBy none []
  | some {word : Token} {e : IndexClause} {ts : List Token} (hw : word.isKeyword .WITH = true)
    (he : e.SpelledBy ts) : OptionSpelledBy (some e) (word :: ts)

/-- The tokens spell a WHERE clause or, if there is none, are none. -/
inductive WhereClause.OptionSpelledBy : Option WhereClause → List Token → Prop
  | none : OptionSpelledBy none []
  | some {w : WhereClause} {ts : List Token} (hw : w.SpelledBy ts) : OptionSpelledBy (some w) ts

/-- The tokens are a semicolon or none. -/
inductive Statement.EndedBy : List Token → Prop
  | nothing : EndedBy []
  | semicolon {t : Token} (ht : t.isMark .semicolon = true) : EndedBy [t]

inductive Statement.SpelledBy : Statement → List Token → Prop
  | mk {word : Token} {selection : SelectList} {source : Source} {index : Option IndexClause}
    {condition : Option WhereClause} {ts us vs ws xs : List Token}
    (hw : word.isKeyword .SELECT = true) (hts : selection.SpelledBy ts) (hus : source.SpelledBy us)
    (hvs : IndexClause.OptionSpelledBy index vs)
    (hws : WhereClause.OptionSpelledBy condition ws) (hxs : Statement.EndedBy xs) :
    SpelledBy ⟨selection, source, index, condition, word⟩ (word :: (ts ++ us ++ vs ++ ws ++ xs))

end RecordQuery
