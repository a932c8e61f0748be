import Mathlib.Data.List.Induction
import RecordQuery.Proofs.Json.Printing
import RecordQuery.Schema.Json

/-! # The two readers of schemas

What is written for a schema is read by both readers as that schema. Any other document that
`Schema.ofText?` reads is read by `Schema.ofConfigurationText` too, as an equal schema, if the
types in it are strings; the object with the name of a type as its only member, which stands for
the name as well, is of the wrong form there (`Schema.ofConfigurationText_of_ofText?`). -/

namespace RecordQuery

open Json

/-! ## Dictionaries -/

namespace Dictionary

variable {α β : Type}

theorem ext_entries {d e : Dictionary α} (h : d.entries = e.entries) : d = e := by
  cases d
  cases e
  cases h
  rfl

theorem insertEntry_eq_append {name : String} (value : α) {entries : List (String × α)}
    (h : ∀ e ∈ entries, e.1 < name) :
    insertEntry name value entries = entries ++ [(name, value)] := by
  induction entries with
  | nil => rfl
  | cons e entries ih =>
    obtain ⟨he, h⟩ := List.forall_mem_cons.mp h
    rw [insertEntry, if_neg (String.lt_asymm he), if_neg (Ne.symm (String.ne_of_lt he)), ih h]
    rfl

theorem entries_foldl_insert {d : Dictionary α} {entries : List (String × α)}
    (h : (d.entries ++ entries).Pairwise fun a b => a.1 < b.1) :
    (entries.foldl (fun d e => d.insert e.1 e.2) d).entries = d.entries ++ entries := by
  induction entries generalizing d with
  | nil => exact (List.append_nil _).symm
  | cons e entries ih =>
    have hinsert : (d.insert e.1 e.2).entries = d.entries ++ [e] :=
      insertEntry_eq_append e.2 fun f hf =>
        (List.pairwise_append.mp h).2.2 f hf e List.mem_cons_self
    rw [List.append_cons, ← hinsert] at h ⊢
    exact ih h

/-- A dictionary is made again of its entries. -/
theorem ofList_entries (d : Dictionary α) : ofList d.entries = d :=
  ext_entries (entries_foldl_insert (d := empty) d.ascending)

/-- The dictionary with every value changed by `f`. -/
def map (f : α → β) (d : Dictionary α) : Dictionary β :=
  ⟨d.entries.map fun e => (e.1, f e.2), List.pairwise_map.mpr d.ascending⟩

theorem insertEntry_map (f : α → β) (name : String) (value : α) (entries : List (String × α)) :
    insertEntry name (f value) (entries.map fun e => (e.1, f e.2)) =
      (insertEntry name value entries).map fun e => (e.1, f e.2) := by
  induction entries with
  | nil => rfl
  | cons e entries ih =>
    rw [List.map_cons, insertEntry, insertEntry, ih]
    split
    · rfl
    split <;> rfl

theorem insert_map (f : α → β) (d : Dictionary α) (name : String) (value : α) :
    (d.map f).insert name (f value) = (d.insert name value).map f :=
  ext_entries (insertEntry_map f name value d.entries)

theorem ofList_map (f : α → β) (entries : List (String × α)) :
    ofList (entries.map fun e => (e.1, f e.2)) = (ofList entries).map f := by
  have step (d : Dictionary α) : (entries.map fun e => (e.1, f e.2)).foldl
      (fun d e => d.insert e.1 e.2) (d.map f) =
      (entries.foldl (fun d e => d.insert e.1 e.2) d).map f := by
    induction entries generalizing d with
    | nil => rfl
    | cons e entries ih =>
      rw [List.map_cons, List.foldl_cons, List.foldl_cons, insert_map]
      exact ih _
  exact step empty

/-- If a name is repeated, its last value counts. -/
theorem get?_ofList (entries : List (String × α)) (name : String) :
    (ofList entries).get? name = entries.reverse.lookup name := by
  induction entries using List.reverseRecOn with
  | nil => rfl
  | append_singleton entries e ih =>
    rw [ofList, List.foldl_concat, List.reverse_concat, List.lookup_cons]
    by_cases h : name = e.1
    · rw [h, get?_insert_self, beq_self_eq_true]
    · rw [get?_insert_of_ne _ h, beq_eq_false_iff_ne.mpr h]
      exact ih

end Dictionary

namespace Json

variable {α β : Type} {read : Json → Option α} {read' : Json → Option β}

/-- Reads the members of an object as the entries of a dictionary. -/
def entries? (read : Json → Option α) (members : List (String × Json)) :
    Option (List (String × α)) :=
  members.mapM fun m => (read m.2).map (m.1, ·)

theorem dictionary?_object (read : Json → Option α) (members : List (String × Json)) :
    (object members).dictionary? read = (entries? read members).map .ofList := by
  cases h : entries? read members with
  | none => exact congrArg (Option.bind · _) h
  | some entries => exact congrArg (Option.bind · _) h

theorem entries?_cons (m : String × Json) (members : List (String × Json)) :
    entries? read (m :: members) =
      (read m.2).bind fun a => (entries? read members).map ((m.1, a) :: ·) := by
  rw [entries?, List.mapM_cons]
  cases read m.2 with
  | none => rfl
  | some a => cases h : entries? read members <;> exact congrArg (Option.bind · _) h

/-- A dictionary is read as it was written, if its values are. -/
theorem dictionary?_toJson {write : α → Json} (h : ∀ a, read (write a) = some a)
    (d : Dictionary α) : (d.toJson write).dictionary? read = some d := by
  have hread : (fun m : String × Json => (read m.2).map (m.1, ·)) ∘
      (fun e : String × α => (e.1, write e.2)) = fun e => pure e :=
    funext fun e => by simp [h]
  have hentries : entries? read (d.entries.map fun e => (e.1, write e.2)) = some d.entries := by
    rw [entries?, List.mapM_map, hread, List.mapM_pure, List.map_id']
    rfl
  rw [Dictionary.toJson, dictionary?_object, hentries, Option.map_some, d.ofList_entries]

theorem exists_of_entries? {members : List (String × Json)} {entries : List (String × α)}
    (h : entries? read members = some entries) : ∀ m ∈ members, ∃ a, read m.2 = some a := by
  induction members generalizing entries with
  | nil => exact nofun
  | cons m members ih =>
    rw [entries?_cons] at h
    obtain ⟨a, ha, h⟩ := Option.bind_eq_some_iff.mp h
    obtain ⟨es, hes, -⟩ := Option.map_eq_some_iff.mp h
    exact List.forall_mem_cons.mpr ⟨⟨a, ha⟩, ih hes⟩

/-- Only an object of things that can be read is read as a dictionary. -/
theorem exists_of_dictionary? {j : Json} {d : Dictionary α} (h : j.dictionary? read = some d) :
    ∃ members, j = object members ∧ ∀ m ∈ members, ∃ a, read m.2 = some a := by
  cases j with
  | object members =>
    rw [dictionary?_object] at h
    obtain ⟨entries, h, -⟩ := Option.map_eq_some_iff.mp h
    exact ⟨members, rfl, exists_of_entries? h⟩
  | _ => cases h

theorem entries?_map {f : α → β} {members : List (String × Json)}
    (hf : ∀ m ∈ members, read' m.2 = (read m.2).map f) :
    entries? read' members = (entries? read members).map (List.map fun e => (e.1, f e.2)) := by
  induction members with
  | nil => rfl
  | cons m members ih =>
    obtain ⟨hm, hf⟩ := List.forall_mem_cons.mp hf
    rw [entries?_cons, entries?_cons, ih hf, hm]
    cases read m.2 with
    | none => rfl
    | some a => cases entries? read members <;> rfl

/-- Two ways to read the values of a dictionary differ in it as they differ in the values. -/
theorem dictionary?_map {f : α → β} {members : List (String × Json)}
    (hf : ∀ m ∈ members, read' m.2 = (read m.2).map f) :
    (object members).dictionary? read' =
      ((object members).dictionary? read).map (Dictionary.map f) := by
  rw [dictionary?_object, dictionary?_object, entries?_map hf, Option.map_map, Option.map_map]
  exact congrArg (Option.map · _) (funext fun entries => Dictionary.ofList_map f entries)

theorem mem_of_member? {members : List (String × Json)} {name : String} {j : Json}
    (h : member? members name = some j) : (name, j) ∈ members := by
  obtain ⟨_, _, hj, -⟩ := List.lookup_eq_some_iff.mp h
  exact List.mem_reverse.mp (by simp [hj])

theorem lookup_entries? {members : List (String × Json)} {entries : List (String × α)}
    (h : entries? read members = some entries) (name : String) :
    entries.reverse.lookup name = (member? members name).bind read := by
  induction members generalizing entries with
  | nil =>
    cases h
    rfl
  | cons m members ih =>
    rw [entries?_cons] at h
    obtain ⟨a, ha, h⟩ := Option.bind_eq_some_iff.mp h
    obtain ⟨es, hes, rfl⟩ := Option.map_eq_some_iff.mp h
    rw [List.reverse_cons, List.lookup_append, ih hes, member?_cons]
    cases hm : member? members name with
    | none =>
      by_cases hn : name = m.1
      · simp [hn, ha]
      · simp [hn, beq_eq_false_iff_ne.mpr hn, List.lookup_cons]
    | some j =>
      obtain ⟨b, hb⟩ := exists_of_entries? hes _ (mem_of_member? hm)
      simp [hb]

/-- The value under a name is that of the last member of the name. -/
theorem get?_of_dictionary? {members : List (String × Json)} {d : Dictionary α}
    (h : (object members).dictionary? read = some d) (name : String) :
    d.get? name = (member? members name).bind read := by
  rw [dictionary?_object] at h
  obtain ⟨entries, hentries, rfl⟩ := Option.map_eq_some_iff.mp h
  rw [Dictionary.get?_ofList, lookup_entries? hentries]

end Json

/-! ## Types -/

theorem ParticleType.ofJson?_toJson (t : ParticleType) : ofJson? t.toJson = some t := by
  cases t <;> decide

theorem ParticleType.ofText?_text (t : ParticleType) : ofText? t.text = some t := by
  cases t <;> decide

theorem ParticleType.string?_eq_of_ofJson? {j : Json} {t : ParticleType} (h : ofJson? j = some t)
    (hj : j.string?.isSome = true) : j.string? = some t.text := by
  cases j with
  | string tag =>
    have htag := List.find?_some (p := fun t : ParticleType => t.text == tag) h
    exact congrArg some (eq_of_beq htag).symm
  | _ => cases hj

namespace Schema

/-- The values that stand for the types in a document, those of repeated members included. -/
def typeTags (j : Json) : List Json :=
  (j.object?.getD []).flatMap fun source => (source.2.object?.getD []).map (·.2)

/-- Every type in the document is written as a string. -/
def HasStringTags (j : Json) : Prop := ∀ tag ∈ typeTags j, tag.string?.isSome = true

instance (j : Json) : Decidable (HasStringTags j) :=
  inferInstanceAs (Decidable (∀ tag ∈ typeTags j, tag.string?.isSome = true))

/-- The names of the types in a schema. -/
def tags (s : Schema) : Dictionary (Dictionary String) := s.sources.map (.map ParticleType.text)

theorem mapM_typeOfTag (source : String) (types : TypeTable) :
    (types.map ParticleType.text).entries.mapM (fun bin => do
      return (bin.1, ← typeOfTag source bin.1 bin.2)) = Except.ok types.entries := by
  have hbin : (fun bin : String × String => do
      return (bin.1, ← typeOfTag source bin.1 bin.2)) ∘
        (fun e : String × ParticleType => (e.1, e.2.text)) = fun e => pure e := by
    funext e
    rw [Function.comp_apply, typeOfTag, e.2.ofText?_text]
    rfl
  rw [Dictionary.map, List.mapM_map, hbin, List.mapM_pure, List.map_id']
  rfl

/-- The names of the types in a schema stand for the schema. -/
theorem ofTags_tags (s : Schema) : ofTags s.tags = .ok s := by
  have hsource : (fun source : String × Dictionary String => do
      let bins ← source.2.entries.mapM fun bin : String × String => do
        return (bin.1, ← typeOfTag source.1 bin.1 bin.2)
      return (source.1, Dictionary.ofList bins)) ∘
        (fun e : String × TypeTable => (e.1, e.2.map ParticleType.text)) = fun e => pure e := by
    funext e
    rw [Function.comp_apply, mapM_typeOfTag]
    exact congrArg (fun types => Except.ok (e.1, types)) e.2.ofList_entries
  rw [ofTags, tags, Dictionary.map, List.mapM_map, hsource, List.mapM_pure, List.map_id']
  exact congrArg (fun sources => Except.ok (Schema.mk sources)) s.sources.ofList_entries

/-! ## Readers -/

/-- A schema is read from the value that is written for it. -/
theorem ofJson?_toJson (s : Schema) : ofJson? s.toJson = some s := by
  have h := dictionary?_toJson (dictionary?_toJson ParticleType.ofJson?_toJson) s.sources
  exact congrArg (Option.map Schema.mk) h

theorem hasStringTags_toJson (s : Schema) : HasStringTags s.toJson := by
  intro tag htag
  obtain ⟨source, hsource, htag⟩ := List.mem_flatMap.mp htag
  obtain ⟨e, -, rfl⟩ := List.mem_map.mp hsource
  obtain ⟨bin, hbin, rfl⟩ := List.mem_map.mp htag
  obtain ⟨b, -, rfl⟩ := List.mem_map.mp hbin
  rfl

theorem within_toJson (s : Schema) (depth : Nat) : s.toJson.Within (depth + 2) := by
  intro source hsource
  obtain ⟨e, -, rfl⟩ := List.mem_map.mp hsource
  intro bin hbin
  obtain ⟨b, -, rfl⟩ := List.mem_map.mp hbin
  exact within_string b.2.text

theorem parse?_toJson_text (s : Schema) : parse? s.toJson.text = some s.toJson :=
  parse?_text (s.within_toJson 125)

/-- Where every type is written as a string, it is read by its name. -/
theorem dictionary?_string? {j : Json} {s : Schema} (h : ofJson? j = some s)
    (htags : HasStringTags j) : j.dictionary? (·.dictionary? string?) = some s.tags := by
  obtain ⟨sources, hs, rfl⟩ := Option.map_eq_some_iff.mp h
  obtain ⟨members, rfl, hmembers⟩ := exists_of_dictionary? hs
  have hbins : ∀ m ∈ members, m.2.dictionary? string? =
      (m.2.dictionary? ParticleType.ofJson?).map (Dictionary.map ParticleType.text) := by
    intro m hm
    obtain ⟨types, ht⟩ := hmembers m hm
    obtain ⟨bins, hb, hread⟩ := exists_of_dictionary? ht
    rw [hb]
    apply dictionary?_map
    intro b hbin
    obtain ⟨t, ht⟩ := hread b hbin
    have htag : b.2 ∈ typeTags (object members) :=
      List.mem_flatMap.mpr ⟨m, hm, by rw [hb]; exact List.mem_map_of_mem hbin⟩
    rw [ParticleType.string?_eq_of_ofJson? ht (htags b.2 htag), ht]
    rfl
  rw [dictionary?_map hbins, hs]
  rfl

/-- A type that is not a string is of the wrong form. -/
theorem hasStringTags_of_dictionary? {j : Json} {tags : Dictionary (Dictionary String)}
    (h : j.dictionary? (·.dictionary? string?) = some tags) : HasStringTags j := by
  obtain ⟨members, rfl, hmembers⟩ := exists_of_dictionary? h
  intro tag htag
  obtain ⟨m, hm, htag⟩ := List.mem_flatMap.mp htag
  obtain ⟨names, hnames⟩ := hmembers m hm
  obtain ⟨bins, hb, hbins⟩ := exists_of_dictionary? hnames
  rw [hb] at htag
  obtain ⟨b, hb, rfl⟩ := List.mem_map.mp htag
  obtain ⟨name, hname⟩ := hbins b hb
  rw [hname]
  rfl

/-- A value that is read as it would be written is read as people write it, if the types in it are
strings. -/
theorem ofConfiguration_eq {j : Json} {s : Schema} (h : ofJson? j = some s) :
    ofConfiguration j = if HasStringTags j then .ok s else .error .wrongForm := by
  split
  · next htags =>
    rw [ofConfiguration, dictionary?_string? h htags]
    exact s.ofTags_tags
  · next htags =>
    cases hd : j.dictionary? (·.dictionary? string?) with
    | none => rw [ofConfiguration, hd]
    | some tags => exact absurd (hasStringTags_of_dictionary? hd) htags

/-- The type of a bin in a document: the last member of a name counts. -/
def lastType? (j : Json) (source bin : String) : Option ParticleType := do
  let bins ← member? (← j.object?) source
  ParticleType.ofJson? (← member? (← bins.object?) bin)

theorem typeOf?_of_ofJson? {j : Json} {s : Schema} (h : ofJson? j = some s) (source bin : String) :
    s.typeOf? source bin = lastType? j source bin := by
  obtain ⟨sources, hs, rfl⟩ := Option.map_eq_some_iff.mp h
  obtain ⟨members, rfl, hmembers⟩ := exists_of_dictionary? hs
  rw [typeOf?, typeTable?, get?_of_dictionary? hs, lastType?, object?]
  cases hm : member? members source with
  | none => simp [hm]
  | some bins =>
    obtain ⟨types, ht⟩ := hmembers _ (mem_of_member? hm)
    obtain ⟨bs, rfl, -⟩ := exists_of_dictionary? ht
    simp [hm, ht, get?_of_dictionary? ht, object?]

/-- Both readers read a schema as it was written. A document that `ofText?` reads is read by
`ofConfigurationText` as the same schema if the types in it are strings, and is of the wrong form
otherwise. Of repeated members the last one counts. -/
theorem ofConfigurationText_of_ofText? :
    (∀ s : Schema, ofConfigurationText s.toJson.text = .ok s ∧ ofText? s.toJson.text = some s) ∧
      ∀ (text : String) (s : Schema), ofText? text = some s →
        ∃ j, parse? text = some j ∧
          (∀ source bin, s.typeOf? source bin = lastType? j source bin) ∧
          ofConfigurationText text = if HasStringTags j then .ok s else .error .wrongForm := by
  refine ⟨fun s => ⟨?_, ?_⟩, ?_⟩
  · rw [ofConfigurationText, s.parse?_toJson_text]
    exact (ofConfiguration_eq s.ofJson?_toJson).trans (if_pos s.hasStringTags_toJson)
  · rw [ofText?, s.parse?_toJson_text, Option.bind_some, s.ofJson?_toJson]
  · intro text s h
    obtain ⟨j, hj, h⟩ := Option.bind_eq_some_iff.mp h
    refine ⟨j, hj, typeOf?_of_ofJson? h, ?_⟩
    rw [ofConfigurationText, hj]
    exact ofConfiguration_eq h

/-- A document that names a source and a bin twice. -/
def repeatedMembers : String :=
  "\x7b \"a\": \x7b\"b\": \"LIST\"\x7d, \"a\": \x7b\"c\": \"STRING\", \"c\": \"MAP\"\x7d \x7d"

theorem ofConfigurationText_repeatedMembers :
    ofText? repeatedMembers = some (empty.add "a" "c" .map) ∧
      ∃ j, parse? repeatedMembers = some j ∧
        (∀ source bin, (empty.add "a" "c" .map).typeOf? source bin = lastType? j source bin) ∧
        ofConfigurationText repeatedMembers =
          if HasStringTags j then .ok (empty.add "a" "c" .map) else .error .wrongForm := by
  have h : ofText? repeatedMembers = some (empty.add "a" "c" .map) := by decide +kernel
  exact ⟨h, ofConfigurationText_of_ofText?.2 repeatedMembers _ h⟩

/-- A document with a type that is written as an object. -/
def objectTag : String := "\x7b\"a\":\x7b\"b\":\x7b\"INTEGER\":null\x7d\x7d\x7d"

/-- The document with an object for a type is read by one of the readers only. -/
theorem ofConfigurationText_objectTag :
    ofText? objectTag = some (empty.add "a" "b" .integer) ∧
      ofConfigurationText objectTag = .error .wrongForm :=
  ⟨by decide +kernel, by decide +kernel⟩

end Schema

end RecordQuery
