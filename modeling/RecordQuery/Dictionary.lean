/-! # Dictionaries

A dictionary has values under names. Its entries are kept in the order of their names, by
code point, each name once, so two dictionaries that hold the same are equal. -/

namespace RecordQuery

/-- Values under names, in the order of the names. -/
structure Dictionary (α : Type) where
  entries : List (String × α)
  ascending : entries.Pairwise fun a b => a.1 < b.1

namespace Dictionary

instance [DecidableEq α] : DecidableEq (Dictionary α) := fun d e =>
  if h : d.entries = e.entries then
    isTrue (by cases d; cases e; simp_all)
  else
    isFalse (by rintro rfl; exact h rfl)

/-- The dictionary that holds nothing. -/
def empty : Dictionary α := ⟨[], .nil⟩

instance : Inhabited (Dictionary α) := ⟨empty⟩

/-- The value under `name`. -/
def get? (d : Dictionary α) (name : String) : Option α := d.entries.lookup name

/-- The names, in order. -/
def names (d : Dictionary α) : List String := d.entries.map (·.1)

/-- The number of names. -/
def size (d : Dictionary α) : Nat := d.entries.length

/-- Ordered entries with the value under `name` set. -/
def insertEntry (name : String) (value : α) : List (String × α) → List (String × α)
  | [] => [(name, value)]
  | e :: rest =>
    if name < e.1 then (name, value) :: e :: rest
    else if name = e.1 then (name, value) :: rest
    else e :: insertEntry name value rest

theorem mem_insertEntry {name : String} {value : α} {entries : List (String × α)}
    {e : String × α} (h : e ∈ insertEntry name value entries) :
    e = (name, value) ∨ e ∈ entries := by
  induction entries with
  | nil => simpa [insertEntry] using h
  | cons f rest ih =>
    unfold insertEntry at h
    split at h
    · simpa using h
    · split at h
      · rcases List.mem_cons.mp h with h | h
        · exact .inl h
        · exact .inr (List.mem_cons_of_mem _ h)
      · rcases List.mem_cons.mp h with h | h
        · exact .inr (h ▸ List.mem_cons_self)
        · exact (ih h).imp_right (List.mem_cons_of_mem _)

/-- The entry goes in front of the first one with a later name, or takes the place of the one with
its own. -/
theorem ascending_insertEntry (name : String) (value : α) {entries : List (String × α)}
    (h : entries.Pairwise fun a b => a.1 < b.1) :
    (insertEntry name value entries).Pairwise fun a b => a.1 < b.1 := by
  induction entries with
  | nil => simp [insertEntry]
  | cons e rest ih =>
    rw [List.pairwise_cons] at h
    unfold insertEntry
    split
    · next hlt =>
      refine .cons (fun f hf => ?_) (.cons h.1 h.2)
      rcases List.mem_cons.mp hf with rfl | hf
      · exact hlt
      · exact String.lt_trans hlt (h.1 f hf)
    · split
      · next heq => exact .cons (fun f hf => heq ▸ h.1 f hf) h.2
      · next hlt hne =>
        refine .cons (fun f hf => ?_) (ih h.2)
        rcases mem_insertEntry hf with rfl | hf
        · have hle : e.1 ≤ name := String.not_lt.mp hlt
          exact Std.lt_of_le_of_ne hle (Ne.symm hne)
        · exact h.1 f hf

/-- The dictionary with the value under `name` set. -/
def insert (d : Dictionary α) (name : String) (value : α) : Dictionary α :=
  ⟨insertEntry name value d.entries, ascending_insertEntry name value d.ascending⟩

/-- The dictionary of a list of entries. If a name is repeated, the last entry counts. -/
def ofList (entries : List (String × α)) : Dictionary α :=
  entries.foldl (fun d e => d.insert e.1 e.2) empty

/-! ## Look-up after a change -/

@[simp] theorem get?_empty (name : String) : (empty : Dictionary α).get? name = none := rfl

theorem lookup_insertEntry_self (name : String) (value : α) (entries : List (String × α)) :
    (insertEntry name value entries).lookup name = some value := by
  induction entries with
  | nil => simp [insertEntry]
  | cons e rest ih =>
    obtain ⟨key, old⟩ := e
    unfold insertEntry
    split
    · simp
    · split
      · simp
      · next hne =>
        have : (name == key) = false := by simpa using hne
        simp [List.lookup_cons, this, ih]

theorem lookup_insertEntry_of_ne {name other : String} (h : other ≠ name) (value : α)
    (entries : List (String × α)) :
    (insertEntry name value entries).lookup other = entries.lookup other := by
  have hb : (other == name) = false := by simpa using h
  induction entries with
  | nil => simp [insertEntry, List.lookup_cons, hb]
  | cons e rest ih =>
    obtain ⟨key, old⟩ := e
    unfold insertEntry
    split
    · simp [List.lookup_cons, hb]
    · split
      · next heq =>
        have hk : (other == key) = false := by simpa [show key = name from heq.symm] using h
        simp [List.lookup_cons, hb, hk]
      · simp only [List.lookup_cons, ih]

@[simp] theorem get?_insert_self (d : Dictionary α) (name : String) (value : α) :
    (d.insert name value).get? name = some value :=
  lookup_insertEntry_self name value d.entries

/-- What is under other names stays. -/
theorem get?_insert_of_ne (d : Dictionary α) {name other : String} (h : other ≠ name)
    (value : α) : (d.insert name value).get? other = d.get? other :=
  lookup_insertEntry_of_ne h value d.entries

end Dictionary

end RecordQuery
