/-! # JSON values

A value keeps the members of its objects in the order in which they are written, repeated
names included. Numbers are of two sorts: an integer is known by its value, any other number
by its text. Minus zero is of the second sort, since no integer is written so.

The second half of the module looks into values. What is looked for may be missing or of
another form, so every look-up is partial. -/

namespace RecordQuery

/-- A JSON value. -/
inductive Json
  | null
  | bool (b : Bool)
  | integer (n : Int)
  | real (text : String)
  | string (s : String)
  | array (elements : List Json)
  | object (members : List (String × Json))

namespace Json

/-- The string that the value is. -/
def string? : Json → Option String
  | string s => some s
  | _ => none

/-- The integer that the value is. -/
def integer? : Json → Option Int
  | integer n => some n
  | _ => none

/-- The elements of the array that the value is. -/
def array? : Json → Option (List Json)
  | array elements => some elements
  | _ => none

/-- The members of the object that the value is. -/
def object? : Json → Option (List (String × Json))
  | object members => some members
  | _ => none

/-- The value of the member `name`. If the name is repeated, the last member counts. -/
def member? (members : List (String × Json)) (name : String) : Option Json :=
  members.reverse.lookup name

@[simp] theorem member?_nil (name : String) : member? [] name = none := rfl

@[simp] theorem member?_cons (m : String × Json) (members : List (String × Json))
    (name : String) :
    member? (m :: members) name =
      (member? members name).or (if name = m.1 then some m.2 else none) := by
  rw [member?, List.reverse_cons, List.lookup_append, List.lookup_cons, List.lookup_nil]
  by_cases h : name = m.1
  · simp [h, member?]
  · simp [h, beq_eq_false_iff_ne.mpr h, member?]

/-- Reads a member that has to be there. -/
def require? (members : List (String × Json)) (name : String) (read : Json → Option α) :
    Option α :=
  (member? members name).bind read

/-- Reads a member that may be missing or `null`. -/
def optional? (members : List (String × Json)) (name : String) (read : Json → Option α) :
    Option (Option α) :=
  match member? members name with
  | none | some null => some none
  | some j => (read j).map some

/-- Reads the elements of an array. -/
def list? (read : Json → Option α) (j : Json) : Option (List α) :=
  j.array?.bind (·.mapM read)

/-- The members of a record with the given field names. A record is an object, which may have
other members too, or the array of all its fields in order. -/
def record? (names : List String) : Json → Option (List (String × Json))
  | object members => some members
  | array elements => if elements.length = names.length then some (names.zip elements) else none
  | _ => none

/-- The name and the content of one of several alternatives. An alternative without content
may be written as its name alone. -/
def alternative? : Json → Option (String × Option Json)
  | string name => some (name, none)
  | object [(name, content)] => some (name, some content)
  | _ => none

/-- The name of an alternative that has no content. -/
def tag? (j : Json) : Option String :=
  match j.alternative? with
  | some (name, none) | some (name, some null) => some name
  | _ => none

end Json

end RecordQuery
