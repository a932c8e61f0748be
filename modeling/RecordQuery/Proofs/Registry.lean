import Mathlib.Data.List.Nodup
import RecordQuery.Registry

/-! # What a registry hands out

Calls are made one after the other, for shared compilers and for others in any mixture. Two of them
return the same compiler just if both are for a shared one with the same schema, or if they are one
call. What a schema is mapped to stays, also for a caller who finds nothing at first and looks
again, and a compiler that is shared compiles like any other for its schema
(`Registry.answers_share`).

A step of the registry is one of three (`Registry.Serves`). The number of a compiler is the same as
that of one returned before only if both are shared: what is shared stays in the registry, and what
is not has a number that nothing shared will have (`Registry.Granted`). -/

namespace RecordQuery

namespace Registry

/-- A call for a compiler. -/
inductive Request
  | shared (schema : Schema)
  | standalone (schema : Schema)

def Request.schema : Request → Schema
  | shared s | standalone s => s

/-- What a call returns, and the registry after it. -/
def serve (r : Registry) : Request → Compiler × Registry
  | .shared s => r.acquire s
  | .standalone s => r.standalone s

/-- The registry after calls. -/
def after (r : Registry) : List Request → Registry
  | [] => r
  | q :: qs => (r.serve q).2.after qs

/-- What calls return. -/
def answers (r : Registry) : List Request → List Compiler
  | [] => []
  | q :: qs => (r.serve q).1 :: (r.serve q).2.answers qs

/-- There is one shared compiler for a schema, and one for a number that has been given. -/
structure Orderly (r : Registry) : Prop where
  schemas : (r.shared.map (·.schema)).Nodup
  numbers : (r.shared.map (·.number)).Nodup
  number_lt : ∀ c ∈ r.shared, c.number < r.made

/-- The compiler was returned by the call, at once or some calls ago. -/
inductive Granted (r : Registry) : Request → Compiler → Prop
  | shared {c : Compiler} (h : c ∈ r.shared) : Granted r (.shared c.schema) c
  | standalone {c : Compiler} (hm : c.number < r.made) (h : ∀ d ∈ r.shared, d.number ≠ c.number) :
    Granted r (.standalone c.schema) c

/-- A call is answered with what is there, or with what is made for it. -/
inductive Serves (r : Registry) : Request → Compiler → Registry → Prop
  | found {c : Compiler} (h : c ∈ r.shared) : Serves r (.shared c.schema) c r
  | added {s : Schema} (h : ∀ c ∈ r.shared, c.schema ≠ s) :
    Serves r (.shared s) ⟨r.made, s⟩ ⟨r.shared ++ [⟨r.made, s⟩], r.made + 1⟩
  | apart {s : Schema} : Serves r (.standalone s) ⟨r.made, s⟩ ⟨r.shared, r.made + 1⟩

variable {r r' : Registry} {q p : Request} {qs : List Request} {c d : Compiler} {s : Schema}
  {i j : Nat}

/-! ## One call -/

theorem serves (r : Registry) (q : Request) : Serves r q (r.serve q).1 (r.serve q).2 := by
  cases q with
  | standalone s => exact .apart
  | shared s =>
    cases hf : r.shared.find? (·.schema == s) with
    | none =>
      simp only [serve, acquire, hf]
      exact .added fun c hc => by simpa using List.find?_eq_none.mp hf c hc
    | some c =>
      obtain rfl : c.schema = s := eq_of_beq (List.find?_some hf :)
      simp only [serve, acquire, hf]
      exact .found (List.mem_of_find?_eq_some hf)

theorem orderly_empty : Orderly empty := ⟨List.nodup_nil, List.nodup_nil, by simp [empty]⟩

theorem Orderly.eq_of_number_eq (hr : Orderly r) (hc : c ∈ r.shared) (hd : d ∈ r.shared)
    (h : c.number = d.number) : c = d :=
  List.inj_on_of_nodup_map hr.numbers hc hd h

theorem Orderly.eq_of_schema_eq (hr : Orderly r) (hc : c ∈ r.shared) (hd : d ∈ r.shared)
    (h : c.schema = d.schema) : c = d :=
  List.inj_on_of_nodup_map hr.schemas hc hd h

theorem Serves.orderly (h : Serves r q c r') (hr : Orderly r) : Orderly r' := by
  cases h with
  | found _ => exact hr
  | apart => exact ⟨hr.schemas, hr.numbers, fun c hc => Nat.lt_succ_of_lt (hr.number_lt c hc)⟩
  | @added s h =>
    refine ⟨?_, ?_, fun c hc => ?_⟩
    · rw [List.map_append, List.nodup_append]
      refine ⟨hr.schemas, by simp, ?_⟩
      simpa using h
    · rw [List.map_append, List.nodup_append]
      refine ⟨hr.numbers, by simp, ?_⟩
      simpa using fun c hc => Nat.ne_of_lt (hr.number_lt c hc)
    · rcases List.mem_append.mp hc with hc | hc
      · exact Nat.lt_succ_of_lt (hr.number_lt c hc)
      · rw [List.mem_singleton.mp hc]
        exact Nat.lt_succ_self _

theorem Serves.schema_eq (h : Serves r q c r') : c.schema = q.schema := by
  cases h <;> rfl

theorem Serves.granted (h : Serves r q c r') (hr : Orderly r) : Granted r' q c := by
  cases h with
  | found h => exact .shared h
  | added _ => exact .shared (c := ⟨r.made, _⟩) (by simp)
  | apart =>
    exact .standalone (c := ⟨r.made, _⟩) (Nat.lt_succ_self _)
      fun d hd => Nat.ne_of_lt (hr.number_lt d hd)

theorem Granted.serves (hd : Granted r p d) (h : Serves r q c r') : Granted r' p d := by
  cases hd with
  | shared hd =>
    cases h with
    | found _ | apart => exact .shared hd
    | added _ => exact .shared (List.mem_append_left _ hd)
  | standalone hm hd =>
    cases h with
    | found _ => exact .standalone hm hd
    | apart => exact .standalone (Nat.lt_succ_of_lt hm) hd
    | added _ =>
      refine .standalone (Nat.lt_succ_of_lt hm) fun e he => ?_
      rcases List.mem_append.mp he with he | he
      · exact hd e he
      · rw [List.mem_singleton.mp he]
        exact Nat.ne_of_gt hm

theorem Granted.number_lt (hd : Granted r p d) (hr : Orderly r) : d.number < r.made := by
  cases hd with
  | shared hd => exact hr.number_lt d hd
  | standalone hm _ => exact hm

/-- A call returns what another has returned if both are for the shared compiler of a schema. -/
theorem Granted.number_eq_iff (hd : Granted r p d) (hr : Orderly r) (h : Serves r q c r') :
    d.number = c.number ↔ ∃ s, p = .shared s ∧ q = .shared s := by
  have hne := Nat.ne_of_lt (hd.number_lt hr)
  cases h with
  | apart => exact iff_of_false hne (by simp)
  | added h =>
    refine iff_of_false hne ?_
    rintro ⟨s, rfl, ⟨⟩⟩
    cases hd with
    | shared hd => exact h d hd rfl
  | found hc =>
    cases hd with
    | standalone _ hd => exact iff_of_false (hd c hc).symm (by simp)
    | shared hd =>
      refine ⟨fun h => ⟨d.schema, rfl, by rw [hr.eq_of_number_eq hd hc h]⟩, ?_⟩
      rintro ⟨s, ⟨⟩, h⟩
      rw [hr.eq_of_schema_eq hc hd (Request.shared.inj h)]

/-- What is there is returned, and nothing is made. -/
theorem Granted.acquire_eq (hc : Granted r (.shared s) c) (hr : Orderly r) :
    r.acquire s = (c, r) := by
  cases hc with
  | shared hc =>
    unfold acquire
    cases hf : r.shared.find? (·.schema == c.schema) with
    | none => exact absurd (List.find?_eq_none.mp hf c hc) (by simp)
    | some d =>
      have hd : d.schema = c.schema := eq_of_beq (List.find?_some hf :)
      rw [hr.eq_of_schema_eq (List.mem_of_find?_eq_some hf) hc hd]

/-! ## Any number of calls -/

theorem after_append (r : Registry) (ps qs : List Request) :
    r.after (ps ++ qs) = (r.after ps).after qs := by
  induction ps generalizing r with
  | nil => rfl
  | cons p ps ih => exact ih _

theorem Orderly.after (hr : Orderly r) (qs : List Request) : Orderly (r.after qs) := by
  induction qs generalizing r with
  | nil => exact hr
  | cons q qs ih => exact ih ((r.serves q).orderly hr)

theorem Granted.after (hc : Granted r q c) (qs : List Request) : Granted (r.after qs) q c := by
  induction qs generalizing r with
  | nil => exact hc
  | cons p qs ih => exact ih (hc.serves (r.serves p))

theorem map_schema_answers (r : Registry) (qs : List Request) :
    (r.answers qs).map (·.schema) = qs.map (·.schema) := by
  induction qs generalizing r with
  | nil => rfl
  | cons q qs ih => rw [answers, List.map_cons, List.map_cons, ih, (r.serves q).schema_eq]

theorem Granted.number_answers_eq_iff (hd : Granted r p d) (hr : Orderly r)
    (hc : (r.answers qs)[j]? = some c) :
    d.number = c.number ↔ ∃ s, p = .shared s ∧ qs[j]? = some (.shared s) := by
  induction qs generalizing r j with
  | nil => cases hc
  | cons q qs ih =>
    cases j with
    | zero =>
      obtain rfl := Option.some.inj hc
      simpa using hd.number_eq_iff hr (r.serves q)
    | succ j => exact ih (hd.serves (r.serves q)) ((r.serves q).orderly hr) hc

theorem Orderly.number_answers_eq_iff (hr : Orderly r) (hc : (r.answers qs)[i]? = some c)
    (hd : (r.answers qs)[j]? = some d) :
    c.number = d.number ↔
      i = j ∨ ∃ s, qs[i]? = some (.shared s) ∧ qs[j]? = some (.shared s) := by
  induction qs generalizing r i j with
  | nil => cases hc
  | cons q qs ih =>
    -- Either call may be the first; then the other is one that comes when it has been answered.
    have hq := (r.serves q).granted hr
    have hr' := (r.serves q).orderly hr
    cases i with
    | zero =>
      obtain rfl := Option.some.inj hc
      cases j with
      | zero =>
        obtain rfl := Option.some.inj hd
        exact iff_of_true rfl (.inl rfl)
      | succ j => simpa using hq.number_answers_eq_iff hr' hd
    | succ i =>
      cases j with
      | zero =>
        obtain rfl := Option.some.inj hd
        rw [eq_comm]
        simpa [and_comm] using hq.number_answers_eq_iff hr' hc
      | succ j => simpa using ih hr' hc hd

/-- After a call for the shared compiler of a schema it is returned again, whatever calls are made
in between. -/
theorem Orderly.acquire_after (hr : Orderly r) (s : Schema) (qs : List Request) :
    (r.after (.shared s :: qs)).acquire s = ((r.acquire s).1, r.after (.shared s :: qs)) :=
  have hs := r.serves (.shared s)
  ((hs.granted hr).after qs).acquire_eq ((hs.orderly hr).after qs)

/-- What the first of two looks finds, the second would have found after any calls in between. -/
theorem Orderly.acquireLooked_after (hr : Orderly r) (s : Schema) (qs : List Request) :
    acquireLooked r (r.after qs) s = (r.after qs).acquire s := by
  unfold acquireLooked
  cases hf : r.shared.find? (·.schema == s) with
  | none => rfl
  | some c =>
    obtain rfl : c.schema = s := eq_of_beq (List.find?_some hf :)
    have hc : Granted r (.shared c.schema) c := .shared (List.mem_of_find?_eq_some hf)
    exact ((hc.after qs).acquire_eq (hr.after qs)).symm

theorem compile_acquire (r : Registry) (s : Schema) (text : String) :
    (r.acquire s).1.compile text = (r.standalone s).1.compile text := by
  have h : (r.acquire s).1.schema = s := (r.serves (.shared s)).schema_eq
  rw [Compiler.compile, h]
  rfl

/-- Whatever calls are made, a compiler is shared by those for a shared one with the same schema and
by nobody else, each has the schema that it was asked for, what a schema is mapped to stays, a
shared compiler compiles as a new one does, and whoever looks twice gets what the second look alone
would have given, whatever calls are made in between. -/
theorem answers_share (requests : List Request) :
    (∀ (i j : Nat) (c d : Compiler),
      (empty.answers requests)[i]? = some c → (empty.answers requests)[j]? = some d →
        (c.number = d.number ↔
          i = j ∨ ∃ s, requests[i]? = some (.shared s) ∧ requests[j]? = some (.shared s))) ∧
    (empty.answers requests).map (·.schema) = requests.map (·.schema) ∧
    (∀ s later, (empty.after (requests ++ .shared s :: later)).acquire s =
      (((empty.after requests).acquire s).1, empty.after (requests ++ .shared s :: later))) ∧
    (∀ s text, ((empty.after requests).acquire s).1.compile text =
      ((empty.after requests).standalone s).1.compile text) ∧
    ∀ s later, acquireLooked (empty.after requests) (empty.after (requests ++ later)) s =
      (empty.after (requests ++ later)).acquire s := by
  have hr := orderly_empty.after requests
  refine ⟨fun i j c d hc hd => orderly_empty.number_answers_eq_iff hc hd,
    map_schema_answers _ _, fun s later => ?_, fun s text => compile_acquire _ s text,
    fun s later => ?_⟩
  · rw [after_append]
    exact hr.acquire_after s later
  · rw [after_append]
    exact hr.acquireLooked_after s later

end Registry

end RecordQuery
