/-! # Sets of code points

A set of code points is given by closed ranges, in ascending order and apart from each other. The
character classes of the other modules of this folder are such sets. -/

namespace RecordQuery.Text

/-- Every range is ordered, and each begins after the one before it has ended, with a code point in
between. -/
def ascending : List (Nat × Nat) → Bool
  | [] => true
  | [r] => r.1 ≤ r.2
  | r :: s :: rest => r.1 ≤ r.2 && r.2 + 1 < s.1 && ascending (s :: rest)

/-- A set of code points. -/
structure CodePoints where
  ranges : List (Nat × Nat)
  isAscending : ascending ranges = true

namespace CodePoints

/-- Whether `n` lies in one of the ranges. -/
def contains (s : CodePoints) (n : Nat) : Bool := s.ranges.any fun r => r.1 ≤ n && n ≤ r.2

/-- The number of code points in the ranges. -/
def size (s : CodePoints) : Nat := s.ranges.foldl (fun total r => total + (r.2 + 1 - r.1)) 0

/-- The code points, one by one. -/
def members (s : CodePoints) : List Nat := s.ranges.flatMap fun r => List.range' r.1 (r.2 + 1 - r.1)

theorem mem_members {s : CodePoints} {n : Nat} : n ∈ s.members ↔ s.contains n = true := by
  simp only [members, contains, List.mem_flatMap, List.mem_range'_1, List.any_eq_true,
    Bool.and_eq_true, decide_eq_true_eq]
  refine exists_congr fun r => and_congr_right fun _ => ?_
  omega

end CodePoints

end RecordQuery.Text
