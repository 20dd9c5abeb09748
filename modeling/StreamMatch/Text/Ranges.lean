namespace StreamMatch

/-- A set of code points as disjoint intervals with both ends included, in ascending order. -/
structure Ranges where
  intervals : Array (Nat × Nat)
deriving DecidableEq, Repr

namespace Ranges

/-- Bisects the intervals from index `low` up to, but not including, index `high`. Each round at
least halves that stretch, so as many rounds as there are intervals are more than enough. -/
def search (intervals : Array (Nat × Nat)) (code : Nat) : (rounds low high : Nat) → Bool
  | 0, _, _ => false
  | rounds + 1, low, high =>
    if low < high then
      let middle := (low + high) / 2
      match intervals[middle]? with
      | none => false
      | some (first, last) =>
        if code < first then search intervals code rounds low middle
        else if last < code then search intervals code rounds (middle + 1) high
        else true
    else false

/-- Whether the code point lies in one of the intervals. -/
def contains (ranges : Ranges) (code : Nat) : Bool :=
  search ranges.intervals code (ranges.intervals.size + 1) 0 ranges.intervals.size

end Ranges

end StreamMatch
