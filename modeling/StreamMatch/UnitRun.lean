import StreamMatch.Predicate
import StreamMatch.Tag

namespace StreamMatch

/-- What a run of single units looks like: how many there may be, and which ones. -/
structure UnitRun (α : Type) where
  tag : Tag
  /-- The least number of units, included. -/
  least : Nat
  /-- The greatest number of units, included. -/
  most : Nat
  accepts : Predicate α
  least_le_most : least ≤ most := by omega

namespace UnitRun

variable {α : Type}

/-- A run of `least` to `most` units. A greatest number below the least is raised to it. -/
def between (tag : Tag) (least most : Nat) (accepts : Predicate α) : UnitRun α where
  tag
  least
  most := max most least
  accepts

/-- Exactly one unit. -/
def one (tag : Tag) (accepts : Predicate α) : UnitRun α :=
  between tag 1 1 accepts

/-- Accepts the units of `other` too, with the tag and the bounds of `run`. -/
def alsoAccepting (run other : UnitRun α) : UnitRun α :=
  { run with accepts := run.accepts.union other.accepts }

/-- Rejects the units of `other`, with the tag and the bounds of `run`. -/
def except (run other : UnitRun α) : UnitRun α :=
  { run with accepts := run.accepts.difference other.accepts }

/-- A run in a debug view. Its predicate cannot be shown. -/
def debug (kind : String) (run : UnitRun α) : String :=
  kind ++ " \x7b tag: " ++ run.tag.debug ++ ", min: " ++ toString run.least ++ ", max: " ++
    toString run.most ++ ", pred: Pred \x7d"

end UnitRun

abbrev ByteRun := UnitRun UInt8

abbrev CharRun := UnitRun Char

end StreamMatch
