import StreamMatch.Regex.CaseFolding
import StreamMatch.Regex.Classes

/-!
Sets of characters as intervals of code points, in ascending order and apart from each other. The
ends of an interval are characters. Surrogates are no characters, but an interval may run across
them, and two intervals that end before them and begin after them are not joined.
-/

namespace StreamMatch.Regex

/-- A set of characters. -/
structure CharSet where
  ranges : Ranges
deriving DecidableEq, Repr

namespace CharSet

/-- Adds an interval to intervals in order, and joins it with those that it overlaps or touches. -/
def join (first last : Nat) : List (Nat × Nat) → List (Nat × Nat)
  | [] => [(first, last)]
  | (low, high) :: rest =>
    if last + 1 < low then (first, last) :: (low, high) :: rest
    else if high + 1 < first then (low, high) :: join first last rest
    else join (min first low) (max last high) rest

/-- The code point of the character before another one. -/
def previous (code : Nat) : Nat :=
  if code = 0xe000 then 0xd7ff else code - 1

/-- The code point of the character after another one. -/
def following (code : Nat) : Nat :=
  if code = 0xd7ff then 0xe000 else code + 1

/-- What lies after `last` and outside intervals in order. Between two intervals, that is from the
character after the first to the one before the second, whichever of these two is greater: with
nothing but surrogates between them, the gap runs from the end of the first to the start of the
second. -/
def gapsAfter (last : Nat) : List (Nat × Nat) → List (Nat × Nat)
  | [] => if last < 0x10ffff then [(following last, 0x10ffff)] else []
  | (low, high) :: rest =>
    (min (following last) (previous low), max (following last) (previous low)) ::
      gapsAfter high rest

/-- What lies outside intervals in order. -/
def gaps : List (Nat × Nat) → List (Nat × Nat)
  | [] => [(0, 0x10ffff)]
  | (low, high) :: rest =>
    if 0 < low then (0, previous low) :: gapsAfter high rest else gapsAfter high rest

/-- What two intervals have in common. -/
def overlap? (first second : Nat × Nat) : Option (Nat × Nat) :=
  let low := max first.1 second.1
  let high := min first.2 second.2
  if low ≤ high then some (low, high) else none

/-- What remains of an interval without other intervals, which are in order. -/
def without (first last : Nat) : List (Nat × Nat) → List (Nat × Nat)
  | [] => [(first, last)]
  | (low, high) :: rest =>
    if high < first then without first last rest
    else if last < low then [(first, last)]
    else
      let before := if first < low then [(first, previous low)] else []
      before ++ if high < last then without (following high) last rest else []

/-- The intervals of a set. -/
def intervals (set : CharSet) : List (Nat × Nat) :=
  set.ranges.intervals.toList

/-- Adds intervals to a set. -/
def insertAll (set : CharSet) (more : List (Nat × Nat)) : CharSet :=
  ⟨⟨(more.foldl (fun all (first, last) => join first last all) set.intervals).toArray⟩⟩

def contains (set : CharSet) (c : Char) : Bool :=
  set.ranges.contains c.toNat

def empty : CharSet :=
  ⟨⟨#[]⟩⟩

def isEmpty (set : CharSet) : Bool :=
  set.intervals.isEmpty

/-- The set of the characters in these intervals. -/
def ofIntervals (intervals : List (Nat × Nat)) : CharSet :=
  empty.insertAll intervals

/-- All characters between two, both included. -/
def interval (first last : Char) : CharSet :=
  ofIntervals [(first.toNat, last.toNat)]

/-- The set of one character. -/
def single (c : Char) : CharSet :=
  interval c c

def union (first second : CharSet) : CharSet :=
  first.insertAll second.intervals

/-- The gaps between the intervals of a set, which hold every character that is not in the set. -/
def complement (set : CharSet) : CharSet :=
  ⟨⟨(gaps set.intervals).toArray⟩⟩

def inter (first second : CharSet) : CharSet :=
  ⟨⟨(first.intervals.flatMap fun interval =>
    second.intervals.filterMap (overlap? interval)).toArray⟩⟩

def diff (first second : CharSet) : CharSet :=
  ⟨⟨(first.intervals.flatMap fun (low, high) => without low high second.intervals).toArray⟩⟩

def symmDiff (first second : CharSet) : CharSet :=
  (first.union second).diff (first.inter second)

/-- All characters that differ in case only from one of the set. -/
def caseless (set : CharSet) : CharSet :=
  let isMember (code : Nat) : Bool := set.ranges.contains code
  let folded := foldPairs.filter fun (code, target) => isMember code || isMember target
  let targets := ofIntervals (folded.map fun (_, target) => (target, target))
  let variants := foldPairs.filter fun (_, target) => targets.ranges.contains target
  (set.union targets).insertAll (variants.map fun (code, _) => (code, code))

/-- Every character. -/
def all : CharSet :=
  empty.complement

/-- Every character but the line feed. -/
def notLineFeed : CharSet :=
  (single '\n').complement

def digit : CharSet :=
  ⟨decimalDigits⟩

def space : CharSet :=
  ⟨whiteSpace⟩

def word : CharSet :=
  ⟨wordCharacters⟩

/-- The only character of a set, if it has just one. -/
def single? (set : CharSet) : Option Char :=
  match set.intervals with
  | [(first, last)] => if first = last then some (Char.ofNat first) else none
  | _ => none

/-- An ASCII class by its name between colons. -/
def ascii? (name : String) : Option CharSet :=
  match name with
  | "alnum" => some (ofIntervals [(0x30, 0x39), (0x41, 0x5a), (0x61, 0x7a)])
  | "alpha" => some (ofIntervals [(0x41, 0x5a), (0x61, 0x7a)])
  | "ascii" => some (ofIntervals [(0x00, 0x7f)])
  | "blank" => some (ofIntervals [(0x09, 0x09), (0x20, 0x20)])
  | "cntrl" => some (ofIntervals [(0x00, 0x1f), (0x7f, 0x7f)])
  | "digit" => some (ofIntervals [(0x30, 0x39)])
  | "graph" => some (ofIntervals [(0x21, 0x7e)])
  | "lower" => some (ofIntervals [(0x61, 0x7a)])
  | "print" => some (ofIntervals [(0x20, 0x7e)])
  | "punct" => some (ofIntervals [(0x21, 0x2f), (0x3a, 0x40), (0x5b, 0x60), (0x7b, 0x7e)])
  | "space" => some (ofIntervals [(0x09, 0x0d), (0x20, 0x20)])
  | "upper" => some (ofIntervals [(0x41, 0x5a)])
  | "word" => some (ofIntervals [(0x30, 0x39), (0x41, 0x5a), (0x5f, 0x5f), (0x61, 0x7a)])
  | "xdigit" => some (ofIntervals [(0x30, 0x39), (0x41, 0x46), (0x61, 0x66)])
  | _ => none

end CharSet

end StreamMatch.Regex
