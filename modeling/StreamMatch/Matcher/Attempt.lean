import StreamMatch.Cursor.Reading

/-!
Attempts to match, and how they are combined. An attempt that does not match leaves its cursor where
it found it, with one exception: the steps of a sequence are run one after the other on the cursor
at hand, and those that matched are not taken back when a later one does not.
-/

namespace StreamMatch

/-- An attempt to match at a cursor: a match, with the cursor past it, or none. -/
abbrev Attempt := Reading (Option Match)

namespace Attempt

open Reading

/-- Runs an attempt on a fork and keeps what it read only if it matches. -/
def keep (attempt : Attempt) : Attempt := do
  match ← onFork attempt with
  | (none, _) => return none
  | (some m, fork) =>
    commit fork
    return some m

/-- Runs attempts one after the other for as long as they match. -/
def inTurn : List Attempt → Reading (Option (List Match))
  | [] => return some []
  | step :: rest => do
    let some m ← step | return none
    let some more ← inTurn rest | return none
    return some (m :: more)

/-- All the steps in order; their matches become the submatches. -/
def seq (tag : Tag) (steps : List Attempt) : Attempt := do
  let offset ← position
  let some submatches ← inTurn steps | return none
  return some (.composite tag offset (submatches.flatMap (·.content)) submatches)

/-- All the steps in order, each under a label. -/
def seqNamed (tag : Tag) (steps : List (String × Attempt)) : Attempt := do
  let offset ← position
  let some submatches ← inTurn (steps.map (·.2)) | return none
  return some (.named tag offset ((steps.map (·.1)).zip submatches))

/-- The first of the alternatives that matches. -/
def first : List Attempt → Attempt
  | [] => return none
  | alternative :: rest => do
    match ← keep alternative with
    | some m => return some m
    | none => first rest

/-- Tries the alternatives from the same place and returns the match with the most content, with
the cursor past it: the best so far, or the best of the rest if that has more. -/
def best (found : Option (Match × Cursor)) : List Attempt → Reading (Option (Match × Cursor))
  | [] => return found
  | alternative :: rest => do
    match ← onFork alternative with
    | (none, _) => best found rest
    | (some m, fork) =>
      if found.all fun (current, _) => current.length < m.length then best (some (m, fork)) rest
      else best found rest

/-- The alternative whose match has the most content; of several such the one listed first. -/
def longest (alternatives : List Attempt) : Attempt := do
  match ← best none alternatives with
  | none => return none
  | some (m, fork) =>
    commit fork
    return some m

/-- One round of a repetition: the separator, if one is due, and the element. The result is all
content consumed, and the match of the element. -/
def round (element : Attempt) : (separator : Option Attempt) → Reading (Option (List UInt8 × Match))
  | none => do
    let some m ← element | return none
    return some (m.content, m)
  | some separator => do
    let some gap ← separator | return none
    let some m ← element | return none
    return some (gap.content ++ m.content, m)

/-- Rounds of a repetition after `count` of them. They end when there are as many as there may be,
when a round does not match, or when one does not move the cursor: the last would go on for ever
and is not counted. -/
def rounds (element : Attempt) (separator : Option Attempt) (most : Option Nat) (count : Nat) :
    (allowed : Nat) → Reading (List UInt8 × List Match)
  | 0 => throw .exhausted
  | allowed + 1 => do
    if most.any (· ≤ count) then return ([], [])
    let before ← position
    match ← onFork (round element (if count = 0 then none else separator)) with
    | (none, _) => return ([], [])
    | (some (consumed, m), fork) =>
      if fork.position = before then return ([], [])
      commit fork
      let (content, elements) ← rounds element separator most (count + 1) allowed
      return (consumed ++ content, m :: elements)

/-- The element as many times as possible, with the separator between two of them, but no more than
`most` times. Fewer than `least` are no match. Separators are part of the content and not among the
submatches. Every round but the last takes a byte at least, and so the input bounds their
number. -/
def many (tag : Tag) (least : Nat) (most : Option Nat) (element : Attempt)
    (separator : Option Attempt) : Attempt := do
  let offset ← position
  let allowed := (← get).remaining + 1
  let ((content, elements), fork) ← onFork (rounds element separator most 0 allowed)
  if elements.length < least then return none
  commit fork
  return some (.composite tag offset content elements)

/-- The match of an attempt, or else a stand-in for it. -/
def optional (attempt : Attempt) : Attempt := do
  let offset ← position
  match ← keep attempt with
  | some m => return some m
  | none => return some (.empty offset)

/-- An empty match if the attempt would match here, or if it would not; nothing is consumed. -/
def lookahead (tag : Tag) (wanted : Bool) (attempt : Attempt) : Attempt := do
  let (result, _) ← onFork attempt
  if result.isSome = wanted then return some (.leaf tag [] (← position)) else return none

/-- An empty match at the end of the input. -/
def endOfInput (tag : Tag) : Attempt := do
  if ← isAtEnd then return some (.leaf tag [] (← position)) else return none

/-- Moves on without a trace of it in the content of the match. -/
def skip (tag : Tag) (count : Nat) : Attempt := do
  let offset ← position
  let _ ← advance count
  return some (.leaf tag [] offset)

/-- A match of these bytes, whatever the input. -/
def insert (tag : Tag) (bytes : List UInt8) : Attempt :=
  return some (.leaf tag bytes (← position))

/-- Moves on and then does not match. -/
def stray (count : Nat) : Attempt := do
  let _ ← advance count
  return none

/-- Faults at the cursor. -/
def refuse : Attempt := do
  throw (.fault (.invalidUtf8 (← position)))

end Attempt

end StreamMatch
