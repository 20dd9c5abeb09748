import StreamMatch.Matcher.Attempt

/-!
How primitive matchers read. Each scan runs on a fork, and reports are made when it begins and when
it has matched or met a fault.
-/

namespace StreamMatch

namespace UnitRun

open Reading

/-- The number of bytes looked at at once. -/
def scanChunk : Nat := 64

/-- Reads accepted bytes in chunks, after `count` of them, until there are as many as there may be
or one is not accepted. -/
def takeBytes (run : ByteRun) (count : Nat) : Reading (List UInt8) := do
  if count < run.most then
    let want := min (run.most - count) scanChunk
    let accepted := (← peek want).takeWhile run.accepts
    let _ ← advance accepted.length
    if accepted.length < want then return accepted
    else return accepted ++ (← takeBytes run (count + accepted.length))
  else return []
termination_by run.most - count
decreasing_by
  have : 0 < scanChunk := by decide
  change run.most - (count + accepted.length) < run.most - count
  omega

/-- The accepted bytes at the cursor, if there are enough of them. -/
def scanBytes (run : ByteRun) : Reading (Option (List UInt8)) := do
  let content ← takeBytes run 0
  return if content.length < run.least then none else some content

/-- Reads accepted code points one by one, at most `allowed` of them: how many there were, and their
bytes. -/
def takeChars (run : CharRun) : (allowed : Nat) → Reading (Nat × List UInt8)
  | 0 => return (0, [])
  | allowed + 1 => do
    let next ← peekChars 1
    match next.chars with
    | [] => return (0, [])
    | c :: _ =>
      if run.accepts c then
        let bytes ← read next.length
        let (count, more) ← takeChars run allowed
        return (count + 1, bytes ++ more)
      else return (0, [])

/-- The bytes of the accepted code points at the cursor, if there are enough of them. -/
def scanChars (run : CharRun) : Reading (Option (List UInt8)) := do
  let (count, content) ← takeChars run run.most
  return if count < run.least then none else some content

end UnitRun

namespace Primitive

open Reading

/-- Reads what the primitive matches, if anything. -/
def scan : Primitive → Reading (Option (List UInt8))
  | .bytes run => run.scanBytes
  | .chars run => run.scanChars
  | .literal _ text => do
    if (← peek text.length) ≠ text then return none
    let _ ← advance text.length
    return some text
  | .pattern p => do
    let ahead ← peek p.window
    match p.matchLength? ahead with
    | none => return none
    | some length =>
      let _ ← advance length
      return some (ahead.take length)

/-- A report on this primitive. -/
def report (primitive : Primitive) (stage : Stage) (offset : Nat) (outcome : Option Outcome) :
    Reading Unit :=
  Reading.report ⟨stage, .primitive primitive, offset, outcome⟩

/-- Runs a scan on a fork; a fault is reported at the cursor at hand before it goes on. -/
def guarded (primitive : Primitive) (offset : Nat) :
    Reading (Option (List UInt8) × Cursor) := fun reader =>
  match onFork primitive.scan reader with
  | .ok result after => .ok result after
  | .error (.fault fault) after =>
    match primitive.report .failed offset (some (.failed fault)) after with
    | .ok _ after => .error (.fault fault) after
    | .error halt after => .error halt after
  | .error halt after => .error halt after

/-- Tries to match the primitive at the cursor. -/
def attempt (primitive : Primitive) : Attempt := do
  let offset ← position
  primitive.report .tried offset none
  match ← primitive.guarded offset with
  | (none, _) => return none
  | (some content, fork) =>
    let m := Match.leaf primitive.tag content offset
    primitive.report .matched offset (some (.matched m))
    commit fork
    return some m

end Primitive

end StreamMatch
