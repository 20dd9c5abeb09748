import StreamMatch.Regex.Expr

/-!
Regular expressions as programs. Code is laid out from the end: a piece of code is compiled for the
place where matching goes on after it, which is in the program already.
-/

namespace StreamMatch.Regex

/-- One instruction. Places are indices into the code. -/
inductive Instruction where
  /-- The expression has matched. -/
  | accept
  /-- Takes a character of the set. -/
  | take (set : CharSet) (next : Nat)
  /-- Goes on if the condition holds. -/
  | check (assertion : Assertion) (next : Nat)
  /-- Goes on at the first place, or else at the second. -/
  | split (first second : Nat)
deriving DecidableEq, Repr

/-- The code of an expression. -/
structure Program where
  code : Array Instruction
  /-- Where matching begins. -/
  entry : Nat
deriving DecidableEq, Repr

namespace Program

/-- A choice between going into a repeated body and leaving it. -/
def choice (greedy : Bool) (body exit : Nat) : Instruction :=
  if greedy then .split body exit else .split exit body

/-- Lays out one instruction, and says where it is. -/
def emit (instruction : Instruction) : StateM (Array Instruction) Nat :=
  modifyGet fun code =>
    let place := code.size
    (place, code.push instruction)

/-- Lays out a body that is followed by the choice to go through it again or to leave for `exit`:
the places of the body and of the choice. -/
def loop (body : Nat → StateM (Array Instruction) Nat) (greedy : Bool) (exit : Nat) :
    StateM (Array Instruction) (Nat × Nat) := do
  let again ← emit .accept
  let entry ← body again
  modify (·.setIfInBounds again (choice greedy entry exit))
  return (entry, again)

/-- Lays out a body that number of times, one after the other. -/
def times (body : Nat → StateM (Array Instruction) Nat) (next : Nat) :
    (count : Nat) → StateM (Array Instruction) Nat
  | 0 => return next
  | count + 1 => do times body (← body next) count

/-- Lays out a body at most that number of times before `next`, with a way out to `exit` before
each. -/
def timesAtMost (body : Nat → StateM (Array Instruction) Nat) (greedy : Bool) (exit next : Nat) :
    (count : Nat) → StateM (Array Instruction) Nat
  | 0 => return next
  | count + 1 => do
    let entry ← body next
    timesAtMost body greedy exit (← emit (choice greedy entry exit)) count

/-- Lays out characters to be taken one after the other. -/
def takeEach (next : Nat) : (reversed : List Char) → StateM (Array Instruction) Nat
  | [] => return next
  | c :: before => do takeEach (← emit (.take (.single c) next)) before

/-- Lays out an expression, for matching to go on at `next` after it; the result is the place where
it begins. A body that may match nothing is repeated at least once behind a choice of its own: the
ways through it that take no character then keep their rank. -/
def layOut (expr : Expr) (next : Nat) : StateM (Array Instruction) Nat :=
  match expr with
  | .empty => return next
  | .literal text => takeEach next text.reverse
  | .chars set => emit (.take set next)
  | .assert assertion => emit (.check assertion next)
  | .group _ body => layOut body next
  | .concat first second => do layOut first (← layOut second next)
  | .alt first second => do
    let first ← layOut first next
    let second ← layOut second next
    emit (.split first second)
  | .repeat body least (some most) greedy => do
    times (layOut body) (← timesAtMost (layOut body) greedy next next (most - least)) least
  | .repeat body 0 none greedy => do
    let (entry, again) ← loop (layOut body) greedy next
    if body.minLength?.any (0 < ·) then return again else emit (choice greedy entry next)
  | .repeat body (least + 1) none greedy => do
    let (entry, _) ← loop (layOut body) greedy next
    times (layOut body) entry least

/-- The program of an expression. -/
def ofExpr (expr : Expr) : Program :=
  let (entry, code) := (layOut expr 0).run #[.accept]
  ⟨code, entry⟩

end Program

end StreamMatch.Regex
