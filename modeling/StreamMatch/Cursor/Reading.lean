import StreamMatch.Cursor.Basic
import StreamMatch.Report
import StreamMatch.Window.Decode

/-!
Reading at a cursor. To read ahead, an action is run on a fork: what it reads stays in the window,
but the cursor at hand does not move. It moves when a fork is committed. Only a commit to the root
discards input, since nothing that comes later can need what lies before it.
-/

namespace StreamMatch

/-- Why a run stops before it has a result. -/
inductive Halt where
  | fault (fault : Fault)
  /-- A cursor was committed to one that is not one generation above it. -/
  | misplaced
  /-- The run went deeper or longer than was allowed for. -/
  | exhausted
deriving DecidableEq, Repr

/-- A cursor over a window, and the reports made so far. -/
structure Reader where
  window : Window
  cursor : Cursor
  reports : Array Report := #[]

/-- An action at a cursor. When it halts, the reader is left as it was at that point. -/
abbrev Reading := EStateM Halt Reader

/-- The number of bytes that the window has and the source may still have from this cursor on, or
more. -/
def Reader.remaining (reader : Reader) : Nat :=
  reader.window.start + reader.window.length + reader.window.source.size - reader.cursor.position

namespace Reading

/-- Reads through the window. -/
def onWindow {α : Type} (action : Windowed α) : Reading α := fun reader =>
  match action reader.window with
  | .ok value window => .ok value { reader with window }
  | .error fault window => .error (.fault fault) { reader with window }

/-- The cursor's offset in the stream. -/
def position : Reading Nat :=
  return (← get).cursor.position

/-- Moves the cursor. -/
def moveTo (position : Nat) : Reading Unit :=
  modify fun reader => { reader with cursor := { reader.cursor with position } }

/-- Up to `count` bytes at the cursor, which stays where it is. -/
def peek (count : Nat) : Reading (List UInt8) := do
  onWindow (Window.peekAt (← position) count)

/-- Up to `count` code points at the cursor, which stays where it is. -/
def peekChars (count : Nat) : Reading Decoded := do
  onWindow (Window.decodeAt (← position) count)

/-- Reads up to `count` bytes and moves past them. -/
def read (count : Nat) : Reading (List UInt8) := do
  let bytes ← peek count
  moveTo ((← position) + bytes.length)
  return bytes

/-- Reads up to `count` code points and moves past the bytes that they span. -/
def readChars (count : Nat) : Reading (List Char) := do
  let decoded ← peekChars count
  moveTo ((← position) + decoded.length)
  return decoded.chars

/-- Moves past `count` bytes, or fewer if the input ends before; the result says past how many. -/
def advance (count : Nat) : Reading Nat :=
  return (← read count).length

/-- Whether the input ends at the cursor. -/
def isAtEnd : Reading Bool := do
  onWindow (Window.isEndAt (← position))

/-- The line and column of the cursor. -/
def location : Reading Location := do
  onWindow (Window.locationAt (← position))

/-- Discards the input before the cursor, if it is a root. -/
def reclaim : Reading Unit := do
  let cursor := (← get).cursor
  if cursor.isRoot then onWindow (Window.discardTo cursor.position)

/-- Moves the cursor to where a fork of it is. If the cursor is a root, the input before is
discarded. -/
def commit (fork : Cursor) : Reading Unit := do
  let cursor := (← get).cursor
  if fork.depth ≠ cursor.depth + 1 then throw .misplaced
  if cursor.isRoot then onWindow (Window.discardTo fork.position)
  moveTo fork.position

/-- Runs an action on a fork. The result tells where the fork ended; the cursor at hand is as it was
before, also if the action halts. -/
def onFork {α : Type} (action : Reading α) : Reading (α × Cursor) := fun reader =>
  match action { reader with cursor := reader.cursor.fork } with
  | .ok value after => .ok (value, after.cursor) { after with cursor := reader.cursor }
  | .error halt after => .error halt { after with cursor := reader.cursor }

/-- Makes a report, if this cursor is traced. -/
def report (report : Report) : Reading Unit :=
  modify fun reader =>
    if reader.cursor.traced then { reader with reports := reader.reports.push report } else reader

end Reading

end StreamMatch
