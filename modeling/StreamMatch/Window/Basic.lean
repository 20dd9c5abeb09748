import StreamMatch.Config
import StreamMatch.Fault
import StreamMatch.Location

/-!
A window over a forward-only source. Bytes are pulled in on demand and kept until they are
discarded, which is what lets readers go back: nothing ever seeks in the source.
-/

namespace StreamMatch

/-- The part of a stream that has been read and not yet discarded. -/
structure Window where
  config : Config
  /-- What has not been read yet. -/
  source : Source
  /-- The bytes held. Those before `head` are discarded and wait to be dropped. -/
  bytes : Array UInt8 := #[]
  head : Nat := 0
  /-- The offset in the stream of the first retained byte. -/
  start : Nat := 0
  /-- The location where `carry` begins. -/
  origin : Location := {}
  /-- Discarded bytes of a character that goes on in the retained bytes. -/
  carry : List UInt8 := []
  /-- Whether the source has said that it has ended. It is not read again after that. -/
  ended : Bool := false
  head_le : head ≤ bytes.size := by simp

/-- Reading through a window. A fault leaves the window as the reads before it made it. -/
abbrev Windowed := EStateM Fault Window

namespace Window

/-- A window that nothing has been read into yet. -/
def ofSource (source : Source) (config : Config := default) : Window where
  config
  source

/-- The number of bytes retained. -/
def length (window : Window) : Nat :=
  window.bytes.size - window.head

/-- Up to `count` retained bytes from `offset` on, with no read of the source. -/
def slice (window : Window) (offset count : Nat) : List UInt8 :=
  (window.bytes.extract (window.head + offset) (window.head + offset + count)).toList

/-- The bytes retained. -/
def retained (window : Window) : List UInt8 :=
  window.slice 0 window.length

theorem head_le_append (window : Window) (delivered : List UInt8) :
    window.head ≤ (window.bytes ++ delivered).size := by
  have hHead := window.head_le
  rw [← Array.length_toList, Array.toList_appendList, List.length_append, Array.length_toList]
  omega

theorem head_add_le (window : Window) (count : Nat) :
    window.head + min count window.length ≤ window.bytes.size := by
  have hHead := window.head_le
  rw [length]
  omega

/-- Reads the source until at least `want` bytes are retained or the source has ended. An
interrupted read is made again; any other failure is a fault, and what was read before it stays. -/
def fill (want : Nat) (window : Window) : EStateM.Result Fault Window Unit :=
  if window.length < want ∧ window.ended = false then
    match _hRead : window.source.read window.config.chunkSize with
    | (.bytes [], rest) => .ok () { window with source := rest, ended := true }
    | (.bytes (byte :: more), rest) =>
      fill want { window with
        source := rest
        bytes := window.bytes ++ (byte :: more)
        head_le := window.head_le_append _ }
    | (.failed .interrupted _, rest) => fill want { window with source := rest }
    | (.failed kind message, rest) => .error (.io kind message) { window with source := rest }
  else .ok () window
termination_by window.source.size
decreasing_by
  all_goals exact Source.size_read_lt window.config.chunkSize_pos _hRead (by simp)

/-- Up to `count` bytes from `offset` bytes into the window. There are fewer only if the stream
ends before. -/
def peek (offset count : Nat) : Windowed (List UInt8) := do
  fill (offset + count)
  return (← get).slice offset count

/-- Drops the discarded bytes once they fill a chunk and are at least half of all bytes held. -/
def compact (window : Window) : Window :=
  if window.config.chunkSize ≤ window.head ∧ window.bytes.size ≤ window.head * 2 then
    { window with bytes := window.bytes.extract window.head, head := 0, head_le := Nat.zero_le _ }
  else window

/-- Discards the first `count` retained bytes, or all of them if there are fewer. A character that
is cut by this stays in `carry`, so that it is located as a whole later. -/
def discard (window : Window) (count : Nat) (width : Char → Nat := columnWidth) : Window :=
  let gone := min count window.length
  if gone = 0 then window
  else
    let carry := window.carry ++ window.slice 0 gone
    let located := Utf8.completeLength carry
    compact { window with
      head := window.head + gone
      head_le := window.head_add_le count
      start := window.start + gone
      origin := window.origin.after (carry.take located) width
      carry := carry.drop located }

/-- How far into the window an offset of the stream lies. -/
def relative (offset : Nat) : Windowed Nat := do
  let window ← get
  if offset < window.start then throw (.reclaimed offset window.start)
  else return offset - window.start

/-- Up to `count` bytes from an offset of the stream on. -/
def peekAt (offset count : Nat) : Windowed (List UInt8) := do
  peek (← relative offset) count

/-- Whether the stream ends at this offset, or before. -/
def isEndAt (offset : Nat) : Windowed Bool := do
  let distance ← relative offset
  fill (distance + 1)
  return decide ((← get).length ≤ distance)

/-- Discards everything before an offset of the stream. -/
def discardTo (offset : Nat) (width : Char → Nat := columnWidth) : Windowed Unit := do
  let distance ← relative offset
  modify (·.discard distance width)

/-- The location of an offset of the stream that lies in the window. An offset past the retained
bytes is located at their end: no byte is read for this. -/
def locationAt (offset : Nat) (width : Char → Nat := columnWidth) : Windowed Location := do
  let distance ← relative offset
  let window ← get
  return window.origin.after (window.carry ++ window.slice 0 distance) width

/-- A window in a debug view. -/
def debug (window : Window) : String :=
  "Buffer \x7b window_start: " ++ toString window.start ++ ", window_len: " ++
    toString window.length ++ ", eof: " ++ toString window.ended ++ ", config: " ++
    window.config.debug ++ " \x7d"

end Window

end StreamMatch
