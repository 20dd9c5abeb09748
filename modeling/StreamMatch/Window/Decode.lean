import StreamMatch.Window.Basic

/-!
Code points decoded from a window. A character is never split between two reads, even if the source
delivered it in pieces.
-/

namespace StreamMatch

/-- Code points, and the number of bytes that they span. -/
structure Decoded where
  chars : List Char
  length : Nat
deriving DecidableEq, Repr

namespace Decoded

/-- Nothing decoded. -/
def nil : Decoded := ⟨[], 0⟩

/-- Puts a character of this width in front. -/
def cons (c : Char) (width : Nat) (rest : Decoded) : Decoded :=
  ⟨c :: rest.chars, width + rest.length⟩

end Decoded

namespace Window

/-- Under the strict policy malformed bytes at `offset` in the window are a fault; under the
lenient one they are let through. -/
def tolerate (offset : Nat) : Windowed Unit := do
  let window ← get
  match window.config.policy with
  | .lenient => return ()
  | .strict => throw (.invalidUtf8 (window.start + offset))

/-- The segment that stands `offset` bytes into the window, or nothing at the end of the stream.
The source is read as far as the lead byte asks. -/
def segment (offset : Nat) : Windowed (Option Utf8.Segment) := do
  match ← peek offset 1 with
  | [] => return none
  | lead :: _ =>
    let tail ← peek (offset + 1) (Utf8.leadWidth lead - 1)
    return some (.of lead tail)

/-- Decodes up to `count` code points from `offset` bytes into the window. A malformed byte is
replaced on its own. A sequence that the end of the stream cuts short is replaced too, and decoding
stops there. -/
def decode (offset : Nat) : (count : Nat) → Windowed Decoded
  | 0 => return .nil
  | count + 1 => do
    match ← segment offset with
    | none => return .nil
    | some (.char c width) => return (← decode (offset + width) count).cons c width
    | some .malformed =>
      tolerate offset
      return (← decode (offset + 1) count).cons Utf8.replacement 1
    | some .truncated =>
      tolerate offset
      return Decoded.nil.cons Utf8.replacement 1

/-- Decodes up to `count` code points from an offset of the stream on. -/
def decodeAt (offset count : Nat) : Windowed Decoded := do
  decode (← relative offset) count

end Window

end StreamMatch
