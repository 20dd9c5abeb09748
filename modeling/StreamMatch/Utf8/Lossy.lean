import StreamMatch.Utf8.Basic

/-!
Whole byte strings as text. Every maximal stretch that begins a sequence and cannot go on is one
replacement character, and so is a sequence that the end cuts short. The decoder goes byte by
byte, so that decoding a concatenation is decoding its parts one after the other.
-/

namespace StreamMatch.Utf8

/-- A sequence that has been entered and is not complete yet. -/
structure Pending where
  /-- How many bytes are still to come. -/
  owed : Nat
  /-- The least byte that may come next. -/
  low : UInt8
  /-- The greatest byte that may come next. -/
  high : UInt8
  /-- The code point so far. -/
  bits : Nat
deriving DecidableEq, Repr

/-- Takes a byte between two characters: what it completes, and the sequence that it enters. -/
def enter (byte : UInt8) : List Char × Option Pending :=
  match leadWidth byte with
  | 0 => ([replacement], none)
  | 1 => ([Char.ofNat byte.toNat], none)
  | width =>
    ([], some ⟨width - 1, (secondRange byte).1, (secondRange byte).2, leadBits byte⟩)

/-- Takes one more byte, inside a sequence or between two. A byte that cannot continue the sequence
ends it with a replacement and is then taken on its own. -/
def accept (state : Option Pending) (byte : UInt8) : List Char × Option Pending :=
  match state with
  | none => enter byte
  | some pending =>
    if pending.low ≤ byte && byte ≤ pending.high then
      let bits := appendBits pending.bits byte
      if pending.owed ≤ 1 then ([Char.ofNat bits], none)
      else ([], some ⟨pending.owed - 1, 0x80, 0xbf, bits⟩)
    else
      let (decoded, next) := enter byte
      (replacement :: decoded, next)

/-- Decodes bytes that follow on `state`, up to their end. -/
def lossyFrom (state : Option Pending) : List UInt8 → List Char
  | [] => if state.isSome then [replacement] else []
  | byte :: rest => (accept state byte).1 ++ lossyFrom (accept state byte).2 rest

/-- Decodes bytes that follow on `state` and that more bytes follow: what they complete, and the
sequence that they leave open. -/
def feed (state : Option Pending) : List UInt8 → List Char × Option Pending
  | [] => ([], state)
  | byte :: rest =>
    let (decoded, next) := accept state byte
    (decoded ++ (feed next rest).1, (feed next rest).2)

theorem lossyFrom_append (state : Option Pending) (first second : List UInt8) :
    lossyFrom state (first ++ second) =
      (feed state first).1 ++ lossyFrom (feed state first).2 second := by
  induction first generalizing state with
  | nil => rfl
  | cons byte rest ih => rw [List.cons_append, lossyFrom, ih, feed, List.append_assoc]

theorem feed_append (state : Option Pending) (first second : List UInt8) :
    feed state (first ++ second) =
      ((feed state first).1 ++ (feed (feed state first).2 second).1,
        (feed (feed state first).2 second).2) := by
  induction first generalizing state with
  | nil => rfl
  | cons byte rest ih => simp only [List.cons_append, feed, ih, List.append_assoc]

/-- The text of a byte string, with one replacement character for each maximal stretch that is not
well formed. -/
def lossy (bytes : List UInt8) : List Char :=
  lossyFrom none bytes

/-- How many bytes at the end belong to a sequence that is not complete, found by walking
backwards over continuation bytes to a lead byte that announces more than was passed. -/
def unfinishedFrom (passed : Nat) : List UInt8 → Nat
  | [] => 0
  | byte :: earlier =>
    if isContinuation byte then unfinishedFrom (passed + 1) earlier
    else if passed < leadWidth byte then passed
    else 0

/-- The length of the bytes without an incomplete sequence at their end. No sequence is longer than
four bytes, so no more are looked at. -/
def completeLength (bytes : List UInt8) : Nat :=
  bytes.length - unfinishedFrom 1 (bytes.reverse.take 4)

end StreamMatch.Utf8
