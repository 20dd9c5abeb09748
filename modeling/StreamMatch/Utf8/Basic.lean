/-!
UTF-8 sequences one at a time: which byte starts a sequence of which width, which sequences are
well formed, and what a reader that stands at a lead byte finds there.
-/

namespace StreamMatch.Utf8

/-- Stands for input that is not well-formed UTF-8. -/
def replacement : Char := '\uFFFD'

/-- The width of the sequence that a lead byte introduces, or zero if no sequence starts with this
byte. -/
def leadWidth (lead : UInt8) : Nat :=
  if lead ≤ 0x7f then 1
  else if lead < 0xc2 then 0
  else if lead ≤ 0xdf then 2
  else if lead ≤ 0xef then 3
  else if lead ≤ 0xf4 then 4
  else 0

/-- Whether a byte can stand inside a sequence, after its lead byte. -/
def isContinuation (byte : UInt8) : Bool :=
  0x80 ≤ byte && byte ≤ 0xbf

/-- The least and the greatest byte that may follow a lead byte. After `e0` and `f0` the smaller
ones would spell an overlong form, after `ed` the greater ones a surrogate, and after `f4` a number
beyond the last code point. -/
def secondRange (lead : UInt8) : UInt8 × UInt8 :=
  if lead = 0xe0 then (0xa0, 0xbf)
  else if lead = 0xed then (0x80, 0x9f)
  else if lead = 0xf0 then (0x90, 0xbf)
  else if lead = 0xf4 then (0x80, 0x8f)
  else (0x80, 0xbf)

/-- Whether `second` may follow `lead`. -/
def isSecond (lead second : UInt8) : Bool :=
  (secondRange lead).1 ≤ second && second ≤ (secondRange lead).2

/-- The bits of a code point that its lead byte holds. -/
def leadBits (lead : UInt8) : Nat :=
  if lead ≤ 0x7f then lead.toNat
  else if lead ≤ 0xdf then lead.toNat - 0xc0
  else if lead ≤ 0xef then lead.toNat - 0xe0
  else lead.toNat - 0xf0

/-- Appends the six bits of a continuation byte. -/
def appendBits (bits : Nat) (byte : UInt8) : Nat :=
  bits * 64 + (byte.toNat - 0x80)

/-- The character that these bytes spell, if they are exactly one well-formed sequence. -/
def charOf? (bytes : List UInt8) : Option Char :=
  match bytes with
  | [a] => if leadWidth a = 1 then some (Char.ofNat (leadBits a)) else none
  | [a, b] =>
    if leadWidth a = 2 && isSecond a b then some (Char.ofNat (appendBits (leadBits a) b)) else none
  | [a, b, c] =>
    if leadWidth a = 3 && isSecond a b && isContinuation c then
      some (Char.ofNat (appendBits (appendBits (leadBits a) b) c))
    else none
  | [a, b, c, d] =>
    if leadWidth a = 4 && isSecond a b && isContinuation c && isContinuation d then
      some (Char.ofNat (appendBits (appendBits (appendBits (leadBits a) b) c) d))
    else none
  | _ => none

/-- The character at the front of the bytes and its width, if a well-formed sequence starts
there. -/
def decodeFirst (bytes : List UInt8) : Option (Char × Nat) :=
  match bytes with
  | [] => none
  | lead :: _ => (charOf? (bytes.take (leadWidth lead))).map (·, leadWidth lead)

/-- What stands at a byte where a character should start. -/
inductive Segment where
  /-- A well-formed sequence of this width. -/
  | char (c : Char) (width : Nat)
  /-- No sequence starts here. -/
  | malformed
  /-- The stream ends before the sequence that the lead byte announces is complete. -/
  | truncated
deriving DecidableEq, Repr

/-- Reads the segment at `lead`. The bytes `tail` after it are as many as a sequence with this lead
needs, or fewer if the stream ends before; a sequence counts as cut short if nothing but
continuation bytes follows its lead. -/
def Segment.of (lead : UInt8) (tail : List UInt8) : Segment :=
  if leadWidth lead = 0 then .malformed
  else if tail.length + 1 < leadWidth lead then
    if tail.all isContinuation then .truncated else .malformed
  else
    match charOf? (lead :: tail) with
    | some c => .char c (leadWidth lead)
    | none => .malformed

end StreamMatch.Utf8
