import StreamMatch.Regex.CharSet
import StreamMatch.Utf8.Basic

/-!
Regular expressions over bytes that hold UTF-8. Which group matched what is not recorded: only the
whole match is asked for.
-/

namespace StreamMatch.Regex

/-- The character whose sequence starts at an index of the bytes, and its width. -/
def charAt? (bytes : Array UInt8) (index : Nat) : Option (Char × Nat) :=
  Utf8.decodeFirst (bytes.extract index (index + 4)).toList

/-- Goes back over continuation bytes, `steps` of them at most, to where a sequence may start. -/
def sequenceStart (bytes : Array UInt8) : (steps index : Nat) → Nat
  | 0, index => index
  | _ + 1, 0 => 0
  | steps + 1, index + 1 =>
    match bytes[index + 1]? with
    | none => index + 1
    | some byte =>
      if Utf8.isContinuation byte then sequenceStart bytes steps index else index + 1

/-- The character that the bytes before an index are read as, from the last byte on that can start
a sequence. -/
def charBefore? (bytes : Array UInt8) (index : Nat) : Option Char :=
  match index with
  | 0 => none
  | last + 1 =>
    (Utf8.decodeFirst (bytes.extract (sequenceStart bytes 3 last) index).toList).map (·.1)

/-- A condition on a position that takes no input. -/
inductive Assertion where
  | textStart
  | textEnd
  | lineStart
  | lineEnd
  | wordBoundary
  | noWordBoundary
deriving DecidableEq, Repr

namespace Assertion

/-- Whether the condition holds between two bytes. What is not a well-formed sequence is no word
character. Next to such bytes there may be a word boundary, but `noWordBoundary` never holds. -/
def holds (assertion : Assertion) (bytes : Array UInt8) (index : Nat) : Bool :=
  let before := charBefore? bytes index
  let after := (charAt? bytes index).map (·.1)
  match assertion with
  | .textStart => index == 0
  | .textEnd => index == bytes.size
  | .lineStart => index == 0 || bytes[index - 1]? == some 0x0a
  | .lineEnd => index == bytes.size || bytes[index]? == some 0x0a
  | .wordBoundary => before.any isWord != after.any isWord
  | .noWordBoundary =>
    (index == 0 || before.isSome) && (index == bytes.size || after.isSome) &&
      before.any isWord == after.any isWord

end Assertion

/-- A regular expression. -/
inductive Expr where
  | empty
  | literal (text : List Char)
  | chars (set : CharSet)
  | assert (assertion : Assertion)
  /-- A group by its number. -/
  | group (index : Nat) (body : Expr)
  | concat (first second : Expr)
  /-- Prefers the first of the two. -/
  | alt (first second : Expr)
  /-- Between `least` and `most` times; a greedy repetition prefers more of them. -/
  | repeat (body : Expr) (least : Nat) (most : Option Nat) (greedy : Bool)
deriving DecidableEq, Repr

namespace Expr

/-- The least number of characters in a match. There is none if the empty set is a part of the
expression. -/
def minLength? : Expr → Option Nat
  | .empty => some 0
  | .literal text => some text.length
  | .chars set => if set.isEmpty then none else some 1
  | .assert _ => some 0
  | .group _ body => body.minLength?
  | .concat first second => return (← first.minLength?) + (← second.minLength?)
  | .alt first second => return min (← first.minLength?) (← second.minLength?)
  | .repeat body least _ _ => body.minLength?.map (· * least)

/-- The greatest number of characters in a match. There is none if the empty set is a part of the
expression, or if there is no bound. -/
def maxLength? : Expr → Option Nat
  | .empty => some 0
  | .literal text => some text.length
  | .chars set => if set.isEmpty then none else some 1
  | .assert _ => some 0
  | .group _ body => body.maxLength?
  | .concat first second => return (← first.maxLength?) + (← second.maxLength?)
  | .alt first second => return max (← first.maxLength?) (← second.maxLength?)
  | .repeat body _ most _ => return (← body.maxLength?) * (← most)

/-- Whether every match visibly begins at the start of the text. -/
def startsAnchored : Expr → Bool
  | .assert assertion => assertion == .textStart
  | .group _ body => body.startsAnchored
  | .concat first second =>
    first.startsAnchored || (first.maxLength? == some 0 && second.startsAnchored)
  | .alt first second => first.startsAnchored && second.startsAnchored
  | .repeat body least _ _ => 0 < least && body.startsAnchored
  | _ => false

/-- Whether every match visibly ends at the end of the text. -/
def endsAnchored : Expr → Bool
  | .assert assertion => assertion == .textEnd
  | .group _ body => body.endsAnchored
  | .concat first second =>
    second.endsAnchored || (second.maxLength? == some 0 && first.endsAnchored)
  | .alt first second => first.endsAnchored && second.endsAnchored
  | .repeat body least _ _ => 0 < least && body.endsAnchored
  | _ => false

end Expr

end StreamMatch.Regex
