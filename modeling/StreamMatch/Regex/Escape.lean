import StreamMatch.Regex.Text

/-!
What a backslash begins in a regular expression.
-/

namespace StreamMatch.Regex

/-- What an escape stands for. -/
inductive Escape where
  | char (c : Char)
  | chars (set : CharSet)
  | assert (assertion : Assertion)

namespace Escape

/-- The value of a hexadecimal digit. -/
def hexValue? (c : Char) : Option Nat :=
  if '0' ≤ c ∧ c ≤ '9' then some (c.toNat - '0'.toNat)
  else if 'a' ≤ c ∧ c ≤ 'f' then some (c.toNat - 'a'.toNat + 10)
  else if 'A' ≤ c ∧ c ≤ 'F' then some (c.toNat - 'A'.toNat + 10)
  else none

/-- A hexadecimal digit, with the blanks after it. -/
def hexDigit : Reads Nat := do
  let c ← Reads.take .unfinishedEscape
  match hexValue? c with
  | none => throw .unknownEscape
  | some value =>
    Reads.skipBlanks
    return value

/-- That many hexadecimal digits, after a number read so far. -/
def hexDigits (value : Nat) : (count : Nat) → Reads Nat
  | 0 => return value
  | count + 1 => do hexDigits (value * 16 + (← hexDigit)) count

/-- Hexadecimal digits up to a closing brace. There is at least one, and each takes a character of
the text, so as many rounds as the text has characters are enough. -/
def hexBraced (value : Nat) (opening : Bool) : (rounds : Nat) → Reads Nat
  | 0 => throw .unfinishedEscape
  | rounds + 1 => do
    Reads.skipBlanks
    match ← Reads.rest with
    | [] => throw .unfinishedEscape
    | '\x7d' :: _ =>
      if opening then throw .unknownEscape
      Reads.skip 1
      Reads.skipBlanks
      return value
    | _ => hexBraced (value * 16 + (← hexDigit)) false rounds

/-- A character by its code point: `digits` hexadecimal digits, or any number of them in braces. -/
def codePoint (digits : Nat) : Reads Escape := do
  Reads.skipBlanks
  let value ←
    match ← Reads.rest with
    | '\x7b' :: rest =>
      Reads.continueAt rest
      hexBraced 0 true (rest.length + 1)
    | _ => hexDigits 0 digits
  if value.isValidChar then return .char (Char.ofNat value)
  else throw .badCodePoint

/-- Whether a character may be escaped to stand for itself. Letters and digits are kept for other
escapes, and so are the angle brackets. -/
def isLiteral (c : Char) : Bool :=
  c.toNat < 0x80 && !c.isAlphanum && c != '<' && c != '>'

/-- Reads an escape, after its backslash. -/
def read : Reads Escape := do
  let c ← Reads.take .unfinishedEscape
  match c with
  | 'x' => codePoint 2
  | 'u' => codePoint 4
  | 'U' => codePoint 8
  | 'd' => return .chars .digit
  | 'D' => return .chars (.complement .digit)
  | 's' => return .chars .space
  | 'S' => return .chars (.complement .space)
  | 'w' => return .chars .word
  | 'W' => return .chars (.complement .word)
  | 'a' => return .char '\x07'
  | 'f' => return .char '\x0c'
  | 't' => return .char '\t'
  | 'n' => return .char '\n'
  | 'r' => return .char '\r'
  | 'v' => return .char '\x0b'
  | 'A' => return .assert .textStart
  | 'z' => return .assert .textEnd
  | 'b' => return .assert .wordBoundary
  | 'B' => return .assert .noWordBoundary
  | c => if isLiteral c then return .char c else throw .unknownEscape

end Escape

end StreamMatch.Regex
