import StreamMatch.Text.Unprintable

/-!
Text in quotes, as it stands in rendered matches, reports and debug views: the quote and the
backslash are escaped, four control characters have an escape of their own, and whatever is not
printable is written by its code point.
-/

namespace StreamMatch

namespace Quoted

/-- Lower-case hexadecimal digits of a number, without leading zeros. -/
def hexDigits (n : Nat) : List Char :=
  Nat.toDigits 16 n

/-- How one character is written between the quotes. An apostrophe stays as it is. -/
def escape (c : Char) : List Char :=
  match c with
  | '"' => ['\\', '"']
  | '\\' => ['\\', '\\']
  | '\n' => ['\\', 'n']
  | '\r' => ['\\', 'r']
  | '\t' => ['\\', 't']
  | '\x00' => ['\\', '0']
  | c =>
    if 0x20 ≤ c.toNat && c.toNat < 0x7f then [c]
    else if Printable.unprintable.contains c.toNat then
      ['\\', 'u', '\x7b'] ++ hexDigits c.toNat ++ ['\x7d']
    else [c]

end Quoted

/-- A text in double quotes, with every character escaped that needs it. -/
def quoted (text : List Char) : String :=
  String.ofList ('"' :: text.flatMap Quoted.escape ++ ['"'])

end StreamMatch
