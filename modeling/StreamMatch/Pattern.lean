import StreamMatch.Regex.Library
import StreamMatch.Tag
import StreamMatch.Text.Quoted

namespace StreamMatch

/-- Matches a regular expression where it stands, on a bounded stretch of the input. -/
structure Pattern where
  tag : Tag
  /-- The expression as it was written. -/
  text : List Char
  /-- How many bytes it sees. -/
  window : Nat
  regex : Regex

namespace Pattern

/-- The text that is compiled for an expression: the expression in a group, behind the assertion
that the input begins there. -/
def anchored (text : List Char) : List Char :=
  '^' :: Regex.grouped text

/-- A pattern from the text of its expression, if a library compiles it. -/
def compile (library : Regex.Library) (tag : Tag) (text : List Char) (window : Nat) :
    Except library.Defect Pattern :=
  return ⟨tag, text, window, ← library.compile (anchored text)⟩

/-- The length of what the pattern matches in the bytes it sees: everything to the end of the match
found. -/
def matchLength? (pattern : Pattern) (bytes : List UInt8) : Option Nat :=
  (pattern.regex.find bytes).map (·.2)

theorem le_length_of_matchLength? {pattern : Pattern} {bytes : List UInt8} {length : Nat}
    (hMatch : pattern.matchLength? bytes = some length) : length ≤ bytes.length := by
  obtain ⟨⟨start, stop⟩, hFind, rfl⟩ := Option.map_eq_some_iff.1 hMatch
  exact pattern.regex.le_length_of_find hFind

/-- A pattern in a debug view. -/
def debug (pattern : Pattern) : String :=
  "Pattern \x7b tag: " ++ pattern.tag.debug ++ ", regex: " ++ quoted pattern.text ++
    ", window: " ++ toString pattern.window ++ " \x7d"

end Pattern

end StreamMatch
