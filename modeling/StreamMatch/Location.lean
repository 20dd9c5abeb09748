import StreamMatch.Text.Width
import StreamMatch.Utf8.Lossy

namespace StreamMatch

/-- A line and a column of the input text, both counted from one. Columns are display cells. -/
structure Location where
  line : Nat := 1
  column : Nat := 1
deriving DecidableEq, Repr

namespace Location

/-- How many columns a tab takes, wherever it stands. -/
def tabWidth : Nat := 8

/-- The location after one more character, where `width` says how many columns a character takes. A
carriage return takes no room, so that it makes a line end together with the line feed after it and
nothing on its own. -/
def step (width : Char → Nat) (location : Location) (c : Char) : Location :=
  match c with
  | '\n' => ⟨location.line + 1, 1⟩
  | '\r' => location
  | '\t' => ⟨location.line, location.column + tabWidth⟩
  | c => ⟨location.line, location.column + width c⟩

/-- The location after these bytes, read as text. -/
def after (location : Location) (bytes : List UInt8) (width : Char → Nat := columnWidth) :
    Location :=
  (Utf8.lossy bytes).foldl (step width) location

/-- Locations are ordered by line, and within a line by column. -/
def compare (first second : Location) : Ordering :=
  (Ord.compare first.line second.line).then (Ord.compare first.column second.column)

instance : Ord Location := ⟨compare⟩

/-- A location as `line:column`. -/
def render (location : Location) : String :=
  toString location.line ++ ":" ++ toString location.column

end Location

end StreamMatch
