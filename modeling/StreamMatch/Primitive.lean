import StreamMatch.Pattern
import StreamMatch.UnitRun

namespace StreamMatch

/-- A matcher that reads the input itself, as opposed to one built from others. -/
inductive Primitive where
  | bytes (run : ByteRun)
  | chars (run : CharRun)
  /-- Exactly these bytes. -/
  | literal (tag : Tag) (text : List UInt8)
  | pattern (pattern : Pattern)

namespace Primitive

/-- The tag of the matches it produces. -/
def tag : Primitive → Tag
  | .bytes run => run.tag
  | .chars run => run.tag
  | .literal tag _ => tag
  | .pattern p => p.tag

/-- The name it goes by in reports. -/
def name : Primitive → String
  | .bytes _ => "Bytes"
  | .chars _ => "CodePoints"
  | .literal _ _ => "Literal"
  | .pattern _ => "Pattern"

/-- A primitive in a debug view. -/
def debug (primitive : Primitive) : String :=
  match primitive with
  | .bytes run => run.debug primitive.name
  | .chars run => run.debug primitive.name
  | .literal tag text =>
    "Literal \x7b tag: " ++ tag.debug ++ ", bytes: [" ++ ", ".intercalate (text.map toString) ++
      "] \x7d"
  | .pattern p => p.debug

end Primitive

end StreamMatch
