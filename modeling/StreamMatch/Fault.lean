import StreamMatch.Source

namespace StreamMatch

/-- A fatal condition met while reading. A matcher that simply does not apply raises none of
these. -/
inductive Fault where
  /-- The source failed. -/
  | io (kind : IoKind) (message : String)
  /-- Malformed or truncated UTF-8, refused by the strict policy, at this offset in the stream. -/
  | invalidUtf8 (offset : Nat)
  /-- A read at an offset that lies before the start of the window. -/
  | reclaimed (offset windowStart : Nat)
deriving DecidableEq, Repr

namespace Fault

/-- The wording of a fault. -/
def message : Fault → String
  | .io _ text => "failed to read from input source: " ++ text
  | .invalidUtf8 offset => "invalid UTF-8 sequence at byte " ++ toString offset
  | .reclaimed offset windowStart =>
    "input at byte " ++ toString offset ++ " was already reclaimed (window starts at byte " ++
      toString windowStart ++ ")"

end Fault

end StreamMatch
