import StreamMatch.Pattern
import StreamMatch.Regex.Expr.Parser
import StreamMatch.Regex.Footprint
import StreamMatch.Regex.Search

namespace StreamMatch

namespace Regex

namespace Program

/-- A program to be searched with. -/
def toRegex (program : Program) : Regex where
  find bytes := program.find bytes.toArray
  le_length_of_find hFind := le_size_of_find hFind

end Program

/-- A library that looks for a match by following all ways of matching side by side. It reads the
larger part of the usual syntax, and serves to run patterns. -/
def engine : Library where
  Expr := Expr.Item
  Defect := Defect
  unopenedGroup := .unopenedGroup
  beyondLimits := .beyondLimits
  parse := Expr.itemOf
  withinLimits item := item.depth ≤ Expr.depthLimit && Footprint.fits item.expr
  build item := (Program.ofExpr item.expr).toRegex

end Regex

/-- A pattern from the text of its expression, to be run with the engine. -/
def Pattern.ofText (tag : Tag) (text : List Char) (window : Nat) : Except Regex.Defect Pattern :=
  Pattern.compile Regex.engine tag text window

end StreamMatch
