import StreamMatch.Match.Basic
import StreamMatch.Text.Quoted

namespace StreamMatch.Match

mutual

/-- A match on one line: its tag, its text in quotes, and its submatches in brackets if there are
any. -/
def render (registry : TagRegistry) : Match → String
  | ⟨tag, _, content, submatches, _⟩ =>
    let node := registry.render tag ++ "(" ++ quoted (Utf8.lossy content) ++ ")"
    match submatches with
    | [] => node
    | _ :: _ => node ++ "[" ++ ", ".intercalate (renderAll registry submatches) ++ "]"

/-- The lines of several matches. -/
def renderAll (registry : TagRegistry) : List Match → List String
  | [] => []
  | m :: rest => render registry m :: renderAll registry rest

end

end StreamMatch.Match
