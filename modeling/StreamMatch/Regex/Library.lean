namespace StreamMatch

/-- A compiled regular expression. -/
structure Regex where
  /-- Where in some bytes the leftmost match begins and ends; of those that begin there, the one that
  is preferred. -/
  find : List UInt8 → Option (Nat × Nat)
  le_length_of_find {bytes : List UInt8} {start stop : Nat} :
    find bytes = some (start, stop) → stop ≤ bytes.length

namespace Regex

/-- A library of regular expressions. -/
structure Library where
  /-- What it reads texts as. -/
  Expr : Type
  /-- Why a text is not a regular expression, or is not compiled. -/
  Defect : Type
  /-- There is a closing parenthesis in the text that closes nothing. -/
  unopenedGroup : Defect
  /-- The expression nests too deep, or takes too much memory. -/
  beyondLimits : Defect
  /-- The expression that a text spells, however deep it nests and however large it is. -/
  parse : List Char → Except Defect Expr
  /-- Whether an expression is neither too deep nor too large. -/
  withinLimits : Expr → Bool
  build : Expr → Regex

/-- The text of a group without a number around a text. -/
def grouped (text : List Char) : List Char :=
  ['(', '?', ':'] ++ text ++ [')']

namespace Library

/-- The compiled expression that a text spells. -/
def compile (library : Library) (text : List Char) : Except library.Defect Regex := do
  let expr ← library.parse text
  if library.withinLimits expr then return library.build expr else throw library.beyondLimits

/-- A text that is an expression ends in a comment if this takes in a parenthesis behind the text,
which would otherwise have nothing to close. -/
def EndsInComment (library : Library) (text : List Char) : Prop :=
  ∃ expr, library.parse (text ++ [')']) = .ok expr

/-- What libraries say of `(?:e)` and of `^`. A text with a parenthesis that has nothing to close
would close the group itself; nothing is said of it. -/
structure Documented (library : Library) : Prop where
  /-- In a group an expression matches what it matches. -/
  group {text : List Char} {expr : library.Expr} (hText : library.parse text = .ok expr)
    (hClosed : ¬ library.EndsInComment text) :
    ∃ group, library.parse (grouped text) = .ok group ∧
      (library.build group).find = (library.build expr).find
  /-- Behind `^` a group matches what it matches, if that is at the beginning. -/
  start {text : List Char} {expr group : library.Expr} (hText : library.parse text = .ok expr)
    (hGroup : library.parse (grouped text) = .ok group) :
    ∃ behind, library.parse ('^' :: grouped text) = .ok behind ∧
      ∀ bytes, (library.build behind).find bytes =
        ((library.build group).find bytes).filter (·.1 = 0)
  /-- A group that is open at the end is refused. -/
  unclosed {text : List Char} {expr : library.Expr} (hText : library.parse text = .ok expr)
    (hOpen : library.EndsInComment text) :
    ∃ defect, library.parse ('^' :: grouped text) = .error defect
  /-- A defect of a text is one in a group too, if it is not that a group could end there. -/
  refused {text : List Char} {defect : library.Defect} (hText : library.parse text = .error defect)
    (hDefect : defect ≠ library.unopenedGroup) :
    ∃ defect', library.parse ('^' :: grouped text) = .error defect'

end Library

end Regex

end StreamMatch
