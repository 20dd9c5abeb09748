import StreamMatch.Regex.Expr

/-!
Reading the text of a regular expression: what is kept while reading, and the steps that take
characters from the front of what is left.
-/

namespace StreamMatch.Regex

/-- Why a text is not a regular expression. -/
inductive Defect where
  | unclosedGroup
  | unopenedGroup
  | unclosedClass
  | unclosedCount
  | missingCount
  | countTooLarge
  | countsOutOfOrder
  | nothingToRepeat
  | unknownFlag
  | repeatedFlag
  | danglingNegation
  | lookAround
  | badGroupName
  | repeatedGroupName
  | unfinishedEscape
  | unknownEscape
  | badCodePoint
  | badInterval
  | notInClass
  | beyondLimits
deriving DecidableEq, Repr

/-- How the text that follows is to be read. -/
structure Flags where
  /-- Letters match in both cases. -/
  caseless : Bool := false
  /-- The line assertions hold at every line. -/
  multiLine : Bool := false
  /-- The dot matches the line feed too. -/
  dotAll : Bool := false
  /-- Blanks and comments stand for nothing. -/
  spaced : Bool := false
deriving DecidableEq, Repr

/-- What is known while a text is read. -/
structure Progress where
  rest : List Char
  flags : Flags := {}
  groupNames : List String := []
  /-- How many groups have been opened, those without a number left out. -/
  groups : Nat := 0

/-- Reading a part of the text. -/
abbrev Reads := StateT Progress (Except Defect)

namespace Reads

/-- What is left of the text. -/
def rest : Reads (List Char) :=
  return (← get).rest

def flags : Reads Flags :=
  return (← get).flags

def setFlags (flags : Flags) : Reads Unit :=
  modify ({ · with flags })

/-- Goes on with `rest`. -/
def continueAt (rest : List Char) : Reads Unit :=
  modify ({ · with rest })

/-- Drops characters from the front. -/
def skip (count : Nat) : Reads Unit :=
  modify fun progress => { progress with rest := progress.rest.drop count }

/-- Takes the character at the front; a text that has ended has this defect. -/
def take (defect : Defect) : Reads Char := do
  match ← rest with
  | [] => throw defect
  | c :: rest =>
    continueAt rest
    return c

/-- The text after blanks and comments. A comment goes from `#` to the end of its line, or to the
end of the text. -/
def afterBlanks (inComment : Bool) : List Char → List Char
  | [] => []
  | c :: rest =>
    if inComment then afterBlanks (c != '\n') rest
    else if isSpace c then afterBlanks false rest
    else if c == '#' then afterBlanks true rest
    else c :: rest

/-- Skips blanks and comments, where they stand for nothing. -/
def skipBlanks : Reads Unit := do
  if (← flags).spaced then
    continueAt (afterBlanks false (← rest))

/-- Drops the character at the front and the blanks after it; with nothing after that, the text has
this defect. -/
def skipWithin (defect : Defect) : Reads Unit := do
  skip 1
  skipBlanks
  if (← rest).isEmpty then throw defect

/-- A set as it is meant under the flags in force. -/
def underFlags (set : CharSet) : Reads CharSet :=
  return if (← flags).caseless then .caseless set else set

end Reads

end StreamMatch.Regex
