import StreamMatch.Regex.Bracket
import StreamMatch.Regex.Expr.Normal
import StreamMatch.Text.Letters

/-!
Regular expressions from their text. Flags set inside a group hold to its end, also in the
alternatives that follow. A text may not nest deeper than a limit: groups, repetitions, classes and
their operators, sequences of two items or more and choices of two branches or more are one level
each.
-/

namespace StreamMatch.Regex

namespace Flags

/-- Sets one flag by its letter. -/
def set? (flags : Flags) (letter : Char) (value : Bool) : Option Flags :=
  match letter with
  | 'i' => some { flags with caseless := value }
  | 'm' => some { flags with multiLine := value }
  | 's' => some { flags with dotAll := value }
  | 'x' => some { flags with spaced := value }
  | _ => none

end Flags

namespace Expr

/-- Letters of flags up to a colon or a closing parenthesis, which stays in front. Flags after a
hyphen are taken back. No letter may stand twice, and neither may the hyphen. -/
def flagLetters (flags : Flags) (seen : List Char) : List Char → Except Defect (Flags × List Char)
  | [] => .error .unclosedGroup
  | c :: rest =>
    if c = ':' ∨ c = ')' then
      if seen.head? = some '-' then .error .danglingNegation else .ok (flags, c :: rest)
    else if seen.contains c then .error .repeatedFlag
    else if c = '-' then flagLetters flags (c :: seen) rest
    else
      match flags.set? c (!seen.contains '-') with
      | none => .error .unknownFlag
      | some flags => flagLetters flags (c :: seen) rest

/-- Whether a character may stand in the name of a group. -/
def isNameChar (opening : Bool) (c : Char) : Bool :=
  c == '_' || isLetter c || (!opening && (c == '.' || c == '[' || c == ']' || isNumber c))

/-- Reads the name of a group up to its closing angle bracket. -/
def groupName : Reads Unit := do
  let text ← Reads.rest
  let name := text.takeWhile (· != '>')
  let '>' :: rest := text.dropWhile (· != '>') | throw .badGroupName
  let first :: more := name | throw .badGroupName
  unless isNameChar true first && more.all (isNameChar false) do throw .badGroupName
  let name := String.ofList name
  if (← get).groupNames.contains name then throw .repeatedGroupName
  modify fun progress => { progress with rest, groupNames := name :: progress.groupNames }

/-- What an opening parenthesis begins. -/
inductive Opening where
  /-- A group, inside which these flags hold, with its number if it has one. -/
  | group (index : Option Nat) (inside : Flags)
  /-- Flags that hold from here to the end of the group around. -/
  | flags (onwards : Flags)

/-- The number of a group that opens here. -/
def nextGroup : Reads Nat := do
  modify fun progress => { progress with groups := progress.groups + 1 }
  return (← get).groups

/-- Reads what follows an opening parenthesis, up to the first character of a group's body. -/
def opening : Reads Opening := do
  Reads.skip 1
  Reads.skipBlanks
  let flags ← Reads.flags
  match ← Reads.rest with
  | '?' :: '=' :: _ => throw .lookAround
  | '?' :: '!' :: _ => throw .lookAround
  | '?' :: '<' :: '=' :: _ => throw .lookAround
  | '?' :: '<' :: '!' :: _ => throw .lookAround
  | '?' :: 'P' :: '<' :: rest =>
    Reads.continueAt rest
    groupName
    return .group (← nextGroup) flags
  | '?' :: '<' :: rest =>
    Reads.continueAt rest
    groupName
    return .group (← nextGroup) flags
  | '?' :: letters =>
    match ← flagLetters flags [] letters with
    | (inside, ':' :: rest) =>
      Reads.continueAt rest
      return .group none inside
    | (onwards, rest) =>
      if letters.head? = some ')' then throw .nothingToRepeat
      Reads.continueAt (rest.drop 1)
      return .flags onwards
  | _ => return .group (← nextGroup) flags

/-- Decimal digits from the front of a text, and what follows them. With `spaced` there may be
blanks and comments between them. -/
def digits (spaced inComment : Bool) : List Char → List Char × List Char
  | [] => ([], [])
  | c :: rest =>
    if inComment then digits spaced (c != '\n') rest
    else if c.isDigit then
      let (more, rest) := digits spaced false rest
      (c :: more, rest)
    else if spaced && isSpace c then digits spaced false rest
    else if spaced && c == '#' then digits spaced true rest
    else ([], c :: rest)

/-- A decimal number. Blanks may stand around it whatever the flags. -/
def count : Reads Nat := do
  let text ← Reads.rest
  let (digits, rest) := digits (← Reads.flags).spaced false (text.dropWhile isSpace)
  Reads.continueAt (rest.dropWhile isSpace)
  if digits.isEmpty then throw .missingCount
  let value := digits.foldl (fun value c => value * 10 + (c.toNat - '0'.toNat)) 0
  if value < UInt32.size then return value else throw .countTooLarge

/-- A question mark in front, which makes a repetition lazy. -/
def isGreedy : Reads Bool := do
  match ← Reads.rest with
  | '?' :: rest =>
    Reads.continueAt rest
    return false
  | _ => return true

/-- A repetition by one character. -/
def repeated (body : Expr) (least : Nat) (most : Option Nat) : Reads Expr := do
  Reads.skip 1
  return body.times least most (← isGreedy)

/-- A repetition by numbers in braces. -/
def counted (body : Expr) : Reads Expr := do
  Reads.skipWithin .unclosedCount
  let least ← count
  let most ←
    match ← Reads.rest with
    | ',' :: _ =>
      Reads.skipWithin .unclosedCount
      match ← Reads.rest with
      | '\x7d' :: _ => pure none
      | _ => pure (some (← count))
    | _ => pure (some least)
  let '\x7d' :: _ ← Reads.rest | throw .unclosedCount
  Reads.skip 1
  Reads.skipBlanks
  let greedy ← isGreedy
  if most.any (· < least) then throw .countsOutOfOrder
  return body.times least most greedy

/-- A single character, a dot or an assertion. -/
def primitive : Reads Expr := do
  let c ← Reads.take .unfinishedEscape
  let flags ← Reads.flags
  match c with
  | '.' => return .ofSet (if flags.dotAll then .all else .notLineFeed)
  | '^' => return .assert (if flags.multiLine then .lineStart else .textStart)
  | '$' => return .assert (if flags.multiLine then .lineEnd else .textEnd)
  | '\\' =>
    match ← Escape.read with
    | .char c => return .ofSet (← Reads.underFlags (.single c))
    | .chars set => return .ofSet set
    | .assert assertion => return .assert assertion
  | c => return .ofSet (← Reads.underFlags (.single c))

/-- An item of a sequence as it was read. -/
structure Item where
  expr : Expr
  /-- How deep the text nests. -/
  depth : Nat := 0
  /-- Whether a repetition sign may follow. Flags cannot be repeated. -/
  isRepeatable : Bool := true

namespace Item

/-- Expressions put together by `build`, one level deeper than the deepest of them. -/
def above (build : List Expr → Expr) (items : List Item) : Item :=
  { expr := build (items.map (·.expr)), depth := (items.map (·.depth)).foldl max 0 + 1 }

/-- Items one after the other. -/
def sequence (items : List Item) : Item :=
  match items with
  | [] => { expr := .empty }
  | [item] => item
  | items => above appendAll items

/-- Items to choose from. -/
def choice (branches : List Item) : Item :=
  match branches with
  | [branch] => branch
  | branches => above Expr.choice branches

end Item

/-- What has been read of a list of alternatives, the last first. -/
structure Pieces where
  /-- The alternatives that are complete. -/
  before : List Item := []
  /-- The items of the alternative at hand. -/
  items : List Item := []

namespace Pieces

def add (pieces : Pieces) (item : Item) : Pieces :=
  { pieces with items := item :: pieces.items }

/-- Ends the alternative at hand. -/
def next (pieces : Pieces) : Pieces :=
  { before := .sequence pieces.items.reverse :: pieces.before }

/-- All that has been read. -/
def join (pieces : Pieces) : Item :=
  .choice pieces.next.before.reverse

/-- The expression that a repetition sign would repeat. -/
def last? (pieces : Pieces) : Option Expr :=
  match pieces.items with
  | [] => none
  | item :: _ => if item.isRepeatable then some item.expr else none

/-- Puts a repetition in the place of the item that it repeats. -/
def replaceLast (pieces : Pieces) (repetition : Expr) : Pieces :=
  match pieces.items with
  | [] => pieces
  | item :: items => { pieces with items := ⟨repetition, item.depth + 1, true⟩ :: items }

end Pieces

/-- Reads alternatives up to a closing parenthesis or the end of the text. Every round takes a
character, so `rounds` need not be more than there are. -/
def alternatives (pieces : Pieces) : (rounds : Nat) → Reads Item
  | 0 => throw .unclosedGroup
  | rounds + 1 => do
    Reads.skipBlanks
    match ← Reads.rest, pieces.last? with
    | [], _ => return pieces.join
    | ')' :: _, _ => return pieces.join
    | '|' :: _, _ =>
      Reads.skip 1
      alternatives pieces.next rounds
    | '(' :: _, _ =>
      let around ← Reads.flags
      match ← opening with
      | .flags onwards =>
        Reads.setFlags onwards
        alternatives (pieces.add { expr := .empty, isRepeatable := false }) rounds
      | .group index inside =>
        Reads.setFlags inside
        let body ← alternatives {} rounds
        let ')' :: rest ← Reads.rest | throw .unclosedGroup
        Reads.continueAt rest
        Reads.setFlags around
        let expr :=
          match index with
          | none => body.expr
          | some index => .group index body.expr
        alternatives (pieces.add { expr, depth := body.depth + 1 }) rounds
    | '[' :: _, _ =>
      let part ← Bracket.read rounds
      alternatives (pieces.add { expr := .ofSet part.set, depth := part.depth }) rounds
    | '?' :: _, some last => alternatives (pieces.replaceLast (← repeated last 0 (some 1))) rounds
    | '*' :: _, some last => alternatives (pieces.replaceLast (← repeated last 0 none)) rounds
    | '+' :: _, some last => alternatives (pieces.replaceLast (← repeated last 1 none)) rounds
    | '\x7b' :: _, some last => alternatives (pieces.replaceLast (← counted last)) rounds
    | c :: _, _ =>
      if c = '?' ∨ c = '*' ∨ c = '+' ∨ c = '\x7b' then throw .nothingToRepeat
      alternatives (pieces.add { expr := ← primitive }) rounds

/-- The deepest that a text may nest. -/
def depthLimit : Nat := 250

/-- The item that a text spells, however deep it nests. -/
def itemOf (text : List Char) : Except Defect Item :=
  match alternatives {} (text.length + 1) { rest := text } with
  | .error defect => .error defect
  | .ok (item, progress) => if progress.rest = [] then .ok item else .error .unopenedGroup

end Expr

end StreamMatch.Regex
