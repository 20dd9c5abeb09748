import StreamMatch.Matcher.Scan

/-!
Matchers as expressions, and grammars of named rules that may refer to each other.
-/

namespace StreamMatch

/-- A matcher. -/
inductive Matcher where
  | primitive (primitive : Primitive)
  | seq (tag : Tag) (steps : List Matcher)
  | named (tag : Tag) (steps : List (String × Matcher))
  | first (alternatives : List Matcher)
  | longest (alternatives : List Matcher)
  | many (tag : Tag) (least : Nat) (most : Option Nat) (element : Matcher)
    (separator : Option Matcher)
  | optional (inner : Matcher)
  | keep (inner : Matcher)
  /-- A rule of the grammar, by its name. -/
  | rule (name : String)
  | lookahead (tag : Tag) (wanted : Bool) (inner : Matcher)
  | endOfInput (tag : Tag)
  | skip (tag : Tag) (count : Nat)
  | insert (tag : Tag) (bytes : List UInt8)
  | stray (count : Nat)
  | refuse

namespace Matcher

/-- The element any number of times but at least `least` times. -/
def atLeast (tag : Tag) (least : Nat) (element : Matcher) : Matcher :=
  .many tag least none element none

/-- The element at least `least` times, with a separator between two of them. -/
def separated (tag : Tag) (least : Nat) (element separator : Matcher) : Matcher :=
  .many tag least none element (some separator)

/-- Bounds the rounds of a repetition from above, but not below the least number of them. Other
matchers stay as they are. -/
def atMost (matcher : Matcher) (bound : Nat) : Matcher :=
  match matcher with
  | .many tag least _ element separator =>
    .many tag least (some (max bound least)) element separator
  | matcher => matcher

mutual

/-- The attempt that a matcher stands for, where `call` is what the names of rules stand for. -/
def attempt (call : String → Attempt) : Matcher → Attempt
  | .primitive p => p.attempt
  | .seq tag steps => .seq tag (attempts call steps)
  | .named tag steps => .seqNamed tag (namedAttempts call steps)
  | .first alternatives => .first (attempts call alternatives)
  | .longest alternatives => .longest (attempts call alternatives)
  | .many tag least most element separator =>
    .many tag least most (attempt call element) (attempt? call separator)
  | .optional inner => .optional (attempt call inner)
  | .keep inner => .keep (attempt call inner)
  | .rule name => call name
  | .lookahead tag wanted inner => .lookahead tag wanted (attempt call inner)
  | .endOfInput tag => .endOfInput tag
  | .skip tag count => .skip tag count
  | .insert tag bytes => .insert tag bytes
  | .stray count => .stray count
  | .refuse => .refuse

/-- The attempts that several matchers stand for. -/
def attempts (call : String → Attempt) : List Matcher → List Attempt
  | [] => []
  | m :: rest => attempt call m :: attempts call rest

/-- The attempts that labelled matchers stand for. -/
def namedAttempts (call : String → Attempt) : List (String × Matcher) → List (String × Attempt)
  | [] => []
  | (label, m) :: rest => (label, attempt call m) :: namedAttempts call rest

/-- The attempt that a matcher stands for, if there is one. -/
def attempt? (call : String → Attempt) : Option Matcher → Option Attempt
  | none => none
  | some m => some (attempt call m)

end

end Matcher

/-- Rules by their names. -/
structure Grammar where
  rules : List (String × Matcher) := []

namespace Grammar

/-- What the name of a rule stands for, with rules that refer to each other at most `depth` deep. A
name without a rule never matches. -/
def call (grammar : Grammar) : (depth : Nat) → String → Attempt
  | 0, _ => throw .exhausted
  | depth + 1, name =>
    match grammar.rules.lookup name with
    | none => return none
    | some m => m.attempt (grammar.call depth)

/-- How deep rules can go without one of them being entered again where it was entered already, and
would then go on for ever. -/
def depthFor (grammar : Grammar) (reader : Reader) : Nat :=
  grammar.rules.length * (reader.remaining + 1) + 1

/-- Tries to match at the cursor itself. -/
def attempt (grammar : Grammar) (m : Matcher) : Attempt := do
  m.attempt (grammar.call (grammar.depthFor (← get)))

/-- Tries to match on a fork, so that the cursor only moves on a match. -/
def parse (grammar : Grammar) (m : Matcher) : Attempt :=
  (grammar.attempt m).keep

end Grammar

namespace Matcher

/-- Matches the start of a source, read with the default configuration. -/
def parse (grammar : Grammar) (m : Matcher) (source : Source) : Except Halt (Option Match) :=
  match grammar.parse m { window := .ofSource source, cursor := { position := 0 } } with
  | .ok result _ => .ok result
  | .error halt _ => .error halt

end Matcher

end StreamMatch
