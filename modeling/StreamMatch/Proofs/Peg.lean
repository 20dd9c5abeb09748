import StreamMatch.Proofs.Scanning

/-!
Matchers as plain recursive recognizers of lists of bytes. A recognizer is given the bytes that
stand at an offset, and says what it makes of them; nothing is buffered, forked or committed, and
what an alternative that fails has looked at needs not be taken back. Rules may refer to each other
without end, so that they are only followed to some depth; an evaluation is one for which some depth
is enough (`Grammar.Evaluates`).
-/

namespace StreamMatch

/-- What comes of matching at an offset. -/
inductive Verdict (α : Type) where
  | matched (value : α) (consumed : Nat)
  | unmatched
  /-- The strict policy refuses the bytes at this offset of the stream. -/
  | malformed (offset : Nat)

/-- What is made of the bytes that stand at an offset. There is no verdict if the depth that rules
are followed to is not enough. -/
abbrev Peg (α : Type) := (offset : Nat) → (rest : List UInt8) → Option (Verdict α)

namespace Peg

variable {α β : Type}

def success (value : α) : Peg α := fun _ _ => some (.matched value 0)

def failure : Peg α := fun _ _ => some .unmatched

/-- One after the other: the second stands where the first has ended. -/
def andThen (first : Peg α) (next : α → Peg β) : Peg β := fun offset rest => do
  match ← first offset rest with
  | .unmatched => return .unmatched
  | .malformed place => return .malformed place
  | .matched value consumed =>
    match ← next value (offset + consumed) (rest.drop consumed) with
    | .unmatched => return .unmatched
    | .malformed place => return .malformed place
    | .matched result more => return .matched result (consumed + more)

/-- The second if the first does not match. -/
def orElse (first second : Peg α) : Peg α := fun offset rest => do
  match ← first offset rest with
  | .unmatched => second offset rest
  | .malformed place => return .malformed place
  | .matched value consumed => return .matched value consumed

/-- All the steps in order. -/
def inTurn : List (Peg Match) → Peg (List Match)
  | [] => success []
  | step :: rest => step.andThen fun m => (inTurn rest).andThen fun more => success (m :: more)

def seq (tag : Tag) (steps : List (Peg Match)) : Peg Match := fun offset =>
  (inTurn steps).andThen (fun submatches =>
    success (.composite tag offset (submatches.flatMap (·.content)) submatches)) offset

def seqNamed (tag : Tag) (steps : List (String × Peg Match)) : Peg Match := fun offset =>
  (inTurn (steps.map (·.2))).andThen (fun submatches =>
    success (.named tag offset ((steps.map (·.1)).zip submatches))) offset

/-- The first of the alternatives that matches. -/
def first : List (Peg Match) → Peg Match
  | [] => failure
  | alternative :: rest => alternative.orElse (first rest)

/-- The best of what was found so far and of what the alternatives match here. -/
def best (found : Option (Match × Nat)) : List (Peg Match) → Peg Match
  | [], _, _ =>
    match found with
    | none => some .unmatched
    | some (m, consumed) => some (.matched m consumed)
  | alternative :: others, offset, rest => do
    match ← alternative offset rest with
    | .unmatched => best found others offset rest
    | .malformed place => return .malformed place
    | .matched m consumed =>
      if found.all fun (current, _) => current.length < m.length then
        best (some (m, consumed)) others offset rest
      else best found others offset rest

/-- The alternative whose match has the most content; of several such the one listed first. -/
def longest (alternatives : List (Peg Match)) : Peg Match :=
  best none alternatives

/-- One round of a repetition: all content consumed, and the match of the element. -/
def round (element : Peg Match) : (separator : Option (Peg Match)) → Peg (List UInt8 × Match)
  | none => element.andThen fun m => success (m.content, m)
  | some separator => separator.andThen fun gap =>
    element.andThen fun m => success (gap.content ++ m.content, m)

/-- Rounds of a repetition after `count` of them, until there are as many as there may be, or one
does not match or consumes nothing. No round consumes more than there is. -/
def rounds (element : Peg Match) (separator : Option (Peg Match)) (most : Option Nat) (count : Nat) :
    Peg (List UInt8 × List Match) := fun offset rest =>
  if most.any (· ≤ count) then some (.matched ([], []) 0)
  else do
    match ← round element (if count = 0 then none else separator) offset rest with
    | .unmatched => return .matched ([], []) 0
    | .malformed place => return .malformed place
    | .matched (content, m) consumed =>
      if _hLess : 0 < consumed ∧ consumed ≤ rest.length then
        match ← rounds element separator most (count + 1) (offset + consumed)
            (rest.drop consumed) with
        | .unmatched => return .unmatched
        | .malformed place => return .malformed place
        | .matched (later, elements) more =>
          return .matched (content ++ later, m :: elements) (consumed + more)
      else return .matched ([], []) 0
termination_by _ rest => rest.length
decreasing_by
  rw [List.length_drop]
  omega

def many (tag : Tag) (least : Nat) (most : Option Nat) (element : Peg Match)
    (separator : Option (Peg Match)) : Peg Match := fun offset =>
  (rounds element separator most 0).andThen (fun (content, elements) =>
    if elements.length < least then failure
    else success (.composite tag offset content elements)) offset

def optional (inner : Peg Match) : Peg Match := fun offset =>
  inner.orElse (success (.empty offset)) offset

def lookahead (tag : Tag) (wanted : Bool) (inner : Peg Match) : Peg Match := fun offset rest => do
  match ← inner offset rest with
  | .malformed place => return .malformed place
  | .matched _ _ => if wanted then success (.leaf tag [] offset) offset rest else return .unmatched
  | .unmatched => if wanted then return .unmatched else success (.leaf tag [] offset) offset rest

def endOfInput (tag : Tag) : Peg Match := fun offset rest =>
  if rest.isEmpty then some (.matched (.leaf tag [] offset) 0) else some .unmatched

def skip (tag : Tag) (count : Nat) : Peg Match := fun offset rest =>
  some (.matched (.leaf tag [] offset) (rest.take count).length)

def insert (tag : Tag) (bytes : List UInt8) : Peg Match := fun offset _ =>
  some (.matched (.leaf tag bytes offset) 0)

def refuse : Peg Match := fun offset _ => some (.malformed offset)

end Peg

/-- What a primitive recognizes, as a match. -/
def Primitive.peg (policy : DecodePolicy) (primitive : Primitive) : Peg Match := fun offset rest =>
  match primitive.recognize policy offset rest with
  | .ok (some content) => some (.matched (.leaf primitive.tag content offset) content.length)
  | .ok none => some .unmatched
  | .error (.invalidUtf8 place) => some (.malformed place)
  | .error _ => none

namespace Matcher

variable (policy : DecodePolicy) (call : String → Peg Match)

mutual

/-- The recognizer that a matcher stands for, where `call` is what the names of rules stand for. -/
def peg : Matcher → Peg Match
  | .primitive p => p.peg policy
  | .seq tag steps => .seq tag (pegs steps)
  | .named tag steps => .seqNamed tag (namedPegs steps)
  | .first alternatives => .first (pegs alternatives)
  | .longest alternatives => .longest (pegs alternatives)
  | .many tag least most element separator => .many tag least most (peg element) (peg? separator)
  | .optional inner => .optional (peg inner)
  | .keep inner => peg inner
  | .rule name => call name
  | .lookahead tag wanted inner => .lookahead tag wanted (peg inner)
  | .endOfInput tag => .endOfInput tag
  | .skip tag count => .skip tag count
  | .insert tag bytes => .insert tag bytes
  | .stray _ => .failure
  | .refuse => .refuse

/-- The recognizers that several matchers stand for. -/
def pegs : List Matcher → List (Peg Match)
  | [] => []
  | m :: rest => peg m :: pegs rest

/-- The recognizers that labelled matchers stand for. -/
def namedPegs : List (String × Matcher) → List (String × Peg Match)
  | [] => []
  | (label, m) :: rest => (label, peg m) :: namedPegs rest

/-- The recognizer that a matcher stands for, if there is one. -/
def peg? : Option Matcher → Option (Peg Match)
  | none => none
  | some m => some (peg m)

end

variable {policy call}

theorem pegs_eq_map (ms : List Matcher) : pegs policy call ms = ms.map (peg policy call) := by
  induction ms with
  | nil => rfl
  | cons m rest ih => rw [pegs, ih, List.map_cons]

theorem namedPegs_eq_map (steps : List (String × Matcher)) :
    namedPegs policy call steps = steps.map fun step => (step.1, step.2.peg policy call) := by
  induction steps with
  | nil => rfl
  | cons step rest ih => rw [namedPegs, ih, List.map_cons]

theorem peg?_eq_map (m : Option Matcher) : peg? policy call m = m.map (peg policy call) := by
  cases m <;> rfl

end Matcher

namespace Grammar

/-- What the name of a rule stands for, followed to this depth. -/
def peg (grammar : Grammar) (policy : DecodePolicy) : (depth : Nat) → String → Peg Match
  | 0, _ => fun _ _ => none
  | depth + 1, name =>
    match grammar.rules.lookup name with
    | none => .failure
    | some m => m.peg policy (grammar.peg policy depth)

/-- The verdict on the bytes that stand at an offset, by following the rules as deep as it takes. -/
def Evaluates (grammar : Grammar) (policy : DecodePolicy) (m : Matcher) (offset : Nat)
    (rest : List UInt8) (verdict : Verdict Match) : Prop :=
  ∃ depth, m.peg policy (grammar.peg policy depth) offset rest = some verdict

/-- This is the only verdict on the bytes that stand at an offset; or there is none, since the rules
go on without end. -/
def Decides (grammar : Grammar) (policy : DecodePolicy) (m : Matcher) (offset : Nat)
    (rest : List UInt8) (verdict? : Option (Verdict Match)) : Prop :=
  ∀ verdict, grammar.Evaluates policy m offset rest verdict ↔ verdict? = some verdict

end Grammar

end StreamMatch
