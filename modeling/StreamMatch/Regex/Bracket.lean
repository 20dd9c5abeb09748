import StreamMatch.Regex.Escape

/-!
Classes in square brackets: characters, intervals, named ASCII classes, nested classes, and the
operators `&&`, `--` and `~~`, all three of the same rank and read from the left.
-/

namespace StreamMatch.Regex

namespace Bracket

/-- An ASCII class between `[:` and `:]` at the front of the text: whether it is negated, its set,
and what follows it. -/
def ascii? (text : List Char) : Option (Bool × CharSet × List Char) := do
  let '[' :: ':' :: text := text | none
  let (negated, text) :=
    match text with
    | '^' :: text => (true, text)
    | text => (false, text)
  let name := text.takeWhile (· != ':')
  let ':' :: ']' :: rest := text.dropWhile (· != ':') | none
  let set ← CharSet.ascii? (String.ofList name)
  return (negated, set, rest)

/-- An operator between two operands of a class. -/
inductive Operator where
  | inter
  | diff
  | symmDiff

/-- The set that an operator makes of its operands. -/
def Operator.apply : Operator → CharSet → CharSet → CharSet
  | .inter => .inter
  | .diff => .diff
  | .symmDiff => .symmDiff

/-- A class as it is meant under the flags in force. Letters lose their case before the class is
negated. -/
def finish (negated : Bool) (set : CharSet) : Reads CharSet := do
  let set ← Reads.underFlags set
  return if negated then .complement set else set

/-- A class or a part of one as it was read. -/
structure Part where
  set : CharSet
  /-- How deep the text nests. -/
  depth : Nat

/-- The items of a class that have been read since its opening bracket or the last operator. -/
structure Items where
  set : CharSet := .empty
  count : Nat := 0
  /-- How deep the text of the items nests. -/
  depth : Nat := 0

namespace Items

def add (items : Items) (item : Part) : Items :=
  ⟨items.set.union item.set, items.count + 1, max items.depth item.depth⟩

/-- Items taken together. Two of them or more are one level deeper than one. -/
def join (items : Items) : Part :=
  ⟨items.set, if items.count < 2 then items.depth else items.depth + 1⟩

end Items

/-- Completes an operand. With an operator before it, both operands take the flags in force. -/
def close (pending : Option (Operator × Part)) (operand : Part) : Reads Part := do
  match pending with
  | none => return operand
  | some (operator, first) =>
    let set := operator.apply (← Reads.underFlags first.set) (← Reads.underFlags operand.set)
    return ⟨set, max first.depth operand.depth + 1⟩

/-- One end of an interval, or an item on its own. -/
def item : Reads Escape := do
  match ← Reads.take .unclosedClass with
  | '\\' => Escape.read
  | c => return .char c

/-- The character after the one at the front, blanks and the mark of a comment left out where they
stand for nothing. -/
def second? : Reads (Option Char) := do
  let after := (← Reads.rest).drop 1
  if (← Reads.flags).spaced then
    match after.dropWhile isSpace with
    | '#' :: after => return (after.dropWhile isSpace).head?
    | after => return after.head?
  else return after.head?

/-- An item of a class: a character, a class of the escape kind, or an interval. A hyphen makes an
interval unless a bracket or another hyphen follows. -/
def interval : Reads CharSet := do
  let first ← item
  Reads.skipBlanks
  let next ← Reads.rest
  if next.isEmpty then throw .unclosedClass
  let after ← second?
  if next.head? != some '-' || after == some ']' || after == some '-' then
    match first with
    | .char c => return .single c
    | .chars set => return set
    | .assert _ => throw .notInClass
  else
    Reads.skipWithin .unclosedClass
    match first, ← item with
    | .char first, .char last =>
      if first ≤ last then return .interval first last
      else throw .badInterval
    | _, _ => throw .notInClass

/-- Hyphens at the start of a class, each of which stands for itself. -/
def hyphens (items : Items) : (rounds : Nat) → Reads Items
  | 0 => return items
  | rounds + 1 => do
    match ← Reads.rest with
    | '-' :: _ =>
      Reads.skipWithin .unclosedClass
      hyphens (items.add ⟨.single '-', 0⟩) rounds
    | _ => return items

mutual

/-- Reads a class from its opening bracket to its closing one. Every round takes a character of the
text, so `rounds` need not be more than there are. -/
def read : (rounds : Nat) → Reads Part
  | 0 => throw .unclosedClass
  | rounds + 1 => do
    Reads.skipWithin .unclosedClass
    let negated := (← Reads.rest).head? == some '^'
    if negated then Reads.skipWithin .unclosedClass
    let first ← hyphens {} rounds
    let first ←
      match first.count, ← Reads.rest with
      | 0, ']' :: _ =>
        Reads.skipWithin .unclosedClass
        pure (first.add ⟨.single ']', 0⟩)
      | _, _ => pure first
    let part ← items rounds none first
    return ⟨← finish negated part.set, part.depth + 1⟩

/-- Reads the items of a class that follow on those in `operand`, up to the closing bracket. -/
def items : (rounds : Nat) → (pending : Option (Operator × Part)) → (operand : Items) → Reads Part
  | 0, _, _ => throw .unclosedClass
  | rounds + 1, pending, operand => do
    Reads.skipBlanks
    match ← Reads.rest with
    | [] => throw .unclosedClass
    | ']' :: _ =>
      Reads.skip 1
      close pending operand.join
    | '[' :: rest =>
      match ascii? ('[' :: rest) with
      | some (negated, set, rest) =>
        Reads.continueAt rest
        items rounds pending (operand.add ⟨← finish negated set, 0⟩)
      | none => items rounds pending (operand.add (← read rounds))
    | '&' :: '&' :: _ => operator rounds .inter pending operand
    | '-' :: '-' :: _ => operator rounds .diff pending operand
    | '~' :: '~' :: _ => operator rounds .symmDiff pending operand
    | _ => items rounds pending (operand.add ⟨← interval, 0⟩)

/-- Reads on after an operator of two characters. -/
def operator : (rounds : Nat) → Operator → (pending : Option (Operator × Part)) →
    (operand : Items) → Reads Part
  | 0, _, _, _ => throw .unclosedClass
  | rounds + 1, operator, pending, operand => do
    Reads.skip 2
    items rounds (some (operator, ← close pending operand.join)) {}

end

end Bracket

end StreamMatch.Regex
