namespace StreamMatch

/-- A predicate over single units of input: bytes or code points. -/
abbrev Predicate (α : Type) := α → Bool

namespace Predicate

variable {α : Type}

def always : Predicate α := fun _ => true

def never : Predicate α := fun _ => false

/-- Accepts what one of the two accepts. -/
def union (p q : Predicate α) : Predicate α := fun unit => p unit || q unit

def complement (p : Predicate α) : Predicate α := fun unit => !p unit

/-- Accepts what `p` accepts and `q` does not. -/
def difference (p q : Predicate α) : Predicate α := fun unit => p unit && !q unit

/-- Accepts the units listed. -/
def inSet [BEq α] (units : List α) : Predicate α := fun unit => units.contains unit

/-- Accepts the units from `first` to `last`, both included. -/
def inRange [LE α] [DecidableLE α] (first last : α) : Predicate α :=
  fun unit => first ≤ unit && unit ≤ last

/-- Accepts what one of the predicates accepts; nothing, if there are none. -/
def anyOf (predicates : List (Predicate α)) : Predicate α :=
  fun unit => predicates.any fun p => p unit

/-- Accepts what none of the predicates accepts; everything, if there are none. -/
def noneOf (predicates : List (Predicate α)) : Predicate α :=
  complement (anyOf predicates)

@[simp]
theorem anyOf_eq_true {predicates : List (Predicate α)} {unit : α} :
    anyOf predicates unit = true ↔ ∃ p ∈ predicates, p unit = true := by
  simp [anyOf]

@[simp]
theorem noneOf_eq_true {predicates : List (Predicate α)} {unit : α} :
    noneOf predicates unit = true ↔ ∀ p ∈ predicates, p unit = false := by
  simp [noneOf, complement, anyOf]

/-- ASCII `0` to `9`. -/
def asciiDigit : Predicate UInt8 := inRange 0x30 0x39

/-- ASCII letters. -/
def asciiAlpha : Predicate UInt8 := union (inRange 0x61 0x7a) (inRange 0x41 0x5a)

/-- Space, tab, line feed, form feed and carriage return. -/
def asciiWhitespace : Predicate UInt8 := inSet [0x20, 0x09, 0x0a, 0x0c, 0x0d]

end Predicate

end StreamMatch
