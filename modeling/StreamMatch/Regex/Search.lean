import StreamMatch.Regex.Program

/-!
Finding the leftmost match of a program, and of those that begin there the one it prefers. All ways
of matching go through the bytes side by side, the preferred ones first. Of two ways that come to
the same place at the same index only the first goes on, since the other one could do no better.
-/

namespace StreamMatch.Regex

namespace Program

/-- A way of matching: where it began, and the place where it goes on. -/
structure Way where
  start : Nat
  place : Nat
deriving DecidableEq, Repr

/-- What the ways at one index have come to. -/
structure Step where
  /-- Where the first way that has matched at the index began. -/
  matched : Option Nat
  /-- The ways before it that have taken the character at the index. -/
  ahead : List Way
  /-- For each place, the number of indices up to the last at which a way came there. -/
  marks : Array Nat

/-- Goes through the ways on the stack, the first one first, until one has matched. Those that have
taken the character at the index are in `ahead`, the last first. -/
def step (program : Program) (bytes : Array UInt8) (index : Nat) (char : Option Char) :
    (rounds : Nat) → (stack ahead : List Way) → (marks : Array Nat) → Step
  | 0, _, ahead, marks => ⟨none, ahead.reverse, marks⟩
  | _ + 1, [], ahead, marks => ⟨none, ahead.reverse, marks⟩
  | rounds + 1, way :: stack, ahead, marks =>
    if marks[way.place]? = some (index + 1) then
      step program bytes index char rounds stack ahead marks
    else
      let marks := marks.setIfInBounds way.place (index + 1)
      match program.code[way.place]? with
      | none => step program bytes index char rounds stack ahead marks
      | some .accept => ⟨some way.start, ahead.reverse, marks⟩
      | some (.take set next) =>
        let ahead := if char.any set.contains then ⟨way.start, next⟩ :: ahead else ahead
        step program bytes index char rounds stack ahead marks
      | some (.check assertion next) =>
        let stack := if assertion.holds bytes index then ⟨way.start, next⟩ :: stack else stack
        step program bytes index char rounds stack ahead marks
      | some (.split first second) =>
        let stack := ⟨way.start, first⟩ :: ⟨way.start, second⟩ :: stack
        step program bytes index char rounds stack ahead marks

/-- Searches on from an index. The `ways` have taken what is before the index `due`, and a way that
has matched so far began and ended as in `found`. As long as there is none, a new way begins at each
index, behind all others. Each place is gone through once at an index and puts two ways on the stack
at most, hence the number of rounds. -/
def searchFrom (program : Program) (bytes : Array UInt8) (index due : Nat) (ways : List Way)
    (found : Option (Nat × Nat)) (marks : Array Nat) : (more : Nat) → Option (Nat × Nat)
  | 0 => found
  | more + 1 =>
    if ways.isEmpty && found.isSome then found
    else
      let char := charAt? bytes index
      let arrived := if index = due then ways else []
      let begun := if found.isNone then [⟨index, program.entry⟩] else []
      let after := step program bytes index (char.map (·.1)) (3 * program.code.size + 3)
        (arrived ++ begun) [] marks
      let found :=
        match after.matched with
        | none => found
        | some start => some (start, index)
      if index = due then
        let due := index + (char.map (·.2)).getD 1
        searchFrom program bytes (index + 1) due after.ahead found after.marks more
      else searchFrom program bytes (index + 1) due ways found after.marks more

/-- Where the preferred leftmost match begins and ends. -/
def find (program : Program) (bytes : Array UInt8) : Option (Nat × Nat) :=
  program.searchFrom bytes 0 0 [] none (Array.replicate program.code.size 0) (bytes.size + 1)

theorem le_size_of_searchFrom {program : Program} {bytes : Array UInt8}
    {index due more start stop : Nat} {ways : List Way} {found : Option (Nat × Nat)}
    {marks : Array Nat} (hMore : index + more ≤ bytes.size + 1)
    (hFound : ∀ first last, found = some (first, last) → last ≤ bytes.size)
    (hSearch : program.searchFrom bytes index due ways found marks more = some (start, stop)) :
    stop ≤ bytes.size := by
  induction more generalizing index due ways found marks with
  | zero => exact hFound start stop hSearch
  | succ more ih =>
    simp only [searchFrom] at hSearch
    split at hSearch
    · exact hFound start stop hSearch
    · -- A match that is found at this index ends there.
      split at hSearch
      all_goals
        refine ih (by omega) (fun first last hLast => ?_) hSearch
        split at hLast
        · exact hFound first last hLast
        · obtain ⟨-, rfl⟩ := Prod.mk.inj (Option.some.inj hLast)
          omega

/-- A match that is found ends within the bytes. -/
theorem le_size_of_find {program : Program} {bytes : Array UInt8} {start stop : Nat}
    (hFind : program.find bytes = some (start, stop)) : stop ≤ bytes.size :=
  le_size_of_searchFrom (by omega) (by simp) hFind

end Program

end StreamMatch.Regex
