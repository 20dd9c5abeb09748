import Std.Data.TreeMap
import StreamMatch.Utf8.Sequences

/-!
The states of automata that read the byte sequences of a set of characters. A state with the same
ways out as an earlier one is that state again, as long as a table of bounded size remembers it.
-/

namespace StreamMatch.Regex

open Utf8 (ByteInterval)

/-- Numbered states by their ways out. Each state can be remembered in a single slot, and is
forgotten when another state takes that slot. -/
structure StateTable where
  slotCount : Nat
  /-- The number of the next state. -/
  next : Nat
  /-- How many ways lead out of the states in all. -/
  ways : Nat := 0
  /-- The states in their slots, by the numbers that their ways out are told apart by. -/
  slots : Std.TreeMap Nat (List Nat × Nat) := ∅

namespace StateTable

/-- The slot of a state: the remainder of a hash, in which each number is mixed in by exclusive or
and by multiplication with a prime. -/
def slot (table : StateTable) (key : List Nat) : Nat :=
  let mix (hash : UInt64) (number : Nat) : UInt64 := (hash ^^^ number.toUInt64) * 0x100000001b3
  (key.foldl mix 0xcbf29ce484222325).toNat % table.slotCount

/-- The remembered state with a key. -/
def find? (table : StateTable) (key : List Nat) : Option Nat :=
  match table.slots[table.slot key]? with
  | none => none
  | some (known, number) => if known = key then some number else none

/-- The number of the state with a key, which is a new state with so many ways out if none is
remembered. -/
def state (table : StateTable) (key : List Nat) (ways : Nat) : Nat × StateTable :=
  match table.find? key with
  | some number => (number, table)
  | none =>
    let slots := table.slots.insert (table.slot key) (key, table.next)
    (table.next, { table with next := table.next + 1, ways := table.ways + ways, slots })

/-- The first interval of each sequence with what follows it, together for sequences in a row that
share it. -/
def continuations :
    List (List ByteInterval) → List (ByteInterval × List (List ByteInterval))
  | [] => []
  | [] :: sequences => continuations sequences
  | (interval :: rest) :: sequences =>
    match continuations sequences with
    | [] => [(interval, [rest])]
    | (next, rests) :: more =>
      if interval = next then (next, rest :: rests) :: more
      else (interval, [rest]) :: (next, rests) :: more

/-- Adds the states that read sequences of that many intervals at most, and then lead to `target`:
the number of the state where this begins. -/
def forwards (target : Nat) :
    (length : Nat) → List (List ByteInterval) → StateTable → Nat × StateTable
  | 0, _, table => (target, table)
  | length + 1, sequences, table =>
    if sequences.all (·.isEmpty) then (target, table)
    else
      let (key, table) := (continuations sequences).foldl (fun (key, table) (interval, rests) =>
        let (number, table) := forwards target length rests table
        (key ++ [interval.first, interval.last, number], table)) ([], table)
      table.state key (key.length / 3)

/-- Adds the states that read a sequence from its end: its first interval leads to `target`. -/
def backwards (target : Nat) : List ByteInterval → StateTable → StateTable
  | [], table => table
  | interval :: rest, table =>
    let (number, table) := table.state [target, interval.first, interval.last] 1
    backwards number rest table

end StateTable

end StreamMatch.Regex
