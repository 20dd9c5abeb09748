/-!
The UTF-8 sequences of an interval of code points, as sequences of byte intervals. A sequence of
byte intervals stands for every sequence of bytes that takes its bytes from them in order.
-/

namespace StreamMatch.Utf8

/-- An interval of bytes, both ends included. -/
structure ByteInterval where
  first : Nat
  last : Nat
deriving DecidableEq, Ord, Repr

/-- The sequences for the numbers from `low` to `high`: a first byte, marked by the bits in `mark`,
and `more` continuation bytes after it, each of which holds six bits. -/
def spread (mark : Nat) : (more low high : Nat) → List (List ByteInterval)
  | 0, low, high => [[⟨mark + low, mark + high⟩]]
  | more + 1, low, high =>
    let unit := 1 <<< (6 * (more + 1))
    let behind (byte low high : Nat) : List (List ByteInterval) :=
      (spread 0x80 more low high).map (⟨mark + byte, mark + byte⟩ :: ·)
    if low / unit = high / unit then behind (low / unit) (low % unit) (high % unit)
    else
      let start := (low + unit - 1) / unit
      let stop := (high + 1) / unit
      let head := if low < start * unit then behind (low / unit) (low % unit) (unit - 1) else []
      let tail := if stop * unit ≤ high then behind stop 0 (high % unit) else []
      let middle :=
        if start < stop then
          [⟨mark + start, mark + stop - 1⟩ :: List.replicate (more + 1) ⟨0x80, 0xbf⟩]
        else []
      head ++ middle ++ tail

/-- The code points that are spelled with one length of sequence: the first and the last of them,
the number of continuation bytes and the mark of the first byte. Surrogates have no spelling. -/
def lengths : List (Nat × Nat × Nat × Nat) := [
  (0, 0x7f, 0, 0), (0x80, 0x7ff, 1, 0xc0), (0x800, 0xd7ff, 2, 0xe0), (0xe000, 0xffff, 2, 0xe0),
  (0x10000, 0x10ffff, 3, 0xf0)]

/-- The sequences for the code points from `low` to `high`, in ascending order. -/
def sequences (low high : Nat) : List (List ByteInterval) :=
  lengths.flatMap fun (first, last, more, mark) =>
    if max low first ≤ min high last then spread mark more (max low first) (min high last) else []

end StreamMatch.Utf8
