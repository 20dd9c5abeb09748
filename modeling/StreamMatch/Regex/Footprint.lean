import StreamMatch.Regex.Expr
import StreamMatch.Regex.StateTable

/-!
How much memory an expression takes as an automaton on bytes, and the limit on it. An expression is
held as two automata: one for matching forwards and one for matching backwards. Both must fit.
-/

namespace StreamMatch.Regex

/-- Which way an automaton reads. -/
inductive Direction where
  | forwards
  | backwards
deriving DecidableEq, Repr

namespace Footprint

/-- How many states there are, and how many bytes they take. -/
structure Size where
  states : Nat := 0
  bytes : Nat := 0

/-- The bytes that a way out of a state with many takes, if it reads a byte. -/
def edge : Nat := 8

/-- The bytes that a way out of a state with many takes, if it reads nothing. -/
def link : Nat := 4

/-- Adds states, and the bytes that their ways out take. -/
def Size.add (size : Size) (states : Nat) (ways : Nat := 0) : Size :=
  ⟨size.states + states, size.bytes + 32 * states + ways⟩

/-- Adds a state with a way into a body and a way around it. -/
def Size.fork (size : Size) : Size :=
  size.add 1 (2 * link)

/-- No automaton may take more bytes than these. -/
def limit : Nat := 10 * (1 <<< 20)

/-- Adds a set of characters. In a set of ASCII characters each interval is an edge. In other sets,
states are shared between sequences as far as a table remembers them: those with the same sequences
to read forwards, and those with the same beginning of a sequence to read backwards. -/
def ofSet (direction : Direction) (set : CharSet) (size : Size) : Size :=
  if set.intervals.all fun (_, last) => last < 0x80 then size.add 2 (edge * set.intervals.length)
  else
    let sequences := set.intervals.flatMap fun (first, last) => Utf8.sequences first last
    match direction with
    | .forwards =>
      let table : StateTable := { slotCount := 10000, next := size.states + 1 }
      let (_, table) := StateTable.forwards size.states 4 sequences table
      size.add (table.next - size.states) (edge * table.ways)
    | .backwards =>
      let table : StateTable := { slotCount := 1000, next := size.states + 2 }
      let table := sequences.foldl (fun table sequence =>
        table.backwards (size.states + 1) sequence) table
      size.add (table.next - size.states) (link * sequences.length)

/-- The bytes of a literal in the order in which they are read. -/
def bytes (direction : Direction) (text : List Char) : List UInt8 :=
  let bytes := text.flatMap String.utf8EncodeChar
  match direction with
  | .forwards => bytes
  | .backwards => bytes.reverse

/-- Splits words at those that are empty. -/
def splitAtEmpty : List (List UInt8) → List (List (List UInt8))
  | [] => [[]]
  | [] :: rest => [] :: splitAtEmpty rest
  | word :: rest =>
    match splitAtEmpty rest with
    | [] => [[word]]
    | chunk :: more => (word :: chunk) :: more

/-- Adds words to choose from, as a tree in which words share what they begin with. A word that ends
where others go on keeps those before it apart from those after it. -/
def ofWords : (length : Nat) → List (List UInt8) → Size → Size
  | 0, _, size => size
  | length + 1, words, size =>
    if words.all (·.isEmpty) then size
    else
      let (ends, rest) := words.span (·.isEmpty)
      let chunks := splitAtEmpty (ends.take 1 ++ rest)
      let filled := chunks.filter (! ·.isEmpty)
      let size := filled.foldl (fun size chunk =>
        let leads := (chunk.filterMap List.head?).eraseDups
        let size := size.add 1 (if leads.length = 1 then 0 else edge * leads.length)
        leads.foldl (fun size lead =>
          ofWords length ((chunk.filter (·.head? == some lead)).map List.tail) size) size) size
      size.add 1 (link * (filled.length + chunks.length - 1))

/-- The text of a literal. -/
def text? : Expr → Option (List Char)
  | .literal text => some text
  | _ => none

/-- The texts of all branches of a choice, if they are literals. -/
def texts? : Expr → Option (List (List Char))
  | .alt first second => return (← text? first) :: (← texts? second)
  | expr => return [← text? expr]

/-- Adds a body that number of times, unless the limit is exceeded before. -/
def ofTimes (body : Size → Size) : (count : Nat) → Size → Size
  | 0, size => size
  | count + 1, size => if limit < size.bytes then size else ofTimes body count (body size)

/-- Adds a repeated body. If the body may take nothing, going round again and going in at all are
two choices. -/
def ofRepeat (body : Size → Size) (mayBeEmpty : Bool) (least : Nat) (most : Option Nat)
    (size : Size) : Size :=
  match least, most with
  | 0, some 1 => (body size.fork).add 1
  | 0, none => if mayBeEmpty then (body size).fork.fork.add 1 else body size.fork
  | least + 1, none => (ofTimes body (least + 1) size).fork
  | least, some most =>
    if least = most then ofTimes body least size
    else
      let size := if least = 0 then size.add 1 else ofTimes body least size
      ofTimes (fun size => body size.fork) (most - least) (size.add 1)

/-- Adds what a branch of a choice takes besides its expression. After the second one the choice
itself is added: where it begins, with the ways into both branches, and where it ends. -/
def afterBranch (before : Nat) (size : Size) : Size :=
  match before with
  | 0 => size
  | 1 => size.add 2 (2 * link)
  | _ => size.add 0 link

/-- Adds an expression that comes after that many branches of the same choice. -/
def ofExpr (direction : Direction) (before : Nat) (expr : Expr) (size : Size) : Size :=
  match expr with
  | .empty => afterBranch before (size.add 1)
  | .literal text => afterBranch before (size.add (bytes direction text).length)
  | .chars set => afterBranch before (ofSet direction set size)
  | .assert _ => afterBranch before (size.add 1)
  | .group _ body =>
    match direction with
    | .forwards => afterBranch before ((ofExpr direction 0 body (size.add 1)).add 1)
    | .backwards => afterBranch before (ofExpr direction 0 body size)
  | .concat first second =>
    match direction with
    | .forwards => afterBranch before (ofExpr direction 0 second (ofExpr direction 0 first size))
    | .backwards => afterBranch before (ofExpr direction 0 first (ofExpr direction 0 second size))
  | .alt first second =>
    match before, texts? (.alt first second) with
    | 0, some texts =>
      let words := texts.map (bytes direction)
      ofWords ((words.map List.length).foldl max 0) words (size.add 1)
    | before, _ =>
      ofExpr direction (before + 1) second (afterBranch before (ofExpr direction 0 first size))
  | .repeat body least most _ =>
    let mayBeEmpty := ! body.minLength?.any (0 < ·)
    afterBranch before
      (ofRepeat (fun size => ofExpr direction 0 body size) mayBeEmpty least most size)

/-- What finds the start of a match: next to nothing, if it can only be at one place. -/
def ofStart (anchored : Bool) : Size :=
  if anchored then ({} : Size).add 1 else ({} : Size).fork.add 2 edge

/-- The whole automaton. Forwards it notes where the match begins and ends. -/
def total (direction : Direction) (expr : Expr) : Size :=
  match direction with
  | .forwards => (ofExpr .forwards 0 expr ((ofStart expr.startsAnchored).add 1)).add 2
  | .backwards => (ofExpr .backwards 0 expr (ofStart expr.endsAnchored)).add 1

/-- Whether both automata of an expression are within the limit. -/
def fits (expr : Expr) : Bool :=
  (total .forwards expr).bytes ≤ limit && (total .backwards expr).bytes ≤ limit

end Footprint

end StreamMatch.Regex
