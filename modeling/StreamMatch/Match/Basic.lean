import StreamMatch.Tag
import StreamMatch.Utf8.Lossy

/-!
The tagged tree that matchers produce.
-/

namespace StreamMatch

/-- A node of the result of matching. -/
structure Match where
  tag : Tag
  /-- Where the match begins in the stream. -/
  offset : Nat
  /-- Every byte consumed to produce the match, also those that no submatch covers. -/
  content : List UInt8
  submatches : List Match
  /-- Names of submatches, with their index: ascending, and each name once. -/
  names : List (String × Nat)
deriving Repr

namespace Match

mutual

/-- Whether two trees are the same. -/
def decEq : (first second : Match) → Decidable (first = second)
  | ⟨tag, offset, content, submatches, names⟩, ⟨tag', offset', content', submatches', names'⟩ =>
    if hFields : tag = tag' ∧ offset = offset' ∧ content = content' ∧ names = names' then
      match decEqList submatches submatches' with
      | .isTrue hSub => .isTrue (by
          obtain ⟨hTag, hOffset, hContent, hNames⟩ := hFields
          rw [hTag, hOffset, hContent, hNames, hSub])
      | .isFalse hSub => .isFalse (by
          intro h
          injection h
          contradiction)
    else .isFalse (by
      intro h
      injection h with hTag hOffset hContent _ hNames
      exact hFields ⟨hTag, hOffset, hContent, hNames⟩)

/-- Whether two lists of trees are the same. -/
def decEqList : (first second : List Match) → Decidable (first = second)
  | [], [] => .isTrue rfl
  | [], _ :: _ => .isFalse (by intro h; contradiction)
  | _ :: _, [] => .isFalse (by intro h; contradiction)
  | m :: rest, m' :: rest' =>
    match decEq m m', decEqList rest rest' with
    | .isTrue hHead, .isTrue hTail => .isTrue (by rw [hHead, hTail])
    | .isFalse hHead, _ => .isFalse (by intro h; injection h; contradiction)
    | _, .isFalse hTail => .isFalse (by intro h; injection h; contradiction)

end

instance : DecidableEq Match := decEq

/-- A match built from its submatches. -/
def composite (tag : Tag) (offset : Nat) (content : List UInt8) (submatches : List Match) : Match :=
  ⟨tag, offset, content, submatches, []⟩

/-- A match without submatches. -/
def leaf (tag : Tag) (content : List UInt8) (offset : Nat) : Match :=
  composite tag offset content []

/-- Stands in for a part that is absent. -/
def empty (offset : Nat) : Match :=
  leaf .absent [] offset

/-- Records an index under a name in an ascending list. A name that is already there gets the new
index. -/
def insertName (name : String) (index : Nat) : List (String × Nat) → List (String × Nat)
  | [] => [(name, index)]
  | (other, place) :: rest =>
    if name = other then (name, index) :: rest
    else if name < other then (name, index) :: (other, place) :: rest
    else (other, place) :: insertName name index rest

/-- The names of labelled parts, the first of which has this index. An empty label names nothing,
and of parts with the same label the last one is found. -/
def namesFrom (index : Nat) (names : List (String × Nat)) : List String → List (String × Nat)
  | [] => names
  | label :: rest =>
    namesFrom (index + 1) (if label = "" then names else insertName label index names) rest

/-- A match built from labelled parts, with their contents one after the other. -/
def named (tag : Tag) (offset : Nat) (parts : List (String × Match)) : Match :=
  ⟨tag, offset, parts.flatMap (·.2.content), parts.map (·.2), namesFrom 0 [] (parts.map (·.1))⟩

/-- The number of bytes consumed. -/
def length (m : Match) : Nat :=
  m.content.length

/-- Whether the match consumed nothing. -/
def isEmpty (m : Match) : Bool :=
  m.content.isEmpty

/-- Whether this stands in for a part that is absent. -/
def isAbsent (m : Match) : Bool :=
  m.tag = .absent

/-- The content as text. -/
def text (m : Match) : List Char :=
  Utf8.lossy m.content

/-- The submatch that has this name. -/
def group? (m : Match) (name : String) : Option Match := do
  m.submatches[← m.names.lookup name]?

/-- The submatch that is reached by going down through these indices. -/
def descendant? (m : Match) : (path : List Nat) → Option Match
  | [] => some m
  | index :: path => do (← m.submatches[index]?).descendant? path

mutual

/-- The number of nodes of the tree. -/
def nodeCount : Match → Nat
  | ⟨_, _, _, submatches, _⟩ => nodeCounts submatches + 1

/-- The number of nodes of several trees. -/
def nodeCounts : List Match → Nat
  | [] => 0
  | m :: rest => nodeCount m + nodeCounts rest

end

mutual

/-- The number of nodes on the longest way down. -/
def height : Match → Nat
  | ⟨_, _, _, submatches, _⟩ => heights submatches + 1

/-- The greatest height of several trees. -/
def heights : List Match → Nat
  | [] => 0
  | m :: rest => max (height m) (heights rest)

end

end Match

end StreamMatch
