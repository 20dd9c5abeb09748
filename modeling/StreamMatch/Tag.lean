namespace StreamMatch

/-- Names the grammar symbol that a match stands for. -/
structure Tag where
  id : Nat
deriving DecidableEq, Ord, Repr

namespace Tag

/-- Marks a match that consumed nothing in place of an absent part. -/
def absent : Tag := ⟨0⟩

/-- The general tag of leaf tokens. -/
def literal : Tag := ⟨1⟩

/-- The last reserved tag. Every tag of a registry comes after it. -/
def last : Tag := ⟨2⟩

/-- Whether no registry hands this tag out. -/
def isReserved (tag : Tag) : Bool :=
  tag.id ≤ last.id

/-- A tag by its number, whatever its name. -/
def debug (tag : Tag) : String :=
  "Tag(" ++ toString tag.id ++ ")"

end Tag

/-- The tags handed out so far, with the names of those that have one. -/
structure TagRegistry where
  /-- The last tag handed out. -/
  latest : Tag := .last
  names : List (Tag × String) := []
  last_le_latest : Tag.last.id ≤ latest.id := by decide

namespace TagRegistry

/-- Hands out a fresh tag without a name. -/
def fresh (registry : TagRegistry) : Tag × TagRegistry :=
  let tag : Tag := ⟨registry.latest.id + 1⟩
  (tag, { registry with
    latest := tag
    last_le_latest := Nat.le_succ_of_le registry.last_le_latest })

/-- Hands out a fresh tag and records a name for it. -/
def freshNamed (registry : TagRegistry) (name : String) : Tag × TagRegistry :=
  let (tag, registry) := registry.fresh
  (tag, { registry with names := (tag, name) :: registry.names })

/-- The name of a tag, if it has one. Two of the reserved tags have a name in every registry. -/
def name? (registry : TagRegistry) (tag : Tag) : Option String :=
  if tag = .absent then some "None"
  else if tag = .literal then some "Literal"
  else registry.names.lookup tag

/-- A tag that is handed out is not one of the reserved ones. -/
theorem isReserved_fresh (registry : TagRegistry) : registry.fresh.1.isReserved = false := by
  have hLast := registry.last_le_latest
  exact decide_eq_false (Nat.not_le.2 (Nat.lt_succ_of_le hLast))

/-- A name that is recorded for a tag is found. -/
theorem name?_freshNamed (registry : TagRegistry) (name : String) :
    (registry.freshNamed name).2.name? (registry.freshNamed name).1 = some name := by
  have hLast := registry.last_le_latest
  have hAbsent : (registry.freshNamed name).1 ≠ .absent := by
    intro h
    have := congrArg Tag.id h
    simp only [freshNamed, fresh, Tag.absent] at this
    omega
  have hLiteral : (registry.freshNamed name).1 ≠ .literal := by
    intro h
    have := congrArg Tag.id h
    simp only [freshNamed, fresh, Tag.literal, Tag.last] at this hLast
    omega
  rw [name?, if_neg hAbsent, if_neg hLiteral]
  exact List.lookup_cons_self

/-- A tag as it stands in rendered matches: its name, or else its number. -/
def render (registry : TagRegistry) (tag : Tag) : String :=
  (registry.name? tag).getD tag.debug

end TagRegistry

end StreamMatch
