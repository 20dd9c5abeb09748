namespace StreamMatch

/-- A position to read from. Cursors form a tree: a fork is one deeper than the cursor it was
forked from. -/
structure Cursor where
  /-- The offset in the stream. -/
  position : Nat
  /-- Generations below the root. -/
  depth : Nat := 0
  /-- Whether reports are made of what is tried here. -/
  traced : Bool := false
deriving DecidableEq, Repr

namespace Cursor

def isRoot (cursor : Cursor) : Bool :=
  cursor.depth == 0

/-- A cursor at the same position for reading ahead. -/
def fork (cursor : Cursor) : Cursor :=
  { cursor with depth := cursor.depth + 1 }

@[simp]
theorem position_fork (cursor : Cursor) : cursor.fork.position = cursor.position := rfl

@[simp]
theorem depth_fork (cursor : Cursor) : cursor.fork.depth = cursor.depth + 1 := rfl

@[simp]
theorem traced_fork (cursor : Cursor) : cursor.fork.traced = cursor.traced := rfl

@[simp]
theorem isRoot_fork (cursor : Cursor) : cursor.fork.isRoot = false := rfl

/-- A cursor in a debug view. -/
def debug (cursor : Cursor) : String :=
  "Cursor \x7b pos: " ++ toString cursor.position ++ ", depth: " ++ toString cursor.depth ++
    ", traced: " ++ toString cursor.traced ++ " \x7d"

end Cursor

end StreamMatch
