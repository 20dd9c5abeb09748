import StreamMatch.Match.Basic

/-!
Values that a later pass derives from a match and keeps with it. They are kept beside the tree, by
the path to the node they belong to, so that the tree itself never changes and comparing two trees
never sees them.
-/

namespace StreamMatch

/-- A value kept with a match. -/
inductive Attachment where
  | int (value : Int)
  | text (value : String)
deriving DecidableEq, Repr

/-- A tree with what is attached to its nodes. -/
structure AnnotatedMatch where
  root : Match
  attachments : List (List Nat × Attachment) := []

namespace AnnotatedMatch

/-- What is attached to the node at a path. -/
def attachment? (annotated : AnnotatedMatch) (path : List Nat) : Option Attachment :=
  annotated.attachments.lookup path

/-- Attaches a value to the node at a path. A node takes one value only: a second one is handed
back. -/
def attach (annotated : AnnotatedMatch) (path : List Nat) (value : Attachment) :
    Except Attachment AnnotatedMatch :=
  match annotated.attachment? path with
  | some _ => .error value
  | none => .ok { annotated with attachments := (path, value) :: annotated.attachments }

end AnnotatedMatch

end StreamMatch
