import Mathlib
import StreamMatch.Proofs.Trimming

/-!
A sequence that is parsed one step at a time. Each of the steps is parsed by itself, and at a root
each parse discards the input that it has consumed; a parse of the whole sequence holds all of it on
one fork until the last step has matched. All along, the windows differ in what has been discarded
and the fork is that of the other cursor (`Readers.InStep`), so that both come to the same, as long
as no script asks how far its cursor is from the start of the window (`Library.comes_in_turn`).
-/

namespace StreamMatch

namespace Reader

/-- The reader at this cursor after the fork that the reader is at has been committed to it. -/
def committedTo (fork : Reader) (cursor : Cursor) : Reader where
  window :=
    if cursor.depth = 0 then fork.window.discard (fork.cursor.position - fork.window.start)
    else fork.window
  cursor := { cursor with position := fork.cursor.position }
  reports := fork.reports

/-- If the cursor is a root, nothing is retained before it. -/
def Cleared (reader : Reader) : Prop :=
  reader.cursor.depth = 0 →
    reader.window.start =
      min reader.cursor.position (reader.window.start + reader.window.length)

variable {fork : Reader} {cursor : Cursor}

theorem start_committedTo (hDeep : cursor.depth ≠ 0) :
    (fork.committedTo cursor).window.start = fork.window.start := by
  simp only [committedTo, if_neg hDeep]

theorem Retains.cleared_committedTo (hRetains : fork.Retains) :
    (fork.committedTo cursor).Cleared := by
  intro hRoot
  have hRoot : cursor.depth = 0 := hRoot
  have hStart : fork.window.start ≤ fork.cursor.position := hRetains
  simp only [committedTo, if_pos hRoot, Window.start_discard, Window.length_discard]
  omega

theorem Retains.committedTo (hRetains : fork.Retains) (cursor : Cursor) :
    (fork.committedTo cursor).Retains := by
  by_cases hRoot : cursor.depth = 0
  · exact (hRetains.cleared_committedTo hRoot).trans_le (Nat.min_le_left _ _)
  · exact (start_committedTo hRoot).trans_le hRetains

end Reader

namespace Window

variable {window : Window} {fork : Reader}

/-- A commit moves the start of a window at most. -/
theorem Twins.committedTo (hTwins : Twins (fork.window, window)) (cursor : Cursor) :
    Twins ((fork.committedTo cursor).window, window) := by
  unfold Reader.committedTo
  split
  · have hBoth := hTwins.discard (fork.cursor.position - fork.window.start) 0
    rwa [discard_zero] at hBoth
  · exact hTwins

theorem Trims.committedTo (hTrims : Trims (window, fork.window)) (cursor : Cursor) :
    Trims (window, (fork.committedTo cursor).window) := by
  unfold Reader.committedTo
  split
  · exact hTrims.discard _
  · exact hTrims

end Window

namespace Reading

end Reading

namespace Attempt

open Reading

variable {attempt : Attempt} {reader fork : Reader}

end Attempt

namespace Readers

/-- The windows have the same source before them, and the same reports have been made. -/
structure Level (readers : Readers) : Prop where
  twins : Window.Twins readers.windows
  reports_eq : readers.2.reports = readers.1.reports

/-- The first reader is at a fork that a sequence is run on, and the second at a cursor to which all
steps have been committed so far. -/
structure InStep (readers : Readers) : Prop where
  trims : Window.Trims readers.windows
  fork_eq : readers.1.cursor = readers.2.cursor.fork
  reports_eq : readers.2.reports = readers.1.reports
  retains : readers.2.Retains
  start_eq : readers.2.cursor.depth ≠ 0 → readers.2.window.start = readers.1.window.start

/-- The steps in between have matched, and nothing is retained that the second reader can do
without. -/
structure Advances (before after : Readers) : Prop where
  inStep : InStep after
  cursor_eq : after.2.cursor = { before.2.cursor with position := after.2.cursor.position }
  cleared : after.2.Cleared

variable {readers first second third : Readers} {start start' : Nat}

theorem Level.committedTo {left right : Reader} (hLevel : Level (left, right)) (cursor : Cursor) :
    Level (left.committedTo cursor, right) :=
  ⟨hLevel.twins.committedTo cursor, hLevel.reports_eq⟩

/-- If the step matches, its fork is committed. -/
theorem InStep.advances {left right : Reader} (hStep : InStep readers)
    (hPaired : (trimming readers.1.window.start readers.2.window.start).Paired (left, right))
    (hKeeps : Reader.Keeps { readers.2 with cursor := readers.2.cursor.fork } right)
    (hRetains : right.Retains) :
    Advances readers (left, right.committedTo readers.2.cursor) := by
  have hFork : left.cursor = right.cursor := hPaired.cursor_eq.symm
  have hPlace : left.cursor =
      Cursor.fork { readers.2.cursor with position := right.cursor.position } :=
    hFork.trans (Cursor.mk.injEq .. |>.mpr ⟨rfl, hKeeps.depth_eq, hKeeps.traced_eq⟩)
  refine ⟨⟨hPaired.agree.toTrims.committedTo _, hPlace, hPaired.reports_eq,
    hRetains.committedTo _, fun hDeep => ?_⟩, rfl, hRetains.cleared_committedTo⟩
  have hDeep : readers.2.cursor.depth ≠ 0 := hDeep
  calc (right.committedTo readers.2.cursor).window.start
    _ = right.window.start := Reader.start_committedTo hDeep
    _ = readers.2.window.start := hPaired.agree.start_eq'
    _ = readers.1.window.start := hStep.start_eq hDeep
    _ = left.window.start := hPaired.agree.start_eq.symm

theorem Advances.trans (hFirst : Advances first second) (hSecond : Advances second third) :
    Advances first third where
  inStep := hSecond.inStep
  cursor_eq := by
    rw [hSecond.cursor_eq, hFirst.cursor_eq]
  cleared := hSecond.cleared

/-- The fork of a sequence stays one generation below the cursor that it was made of. -/
theorem Advances.depth_eq (hAdvances : Advances first second) :
    second.1.cursor.depth = first.2.cursor.depth + 1 := by
  rw [hAdvances.inStep.fork_eq, hAdvances.cursor_eq]
  rfl

end Readers

namespace Attempt

open Reading Readers

end Attempt

namespace Grammar

open Reading Attempt Readers

end Grammar

end StreamMatch
