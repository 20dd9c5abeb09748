import Mathlib
import StreamMatch.Proofs.Coupling
import StreamMatch.Proofs.StreamDeterminedReads

/-!
Two runs over the same window from the same place that may differ in their reports, and in whether
their cursors are traced. Nothing that matchers do depends on either, so that whatever is kept by the
primitives of what is claimed of the reports on both sides (`Bookkeeping`) goes along with all that
matchers are made of (`Bookkeeping.coupling`).
-/

namespace StreamMatch

namespace Readers

/-- Both are at the same place of one window; the cursor of the first has the one mark, and that of
the second the other. -/
structure Abreast (marks : Bool × Bool) (readers : Readers) : Prop where
  window_eq : readers.2.window = readers.1.window
  position_eq : readers.2.cursor.position = readers.1.cursor.position
  depth_eq : readers.2.cursor.depth = readers.1.cursor.depth
  traced_eq : readers.1.cursor.traced = marks.1
  traced_eq' : readers.2.cursor.traced = marks.2

namespace Abreast

variable {marks : Bool × Bool} {readers after : Readers}

theorem fork (hAbreast : Abreast marks readers) : Abreast marks readers.fork :=
  ⟨hAbreast.window_eq, hAbreast.position_eq, congrArg (· + 1) hAbreast.depth_eq,
    hAbreast.traced_eq, hAbreast.traced_eq'⟩

theorem restore (hAbreast : Abreast marks readers) (hAfter : Abreast marks after) :
    Abreast marks (readers.restore after) :=
  ⟨hAfter.window_eq, hAbreast.position_eq, hAbreast.depth_eq, hAbreast.traced_eq,
    hAbreast.traced_eq'⟩

theorem reported (hAbreast : Abreast marks readers) (report : Report) :
    Abreast marks (readers.reported report) :=
  ⟨hAbreast.window_eq, hAbreast.position_eq, hAbreast.depth_eq, hAbreast.traced_eq,
    hAbreast.traced_eq'⟩

theorem onWindow (hAbreast : Abreast marks readers) (window : Window) :
    Abreast marks (readers.onWindows (window, window)) :=
  ⟨rfl, hAbreast.position_eq, hAbreast.depth_eq, hAbreast.traced_eq, hAbreast.traced_eq'⟩

theorem remaining_eq (hAbreast : Abreast marks readers) :
    readers.2.remaining = readers.1.remaining := by
  rw [Reader.remaining, Reader.remaining, hAbreast.window_eq, hAbreast.position_eq]

end Abreast

end Readers

/-- A kind of claim about the reports that have been made on two sides. -/
structure Bookkeeping where
  /-- What holds of the reports as long as the runs go on. -/
  Kept : Array Report → Array Report → Prop
  /-- What holds of them if a halt ends the runs, which began at a root or at a fork. -/
  Stopped (root : Prop) (halt : Halt) : Array Report → Array Report → Prop
  stopped {root : Prop} {halt : Halt} {first second : Array Report} : Kept first second →
    Stopped root halt first second
  stopped_of_fork {root : Prop} {halt : Halt} {first second : Array Report} :
    Stopped False halt first second → Stopped root halt first second

namespace Bookkeeping

open Readers Reading

variable (B : Bookkeeping) (marks : Bool × Bool)

structure Sound (readers : Readers) : Prop where
  abreast : Abreast marks readers
  kept : B.Kept readers.1.reports readers.2.reports

structure Halted (before : Readers) (halt : Halt) (after : Readers) : Prop where
  abreast : Abreast marks after
  stopped : B.Stopped (before.1.cursor.depth = 0) halt after.1.reports after.2.reports

def comparison : Comparison where
  Sound := B.Sound marks
  Room _ _ := True
  Leaves _ before after := B.Sound marks after ∧ after.1.cursor.depth = before.1.cursor.depth
  Stops := B.Halted marks
  Committable _ _ fork other := other.position = fork.position ∧ other.depth = fork.depth ∧
    fork.traced = marks.1 ∧ other.traced = marks.2
  Allows _ allowed other := other = allowed
  Excused _ := False

section

variable {B marks} {readers : Readers}

theorem Sound.halted (hSound : B.Sound marks readers) (halt : Halt) :
    B.Halted marks readers halt readers :=
  ⟨hSound.abreast, B.stopped hSound.kept⟩

theorem Sound.fork (hSound : B.Sound marks readers) : B.Sound marks readers.fork :=
  ⟨hSound.abreast.fork, hSound.kept⟩

/-- What is done with the one window is done with the other. -/
theorem Sound.runs_onWindow {α : Type} (hSound : B.Sound marks readers) (action : Windowed α) :
    Coincide (fun _ => False) (onWindow action) (onWindow action) readers
      (fun value other after => value = other ∧ B.Sound marks after ∧
        after.1.cursor = readers.1.cursor ∧ after.2.cursor = readers.2.cursor)
      (B.Halted marks readers) := by
  apply Coincide.onWindow
  have hWindows : readers.windows = (readers.1.window, readers.1.window) :=
    congrArg (Prod.mk _) hSound.abreast.window_eq
  rw [hWindows]
  apply Coincide.refl
  apply Leads.intro
  · exact fun _ window _ => ⟨rfl, ⟨hSound.abreast.onWindow window, hSound.kept⟩, rfl, rfl⟩
  · exact fun _ window _ => ⟨hSound.abreast.onWindow window, B.stopped hSound.kept⟩

/-- Both are at the same place. -/
theorem Sound.runs_position_bind {α : Type} {next : Nat → Reading α}
    {returned : α → α → Readers → Prop} {halted : Halt → Readers → Prop}
    (hSound : B.Sound marks readers)
    (hNext : Coincide (fun _ => False) (next readers.1.cursor.position)
      (next readers.1.cursor.position) readers returned halted) :
    Coincide (fun _ => False) (position >>= next) (position >>= next) readers returned halted :=
  hNext.congr rfl (congrArg (next · readers.2) hSound.abreast.position_eq)

theorem Sound.runs_moveTo (hSound : B.Sound marks readers) (place : Nat) :
    Coincide (fun _ => False) (moveTo place) (moveTo place) readers
      (fun _ _ after => B.Sound marks after ∧ after.1.cursor.depth = readers.1.cursor.depth)
      (B.Halted marks readers) :=
  .returns rfl rfl
    ⟨⟨⟨hSound.abreast.window_eq, rfl, hSound.abreast.depth_eq, hSound.abreast.traced_eq,
      hSound.abreast.traced_eq'⟩, hSound.kept⟩, rfl⟩

theorem Sound.runs_at {α : Type} (hSound : B.Sound marks readers) (action : Nat → Windowed α) :
    Coincide (fun _ => False) (do onWindow (action (← position)))
      (do onWindow (action (← position))) readers
      (fun value other after => value = other ∧ B.Sound marks after ∧
        after.1.cursor = readers.1.cursor ∧ after.2.cursor = readers.2.cursor)
      (B.Halted marks readers) :=
  hSound.runs_position_bind (hSound.runs_onWindow _)

/-- A way of looking ahead, which leaves both where they are. -/
theorem Sound.runs_look {α : Type} (hSound : B.Sound marks readers) (action : Nat → Windowed α) :
    Coincide (fun _ => False) (do onWindow (action (← position)))
      (do onWindow (action (← position))) readers
      (fun value other after => value = other ∧ (B.comparison marks).Leaves 0 readers after)
      (B.Halted marks readers) := by
  apply (hSound.runs_at action).imp
  rintro value other after ⟨hSame, hAfter, hCursor, -⟩
  exact ⟨hSame, hAfter, congrArg Cursor.depth hCursor⟩

theorem Sound.runs_peekChar (hSound : B.Sound marks readers)
    (_ : (B.comparison marks).Room readers 4) :
    Coincide (fun _ => False) (peekChars 1) (peekChars 1) readers
      (fun decoded other after => decoded = other ∧ (B.comparison marks).Leaves 0 readers after)
      (B.Halted marks readers) :=
  hSound.runs_look (Window.decodeAt · 1)

/-- A way of reading that moves past what it has found. -/
theorem Sound.runs_moving {α β : Type} (hSound : B.Sound marks readers)
    (action : Nat → Windowed α) (width : α → Nat) (answer : α → β) :
    Coincide (fun _ => False)
      (do let value ← do onWindow (action (← position))
          moveTo ((← position) + width value)
          return answer value)
      (do let value ← do onWindow (action (← position))
          moveTo ((← position) + width value)
          return answer value) readers
      (fun value other after => value = other ∧ B.Sound marks after ∧
        after.1.cursor.depth = readers.1.cursor.depth)
      (B.Halted marks readers) := by
  apply (hSound.runs_at action).bind
  rintro value _ middle ⟨rfl, hMiddle, hCursor, -⟩
  apply hMiddle.runs_position_bind
  apply ((hMiddle.runs_moveTo _).mono (fun _ _ _ h => h) fun halt after hHalted => ?_).bind
  · rintro - - after ⟨hAfter, hDepth⟩
    exact .pure ⟨rfl, hAfter, hDepth.trans (congrArg Cursor.depth hCursor)⟩
  · exact ⟨hHalted.abreast, hCursor ▸ hHalted.stopped⟩

theorem Sound.runs_commit (hSound : B.Sound marks readers) {fork other : Cursor}
    (hPosition : other.position = fork.position) (hDepth : other.depth = fork.depth) :
    Coincide (fun _ => False) (commit fork) (commit other) readers
      (fun _ _ after => (B.Sound marks after ∧
          after.1.cursor.depth = readers.1.cursor.depth) ∧
        after.1.cursor.position = fork.position)
      (fun _ after => after = readers) := by
  have hAbreast := hSound.abreast
  have hCommit := commit_eq fork readers.1
  have hOther := commit_eq other readers.2
  rw [hPosition, hDepth, hAbreast.window_eq, hAbreast.depth_eq] at hOther
  have hLeaves (window : Window) :
      B.Sound marks
        ({ readers.1 with window, cursor := { readers.1.cursor with position := fork.position } },
          { readers.2 with window, cursor := { readers.2.cursor with position := fork.position } }) :=
    ⟨⟨rfl, rfl, hAbreast.depth_eq, hAbreast.traced_eq, hAbreast.traced_eq'⟩, hSound.kept⟩
  by_cases hChild : fork.depth = readers.1.cursor.depth + 1
  · rw [if_pos hChild] at hCommit hOther
    by_cases hRoot : readers.1.cursor.depth = 0
    · rw [if_neg (not_not.2 hRoot)] at hCommit hOther
      by_cases hStart : readers.1.window.start ≤ fork.position
      · rw [if_pos hStart] at hCommit hOther
        exact .returns hCommit hOther ⟨⟨hLeaves _, rfl⟩, rfl⟩
      · rw [if_neg hStart] at hCommit hOther
        exact .halts hCommit hOther rfl
    · rw [if_pos hRoot] at hCommit hOther
      exact .returns hCommit hOther ⟨⟨hLeaves _, rfl⟩, rfl⟩
  · rw [if_neg hChild] at hCommit hOther
    exact .halts hCommit hOther rfl

end

/-- Whatever is claimed of the reports, all that makes none goes along with it. -/
def coupling : Coupling where
  toComparison := B.comparison marks
  sound hLeaves := hLeaves.1
  refl hSound := ⟨hSound, rfl⟩
  trans hFirst hSecond := ⟨hSecond.1, hSecond.2.trans hFirst.2⟩
  leaves_mono hLeaves _ := hLeaves
  stops hLeaves hHalted := ⟨hHalted.abreast, hLeaves.2 ▸ hHalted.stopped⟩
  room_mono _ _ := trivial
  room_after _ _ := trivial
  exhausted hSound _ := hSound.halted _
  invalidUtf8 _ hSound := hSound.halted _
  position_eq hSound := hSound.abreast.position_eq.symm
  peek count readers hSound _ := hSound.runs_look (Window.peekAt · count)
  peekChar := Sound.runs_peekChar
  read count readers hSound _ := hSound.runs_moving (Window.peekAt · count) List.length id
  fork := Sound.fork
  room_fork _ := trivial
  restore hSound hLeaves :=
    ⟨⟨⟨⟨hSound.abreast.restore hLeaves.1.abreast, hLeaves.1.kept⟩, rfl⟩, fun _ _ _ h => h⟩,
      hLeaves.1.abreast.position_eq, hLeaves.1.abreast.depth_eq, hLeaves.1.abreast.traced_eq,
      hLeaves.1.abreast.traced_eq'⟩
  stops_restore hSound hHalted := by
    refine ⟨hSound.abreast.restore hHalted.abreast, B.stopped_of_fork ?_⟩
    have hStopped := hHalted.stopped
    simp only [Readers.fork, Cursor.depth_fork, Nat.succ_ne_zero] at hStopped
    exact hStopped
  committable_position_eq hFork := hFork.1.symm
  commit hFork hSound :=
    (hSound.runs_commit hFork.1 hFork.2.1).mono (fun _ _ _ h => h) fun halt _ hSame =>
      hSame ▸ hSound.halted halt
  allows hSound := congrArg (· + 1) hSound.abreast.remaining_eq
  allows_fork hSame := hSame
  allows_zero _ hSame := Coupling.eq_zero_iff_of_eq hSame
  spent hSound _ := hSound.halted _
  allows_after hSame _ _ := Nat.succ.inj hSame

/-- An attempt of which only a match is kept is made on a fork. -/
theorem runs_keep {reach : ℕ∞} {first second : Attempt}
    (hAttempt : (B.coupling marks).Within reach first second) {readers : Readers}
    (hSound : B.Sound marks readers) :
    Coincide (fun _ => False) first.keep second.keep readers
      (fun result other after => result = other ∧ B.Sound marks after)
      (fun halt after => Abreast marks after ∧
        B.Stopped False halt after.1.reports after.2.reports) := by
  have hFork : Coincide (fun _ => False) (onFork first) (onFork second) readers
      (fun result other after => result.1 = other.1 ∧ B.Sound marks after ∧
        other.2.position = result.2.position ∧ other.2.depth = result.2.depth)
      (fun halt after => Abreast marks after ∧
        B.Stopped False halt after.1.reports after.2.reports) := by
    apply Coincide.onFork
    apply (hAttempt readers.fork hSound.fork trivial).mono
    · rintro value _ after ⟨rfl, hAfter, -⟩
      exact ⟨rfl, ⟨hSound.abreast.restore hAfter.abreast, hAfter.kept⟩, hAfter.abreast.position_eq,
        hAfter.abreast.depth_eq⟩
    · rintro halt after ⟨hAbreast, hStopped⟩
      simp only [Readers.fork, Cursor.depth_fork, Nat.succ_ne_zero] at hStopped
      exact ⟨hSound.abreast.restore hAbreast, hStopped⟩
  apply hFork.bind
  rintro ⟨found, fork⟩ ⟨-, other⟩ middle ⟨rfl, hMiddle, hPosition, hDepth⟩
  cases found with
  | none => exact .pure ⟨rfl, hMiddle⟩
  | some m =>
    apply ((hMiddle.runs_commit hPosition hDepth).mono (fun _ _ _ h => h) ?_).bind
    · rintro - - after ⟨⟨hAfter, -⟩, -⟩
      exact .pure ⟨rfl, hAfter⟩
    · rintro halt _ rfl
      exact ⟨hMiddle.abreast, B.stopped hMiddle.kept⟩

/-- Rules may go equally deep on both sides. -/
theorem within_attemptOf {leaf leaf' : Primitive → Attempt}
    (hLeaf : ∀ p : Primitive, (B.coupling marks).Within p.reach (leaf p) (leaf' p))
    (grammar : Grammar) (m : Matcher) :
    (B.coupling marks).Within m.reach (grammar.attemptOf leaf m) (grammar.attemptOf leaf' m) := by
  intro readers hSound _
  have hDepth : grammar.depthFor readers.2 = grammar.depthFor readers.1 := by
    rw [Grammar.depthFor, Grammar.depthFor, hSound.abreast.remaining_eq]
  have hCall := (B.coupling marks).within_callOf hLeaf grammar (grammar.depthFor readers.1)
  apply ((B.coupling marks).within_attemptOf hLeaf hCall m readers hSound trivial).congr
  · rfl
  · rw [← hDepth]
    rfl

end Bookkeeping

end StreamMatch
