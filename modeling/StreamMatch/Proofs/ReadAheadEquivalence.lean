import Mathlib
import StreamMatch.Proofs.Coupling
import StreamMatch.Proofs.Progress
import StreamMatch.Proofs.StreamDeterminedReads

/-!
What has been read ahead makes no difference. Two readers are kin if their cursors are the same and
so is what lies ahead of them, though more of it may have been read on one side, and in other pieces
(`Readers.Kin`). Whatever is done at both comes to the same, whether the cursors lie in their
windows or have been left behind (`kinship`). How deep rules may go depends on how much has been
read, and so this holds of rules that go equally deep or come to an end
(`Grammar.runs_attempt_kin`).
-/

namespace StreamMatch

namespace Window

/-- The location of an offset that has been read up to, or that it lies before the window. -/
def placed (window : Window) (place : Nat) : Except Fault Location :=
  if window.start ≤ place then
    .ok (window.origin.after (window.carry ++ window.slice 0 (place - window.start)))
  else .error (.reclaimed place window.start)

theorem locationAt_eq_placed (place : Nat) (window : Window) :
    locationAt place columnWidth window =
      match window.placed place with
      | .ok location => .ok location window
      | .error fault => .error fault window := by
  by_cases hStart : window.start ≤ place
  · simp only [placed, if_pos hStart, locationAt, bind, EStateM.bind, relative_eq hStart]
    rfl
  · have hRelative : relative place window = .error (.reclaimed place window.start) window := by
      change (if place < window.start then (throw (.reclaimed place window.start) : Windowed Nat)
        else return place - window.start) window = _
      rw [if_pos (Nat.not_le.1 hStart)]
      rfl
    simp only [placed, if_neg hStart, locationAt, bind, EStateM.bind, hRelative]

end Window

namespace Window.Alike

variable {first second : Window}

theorem symm (hAlike : first.Alike second) : second.Alike first :=
  ⟨hAlike.config_eq.symm, hAlike.start_eq.symm, hAlike.origin_eq.symm, hAlike.carry_eq.symm,
    hAlike.ahead_eq.symm⟩

/-- Both windows have been read into. -/
theorem draws {after other : Window} (hAlike : first.Alike second) (hFirst : first.Draws after)
    (hSecond : second.Draws other) : after.Alike other :=
  ((hAlike.of_draws hSecond).symm.of_draws hFirst).symm

theorem lies_over {stream : List UInt8} (hAlike : first.Alike second)
    (hOver : first.Over stream) : second.Over stream := by
  refine ⟨?_, ?_⟩
  · rw [hAlike.start_eq]
    exact hOver.start_le
  · rw [hAlike.start_eq, hAlike.ahead_eq]
    exact hOver.drop_start

/-- Bytes that both have can be discarded from both. -/
theorem discard {count : Nat} (hAlike : first.Alike second) (hFirst : count ≤ first.length)
    (hSecond : count ≤ second.length) : (first.discard count).Alike (second.discard count) := by
  have hSlice : second.slice 0 count = first.slice 0 count := by
    rw [hAlike.slice_eq (.inl (by omega)), (Alike.refl first).slice_eq (.inl (by omega))]
  obtain ⟨hConfig, -, -⟩ := first.rest_discard count
  obtain ⟨hConfig', -, -⟩ := second.rest_discard count
  have hLocated : (second.discard count).origin = (first.discard count).origin ∧
      (second.discard count).carry = (first.discard count).carry := by
    simp only [Window.discard, Nat.min_eq_left hFirst, Nat.min_eq_left hSecond]
    split
    · exact ⟨hAlike.origin_eq, hAlike.carry_eq⟩
    · simp only [origin_compact, carry_compact, hAlike.origin_eq, hAlike.carry_eq, hSlice,
        and_self]
  refine ⟨?_, ?_, hLocated.1, hLocated.2, ?_⟩
  · rw [hConfig', hConfig, hAlike.config_eq]
  · rw [start_discard, start_discard, Nat.min_eq_left hFirst, Nat.min_eq_left hSecond,
      hAlike.start_eq]
  · rw [ahead_discard, ahead_discard, Nat.min_eq_left hFirst, Nat.min_eq_left hSecond,
      hAlike.ahead_eq]

/-- What has been delivered on both sides is located at the same place. -/
theorem placed_eq (hAlike : first.Alike second) {place : Nat}
    (hFirst : place ≤ first.start + first.length) (hSecond : place ≤ second.start + second.length) :
    second.placed place = first.placed place := by
  rw [hAlike.start_eq] at hSecond
  have hSlice : second.slice 0 (place - first.start) = first.slice 0 (place - first.start) := by
    rw [hAlike.slice_eq (.inl (by omega)), (Alike.refl first).slice_eq (.inl (by omega))]
  simp only [placed, hAlike.start_eq, hAlike.origin_eq, hAlike.carry_eq, hSlice]

end Window.Alike

/-- The same is ahead of both, and their cursors are the same. -/
structure Readers.Kin (readers : Readers) : Prop where
  alike : readers.1.window.Alike readers.2.window
  calm : readers.1.window.source.Calm
  calm' : readers.2.window.source.Calm
  cursor_eq : readers.2.cursor = readers.1.cursor
  reports_eq : readers.2.reports = readers.1.reports
  within : readers.1.Within
  within' : readers.2.Within

/-- Kin that have gone on from kin. -/
structure Readers.KinAfter (before after : Readers) : Prop extends Kin after where
  proceeds : before.1.Proceeds after.1
  proceeds' : before.2.Proceeds after.2

namespace Readers

variable {readers after first second third : Readers}

namespace Kin

theorem symm (hKin : Kin readers) : Kin readers.swap :=
  ⟨hKin.alike.symm, hKin.calm', hKin.calm, hKin.cursor_eq.symm, hKin.reports_eq.symm, hKin.within',
    hKin.within⟩

/-- As much is left to read on both sides. -/
theorem left_eq (hKin : Kin readers) : readers.2.left = readers.1.left := by
  rw [Reader.left, Reader.left, hKin.alike.start_eq, hKin.alike.ahead_eq, hKin.cursor_eq]

theorem same (hKin : Kin readers) : KinAfter readers readers :=
  ⟨hKin, .refl hKin.within, .refl hKin.within'⟩

theorem fork (hKin : Kin readers) : Kin readers.fork :=
  ⟨hKin.alike, hKin.calm, hKin.calm', congrArg Cursor.fork hKin.cursor_eq, hKin.reports_eq,
    hKin.within, hKin.within'⟩

theorem reported (hKin : Kin readers) (report : Report) :
    KinAfter readers (readers.reported report) := by
  refine ⟨⟨hKin.alike, hKin.calm, hKin.calm', hKin.cursor_eq, ?_, hKin.within, hKin.within'⟩, ?_, ?_⟩
  · simp only [Readers.reported, Reader.reported, hKin.cursor_eq, hKin.reports_eq]
  · exact ⟨⟨hKin.within, Nat.le_refl _, fun _ => id⟩, Nat.le_refl _⟩
  · exact ⟨⟨hKin.within', Nat.le_refl _, fun _ => id⟩, Nat.le_refl _⟩

/-- Kin that stand at this place then, and have discarded what lies before it. -/
theorem discard (hKin : Kin readers) {place : Nat} (hDelivered : place ≤ readers.1.delivered)
    (hDelivered' : place ≤ readers.2.delivered) :
    Kin ({ readers.1 with
        window := readers.1.window.discard (place - readers.1.window.start)
        cursor := { readers.1.cursor with position := place } },
      { readers.2 with
        window := readers.2.window.discard (place - readers.2.window.start)
        cursor := { readers.2.cursor with position := place } }) := by
  have hStart : readers.2.window.start = readers.1.window.start := hKin.alike.start_eq
  obtain ⟨-, hSource, -⟩ := readers.1.window.rest_discard (place - readers.1.window.start)
  obtain ⟨-, hSource', -⟩ := readers.2.window.rest_discard (place - readers.2.window.start)
  refine ⟨?_, hSource.symm ▸ hKin.calm, hSource'.symm ▸ hKin.calm', ?_, hKin.reports_eq,
    (Reader.Confines.discard hDelivered _).within, (Reader.Confines.discard hDelivered' _).within⟩
  · rw [Reader.delivered] at hDelivered hDelivered'
    rw [hStart] at hDelivered' ⊢
    exact hKin.alike.discard (by omega) (by omega)
  · simp only [hKin.cursor_eq]

/-- What forks leave behind, seen from the cursors that were forked. -/
theorem restore (hKin : Kin readers) (hAfter : KinAfter readers.fork after) :
    KinAfter readers (readers.restore after) := by
  have hProceeds := hAfter.proceeds.restore hKin.within
  have hProceeds' := hAfter.proceeds'.restore hKin.within'
  exact ⟨⟨hAfter.alike, hAfter.calm, hAfter.calm', hKin.cursor_eq, hAfter.reports_eq,
    hProceeds.within, hProceeds'.within⟩, hProceeds, hProceeds'⟩

end Kin

theorem KinAfter.trans (hFirst : KinAfter first second) (hSecond : KinAfter second third) :
    KinAfter first third :=
  ⟨hSecond.toKin, hFirst.proceeds.trans hSecond.proceeds,
    hFirst.proceeds'.trans hSecond.proceeds'⟩

end Readers

namespace Reading

open Readers

variable {α : Type} {readers : Readers}

/-- However it ends, the action only reads into the window. -/
def Draws (action : Reading α) : Prop :=
  ∀ reader : Reader, Leads action reader (fun _ after => reader.window.Draws after.window)
    (fun _ after => reader.window.Draws after.window)

theorem Draws.pure (value : α) : Draws (Pure.pure value : Reading α) :=
  fun _ => Window.Draws.refl _

theorem Draws.bind {β : Type} {action : Reading α} {next : α → Reading β} (hAction : Draws action)
    (hNext : ∀ value, Draws (next value)) : Draws (action >>= next) := by
  intro reader
  apply (hAction reader).bind (fun _ _ h => h)
  intro value middle hMiddle
  apply (hNext value middle).mono
  · exact fun _ _ hAfter => hMiddle.trans hAfter
  · exact fun _ _ hAfter => hMiddle.trans hAfter

theorem draws_onWindow {action : Windowed α} (hLooks : Window.Looks action) :
    Draws (onWindow action) := by
  intro reader
  apply leads_onWindow.2
  apply (hLooks reader.window).mono
  · exact fun _ _ h => h.1
  · exact fun _ _ h => h.1

theorem draws_onWindow_position {action : Nat → Windowed α}
    (hLooks : ∀ place, Window.Looks (action place)) :
    Draws (do onWindow (action (← position))) :=
  .bind (fun _ => Window.Draws.refl _) fun place => draws_onWindow (hLooks place)

theorem draws_moving {β : Type} {action : Reading α} (hAction : Draws action) (length : α → Nat)
    (answer : α → β) :
    Draws (do
      let value ← action
      moveTo ((← position) + length value)
      return answer value) := by
  intro reader
  apply (hAction reader).bind (fun _ _ h => h)
  exact fun value after hAfter => hAfter

theorem draws_peek (count : Nat) : Draws (peek count) :=
  draws_onWindow_position fun place => Window.looks_peekAt place count

theorem draws_peekChars (count : Nat) : Draws (peekChars count) :=
  draws_onWindow_position fun place => Window.looks_decodeAt place count

theorem draws_isAtEnd : Draws isAtEnd :=
  draws_onWindow_position fun place => Window.looks_isEndAt place

theorem draws_location : Draws location :=
  draws_onWindow_position fun place => Window.looks_locationAt place

theorem draws_locate (place : Nat) :
    Draws (return (← location, ← onWindow (Window.locationAt place))) :=
  draws_location.bind fun _ =>
    (draws_onWindow (Window.looks_locationAt place)).bind fun _ => .pure _

theorem draws_read (count : Nat) : Draws (read count) :=
  draws_moving (draws_peek count) List.length id

theorem draws_readChars (count : Nat) : Draws (readChars count) :=
  draws_moving (draws_peekChars count) Decoded.length Decoded.chars

theorem draws_advance (count : Nat) : Draws (advance count) :=
  (draws_read count).bind fun _ => .pure _

/-- An action that finds something out finds out the same at both. -/
theorem Observes.runs_kin {action : Reading α} {look : Look α} (hObserves : Observes action look)
    (hDraws : Draws action) (hKin : Kin readers) (excused : Halt → Prop) :
    Coincide excused action action readers
      (fun value other after => value = other ∧ KinAfter readers after)
      (fun _ after => KinAfter readers after) := by
  obtain ⟨first, second⟩ := readers
  obtain ⟨stream, hOver⟩ := first.window.exists_over
  have hOver' := hKin.alike.lies_over hOver
  have hCursor : second.cursor = first.cursor := hKin.cursor_eq
  have hStart : second.window.start = first.window.start := hKin.alike.start_eq
  have hConfig : second.window.config = first.window.config := hKin.alike.config_eq
  have hReports : second.reports = first.reports := hKin.reports_eq
  have hFirst := ((hObserves first stream hOver).and (hDraws first)).and
    (hObserves.proceeds first hKin.within)
  have hSecond := ((hObserves second stream hOver').and (hDraws second)).and
    (hObserves.proceeds second hKin.within')
  rw [hCursor, hStart, hConfig] at hSecond
  have hAfter {window window' : Window} {moved : Nat}
      (hFirst : first.window.Draws window) (hSecond : second.window.Draws window')
      (hProceeds : first.Proceeds (first.further window moved))
      (hProceeds' : second.Proceeds (second.further window' moved)) :
      KinAfter (first, second) (first.further window moved, second.further window' moved) := by
    refine ⟨⟨hKin.alike.draws hFirst hSecond, hFirst.calm hKin.calm, hSecond.calm hKin.calm', ?_,
      hReports, hProceeds.within, hProceeds'.within⟩, hProceeds, hProceeds'⟩
    simp only [Reader.further, hCursor]
  cases hRun : action first with
  | ok value after =>
    obtain ⟨⟨⟨window, moved, rfl, -, hLies, hLook, -⟩, hFirstDraws⟩, hProceeds⟩ := hFirst.of_ok hRun
    cases hOther : action second with
    | ok other after' =>
      obtain ⟨⟨⟨window', moved', rfl, -, -, hLook', -⟩, hSecondDraws⟩, hProceeds'⟩ :=
        hSecond.of_ok hOther
      obtain ⟨rfl, rfl⟩ := Prod.mk.inj (Except.ok.inj (hLook.symm.trans hLook'))
      exact .returns hRun hOther ⟨rfl, hAfter hFirstDraws hSecondDraws hProceeds hProceeds'⟩
    | error halt after' =>
      obtain ⟨⟨⟨window', fault, rfl, rfl, -, hCases⟩, -⟩, -⟩ := hSecond.of_error hOther
      rcases hCases with ⟨hStale, -⟩ | ⟨-, hCalm | hFault⟩
      · omega
      · exact absurd hKin.calm' hCalm
      · cases hLook.symm.trans hFault
  | error halt after =>
    obtain ⟨⟨⟨window, fault, rfl, rfl, -, hCases⟩, hFirstDraws⟩, -, hProceeds⟩ :=
      hFirst.of_error hRun
    cases hOther : action second with
    | ok other after' =>
      obtain ⟨⟨⟨window', moved', rfl, -, hLies, hLook', -⟩, -⟩, -⟩ := hSecond.of_ok hOther
      rcases hCases with ⟨hStale, -⟩ | ⟨-, hCalm | hFault⟩
      · omega
      · exact absurd hKin.calm hCalm
      · cases hLook'.symm.trans hFault
    | error other after' =>
      obtain ⟨⟨⟨window', fault', rfl, rfl, -, hCases'⟩, hSecondDraws⟩, -, hProceeds'⟩ :=
        hSecond.of_error hOther
      obtain rfl : fault' = fault := by
        rcases hCases with ⟨hStale, -, rfl⟩ | ⟨hLies, hCalm | hFault⟩
        · rcases hCases' with ⟨-, -, rfl⟩ | ⟨hLies, -⟩
          · rfl
          · omega
        · exact absurd hKin.calm hCalm
        · rcases hCases' with ⟨hStale, -⟩ | ⟨-, hCalm | hFault'⟩
          · omega
          · exact absurd hKin.calm' hCalm
          · exact Except.error.inj (hFault'.symm.trans hFault)
      exact .halts hRun hOther (hAfter hFirstDraws hSecondDraws hProceeds hProceeds')

/-- Both are committed to the same place, and discard the same if they are roots. A commit that does
not go backwards leads on. -/
theorem runs_commit_kin {fork other : Cursor} (hKin : Kin readers) (hSame : other = fork)
    (hDelivered : fork.position ≤ readers.1.delivered)
    (hDelivered' : fork.position ≤ readers.2.delivered) (excused : Halt → Prop) :
    Coincide excused (commit fork) (commit other) readers
      (fun _ _ after => Kin after ∧ after.1.cursor.position = fork.position ∧
        (readers.1.cursor.position ≤ fork.position → KinAfter readers after))
      (fun _ after => KinAfter readers after) := by
  subst hSame
  have hCommit := commit_eq other readers.1
  have hCommit' := commit_eq other readers.2
  have hStart : readers.2.window.start = readers.1.window.start := hKin.alike.start_eq
  rw [hKin.cursor_eq, hStart] at hCommit'
  have hOnward {after : Readers} (hAfter : Kin after) (hConfines : readers.1.Confines after.1)
      (hConfines' : readers.2.Confines after.2)
      (hPosition : after.1.cursor.position = other.position) :
      readers.1.cursor.position ≤ other.position → KinAfter readers after := by
    intro hLess
    refine ⟨hAfter, ⟨hConfines, hPosition.symm ▸ hLess⟩, ⟨hConfines', ?_⟩⟩
    rw [hKin.cursor_eq, hAfter.cursor_eq, hPosition]
    exact hLess
  by_cases hDepth : other.depth = readers.1.cursor.depth + 1
  · rw [if_pos hDepth] at hCommit hCommit'
    by_cases hDeep : readers.1.cursor.depth ≠ 0
    · rw [if_pos hDeep] at hCommit hCommit'
      have hAfter : Kin
          ({ readers.1 with cursor := { readers.1.cursor with position := other.position } },
            { readers.2 with cursor := { readers.1.cursor with position := other.position } }) :=
        ⟨hKin.alike, hKin.calm, hKin.calm', rfl, hKin.reports_eq, hDelivered, hDelivered'⟩
      refine .returns hCommit hCommit' ⟨hAfter, rfl, hOnward hAfter ?_ ?_ rfl⟩
      · exact ⟨hDelivered, Nat.le_refl _, fun _ => id⟩
      · exact ⟨hDelivered', Nat.le_refl _, fun _ => id⟩
    · rw [if_neg hDeep] at hCommit hCommit'
      by_cases hLies : readers.1.window.start ≤ other.position
      · rw [if_pos hLies] at hCommit hCommit'
        have hAfter := hKin.discard hDelivered hDelivered'
        rw [hStart, hKin.cursor_eq] at hAfter
        refine .returns hCommit hCommit' ⟨hAfter, rfl, hOnward hAfter ?_ ?_ rfl⟩
        · exact .discard hDelivered _
        · rw [← hKin.cursor_eq]
          exact .discard hDelivered' _
      · rw [if_neg hLies] at hCommit hCommit'
        exact .halts hCommit hCommit' hKin.same
  · rw [if_neg hDepth] at hCommit hCommit'
    exact .halts hCommit hCommit' hKin.same

theorem reclaim_eq (reader : Reader) :
    reclaim reader =
      if reader.cursor.depth = 0 then
        if reader.window.start ≤ reader.cursor.position then
          .ok () { reader with
            window := reader.window.discard (reader.cursor.position - reader.window.start) }
        else .error (.fault (.reclaimed reader.cursor.position reader.window.start)) reader
      else .ok () reader := by
  have hReclaim := leads_reclaim reader
  unfold Leads at hReclaim
  split at hReclaim
  · next after hRun =>
    obtain ⟨hRoot, hStart, rfl⟩ | ⟨hDeep, rfl⟩ := hReclaim
    · simp [hRun, hRoot, hStart]
    · simp [hRun, hDeep]
  · next halt after hRun =>
    obtain ⟨rfl, hRoot, hStale, rfl⟩ := hReclaim
    simp [hRun, hRoot, Nat.not_le.2 hStale]

/-- Both discard what lies before them if they are roots. -/
theorem runs_reclaim_kin (hKin : Kin readers) (excused : Halt → Prop) :
    Coincide excused reclaim reclaim readers (fun _ _ => Kin) (fun _ => Kin) := by
  have hReclaim := reclaim_eq readers.1
  have hReclaim' := reclaim_eq readers.2
  have hStart : readers.2.window.start = readers.1.window.start := hKin.alike.start_eq
  rw [hKin.cursor_eq, hStart] at hReclaim'
  by_cases hRoot : readers.1.cursor.depth = 0
  · rw [if_pos hRoot] at hReclaim hReclaim'
    by_cases hLies : readers.1.window.start ≤ readers.1.cursor.position
    · rw [if_pos hLies] at hReclaim hReclaim'
      have hDelivered := hKin.within'
      rw [Reader.Within, hKin.cursor_eq] at hDelivered
      have hAfter := hKin.discard hKin.within hDelivered
      rw [hStart, hKin.cursor_eq] at hAfter
      exact .returns hReclaim hReclaim' hAfter
    · rw [if_neg hLies] at hReclaim hReclaim'
      exact .halts hReclaim hReclaim' hKin
  · rw [if_neg hRoot] at hReclaim hReclaim'
    exact .returns hReclaim hReclaim' hKin

/-- A place that has been delivered is located the same, and nothing changes. -/
theorem runs_locationAt_kin (hKin : Kin readers) {place : Nat}
    (hDelivered : place ≤ readers.1.delivered) (hDelivered' : place ≤ readers.2.delivered)
    (excused : Halt → Prop) :
    Coincide excused (onWindow (Window.locationAt place)) (onWindow (Window.locationAt place))
      readers (fun location other after => location = other ∧ after = readers)
      (fun _ after => after = readers) := by
  have hPlaced := hKin.alike.placed_eq hDelivered hDelivered'
  have hFirst := Window.locationAt_eq_placed place readers.1.window
  have hSecond := Window.locationAt_eq_placed place readers.2.window
  rw [hPlaced] at hSecond
  cases hFound : readers.1.window.placed place with
  | ok location =>
    rw [hFound] at hFirst hSecond
    apply Coincide.onWindow
    exact .returns hFirst hSecond ⟨rfl, rfl⟩
  | error fault =>
    rw [hFound] at hFirst hSecond
    apply Coincide.onWindow
    exact .halts hFirst hSecond rfl

/-- The cursors and other places that have been delivered are located the same. -/
theorem runs_locate_kin (hKin : Kin readers) {place : Nat}
    (hDelivered : place ≤ readers.1.delivered) (hDelivered' : place ≤ readers.2.delivered)
    (excused : Halt → Prop) :
    Coincide excused (return (← location, ← onWindow (Window.locationAt place)))
      (return (← location, ← onWindow (Window.locationAt place))) readers
      (fun locations other after => locations = other ∧ after = readers)
      (fun _ after => after = readers) := by
  have hWithin : readers.1.cursor.position ≤ readers.2.delivered := by
    rw [← hKin.cursor_eq]
    exact hKin.within'
  have hHere : Coincide excused location location readers
      (fun location other after => location = other ∧ after = readers)
      (fun _ after => after = readers) := by
    apply (runs_locationAt_kin hKin hKin.within hWithin excused).congr
    · rfl
    · rw [← hKin.cursor_eq]
      rfl
  apply hHere.bind
  intro first other middle hMiddle
  obtain ⟨rfl, rfl⟩ := hMiddle
  apply (runs_locationAt_kin hKin hDelivered hDelivered' excused).bind
  intro second other after hAfter
  obtain ⟨rfl, rfl⟩ := hAfter
  exact .pure ⟨rfl, rfl⟩

end Reading

open Reading Readers

/-- Kinship as a kind of claim about two runs. If the first run is cut off, nothing is said of the
second. -/
def kindred : Comparison where
  Sound := Kin
  Room _ _ := True
  Leaves _ := KinAfter
  Stops before _ after := KinAfter before after
  Committable _ readers fork other := other = fork ∧
    readers.1.cursor.position ≤ fork.position ∧ fork.position ≤ readers.1.delivered ∧
      fork.position ≤ readers.2.delivered
  Allows readers allowed other := readers.1.left < allowed ∧ readers.1.left < other
  Excused halt := halt = .exhausted

theorem Readers.Kin.runs_peekChar {readers : Readers} (hKin : Kin readers)
    (_ : kindred.Room readers 4) :
    Coincide kindred.Excused (peekChars 1) (peekChars 1) readers
      (fun decoded other after => decoded = other ∧ KinAfter readers after)
      (fun _ after => KinAfter readers after) :=
  (observes_peekChars 1).runs_kin (draws_peekChars 1) hKin _

theorem Readers.Kin.awaits {readers after : Readers} {reach : ℕ∞} (hKin : Kin readers)
    (hAfter : KinAfter readers.fork after) :
    kindred.Awaits readers (readers.restore after) ∧
      kindred.Committable reach (readers.restore after) after.1.cursor after.2.cursor := by
  have hRestored := hKin.restore hAfter
  refine ⟨⟨hRestored, ?_⟩, hAfter.cursor_eq, hAfter.proceeds.position_le, hAfter.within, ?_⟩
  · intro _ fork other hFork
    exact ⟨hFork.1, hFork.2.1, Nat.le_trans hFork.2.2.1 hRestored.proceeds.delivered_le,
      Nat.le_trans hFork.2.2.2 hRestored.proceeds'.delivered_le⟩
  · have hWithin : after.2.cursor.position ≤ after.2.delivered := hAfter.within'
    rw [hAfter.cursor_eq] at hWithin
    exact hWithin

theorem Readers.Kin.awaits_reported {readers : Readers} (hKin : Kin readers) (report : Report) :
    kindred.Awaits readers (readers.reported report) :=
  ⟨hKin.reported report, fun _ _ _ hFork => hFork⟩

/-- A round that has moved the cursors leaves less ahead of both. -/
theorem Readers.KinAfter.allows {before after : Readers} {allowed other : Nat}
    (hAllows : kindred.Allows before (allowed + 1) (other + 1)) (hAfter : KinAfter before after)
    (hMoved : after.1.cursor.position ≠ before.1.cursor.position) :
    kindred.Allows after allowed other := by
  have hLess := hAfter.proceeds.left_lt hMoved.symm
  exact ⟨Nat.lt_of_lt_of_le hLess (Nat.le_of_lt_succ hAllows.1),
    Nat.lt_of_lt_of_le hLess (Nat.le_of_lt_succ hAllows.2)⟩

/-- Kin go the same way in all that matchers are made of. -/
def kinship : Correspondence where
  toComparison := kindred
  sound hLeaves := hLeaves.toKin
  refl := Kin.same
  trans := KinAfter.trans
  leaves_mono hLeaves _ := hLeaves
  stops := KinAfter.trans
  room_mono _ _ := trivial
  room_after _ _ := trivial
  exhausted hKin _ := hKin.same
  invalidUtf8 _ hKin := hKin.same
  position_eq hKin := (congrArg Cursor.position hKin.cursor_eq).symm
  peek count _ hKin _ := (observes_peek count).runs_kin (draws_peek count) hKin _
  peekChar := Kin.runs_peekChar
  read count _ hKin _ := (observes_read count).runs_kin (draws_read count) hKin _
  fork := Kin.fork
  room_fork _ := trivial
  restore := Kin.awaits
  stops_restore := Kin.restore
  committable_position_eq hFork := (congrArg Cursor.position hFork.1).symm
  commit hFork hKin :=
    (runs_commit_kin hKin hFork.1 hFork.2.2.1 hFork.2.2.2 _).imp fun _ _ _ hAfter =>
      ⟨hAfter.2.2 hFork.2.1, hAfter.2.1⟩
  allows {readers} hKin := ⟨readers.1.left_lt_remaining, hKin.left_eq ▸ readers.2.left_lt_remaining⟩
  allows_fork hAllows := hAllows
  allows_zero _ hAllows :=
    iff_of_false (Nat.ne_zero_of_lt hAllows.1) (Nat.ne_zero_of_lt hAllows.2)
  spent _ hAllows := absurd hAllows.1 (Nat.not_lt_zero _)
  allows_after hAllows hAfter := hAfter.allows hAllows
  reported report _ hKin := hKin.awaits_reported report
  stops_reported report _ _ _ hKin hStops :=
    (hKin.restore hStops).trans ((hKin.restore hStops).toKin.reported report)

namespace Grammar

variable {readers : Readers}

/-- Rules that may go deeper come to the same, unless they were cut off before. -/
theorem within_call_kin (grammar : Grammar) {depth deeper : Nat} (hDepth : depth ≤ deeper)
    (name : String) :
    kinship.Within ⊤ (grammar.call depth name) (grammar.call deeper name) := by
  induction depth generalizing deeper name with
  | zero => exact fun _ _ _ => .excuses rfl rfl
  | succ depth ih =>
    obtain ⟨deeper, rfl⟩ := Nat.exists_eq_add_of_lt (Nat.lt_of_lt_of_le (Nat.zero_lt_succ _) hDepth)
    rw [Nat.zero_add, Grammar.call, Grammar.call]
    split
    · exact kinship.within_mono (kinship.within_pure none) le_top
    · exact kinship.within_mono (kinship.within_attempt (ih (by omega)) _) le_top

/-- The run is cut off: rules go deeper than is allowed for. -/
def CutOff {α : Type} (action : Reading α) (reader : Reader) : Prop :=
  ∃ after, action reader = .error .exhausted after

/-- What depends on how deep rules may go goes the same way at kin if neither run is cut off. -/
theorem runs_kin_of_within (grammar : Grammar) {α : Type} {reach : ℕ∞} {action : Reading α}
    (limited : Nat → Reading α)
    (hAction : ∀ reader, action reader = limited (grammar.depthFor reader) reader)
    (hLimited : ∀ depth deeper, depth ≤ deeper →
      kinship.Within reach (limited depth) (limited deeper))
    (hKin : Kin readers) (hEnds : ¬ CutOff action readers.1) (hEnds' : ¬ CutOff action readers.2) :
    Coincide (fun _ => False) action action readers
      (fun value other after => value = other ∧ Kin after) (fun _ => Kin) := by
  have hFirst := hAction readers.1
  have hSecond := hAction readers.2
  rcases Nat.le_total (grammar.depthFor readers.1) (grammar.depthFor readers.2) with hLess | hLess
  · cases hLimited _ _ hLess readers hKin trivial with
    | returns hRun hOther hAfter =>
      exact .returns (hFirst.trans hRun) (hSecond.trans hOther) ⟨hAfter.1, hAfter.2.toKin⟩
    | halts hRun hOther hAfter =>
      exact .halts (hFirst.trans hRun) (hSecond.trans hOther) hAfter.toKin
    | excuses hRun hExcused => exact (hEnds ⟨_, hExcused ▸ hFirst.trans hRun⟩).elim
  · cases hLimited _ _ hLess readers.swap hKin.symm trivial with
    | returns hOther hRun hAfter =>
      exact .returns (hFirst.trans hRun) (hSecond.trans hOther)
        ⟨hAfter.1.symm, hAfter.2.toKin.symm⟩
    | halts hOther hRun hAfter =>
      exact .halts (hFirst.trans hRun) (hSecond.trans hOther) hAfter.toKin.symm
    | excuses hOther hExcused => exact (hEnds' ⟨_, hExcused ▸ hSecond.trans hOther⟩).elim

theorem runs_attempt_kin (grammar : Grammar) (m : Matcher) (hKin : Kin readers)
    (hEnds : ¬ CutOff (grammar.attempt m) readers.1)
    (hEnds' : ¬ CutOff (grammar.attempt m) readers.2) :
    Coincide (fun _ => False) (grammar.attempt m) (grammar.attempt m) readers
      (fun result other after => result = other ∧ Kin after) (fun _ => Kin) :=
  grammar.runs_kin_of_within (fun depth => m.attempt (grammar.call depth)) (fun _ => rfl)
    (fun _ _ hDepth => kinship.within_attempt (grammar.within_call_kin hDepth) m) hKin hEnds hEnds'

theorem runs_parse_kin (grammar : Grammar) (m : Matcher) (hKin : Kin readers)
    (hEnds : ¬ CutOff (grammar.parse m) readers.1)
    (hEnds' : ¬ CutOff (grammar.parse m) readers.2) :
    Coincide (fun _ => False) (grammar.parse m) (grammar.parse m) readers
      (fun result other after => result = other ∧ Kin after) (fun _ => Kin) :=
  grammar.runs_kin_of_within (fun depth => (m.attempt (grammar.call depth)).keep) (fun _ => rfl)
    (fun _ _ hDepth =>
      kinship.within_keep (kinship.within_attempt (grammar.within_call_kin hDepth) m))
    hKin hEnds hEnds'

end Grammar

end StreamMatch
