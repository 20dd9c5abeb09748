import Mathlib
import StreamMatch.Proofs.Closures
import StreamMatch.Proofs.Coupling

/-!
Matchers and scripts run side by side below the root, at cursors of which the second may be some
generations deeper than the first. The windows may differ too, as long as the same is found in them
wherever the cursors can get (`Pairing`). All that matchers are made of then comes to the same on
both sides, and so does a script that makes nothing of those answers that tell the sides apart
(`Pairing.follows_call`).
-/

namespace StreamMatch

/-- The cursor so many generations deeper. -/
def Cursor.below (cursor : Cursor) (generations : Nat) : Cursor :=
  { cursor with depth := cursor.depth + generations }

theorem Cursor.fork_below (cursor : Cursor) (generations : Nat) :
    (cursor.below generations).fork = cursor.fork.below generations := by
  simp only [fork, below, Nat.add_right_comm]

namespace Script

/-- A script that goes on in the same way after answers that are the same to it. -/
def Respects (Same : (request : Request) → request.Answer → request.Answer → Prop) {made : Nat} :
    Script made → Prop
  | finish _ => True
  | fail _ => True
  | fork _ next => next.Respects Same
  | copy _ next => next.Respects Same
  | commit _ _ next => ∀ outcome, (next outcome).Respects Same
  | ask _ request next =>
    (∀ answer other, Same request answer other → next (.ok other) = next (.ok answer)) ∧
      ∀ outcome, (next outcome).Respects Same

end Script

/-- All scripts respect which answers are the same. -/
def Library.Respects (library : Library)
    (Same : (request : Request) → request.Answer → request.Answer → Prop) : Prop :=
  ∀ name script, library.scripts.lookup name = some script → script.Respects Same

/-- The action finds the same in windows that have something in common, which they keep. -/
def Windowed.Shared {α : Type} (Agree : Window × Window → Prop) (action : Windowed α) : Prop :=
  ∀ windows, Agree windows → Coincide (fun _ => False) action action windows
    (fun value other after => value = other ∧ Agree after) (fun _ after => Agree after)

/-- What two sides have in common that matchers cannot tell apart below the root. -/
structure Pairing where
  Agree : Window × Window → Prop
  /-- No cursor is before this place. -/
  least : Nat
  /-- The cursors of the second side are so many generations deeper. -/
  extra : Nat
  /-- The answers that a request may be given on the two sides. -/
  Same : (request : Request) → request.Answer → request.Answer → Prop
  remaining_eq {windows : Window × Window} : Agree windows →
    windows.2.start + windows.2.length + windows.2.source.size =
      windows.1.start + windows.1.length + windows.1.source.size
  peekAt {place : Nat} (count : Nat) : least ≤ place → (Window.peekAt place count).Shared Agree
  decodeAt {place : Nat} (count : Nat) : least ≤ place → (Window.decodeAt place count).Shared Agree
  locationAt {place : Nat} : least ≤ place → (Window.locationAt place).Shared Agree
  same_inspect (cursor : Cursor) : cursor.depth ≠ 0 → Same .inspect cursor (cursor.below extra)
  same_offset {place : Nat} {windows : Window × Window} : least ≤ place → Agree windows →
    Same .offset (place - windows.1.start) (place - windows.2.start)
  same_self (request : Request) (answer : request.Answer) : request ≠ .inspect →
    Same request answer answer

namespace Pairing

variable (P : Pairing)

/-- A cursor that there may be on the first side. -/
structure Held (cursor : Cursor) : Prop where
  deep : cursor.depth ≠ 0
  least_le : P.least ≤ cursor.position

/-- Two readers that stand side by side. -/
structure Paired (readers : Readers) : Prop where
  agree : P.Agree readers.windows
  cursor_eq : readers.2.cursor = readers.1.cursor.below P.extra
  reports_eq : readers.2.reports = readers.1.reports
  held : P.Held readers.1.cursor

/-- The action comes to the same on both sides. -/
def Follows {α : Type} (action : Reading α) : Prop :=
  ∀ readers, P.Paired readers → Coincide (fun _ => False) action action readers
    (fun value other after => value = other ∧ P.Paired after) (fun _ after => P.Paired after)

variable {P} {α β : Type} {readers after : Readers} {cursor : Cursor}

theorem Held.fork (hHeld : P.Held cursor) : P.Held cursor.fork :=
  ⟨Nat.succ_ne_zero _, hHeld.least_le⟩

/-- A cursor can be moved to any place but one before the least. -/
theorem Held.moved (hHeld : P.Held cursor) {position : Nat} (hLeast : P.least ≤ position) :
    P.Held { cursor with position } :=
  ⟨hHeld.deep, hLeast⟩

namespace Paired

theorem position_eq (hPaired : P.Paired readers) :
    readers.2.cursor.position = readers.1.cursor.position := by
  rw [hPaired.cursor_eq]
  rfl

theorem onWindows (hPaired : P.Paired readers) {windows : Window × Window}
    (hAgree : P.Agree windows) : P.Paired (readers.onWindows windows) :=
  { hPaired with agree := hAgree }

/-- Both with other cursors at hand. -/
theorem withCursor (hPaired : P.Paired readers) (hHeld : P.Held cursor) :
    P.Paired ({ readers.1 with cursor },
      { readers.2 with cursor := cursor.below P.extra }) :=
  ⟨hPaired.agree, rfl, hPaired.reports_eq, hHeld⟩

theorem fork (hPaired : P.Paired readers) : P.Paired readers.fork := by
  refine ⟨hPaired.agree, ?_, hPaired.reports_eq, hPaired.held.fork⟩
  simp only [Readers.fork, hPaired.cursor_eq, Cursor.fork_below]

theorem restore (hPaired : P.Paired readers) (hAfter : P.Paired after) :
    P.Paired (readers.restore after) :=
  ⟨hAfter.agree, hPaired.cursor_eq, hAfter.reports_eq, hPaired.held⟩

theorem reported (hPaired : P.Paired readers) (report : Report) :
    P.Paired (readers.reported report) := by
  have hTraced : readers.2.cursor.traced = readers.1.cursor.traced := by
    rw [hPaired.cursor_eq]
    rfl
  refine ⟨hPaired.agree, hPaired.cursor_eq, ?_, hPaired.held⟩
  simp only [Readers.reported, Reader.reported, hTraced, hPaired.reports_eq]

theorem remaining_eq (hPaired : P.Paired readers) :
    readers.2.remaining = readers.1.remaining := by
  unfold Reader.remaining
  rw [hPaired.position_eq, P.remaining_eq hPaired.agree]

end Paired

section Actions

/-- What follows may depend on where the cursors are, which is the same place. -/
theorem runs_position_bind (hPaired : P.Paired readers) {next : Nat → Reading α}
    {returned : α → α → Readers → Prop} {halted : Halt → Readers → Prop}
    (hNext : Coincide (fun _ => False) (next readers.1.cursor.position)
      (next readers.1.cursor.position) readers returned halted) :
    Coincide (fun _ => False) (Reading.position >>= next) (Reading.position >>= next) readers
      returned halted := by
  apply hNext.congr
  · rfl
  · rw [← hPaired.position_eq]
    rfl

theorem follows_onWindow {action : Nat → Windowed α}
    (hAction : ∀ place, P.least ≤ place → (action place).Shared P.Agree) :
    P.Follows (do Reading.onWindow (action (← Reading.position))) := by
  intro readers hPaired
  apply runs_position_bind hPaired
  apply Coincide.onWindow
  apply (hAction _ hPaired.held.least_le _ hPaired.agree).mono
  · exact fun _ _ _ hAfter => ⟨hAfter.1, hPaired.onWindows hAfter.2⟩
  · exact fun _ _ hAfter => hPaired.onWindows hAfter

/-- A way of reading that moves past what it has found. -/
theorem follows_moving {action : Nat → Windowed α} (width : α → Nat) (answer : α → β)
    (hAction : ∀ place, P.least ≤ place → (action place).Shared P.Agree) :
    P.Follows (do
      let value ← do Reading.onWindow (action (← Reading.position))
      Reading.moveTo ((← Reading.position) + width value)
      return answer value) := by
  intro readers hPaired
  apply (follows_onWindow hAction readers hPaired).bind
  intro value other middle hMiddle
  obtain ⟨rfl, hPaired⟩ := hMiddle
  apply runs_position_bind hPaired
  refine .returns rfl rfl ⟨rfl, hPaired.agree, ?_, hPaired.reports_eq, ?_⟩
  · simp only [hPaired.cursor_eq, Cursor.below]
  · exact hPaired.held.moved (Nat.le_add_right_of_le hPaired.held.least_le)

theorem follows_peek (count : Nat) : P.Follows (Reading.peek count) :=
  follows_onWindow fun _ => P.peekAt count

theorem follows_peekChars (count : Nat) : P.Follows (Reading.peekChars count) :=
  follows_onWindow fun _ => P.decodeAt count

theorem follows_location : P.Follows Reading.location :=
  follows_onWindow fun _ => P.locationAt

theorem follows_read (count : Nat) : P.Follows (Reading.read count) :=
  follows_moving List.length id fun _ => P.peekAt count

theorem follows_readChars (count : Nat) : P.Follows (Reading.readChars count) :=
  follows_moving Decoded.length Decoded.chars fun _ => P.decodeAt count

theorem Follows.map {action : Reading α} (hAction : P.Follows action) (answer : α → β) :
    P.Follows (do return answer (← action)) := by
  intro readers hPaired
  apply (hAction readers hPaired).bind
  intro value other after hAfter
  exact .pure ⟨congrArg answer hAfter.1, hAfter.2⟩

theorem follows_isAtEnd : P.Follows Reading.isAtEnd := by
  rw [Reading.isAtEnd_eq]
  exact (follows_peek 1).map List.isEmpty

/-- No cursor is a root, so that nothing is reclaimed. -/
theorem follows_reclaim : P.Follows Reading.reclaim := by
  have hRun {reader : Reader} (hDeep : reader.cursor.depth ≠ 0) :
      Reading.reclaim reader = .ok () reader := by
    simp [Reading.reclaim, Cursor.isRoot, hDeep, get_bind_apply]
    rfl
  intro readers hPaired
  refine .returns (hRun hPaired.held.deep) (hRun ?_) ⟨rfl, hPaired⟩
  rw [hPaired.cursor_eq]
  exact fun hRoot => hPaired.held.deep (Nat.eq_zero_of_add_eq_zero_right hRoot)

/-- Below the root a commit discards nothing. It goes through on both sides or on neither. -/
theorem runs_commit (hPaired : P.Paired readers) {fork other : Cursor}
    (hOther : other = fork.below P.extra) (hLeast : P.least ≤ fork.position) :
    Coincide (fun _ => False) (Reading.commit fork) (Reading.commit other) readers
      (fun _ _ after => P.Paired after ∧ after.1.cursor.position = fork.position)
      (fun _ after => P.Paired after) := by
  obtain ⟨first, second⟩ := readers
  obtain ⟨hAgree, hCursor, hReports, hHeld⟩ := hPaired
  dsimp only at hAgree hCursor hReports hHeld
  have hDeep := hHeld.deep
  have hFirst := Reading.commit_eq fork first
  have hSecond := Reading.commit_eq other second
  have hDeep' : second.cursor.depth ≠ 0 := by
    rw [hCursor]
    exact fun hRoot => hDeep (Nat.eq_zero_of_add_eq_zero_right hRoot)
  have hGenerations :
      other.depth = second.cursor.depth + 1 ↔ fork.depth = first.cursor.depth + 1 := by
    simp only [hOther, hCursor, Cursor.below]
    omega
  rw [if_pos hDeep] at hFirst
  rw [if_pos hDeep'] at hSecond
  by_cases hDepth : fork.depth = first.cursor.depth + 1
  · rw [if_pos hDepth] at hFirst
    rw [if_pos (hGenerations.2 hDepth)] at hSecond
    refine .returns hFirst hSecond ⟨⟨hAgree, ?_, hReports, hHeld.moved hLeast⟩, rfl⟩
    simp only [hCursor, hOther, Cursor.below]
  · rw [if_neg hDepth] at hFirst
    rw [if_neg (hGenerations.not.2 hDepth)] at hSecond
    exact .halts hFirst hSecond ⟨hAgree, hCursor, hReports, hHeld⟩

end Actions

/-- To stand side by side, as a kind of claim about two runs. -/
def comparison (P : Pairing) : Comparison where
  Sound := P.Paired
  Room _ _ := True
  Leaves _ _ after := P.Paired after
  Stops _ _ after := P.Paired after
  Committable _ _ fork other := other = fork.below P.extra ∧ P.least ≤ fork.position
  Allows _ allowed other := other = allowed
  Excused _ := False

theorem Paired.runs_peekChar (hPaired : P.Paired readers) (_ : P.comparison.Room readers 4) :
    Coincide (fun _ => False) (Reading.peekChars 1) (Reading.peekChars 1) readers
      (fun decoded other after => decoded = other ∧ P.Paired after)
      (fun _ after => P.Paired after) :=
  follows_peekChars 1 readers hPaired

/-- All that matchers are made of comes to the same on both sides. -/
def correspondence (P : Pairing) : Correspondence where
  toComparison := P.comparison
  sound hLeaves := hLeaves
  refl hPaired := hPaired
  trans _ hSecond := hSecond
  leaves_mono hLeaves _ := hLeaves
  stops _ hStops := hStops
  room_mono _ _ := trivial
  room_after _ _ := trivial
  exhausted hPaired _ := hPaired
  invalidUtf8 _ hPaired := hPaired
  position_eq hPaired := hPaired.position_eq.symm
  peek count readers hPaired _ := follows_peek count readers hPaired
  peekChar := Paired.runs_peekChar
  read count readers hPaired _ := follows_read count readers hPaired
  fork := Paired.fork
  room_fork _ := trivial
  restore hPaired hAfter :=
    ⟨⟨hPaired.restore hAfter, fun _ _ _ h => h⟩, hAfter.cursor_eq, hAfter.held.least_le⟩
  stops_restore := Paired.restore
  committable_position_eq hFork := (congrArg Cursor.position hFork.1).symm
  commit hFork hPaired := runs_commit hPaired hFork.1 hFork.2
  allows hPaired := congrArg (· + 1) hPaired.remaining_eq
  allows_fork hSame := hSame
  allows_zero _ hSame := Coupling.eq_zero_iff_of_eq hSame
  spent hPaired _ := hPaired
  allows_after hSame _ _ := Nat.succ.inj hSame
  reported report _ hPaired := ⟨hPaired.reported report, fun _ _ _ h => h⟩
  stops_reported report _ _ _ hPaired hStops := (hPaired.restore hStops).reported report

/-- A matcher comes to the same on both sides if what the names of rules stand for does. -/
theorem follows_attempt {call : String → Attempt} (hCall : ∀ name, P.Follows (call name))
    (m : Matcher) : P.Follows (m.attempt call) :=
  fun readers hPaired =>
    P.correspondence.within_attempt (fun name readers hPaired _ => hCall name readers hPaired) m
      readers hPaired trivial

theorem follows_keep {attempt : Attempt} (hAttempt : P.Follows attempt) :
    P.Follows attempt.keep := by
  have hWithin : P.correspondence.Within 0 attempt attempt := fun readers hPaired _ =>
    hAttempt readers hPaired
  exact fun readers hPaired => P.correspondence.within_keep hWithin readers hPaired trivial

/-- What a request is answered on one side is the same as what it is answered on the other. -/
theorem runs_action {evaluate : Matcher → Attempt} (hEvaluate : ∀ m, P.Follows (evaluate m))
    (request : Request) (hPaired : P.Paired readers) :
    Coincide (fun _ => False) (request.action evaluate) (request.action evaluate) readers
      (fun answer other after => P.Same request answer other ∧ P.Paired after)
      (fun _ after => P.Paired after) := by
  have hSame (hRequest : request ≠ .inspect) (hAction : P.Follows (request.action evaluate)) :
      Coincide (fun _ => False) (request.action evaluate) (request.action evaluate) readers
        (fun answer other after => P.Same request answer other ∧ P.Paired after)
        (fun _ after => P.Paired after) := by
    apply (hAction readers hPaired).imp
    intro answer other after hAfter
    exact ⟨hAfter.1 ▸ P.same_self request answer hRequest, hAfter.2⟩
  cases request with
  | peek count => exact hSame (by simp) (follows_peek count)
  | peekChars count => exact hSame (by simp) (follows_peekChars count)
  | read count => exact hSame (by simp) (follows_read count)
  | readChars count => exact hSame (by simp) (follows_readChars count)
  | advance count => exact hSame (by simp) ((follows_read count).map List.length)
  | isAtEnd => exact hSame (by simp) follows_isAtEnd
  | location => exact hSame (by simp) follows_location
  | reclaim => exact hSame (by simp) follows_reclaim
  | inspect =>
    refine .returns rfl rfl ⟨?_, hPaired⟩
    rw [hPaired.cursor_eq]
    exact P.same_inspect _ hPaired.held.deep
  | offset =>
    refine .returns rfl rfl ⟨?_, hPaired⟩
    rw [hPaired.position_eq]
    exact P.same_offset hPaired.held.least_le hPaired.agree
  | attempt m => exact hSame (by simp) (hEvaluate m)
  | parse m => exact hSame (by simp) (follows_keep (hEvaluate m))

section Scripts

variable {made : Nat} {cursors : Vector Cursor made} {first second : Reading α}

theorem runs_cursorAt (handle : Handle made) (hPaired : P.Paired readers)
    (hHeld : Script.Each P.Held cursors) :
    Coincide (fun _ => False) (Script.cursorAt cursors handle)
      (Script.cursorAt (cursors.map (·.below P.extra)) handle) readers
      (fun cursor other after => other = cursor.below P.extra ∧ P.Held cursor ∧ after = readers)
      (fun _ after => P.Paired after) := by
  cases handle with
  | given => exact .returns rfl rfl ⟨hPaired.cursor_eq, hPaired.held, rfl⟩
  | own index => exact .returns rfl rfl ⟨by simp, hHeld index, rfl⟩

/-- A fault that is handed over leaves the readers as a result does. -/
theorem runs_caught {related : Except Fault α → Except Fault α → Prop}
    (hRuns : Coincide (fun _ => False) first second readers
      (fun value other after => related (.ok value) (.ok other) ∧ P.Paired after)
      (fun _ after => P.Paired after))
    (hFault : ∀ fault, related (.error fault) (.error fault)) :
    Coincide (fun _ => False) (Reading.caught first) (Reading.caught second) readers
      (fun outcome other after => related outcome other ∧ P.Paired after)
      (fun _ after => P.Paired after) := by
  cases hRuns with
  | returns hFirst hSecond h =>
    refine .returns ?_ ?_ h
    · simp only [Reading.caught, hFirst]
    · simp only [Reading.caught, hSecond]
  | @halts problem left right hFirst hSecond h =>
    cases problem with
    | fault fault =>
      refine .returns ?_ ?_ ⟨hFault fault, h⟩
      · simp only [Reading.caught, hFirst]
      · simp only [Reading.caught, hSecond]
    | misplaced =>
      have hFirst : Reading.caught first readers.1 = .error .misplaced left := by
        simp only [Reading.caught, hFirst]
      exact .halts hFirst (by simp only [Reading.caught, hSecond]) h
    | exhausted =>
      have hFirst : Reading.caught first readers.1 = .error .exhausted left := by
        simp only [Reading.caught, hFirst]
      exact .halts hFirst (by simp only [Reading.caught, hSecond]) h
  | excuses hFirst hExcused => exact hExcused.elim

/-- An action runs at other cursors, and these at hand are put back. -/
theorem runs_elsewhere {other : Cursor} {returned : α × Cursor → α × Cursor → Readers → Prop}
    {halted : Halt → Readers → Prop}
    (hRuns : Coincide (fun _ => False) first second
      ({ readers.1 with cursor }, { readers.2 with cursor := other })
      (fun value value' after =>
        returned (value, after.1.cursor) (value', after.2.cursor) (readers.restore after))
      (fun halt after => halted halt (readers.restore after))) :
    Coincide (fun _ => False) (Reading.elsewhere cursor first) (Reading.elsewhere other second)
      readers returned halted := by
  cases hRuns with
  | returns hFirst hSecond h =>
    dsimp only at hFirst hSecond
    refine .returns ?_ ?_ h
    · simp only [Reading.elsewhere, hFirst]
    · simp only [Reading.elsewhere, hSecond]
  | halts hFirst hSecond h =>
    dsimp only at hFirst hSecond
    refine .halts ?_ ?_ h
    · simp only [Reading.elsewhere, hFirst]
    · simp only [Reading.elsewhere, hSecond]
  | excuses hFirst hExcused => exact hExcused.elim

/-- What goes alike wherever the readers stand goes alike at the cursors of a handle. -/
theorem runs_enact (related : Except Fault α → Except Fault α → Prop)
    (hActions : ∀ readers, P.Paired readers → Coincide (fun _ => False) first second readers
      (fun value other after => related (.ok value) (.ok other) ∧ P.Paired after)
      (fun _ after => P.Paired after))
    (hFault : ∀ fault, related (.error fault) (.error fault))
    (handle : Handle made) (hPaired : P.Paired readers) (hHeld : Script.Each P.Held cursors) :
    Coincide (fun _ => False) (Script.enact cursors handle first)
      (Script.enact (cursors.map (·.below P.extra)) handle second) readers
      (fun result other after => related result.1 other.1 ∧
        other.2 = result.2.map (·.below P.extra) ∧ Script.Each P.Held result.2 ∧ P.Paired after)
      (fun _ after => P.Paired after) := by
  cases handle with
  | given =>
    apply (runs_caught (hActions readers hPaired) hFault).bind
    intro outcome other after hAfter
    exact .pure ⟨hAfter.1, rfl, hHeld, hAfter.2⟩
  | own index =>
    have hCursor : (cursors.map (·.below P.extra))[index] = cursors[index].below P.extra := by simp
    have hElsewhere : Coincide (fun _ => False)
        (Reading.elsewhere cursors[index] (Reading.caught first))
        (Reading.elsewhere (cursors.map (·.below P.extra))[index] (Reading.caught second)) readers
        (fun result other after => related result.1 other.1 ∧
          other.2 = result.2.below P.extra ∧ P.Held result.2 ∧ P.Paired after)
        (fun _ after => P.Paired after) := by
      rw [hCursor]
      apply runs_elsewhere
      apply (runs_caught (hActions _ (hPaired.withCursor (hHeld index))) hFault).mono
      · intro outcome other after hAfter
        obtain ⟨hOutcome, hAfter⟩ := hAfter
        exact ⟨hOutcome, hAfter.cursor_eq, hAfter.held, hPaired.restore hAfter⟩
      · exact fun _ _ hAfter => hPaired.restore hAfter
    apply hElsewhere.bind
    intro result other after hAfter
    obtain ⟨hOutcome, hCursor, hResult, hAfter⟩ := hAfter
    refine .pure ⟨hOutcome, ?_, hHeld.set hResult index, hAfter⟩
    rw [hCursor, Vector.map_set]

/-- A script that respects which answers are the same comes to the same on both sides, if the
matchers that it runs do. -/
theorem runs_run {evaluate : Matcher → Attempt} (hEvaluate : ∀ m, P.Follows (evaluate m))
    (script : Script made) (hScript : script.Respects P.Same) (hPaired : P.Paired readers)
    (hHeld : Script.Each P.Held cursors) :
    Coincide (fun _ => False) (script.run evaluate cursors)
      (script.run evaluate (cursors.map (·.below P.extra))) readers
      (fun value other after => value = other ∧ P.Paired after)
      (fun _ after => P.Paired after) := by
  induction script generalizing readers with
  | finish result => exact .pure ⟨rfl, hPaired⟩
  | fail fault => exact .throw hPaired
  | fork source next ih =>
    apply (runs_cursorAt source hPaired hHeld).bind
    intro cursor other after hCursor
    obtain ⟨rfl, hCursor, rfl⟩ := hCursor
    rw [Cursor.fork_below, ← Vector.map_push]
    exact ih hScript hPaired (hHeld.push hCursor.fork)
  | copy source next ih =>
    apply (runs_cursorAt source hPaired hHeld).bind
    intro cursor other after hCursor
    obtain ⟨rfl, hCursor, rfl⟩ := hCursor
    rw [← Vector.map_push]
    exact ih hScript hPaired (hHeld.push hCursor)
  | commit child into next ih =>
    have hChild : (cursors.map (·.below P.extra))[child] = cursors[child].below P.extra := by simp
    have hCommit (readers : Readers) (hPaired : P.Paired readers) :
        Coincide (fun _ => False) (Reading.commit cursors[child])
          (Reading.commit (cursors.map (·.below P.extra))[child]) readers
          (fun value other after =>
            (Except.ok value : Except Fault Unit) = .ok other ∧ P.Paired after)
          (fun _ after => P.Paired after) :=
      (runs_commit hPaired hChild (hHeld child).least_le).imp fun _ _ _ hAfter => ⟨rfl, hAfter.1⟩
    apply (runs_enact Eq hCommit (fun _ => rfl) into hPaired hHeld).bind
    intro result other after hAfter
    obtain ⟨outcome, cursors⟩ := result
    obtain ⟨outcome', cursors'⟩ := other
    obtain ⟨hOutcome, hCursors, hHeld, hAfter⟩ := hAfter
    dsimp only at hOutcome hCursors hHeld ⊢
    rw [← hOutcome, hCursors]
    exact ih outcome (hScript outcome) hAfter hHeld
  | ask cursor request next ih =>
    have hAction (readers : Readers) (hPaired : P.Paired readers) :
        Coincide (fun _ => False) (request.action evaluate) (request.action evaluate) readers
          (fun answer other after => next (.ok other) = next (.ok answer) ∧ P.Paired after)
          (fun _ after => P.Paired after) :=
      (runs_action hEvaluate request hPaired).imp fun answer other _ hAfter =>
        ⟨hScript.1 answer other hAfter.1, hAfter.2⟩
    apply (runs_enact (fun outcome other => next other = next outcome) hAction (fun _ => rfl) cursor
      hPaired hHeld).bind
    intro result other after hAfter
    obtain ⟨outcome, cursors⟩ := result
    obtain ⟨outcome', cursors'⟩ := other
    obtain ⟨hNext, hCursors, hHeld, hAfter⟩ := hAfter
    dsimp only at hNext hCursors hHeld ⊢
    rw [hNext, hCursors]
    exact ih outcome (hScript.2 outcome) hAfter hHeld

/-- Whatever a name stands for, it comes to the same on both sides. -/
theorem follows_call {library : Library} (hLibrary : library.Respects P.Same) (depth : Nat)
    (name : String) : P.Follows (library.call depth name) := by
  induction depth generalizing name with
  | zero => exact fun readers hPaired => .throw hPaired
  | succ depth ih =>
    rw [Library.call]
    split
    · exact follows_attempt ih _
    · next script hRule hScript =>
      intro readers hPaired
      have hNone : Script.Each P.Held Script.noCursors := Script.each_noCursors
      have hRun := runs_run (follows_attempt ih) script (hLibrary name script hScript) hPaired hNone
      rwa [Script.noCursors, Vector.map_empty] at hRun
    · exact fun readers hPaired => .pure ⟨rfl, hPaired⟩

end Scripts

end Pairing

end StreamMatch
