import StreamMatch.Proofs.Coupling
import StreamMatch.Proofs.Retrying
import StreamMatch.Proofs.Safekeeping

/-!
Two readers at the same place of a stream, over windows of their own. If the windows have enough in
common that a look at a place of the one finds what a look at that place of the other does
(`Alignment`), all that matchers do goes the same way at both readers (`Alignment.coupling`): they
read by such looks alone, and it makes no difference how far each of the windows has been discarded.
-/

namespace StreamMatch

/-- What two windows have in common. -/
structure Prospect where
  Agree : Window × Window → Prop
  /-- Cursors are at such places of the stream only. -/
  Spans : Nat → Prop
  /-- Places before this one may be looked at. -/
  far : ℕ∞
  /-- A halt may leave the windows so. -/
  Stops : Halt → Window × Window → Prop
  /-- At this place, so many rounds of a repetition may be allowed on either side. -/
  Allows : Nat → Nat → Nat → Prop
  /-- The same reports are made. -/
  Traces : Prop

namespace Prospect

variable (P : Prospect)

/-- The place lies in both windows, or past their ends. -/
structure At (place : Nat) (windows : Window × Window) : Prop where
  agree : P.Agree windows
  spans : P.Spans place
  start_le : windows.1.start ≤ place
  start_le' : windows.2.start ≤ place

/-- Windows later on, with nothing discarded in between. -/
structure Later (before after : Window × Window) : Prop where
  agree : P.Agree after
  start_eq : after.1.start = before.1.start
  start_eq' : after.2.start = before.2.start

variable {P} {place : Nat} {windows first second third : Window × Window}

theorem Later.at {next : Nat} (hAt : P.At place first) (hLater : P.Later first second)
    (hSpans : P.Spans next) (hNext : place ≤ next) : P.At next second where
  agree := hLater.agree
  spans := hSpans
  start_le := by
    rw [hLater.start_eq]
    exact Nat.le_trans hAt.start_le hNext
  start_le' := by
    rw [hLater.start_eq']
    exact Nat.le_trans hAt.start_le' hNext

theorem Later.trans (hFirst : P.Later first second) (hSecond : P.Later second third) :
    P.Later first third :=
  ⟨hSecond.agree, hSecond.start_eq.trans hFirst.start_eq,
    hSecond.start_eq'.trans hFirst.start_eq'⟩

end Prospect

/-- Enough in common for looks to find the same. -/
structure Alignment extends Prospect where
  policy_eq {windows : Window × Window} : Agree windows →
    windows.1.config.policy = windows.2.config.policy
  peek {place count : Nat} {windows : Window × Window} : toProspect.At place windows →
    (place + count : Nat) ≤ far →
    Coincide (fun _ => False) (Window.peek (place - windows.1.start) count)
      (Window.peek (place - windows.2.start) count) windows
      (fun bytes other after => bytes = other ∧ Spans (place + bytes.length) ∧
        toProspect.Later windows after)
      (fun fault after => Stops (.fault fault) after)
  discard {windows : Window × Window} (count other : Nat) : Agree windows →
    Agree (windows.1.discard count, windows.2.discard other)
  invalidUtf8 {windows : Window × Window} (place : Nat) : Agree windows →
    Stops (.fault (.invalidUtf8 place)) windows
  exhausted {windows : Window × Window} : Agree windows → far = ⊤ → Stops .exhausted windows
  allows {place : Nat} {windows : Window × Window} : toProspect.At place windows →
    Allows place (windows.1.start + windows.1.length + windows.1.source.size - place + 1)
      (windows.2.start + windows.2.length + windows.2.source.size - place + 1)
  allows_zero {place allowed other : Nat} : Spans place → Allows place allowed other →
    (allowed = 0 ↔ other = 0)
  spent {place : Nat} {windows : Window × Window} : toProspect.At place windows →
    Allows place 0 0 → Stops .exhausted windows
  allows_after {place next allowed other : Nat} : Allows place (allowed + 1) (other + 1) →
    place < next → Allows next allowed other

/-- What a run at a reader leaves as it was, and how far it takes the cursor. -/
structure Reader.Moves (reach : ℕ∞) (before after : Reader) : Prop where
  depth_eq : after.cursor.depth = before.cursor.depth
  traced_eq : after.cursor.traced = before.cursor.traced
  position_le : before.cursor.position ≤ after.cursor.position
  le_position : after.cursor.position ≤ before.cursor.position + reach
  start_eq : before.cursor.depth ≠ 0 → after.window.start = before.window.start

namespace Reader.Moves

variable {reach more : ℕ∞} {first second third : Reader}

theorem refl (reader : Reader) : reader.Moves 0 reader :=
  ⟨rfl, rfl, Nat.le_refl _, le_self_add, fun _ => rfl⟩

theorem trans (hFirst : first.Moves reach second) (hSecond : second.Moves more third) :
    first.Moves (reach + more) third where
  depth_eq := hSecond.depth_eq.trans hFirst.depth_eq
  traced_eq := hSecond.traced_eq.trans hFirst.traced_eq
  position_le := Nat.le_trans hFirst.position_le hSecond.position_le
  le_position := by
    rw [← add_assoc]
    exact hSecond.le_position.trans (add_le_add_left hFirst.le_position more)
  start_eq hDeep :=
    (hSecond.start_eq (hFirst.depth_eq ▸ hDeep)).trans (hFirst.start_eq hDeep)

theorem mono (hMoves : first.Moves reach second) (hReach : reach ≤ more) :
    first.Moves more second :=
  { hMoves with le_position := hMoves.le_position.trans (add_le_add_right hReach _) }

/-- Nothing moves the cursor, or discards what it needs. -/
theorem of_start_eq {window : Window} (hStart : window.start = first.window.start)
    (reports : Array Report) : first.Moves 0 { window, cursor := first.cursor, reports } :=
  ⟨rfl, rfl, Nat.le_refl _, le_self_add, fun _ => hStart⟩

end Reader.Moves

namespace Reading

/-- A commit to the parent of a fork that is not before the window discards what lies before the
fork at a root, and nothing below. -/
theorem leads_commit_of_start_le {fork : Cursor} {reader : Reader}
    (hDepth : fork.depth = reader.cursor.depth + 1) (hStart : reader.window.start ≤ fork.position) :
    Leads (commit fork) reader
      (fun _ after => ∃ count, reader.window.start + count ≤ fork.position ∧
        (reader.cursor.depth ≠ 0 → count = 0) ∧
        after = { reader with
          window := reader.window.discard count
          cursor := { reader.cursor with position := fork.position } })
      (fun _ _ => False) := by
  apply (leads_commit fork reader).mono
  · rintro - _ ⟨-, ⟨hRoot, -, rfl⟩ | ⟨hDeep, rfl⟩⟩
    · exact ⟨_, (Nat.add_sub_cancel' hStart).le, fun hDeep => absurd hRoot hDeep, rfl⟩
    · exact ⟨0, hStart, fun _ => rfl, by rw [Window.discard_zero]⟩
  · rintro halt _ ⟨-, ⟨hMisplaced, -⟩ | ⟨-, -, hStale, -⟩⟩
    · exact hMisplaced hDepth
    · omega

end Reading

/-- At places that lie in the windows, an action is told how far into its window that is. -/
theorem Window.runs_relative_bind {α : Type} {windows : Window × Window} {place other : Nat}
    {action : Nat → Windowed α} {returned : α → α → Window × Window → Prop}
    {halted : Fault → Window × Window → Prop} (hFirst : windows.1.start ≤ place)
    (hSecond : windows.2.start ≤ other)
    (hRuns : Coincide (fun _ => False) (action (place - windows.1.start))
      (action (other - windows.2.start)) windows returned halted) :
    Coincide (fun _ => False) (do action (← relative place)) (do action (← relative other)) windows
      returned halted := by
  apply hRuns.congr
  · simp only [bind, EStateM.bind, relative_eq hFirst]
  · simp only [bind, EStateM.bind, relative_eq hSecond]

namespace Alignment

variable (A : Alignment)

section Windows

variable {A} {place : Nat} {windows : Window × Window}

theorem tolerate (hAt : A.At place windows) :
    Coincide (fun _ => False) (Window.tolerate (place - windows.1.start))
      (Window.tolerate (place - windows.2.start)) windows (fun _ _ after => after = windows)
      (fun fault after => A.Stops (.fault fault) after) := by
  have hFirst := Window.tolerate_eq (place - windows.1.start) windows.1
  have hSecond := Window.tolerate_eq (place - windows.2.start) windows.2
  rw [Nat.add_sub_cancel' hAt.start_le] at hFirst
  rw [Nat.add_sub_cancel' hAt.start_le', ← A.policy_eq hAt.agree] at hSecond
  cases hPolicy : windows.1.config.policy with
  | lenient =>
    rw [hPolicy] at hFirst hSecond
    exact .returns hFirst hSecond rfl
  | strict =>
    rw [hPolicy] at hFirst hSecond
    exact .halts hFirst hSecond (A.invalidUtf8 place hAt.agree)

/-- No more than four bytes are looked at. -/
theorem segment (hAt : A.At place windows) (hFar : (place + 4 : Nat) ≤ A.far) :
    Coincide (fun _ => False) (Window.segment (place - windows.1.start))
      (Window.segment (place - windows.2.start)) windows
      (fun found other after => found = other ∧ A.At place after ∧ A.Later windows after)
      (fun fault after => A.Stops (.fault fault) after) := by
  have hNear {count : Nat} (hCount : count ≤ 4) : ((place + count : Nat) : ℕ∞) ≤ A.far :=
    (Nat.cast_le.2 (Nat.add_le_add_left hCount place)).trans hFar
  have hLead := A.peek hAt (hNear (by decide : 1 ≤ 4))
  apply (hLead.and_leads (Window.leads_peek_length _ 1 windows.1)).bind
  rintro bytes _ middle ⟨hLength, rfl, hSpans, hLater⟩
  cases bytes with
  | nil => exact .pure ⟨rfl, hLater.at hAt hAt.spans le_rfl, hLater⟩
  | cons lead rest =>
    obtain rfl : rest = [] := by simpa using hLength
    have hNext : A.At (place + 1) middle := hLater.at hAt hSpans (Nat.le_succ _)
    have hWidth := Utf8.leadWidth_le lead
    have hOffset : place - windows.1.start + 1 = place + 1 - middle.1.start := by
      rw [hLater.start_eq, Nat.sub_add_comm hAt.start_le]
    have hOffset' : place - windows.2.start + 1 = place + 1 - middle.2.start := by
      rw [hLater.start_eq', Nat.sub_add_comm hAt.start_le']
    have hTail : ((place + 1 + (Utf8.leadWidth lead - 1) : Nat) : ℕ∞) ≤ A.far := by
      rw [Nat.add_assoc]
      exact hNear (by omega)
    dsimp only
    rw [hOffset, hOffset']
    apply (A.peek hNext hTail).bind
    rintro tail _ after ⟨rfl, -, hAfter⟩
    have hBoth := hLater.trans hAfter
    exact .pure ⟨rfl, hBoth.at hAt hAt.spans le_rfl, hBoth⟩

theorem decode (hAt : A.At place windows) (hFar : (place + 4 : Nat) ≤ A.far) :
    Coincide (fun _ => False) (Window.decode (place - windows.1.start) 1)
      (Window.decode (place - windows.2.start) 1) windows
      (fun decoded other after => decoded = other ∧ A.Later windows after)
      (fun fault after => A.Stops (.fault fault) after) := by
  rw [Window.decode, Window.decode]
  apply (segment hAt hFar).bind
  rintro found _ middle ⟨rfl, hHere, hLater⟩
  have hTolerate := tolerate hHere
  rw [hLater.start_eq, hLater.start_eq'] at hTolerate
  cases found with
  | none => exact .pure ⟨rfl, hLater⟩
  | some segment =>
    cases segment with
    | char c width => exact .pure ⟨rfl, hLater⟩
    | malformed =>
      apply hTolerate.bind
      rintro - - _ rfl
      exact .pure ⟨rfl, hLater⟩
    | truncated =>
      apply hTolerate.bind
      rintro - - _ rfl
      exact .pure ⟨rfl, hLater⟩

end Windows

/-- Two readers at the same place, which lies in both windows or past their ends. -/
structure Sound (readers : Readers) : Prop where
  lies : A.At readers.1.cursor.position readers.windows
  position_eq : readers.2.cursor.position = readers.1.cursor.position
  traces : A.Traces → readers.2.cursor.traced = readers.1.cursor.traced ∧
    readers.2.reports = readers.1.reports

/-- Two readers that a halt leaves. -/
structure Halted (halt : Halt) (readers : Readers) : Prop where
  stops : A.Stops halt readers.windows
  spans : A.Spans readers.1.cursor.position
  position_eq : readers.2.cursor.position = readers.1.cursor.position
  traces : A.Traces → readers.2.reports = readers.1.reports

/-- Forks at the same place, so far ahead of the cursors at most. -/
structure Ahead (reach : ℕ∞) (readers : Readers) (fork other : Cursor) : Prop where
  depth_eq : fork.depth = readers.1.cursor.depth + 1
  depth_eq' : other.depth = readers.2.cursor.depth + 1
  position_eq : other.position = fork.position
  spans : A.Spans fork.position
  position_le : readers.1.cursor.position ≤ fork.position
  le_position : fork.position ≤ readers.1.cursor.position + reach

def comparison : Comparison where
  Sound := A.Sound
  Room readers reach := readers.1.cursor.position + reach ≤ A.far
  Leaves reach before after := A.Sound after ∧ before.1.Moves reach after.1 ∧
    before.2.Moves reach after.2
  Stops _ := A.Halted
  Committable := A.Ahead
  Allows readers := A.Allows readers.1.cursor.position
  Excused _ := False

section

variable {A} {readers : Readers}

theorem Sound.leaves (hSound : A.Sound readers) : A.comparison.Leaves 0 readers readers :=
  ⟨hSound, .refl _, .refl _⟩

theorem Sound.halted (hSound : A.Sound readers) {halt : Halt} (hStops : A.Stops halt readers.windows) :
    A.Halted halt readers :=
  ⟨hStops, hSound.lies.spans, hSound.position_eq, fun hTraces => (hSound.traces hTraces).2⟩

/-- The windows have been looked into, and the cursors are where they were. -/
theorem Sound.leaves_onWindows (hSound : A.Sound readers) {windows : Window × Window}
    (hLater : A.Later readers.windows windows) :
    A.comparison.Leaves 0 readers (readers.onWindows windows) :=
  ⟨⟨hLater.at hSound.lies hSound.lies.spans le_rfl, hSound.position_eq, hSound.traces⟩,
    .of_start_eq hLater.start_eq _, .of_start_eq hLater.start_eq' _⟩

theorem Sound.halted_onWindows (hSound : A.Sound readers) {windows : Window × Window} {halt : Halt}
    (hStops : A.Stops halt windows) : A.Halted halt (readers.onWindows windows) :=
  ⟨hStops, hSound.lies.spans, hSound.position_eq, fun hTraces => (hSound.traces hTraces).2⟩

/-- A look at the place of the cursors, which is as far into each window as it is from the start of
it. -/
theorem Sound.runs_look (hSound : A.Sound readers) {α : Type} {action : Nat → Windowed α}
    {found : α → α → Window × Window → Prop} {returned : α → α → Readers → Prop}
    (hRuns : Coincide (fun _ => False)
      (action (readers.1.cursor.position - readers.1.window.start))
      (action (readers.1.cursor.position - readers.2.window.start)) readers.windows found
      (fun fault after => A.Stops (.fault fault) after))
    (hReturned : ∀ value other windows, found value other windows →
      returned value other (readers.onWindows windows)) :
    Coincide (fun _ => False)
      (do let place ← Reading.position; Reading.onWindow (do action (← Window.relative place)))
      (do let place ← Reading.position; Reading.onWindow (do action (← Window.relative place)))
      readers returned A.Halted := by
  have hStart := hSound.lies.start_le'
  rw [← hSound.position_eq] at hStart
  have hBoth : Coincide (fun _ => False)
      (do action (← Window.relative readers.1.cursor.position))
      (do action (← Window.relative readers.2.cursor.position)) readers.windows found
      (fun fault after => A.Stops (.fault fault) after) := by
    apply Window.runs_relative_bind hSound.lies.start_le hStart
    rw [hSound.position_eq]
    exact hRuns
  have hWindows : Coincide (fun _ => False)
      (Reading.onWindow (do action (← Window.relative readers.1.cursor.position)))
      (Reading.onWindow (do action (← Window.relative readers.2.cursor.position))) readers returned
      A.Halted :=
    .onWindow (hBoth.mono hReturned fun _ _ => hSound.halted_onWindows)
  exact hWindows.congr rfl rfl

theorem Sound.runs_peek (hSound : A.Sound readers) {count : Nat}
    (hRoom : A.comparison.Room readers count) :
    Coincide (fun _ => False) (Reading.peek count) (Reading.peek count) readers
      (fun bytes other after => bytes = other ∧
        A.Spans (readers.1.cursor.position + bytes.length) ∧ ∃ windows,
          after = readers.onWindows windows ∧ A.Later readers.windows windows)
      A.Halted := by
  have hFar : ((readers.1.cursor.position + count : Nat) : ℕ∞) ≤ A.far := by
    rw [Nat.cast_add]
    exact hRoom
  apply hSound.runs_look (A.peek hSound.lies hFar)
  rintro bytes other windows ⟨hSame, hSpans, hLater⟩
  exact ⟨hSame, hSpans, windows, rfl, hLater⟩

theorem Sound.runs_read (hSound : A.Sound readers) {count : Nat}
    (hRoom : A.comparison.Room readers count) :
    Coincide (fun _ => False) (Reading.read count) (Reading.read count) readers
      (fun bytes other after => bytes = other ∧ A.comparison.Leaves count readers after)
      A.Halted := by
  apply ((hSound.runs_peek hRoom).and_leads (Reading.leads_peek_length count readers.1)).bind
  rintro bytes _ _ ⟨hLength, rfl, hSpans, windows, rfl, hLater⟩
  have hReach : ((readers.1.cursor.position + bytes.length : Nat) : ℕ∞) ≤
      readers.1.cursor.position + count := by
    norm_cast
    omega
  have hReach' : ((readers.2.cursor.position + bytes.length : Nat) : ℕ∞) ≤
      readers.2.cursor.position + count := by
    norm_cast
    omega
  refine .returns rfl rfl ⟨rfl, ⟨?_, ?_, hSound.traces⟩, ?_, ?_⟩
  · exact hLater.at hSound.lies hSpans (Nat.le_add_right _ _)
  · exact congrArg (· + bytes.length) hSound.position_eq
  · exact ⟨rfl, rfl, Nat.le_add_right _ _, hReach, fun _ => hLater.start_eq⟩
  · exact ⟨rfl, rfl, Nat.le_add_right _ _, hReach', fun _ => hLater.start_eq'⟩

theorem Sound.runs_peekChar (hSound : A.Sound readers) (hRoom : A.comparison.Room readers 4) :
    Coincide (fun _ => False) (Reading.peekChars 1) (Reading.peekChars 1) readers
      (fun decoded other after => decoded = other ∧ A.comparison.Leaves 0 readers after) A.Halted := by
  have hFar : ((readers.1.cursor.position + 4 : Nat) : ℕ∞) ≤ A.far := by
    rw [Nat.cast_add]
    exact hRoom
  apply hSound.runs_look (decode hSound.lies hFar)
  rintro decoded other windows ⟨hSame, hLater⟩
  exact ⟨hSame, hSound.leaves_onWindows hLater⟩

/-- Reports are made of the same, and they change nothing else. -/
theorem Sound.awaits_reported (hSound : A.Sound readers) (report : Report) :
    A.comparison.Awaits readers (readers.reported report) := by
  refine ⟨⟨⟨hSound.lies, hSound.position_eq, ?_⟩, .of_start_eq rfl _, .of_start_eq rfl _⟩, ?_⟩
  · intro hTraces
    obtain ⟨hTraced, hReports⟩ := hSound.traces hTraces
    refine ⟨hTraced, ?_⟩
    simp only [Readers.reported, Reader.reported, hTraced, hReports]
  · exact fun _ _ _ hAhead =>
      ⟨hAhead.depth_eq, hAhead.depth_eq', hAhead.position_eq, hAhead.spans, hAhead.position_le,
        hAhead.le_position⟩

theorem Sound.fork (hSound : A.Sound readers) : A.Sound readers.fork :=
  ⟨hSound.lies, hSound.position_eq, hSound.traces⟩

/-- What runs on forks leave: the cursors are where they were, and the forks can be committed. -/
theorem Sound.restore (hSound : A.Sound readers) {reach : ℕ∞} {after : Readers}
    (hLeaves : A.comparison.Leaves reach readers.fork after) :
    A.comparison.Awaits readers (readers.restore after) ∧
      A.Ahead reach (readers.restore after) after.1.cursor after.2.cursor := by
  obtain ⟨hAfter, hFirst, hSecond⟩ := hLeaves
  have hStart : after.1.window.start = readers.1.window.start :=
    hFirst.start_eq (Nat.succ_ne_zero _)
  have hStart' : after.2.window.start = readers.2.window.start :=
    hSecond.start_eq (Nat.succ_ne_zero _)
  have hLater : A.Later readers.windows after.windows := ⟨hAfter.lies.agree, hStart, hStart'⟩
  refine ⟨⟨⟨⟨hLater.at hSound.lies hSound.lies.spans le_rfl, hSound.position_eq, ?_⟩,
    .of_start_eq hStart _, .of_start_eq hStart' _⟩, ?_⟩, ?_⟩
  · exact fun hTraces => ⟨(hSound.traces hTraces).1, (hAfter.traces hTraces).2⟩
  · exact fun _ _ _ hAhead =>
      ⟨hAhead.depth_eq, hAhead.depth_eq', hAhead.position_eq, hAhead.spans, hAhead.position_le,
        hAhead.le_position⟩
  · exact ⟨hFirst.depth_eq, hSecond.depth_eq, hAfter.position_eq, hAfter.lies.spans,
      hFirst.position_le, hFirst.le_position⟩

theorem Sound.halted_restore (hSound : A.Sound readers) {after : Readers} {halt : Halt}
    (hHalted : A.Halted halt after) : A.Halted halt (readers.restore after) :=
  ⟨hHalted.stops, hSound.lies.spans, hSound.position_eq, hHalted.traces⟩

/-- Forks at the same place are committed on both sides. -/
theorem Sound.runs_commit (hSound : A.Sound readers) {reach : ℕ∞} {fork other : Cursor}
    (hAhead : A.Ahead reach readers fork other) :
    Coincide (fun _ => False) (Reading.commit fork) (Reading.commit other) readers
      (fun _ _ after => A.comparison.Leaves reach readers after ∧
        after.1.cursor.position = fork.position)
      A.Halted := by
  have hStart := Nat.le_trans hSound.lies.start_le hAhead.position_le
  have hStart' : readers.2.window.start ≤ other.position := by
    rw [hAhead.position_eq]
    exact Nat.le_trans hSound.lies.start_le' hAhead.position_le
  apply Coincide.of_leads (Reading.leads_commit_of_start_le hAhead.depth_eq hStart)
    (Reading.leads_commit_of_start_le hAhead.depth_eq' hStart')
  rintro - - _ _ ⟨count, hCount, hDeep, rfl⟩ ⟨count', hCount', hDeep', rfl⟩
  have hDiscard := readers.1.window.start_discard count
  have hDiscard' := readers.2.window.start_discard count'
  have hPosition := hAhead.position_eq
  have hLies : A.At fork.position
      (readers.1.window.discard count, readers.2.window.discard count') :=
    ⟨A.discard count count' hSound.lies.agree, hAhead.spans, by dsimp only; omega,
      by dsimp only; omega⟩
  have hPlaces := hAhead.position_le
  have hPlaces' : readers.2.cursor.position ≤ other.position := by
    rw [hPosition, hSound.position_eq]
    exact hAhead.position_le
  have hReach' : (other.position : ℕ∞) ≤ readers.2.cursor.position + reach := by
    rw [hPosition, hSound.position_eq]
    exact hAhead.le_position
  refine ⟨⟨⟨hLies, hPosition, hSound.traces⟩, ?_, ?_⟩, rfl⟩
  · refine ⟨rfl, rfl, hPlaces, hAhead.le_position, fun h => ?_⟩
    rw [hDeep h]
    simp
  · refine ⟨rfl, rfl, hPlaces', hReach', fun h => ?_⟩
    rw [hDeep' h]
    simp

theorem room_after {reach more : ℕ∞} {before after : Readers}
    (hLeaves : A.comparison.Leaves reach before after)
    (hRoom : A.comparison.Room before (reach + more)) : A.comparison.Room after more := by
  have hPlace := add_le_add_left hLeaves.2.1.le_position more
  rw [add_assoc] at hPlace
  exact hPlace.trans hRoom

end

/-- What windows have in common goes along with all that matchers are made of. -/
def coupling : Correspondence where
  toComparison := A.comparison
  sound hLeaves := hLeaves.1
  refl := Sound.leaves
  trans hFirst hSecond :=
    ⟨hSecond.1, hFirst.2.1.trans hSecond.2.1, hFirst.2.2.trans hSecond.2.2⟩
  leaves_mono hLeaves hReach := ⟨hLeaves.1, hLeaves.2.1.mono hReach, hLeaves.2.2.mono hReach⟩
  stops _ hHalted := hHalted
  room_mono hRoom hReach := (add_le_add_right hReach _).trans hRoom
  room_after := room_after
  exhausted hSound hRoom := by
    have hFar : A.far = ⊤ := by
      rw [← top_le_iff, ← add_top]
      exact hRoom
    exact hSound.halted (A.exhausted hSound.lies.agree hFar)
  invalidUtf8 place hSound := hSound.halted (A.invalidUtf8 place hSound.lies.agree)
  position_eq hSound := hSound.position_eq.symm
  peek count readers hSound hRoom := by
    apply (hSound.runs_peek hRoom).imp
    rintro bytes other _ ⟨hSame, -, windows, rfl, hLater⟩
    exact ⟨hSame, hSound.leaves_onWindows hLater⟩
  peekChar := Sound.runs_peekChar
  read count readers hSound hRoom := hSound.runs_read hRoom
  reported report _ hSound := hSound.awaits_reported report
  fork := Sound.fork
  room_fork hRoom := hRoom
  restore hSound hLeaves := hSound.restore hLeaves
  stops_restore hSound hHalted := hSound.halted_restore hHalted
  stops_reported report readers after halt hSound hHalted := by
    have hBack := hSound.halted_restore hHalted
    refine ⟨hBack.stops, hBack.spans, hBack.position_eq, fun hTraces => ?_⟩
    have hReports := hBack.traces hTraces
    have hTraced : (readers.restore after).2.cursor.traced =
        (readers.restore after).1.cursor.traced := (hSound.traces hTraces).1
    simp only [Readers.reported, Reader.reported, hTraced, hReports]
  committable_position_eq hAhead := hAhead.position_eq.symm
  commit hAhead hSound := hSound.runs_commit hAhead
  allows hSound := by
    unfold Reader.remaining
    rw [hSound.position_eq]
    exact A.allows hSound.lies
  allows_fork hAllows := hAllows
  allows_zero hSound hAllows := A.allows_zero hSound.lies.spans hAllows
  spent hSound hAllows := hSound.halted (A.spent hSound.lies hAllows)
  allows_after hAllows hLeaves hMoved :=
    A.allows_after hAllows (Nat.lt_of_le_of_ne hLeaves.2.1.position_le (Ne.symm hMoved))

end Alignment

/-- What the first run comes to, the second does. -/
theorem Coincide.comes {α : Type} {first second : Reading α} {readers : Readers}
    {returned : α → Readers → Prop} {halted : Halt → Readers → Prop}
    (hRuns : Coincide (fun _ => False) first second readers
      (fun value other after => value = other ∧ returned value after) halted)
    {outcome : Except Halt α} {last : Reader} (hLast : Reading.Comes first readers.1 outcome last) :
    ∃ after, Reading.Comes second readers.2 outcome after ∧
      match outcome with
      | .ok value => returned value (last, after)
      | .error halt => halted halt (last, after) := by
  cases hRuns with
  | @returns value other left right hFirst hSecond hEnd =>
    obtain ⟨rfl, hEnd⟩ := hEnd
    cases outcome with
    | ok found =>
      obtain ⟨rfl, rfl⟩ := EStateM.Result.ok.inj (hLast.symm.trans hFirst)
      exact ⟨right, hSecond, hEnd⟩
    | error halt => cases hLast.symm.trans hFirst
  | @halts problem left right hFirst hSecond hEnd =>
    cases outcome with
    | ok found => cases hLast.symm.trans hFirst
    | error halt =>
      obtain ⟨rfl, rfl⟩ := EStateM.Result.error.inj (hLast.symm.trans hFirst)
      exact ⟨right, hSecond, hEnd⟩
  | excuses hFirst hExcused => exact hExcused.elim

namespace Attempt

open Reading

/-- What an attempt comes to on a fork is what comes of it if only a match is kept. -/
theorem comes_keep {attempt : Attempt} {reader after : Reader} {outcome : Except Halt (Option Match)}
    (hAttempt : Steady attempt)
    (hRun : Comes attempt { reader with cursor := reader.cursor.fork } outcome after)
    (hRetains : ∀ m, outcome = .ok (some m) → after.Retains) :
    ∃ last, Comes attempt.keep reader outcome last ∧ last.reports = after.reports ∧
      last.window.source = after.window.source ∧
      ∀ m, outcome = .ok (some m) → last.cursor.position = after.cursor.position := by
  cases outcome with
  | error halt =>
    refine ⟨{ after with cursor := reader.cursor }, ?_, rfl, rfl, by simp⟩
    simp only [Comes] at hRun
    simp [Comes, keep, onFork, bind, EStateM.bind, hRun]
  | ok found =>
    simp only [Comes] at hRun
    cases found with
    | none =>
      refine ⟨{ after with cursor := reader.cursor }, ?_, rfl, rfl, by simp⟩
      simp [Comes, keep, onFork, bind, EStateM.bind, hRun]
      rfl
    | some m =>
      have hCommit : Leads (commit after.cursor) { after with cursor := reader.cursor } _ _ :=
        leads_commit_of_start_le ((hAttempt _).of_ok hRun).depth_eq (hRetains m rfl)
      cases hEnd : commit after.cursor { after with cursor := reader.cursor } with
      | error halt last => exact (hCommit.of_error hEnd).elim
      | ok _ last =>
        obtain ⟨count, -, -, hLast⟩ := hCommit.of_ok hEnd
        refine ⟨last, ?_, ?_, ?_, fun _ _ => ?_⟩
        · simp [Comes, keep, onFork, bind, EStateM.bind, hRun, hEnd]
          rfl
        · rw [hLast]
        · rw [hLast]
          exact (after.window.rest_discard count).2.1
        · rw [hLast]

end Attempt

end StreamMatch
