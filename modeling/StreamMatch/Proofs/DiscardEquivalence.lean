import Mathlib
import StreamMatch.Proofs.Alignment
import StreamMatch.Proofs.Events

/-!
Two cursors at one place of a stream that have got there in different ways: one may be a root, before
which everything has been discarded, the other a fork, before which everything is still there. As
long as their windows have the same source before them (`Window.Twins`), each read of the one is a
read of the other, and matchers cannot tell them apart (`Grammar.comes_alike`).
-/

namespace StreamMatch

namespace Window

/-- The window holds what was delivered, though it is not known what was discarded of it. -/
theorem exists_holds (window : Window) : ∃ delivered, window.Holds delivered := by
  refine ⟨List.replicate window.start 0 ++ window.retained, ?_, ?_⟩
  · simp
  · rw [List.drop_left' List.length_replicate]

/-- Windows that read the same source in the same way and have got equally far with it. How much of
what was delivered each of them has discarded is its own affair. -/
structure Twins (windows : Window × Window) : Prop where
  config_eq : windows.2.config = windows.1.config
  source_eq : windows.2.source = windows.1.source
  ended_eq : windows.2.ended = windows.1.ended
  holds : ∃ delivered, windows.1.Holds delivered ∧ windows.2.Holds delivered

namespace Twins

variable {windows : Window × Window} {first second : Window} {want want' : Nat}

/-- Both have retained bytes up to the same place. -/
theorem end_eq (hTwins : Twins (first, second)) :
    second.start + second.length = first.start + first.length := by
  obtain ⟨-, -, -, delivered, hFirst, hSecond⟩ := hTwins
  exact hSecond.start_add_length.trans hFirst.start_add_length.symm

theorem receive (hTwins : Twins (first, second)) (delivery : Delivery) (rest : Source) :
    Twins (first.receive delivery rest, second.receive delivery rest) := by
  obtain ⟨hConfig, -, hEnded, delivered, hFirst, hSecond⟩ := hTwins
  refine ⟨?_, ?_, ?_, _, hFirst.receive delivery rest, hSecond.receive delivery rest⟩
  all_goals
    unfold Window.receive
    split <;> first | exact hConfig | exact hEnded | rfl

/-- Both have enough up to the same place in the stream, or neither has. -/
theorem filled_iff (hTwins : Twins (first, second))
    (hWant : first.start + want = second.start + want') :
    second.Filled want' ↔ first.Filled want := by
  obtain ⟨-, -, hEnded, delivered, hHolds, hHolds'⟩ := hTwins
  have hEnd := hHolds.start_add_length
  have hEnd' := hHolds'.start_add_length
  dsimp only at hEnded hEnd hEnd'
  unfold Filled
  rw [hEnded]
  exact or_congr_left (by omega)

/-- What one of them reads next, the other one does. -/
theorem fill_eq_refill (hTwins : Twins (first, second))
    (hWant : first.start + want = second.start + want') (hShort : ¬ first.Filled want)
    {delivery : Delivery} {rest : Source}
    (hRead : first.source.read first.config.chunkSize = (delivery, rest)) :
    fill want first = refill want delivery (first.receive delivery rest) ∧
      fill want' second = refill want' delivery (second.receive delivery rest) := by
  have hShort' : ¬ second.Filled want' := (hTwins.filled_iff hWant).not.2 hShort
  have hRead' : second.source.read second.config.chunkSize = (delivery, rest) := by
    rw [hTwins.config_eq, hTwins.source_eq]
    exact hRead
  exact ⟨Window.fill_eq_refill hShort hRead, Window.fill_eq_refill hShort' hRead'⟩

/-- Both are filled to the same place in the stream by the same reads. -/
theorem runs_fill (hTwins : Twins (first, second))
    (hWant : first.start + want = second.start + want') :
    Coincide (fun _ => False) (fill want) (fill want') (first, second)
      (fun _ _ after => Twins after ∧ after.1.start = first.start ∧ after.2.start = second.start)
      (fun _ after => Twins after) := by
  fun_induction fill want first generalizing second with
  | case1 first hShort rest hRead =>
    obtain ⟨hRun, hRun'⟩ := hTwins.fill_eq_refill hWant (not_filled_iff.2 hShort) hRead
    exact .returns hRun hRun' ⟨hTwins.receive _ rest, rfl, rfl⟩
  | case2 first hShort byte more rest hRead ih =>
    obtain ⟨hRun, hRun'⟩ := hTwins.fill_eq_refill hWant (not_filled_iff.2 hShort) hRead
    exact (ih (hTwins.receive (.bytes (byte :: more)) rest) hWant).congr hRun hRun'
  | case3 first hShort message rest hRead ih =>
    obtain ⟨hRun, hRun'⟩ := hTwins.fill_eq_refill hWant (not_filled_iff.2 hShort) hRead
    exact (ih (hTwins.receive (.failed .interrupted message) rest) hWant).congr hRun hRun'
  | case4 first hShort kind message rest hKind hRead =>
    obtain ⟨hRun, hRun'⟩ := hTwins.fill_eq_refill hWant (not_filled_iff.2 hShort) hRead
    rw [refill, if_neg hKind] at hRun hRun'
    exact .halts hRun hRun' (hTwins.receive _ rest)
  | case5 first hEnough =>
    have hFirst : first.Filled want := by
      rwa [← not_filled_iff, Decidable.not_not] at hEnough
    have hSecond := (hTwins.filled_iff hWant).2 hFirst
    exact .returns (fill_of_filled hFirst) (fill_of_filled hSecond) ⟨hTwins, rfl, rfl⟩

theorem discard (hTwins : Twins windows) (count other : Nat) :
    Twins (windows.1.discard count, windows.2.discard other) := by
  obtain ⟨hConfig, hSource, hEnded, delivered, hFirst, hSecond⟩ := hTwins
  obtain ⟨hConfig', hSource', hEnded'⟩ := windows.1.rest_discard count
  obtain ⟨hConfig'', hSource'', hEnded''⟩ := windows.2.rest_discard other
  refine ⟨?_, ?_, ?_, delivered, hFirst.discard count _, hSecond.discard other _⟩
  · exact hConfig''.trans (hConfig.trans hConfig'.symm)
  · exact hSource''.trans (hSource.trans hSource'.symm)
  · exact hEnded''.trans (hEnded.trans hEnded'.symm)

/-- What is looked at was delivered, to both alike. -/
theorem runs_peek (hTwins : Twins (first, second)) {place : Nat} (hFirst : first.start ≤ place)
    (hSecond : second.start ≤ place) (count : Nat) :
    Coincide (fun _ => False) (peek (place - first.start) count)
      (peek (place - second.start) count) (first, second)
      (fun bytes other after => bytes = other ∧ Twins after ∧
        after.1.start = first.start ∧ after.2.start = second.start)
      (fun _ after => Twins after) := by
  have hWant : first.start + (place - first.start + count) =
      second.start + (place - second.start + count) := by
    omega
  apply (hTwins.runs_fill hWant).bind
  rintro - - after ⟨hAfter, hStart, hStart'⟩
  obtain ⟨delivered, hHolds, hHolds'⟩ := hAfter.holds
  have hSlice := hHolds.slice_eq (hStart.trans_le hFirst) count
  have hSlice' := hHolds'.slice_eq (hStart'.trans_le hSecond) count
  rw [hStart] at hSlice
  rw [hStart'] at hSlice'
  exact .returns rfl rfl ⟨hSlice.trans hSlice'.symm, hAfter, hStart, hStart'⟩

end Twins

end Window

/-- Nothing that matchers do tells one twin from the other. -/
def twinning : Alignment where
  Agree := Window.Twins
  Spans _ := True
  far := ⊤
  Stops _ := Window.Twins
  Allows _ allowed other := allowed = other
  Traces := True
  policy_eq hTwins := by rw [hTwins.config_eq]
  peek hAt _ := by
    apply (hAt.agree.runs_peek hAt.start_le hAt.start_le' _).imp
    rintro bytes other after ⟨hSame, hAfter, hStart, hStart'⟩
    exact ⟨hSame, trivial, hAfter, hStart, hStart'⟩
  discard count other hTwins := hTwins.discard count other
  invalidUtf8 _ hTwins := hTwins
  exhausted hTwins _ := hTwins
  allows hAt := by
    obtain ⟨-, hSource, -, delivered, hFirst, hSecond⟩ := hAt.agree
    rw [hFirst.start_add_length, hSecond.start_add_length, hSource]
  allows_zero _ hSame := Coupling.eq_zero_iff_of_eq hSame.symm
  spent hAt _ := hAt.agree
  allows_after hSame _ := Nat.succ.inj hSame

namespace Grammar

open Reading

/-- Whatever has been discarded before them, and whether they are roots or forks: an attempt goes the
same way at both. -/
theorem runs_attempt_twins (grammar : Grammar) (m : Matcher) {readers : Readers}
    (hSound : twinning.Sound readers) :
    Coincide (fun _ => False) (grammar.attempt m) (grammar.attempt m) readers
      (fun result other after => result = other ∧ twinning.coupling.Leaves m.reach readers after)
      twinning.Halted := by
  have hRemaining : readers.2.remaining = readers.1.remaining :=
    (Nat.succ.inj (twinning.coupling.allows hSound)).symm
  have hDepth : grammar.depthFor readers.2 = grammar.depthFor readers.1 := by
    rw [depthFor, depthFor, hRemaining]
  have hRuns := twinning.coupling.within_attempt
    (twinning.coupling.within_call grammar (grammar.depthFor readers.1)) m readers hSound le_top
  apply hRuns.congr
  · rfl
  · rw [← hDepth]
    rfl

/-- What an attempt comes to, it comes to at a twin. -/
theorem comes_attempt_twin (grammar : Grammar) (m : Matcher) {first second last : Reader}
    {outcome : Except Halt (Option Match)} (hSound : twinning.Sound (first, second))
    (hLast : Comes (grammar.attempt m) first outcome last) :
    ∃ after, Comes (grammar.attempt m) second outcome after ∧ after.reports = last.reports ∧
      after.window.source = last.window.source ∧ ∀ found, outcome = .ok (some found) →
        after.cursor.position = last.cursor.position ∧ after.Retains := by
  obtain ⟨after, hAfter, hEnd⟩ := (grammar.runs_attempt_twins m hSound).comes hLast
  refine ⟨after, hAfter, ?_⟩
  cases outcome with
  | error halt => exact ⟨hEnd.traces trivial, hEnd.stops.source_eq, by simp⟩
  | ok found =>
    obtain ⟨hSound, -, -⟩ := hEnd
    have hPosition : after.cursor.position = last.cursor.position := hSound.position_eq
    have hRetains : after.window.start ≤ after.cursor.position :=
      hPosition ▸ hSound.lies.start_le'
    exact ⟨(hSound.traces trivial).2, hSound.lies.agree.source_eq, fun _ _ =>
      ⟨hPosition, hRetains⟩⟩

/-- What an attempt comes to, a parse at a twin comes to. It attempts the same at a fork, which is a
twin as well. -/
theorem comes_parse_twin (grammar : Grammar) (m : Matcher) {first second last : Reader}
    {outcome : Except Halt (Option Match)} (hSound : twinning.Sound (first, second))
    (hLast : Comes (grammar.attempt m) first outcome last) :
    ∃ after, Comes (grammar.parse m) second outcome after ∧ after.reports = last.reports ∧
      after.window.source = last.window.source ∧ ∀ found, outcome = .ok (some found) →
        after.cursor.position = last.cursor.position := by
  have hFork : twinning.Sound (first, { second with cursor := second.cursor.fork }) :=
    ⟨hSound.lies, hSound.position_eq, hSound.traces⟩
  obtain ⟨after, hAfter, hReports, hSource, hEnd⟩ := grammar.comes_attempt_twin m hFork hLast
  have hRetains (found : Match) (hFound : outcome = .ok (some found)) : after.Retains :=
    (hEnd found hFound).2
  obtain ⟨kept, hKept, hReports', hSource', hPlace⟩ :=
    Attempt.comes_keep (grammar.steady_attempt m) hAfter hRetains
  exact ⟨kept, hKept, hReports'.trans hReports, hSource'.trans hSource, fun found hFound =>
    (hPlace found hFound).trans (hEnd found hFound).1⟩

/-- How deep a cursor is, and what has been discarded before it, is invisible to matchers. Take two
cursors at the same position that are not before their windows, which have the same configuration
and have got equally far with the same source, but may be roots or forks, and may have discarded
what they like. Then an attempt at either of them and a parse at either of them all come to the
same: the same match, none, or the same fault, with the same reports, the same source left, and on a
match the same final position. -/
theorem comes_alike (grammar : Grammar) (m : Matcher) {first second : Reader}
    (hTwins : Window.Twins (first.window, second.window))
    (hPosition : second.cursor.position = first.cursor.position)
    (hTraced : second.cursor.traced = first.cursor.traced)
    (hReports : second.reports = first.reports) (hFirst : first.Retains)
    (hSecond : second.Retains) :
    ∃ outcome reports source place, ∀ reader ∈ [first, second],
      ∀ action ∈ [grammar.attempt m, grammar.parse m], ∃ after,
        Comes action reader outcome after ∧ after.reports = reports ∧
          after.window.source = source ∧
          ∀ found, outcome = .ok (some found) → after.cursor.position = place := by
  obtain ⟨outcome, last, hLast⟩ := exists_comes (grammar.attempt m) first
  refine ⟨outcome, last.reports, last.window.source, last.cursor.position, ?_⟩
  intro reader hReader
  -- Each of the two is a twin of the first, and so all four runs come to what this one comes to.
  have hSound : twinning.Sound (first, reader) := by
    rcases List.mem_pair.1 hReader with rfl | rfl
    · obtain ⟨-, -, -, delivered, hHolds, -⟩ := hTwins
      exact ⟨⟨⟨rfl, rfl, rfl, delivered, hHolds, hHolds⟩, trivial, hFirst, hFirst⟩, rfl,
        fun _ => ⟨rfl, rfl⟩⟩
    · exact ⟨⟨hTwins, trivial, hFirst, hPosition ▸ hSecond⟩, hPosition, fun _ =>
        ⟨hTraced, hReports⟩⟩
  intro action hAction
  rcases List.mem_pair.1 hAction with rfl | rfl
  · obtain ⟨after, hAfter, hReports, hSource, hEnd⟩ :=
      grammar.comes_attempt_twin m hSound hLast
    exact ⟨after, hAfter, hReports, hSource, fun found hFound => (hEnd found hFound).1⟩
  · exact grammar.comes_parse_twin m hSound hLast

/-- A fork of a fork, with two bytes read and none discarded. -/
def lagging : Reader where
  window :=
    { Window.ofSource ⟨[.failure .interrupted "again", .data [99]]⟩ with
      bytes := #[97, 98]
      head_le := Nat.zero_le _ }
  cursor := { position := 1, depth := 2 }

/-- A root at the same place, before which everything has been discarded. -/
def advanced : Reader where
  window := lagging.window.discard 1
  cursor := { position := 1 }

theorem twins_lagging : Window.Twins (advanced.window, lagging.window) := by
  obtain ⟨hConfig, hSource, hEnded⟩ := lagging.window.rest_discard 1
  have hHolds : lagging.window.Holds [97, 98] := ⟨Nat.zero_le _, rfl⟩
  exact ⟨hConfig.symm, hSource.symm, hEnded.symm, [97, 98], hHolds.discard 1 _, hHolds⟩

/-- Two literals, of which the second has to be read first. -/
def letters : Matcher :=
  .seq .absent [.primitive (.literal .absent [98]), .primitive (.literal .absent [99])]

/-- The root discards what it matches, and still all is the same at the fork. -/
theorem comes_alike_lagging :
    Leads (({} : Grammar).attempt letters) advanced
        (fun found after => found.isSome = true ∧ after.window.start = 3) (fun _ _ => False) ∧
      lagging.window.start = 0 ∧
      ∃ outcome reports source place, ∀ reader ∈ [advanced, lagging],
        ∀ action ∈ [({} : Grammar).attempt letters, ({} : Grammar).parse letters], ∃ after,
          Comes action reader outcome after ∧ after.reports = reports ∧
            after.window.source = source ∧
            ∀ found, outcome = .ok (some found) → after.cursor.position = place := by
  have hAdvanced : advanced.Retains := by
    unfold Reader.Retains
    cbv
  refine ⟨?_, rfl, comes_alike {} letters twins_lagging rfl rfl rfl hAdvanced (Nat.zero_le 1)⟩
  unfold Leads
  cbv

end Grammar

end StreamMatch
