import Mathlib
import StreamMatch.Proofs.Repetition

/-!
What counts in a repetition. A round is recorded if it moves on as a whole, and what moves it may be
its separator alone, whatever scripts it runs and whatever comes of them (`Attempt.Recorded`). So a
repetition makes progress with every round that counts (`Library.many_counts_moving`), but not every
element that counts has consumed something.
-/

namespace StreamMatch

namespace Attempt

open Reading

variable {element : Attempt} {separator : Option Attempt}

/-- What a repetition has recorded that returned: the rounds that it made on a fork, which left the
reader `last`. -/
structure Recorded (element : Attempt) (separator : Option Attempt) (tag : Tag) (least : Nat)
    (most : Option Nat) (reader : Reader) (laps : List Lap) (last : Reader) (found : Option Match)
    (after : Reader) : Prop where
  made : Made element separator most 0 { reader with cursor := reader.cursor.fork } laps last
  /-- An element has consumed something, or else it comes after a separator that has. -/
  moves : ∀ lap ∈ laps, lap.Moves
  too_few : laps.length < least → found = none ∧ after.cursor = reader.cursor
  enough : least ≤ laps.length →
    found = some (.composite tag reader.cursor.position (laps.flatMap Lap.content)
      (laps.map Lap.element)) ∧
    after.cursor = { reader.cursor with position := last.cursor.position }

/-- All repetitions record the rounds that they make. -/
theorem leads_many_recorded (hElement : Advances element)
    (hSeparator : ∀ attempt ∈ separator, Advances attempt) (tag : Tag) (least : Nat)
    (most : Option Nat) (reader : Reader) :
    Leads (many tag least most element separator) reader
      (fun found after => ∃ laps last,
        Recorded element separator tag least most reader laps last found after)
      (fun _ _ => True) := by
  have hRounds := leads_rounds_made hElement hSeparator most 0 (reader.remaining + 1)
    { reader with cursor := reader.cursor.fork }
  simp only [many, leads_bind, leads_position, leads_get, leads_onFork]
  apply hRounds.mono
  · rintro _ last ⟨laps, hMade, rfl⟩
    have hMoves := hMade.moves_of_mem hElement hSeparator
    dsimp only
    rw [List.length_map]
    split
    · next hFew => exact ⟨laps, last, hMade, hMoves, fun _ => ⟨rfl, rfl⟩, by omega⟩
    · next hEnough =>
      apply (leads_commit last.cursor { last with cursor := reader.cursor }).bind
      · exact fun _ _ _ => trivial
      · intro _ after hAfter
        have hCursor : after.cursor = { reader.cursor with position := last.cursor.position } := by
          obtain ⟨-, ⟨-, -, rfl⟩ | ⟨-, rfl⟩⟩ := hAfter
          · rfl
          · rfl
        exact ⟨laps, last, hMade, hMoves, by omega, fun _ => ⟨rfl, hCursor⟩⟩
  · exact fun _ _ _ => trivial

end Attempt

namespace Library

open Reading Attempt

/-- What a repetition takes for progress. A round is recorded if it moves on as a whole. So an
element that has consumed nothing is recorded, and counts, if it comes after a separator that has
consumed something, and only then: without a separator every element that is recorded has consumed
something of its own. A round that moves nothing is not recorded, and it is the last one that is
run. As long as no failure of the source surfaces in a script that goes on after it, these rounds are
what they would be alone: each that could be made and moves on is made. -/
theorem many_counts_moving (library : Library) (depth : Nat) (tag : Tag) (least : Nat)
    (most : Option Nat) (element : Matcher) (separator : Option Matcher) {reader : Reader}
    (hInside : reader.Inside) :
    let attempt (m : Matcher) := m.attempt (library.call depth)
    Leads ((Matcher.many tag least most element separator).attempt (library.call depth)) reader
      (fun found after => ∃ laps last,
        Recorded (attempt element) (separator.map attempt) tag least most reader laps last found
          after ∧
        (Undisturbed library.Propagates reader after → ∃ stop tried,
          Repeated (attempt element) (separator.map attempt) tag least most reader laps stop tried
            found after ∧
          Progress (attempt element) (separator.map attempt) most reader reader.cursor.position laps
            stop))
      (fun halt after => Undisturbed library.Propagates reader after →
        Breaks (attempt element) (separator.map attempt) most reader 0 reader.cursor.position
          halt) := by
  intro attempt
  have hElement := library.advances_attempt depth element
  have hSeparator := library.forall_mem_map depth (library.advances_attempt depth) separator
  have hMany := library.leads_many depth tag least most element separator hInside
  have hRecorded : Leads
      ((Matcher.many tag least most element separator).attempt (library.call depth)) reader
      (fun found after => ∃ laps last,
        Recorded (attempt element) (separator.map attempt) tag least most reader laps last found
          after)
      (fun _ _ => True) := by
    rw [Matcher.attempt, Matcher.attempt?_eq_map]
    exact leads_many_recorded hElement hSeparator tag least most reader
  apply (hRecorded.and hMany).mono
  · rintro found after ⟨⟨laps, last, hRecorded⟩, hAlone⟩
    by_cases hStill : Undisturbed library.Propagates reader after
    · obtain ⟨laps, stop, tried, hRepeated, last, hMade, hStop⟩ := hAlone hStill
      have hProgress := hRepeated.greedy.progress hElement hSeparator
      have hRecorded : Recorded (attempt element) (separator.map attempt) tag least most reader laps
          last found after :=
        ⟨hMade, hProgress.moves,
          fun hFew => ⟨(hRepeated.too_few hFew).1, (hRepeated.too_few hFew).2.2⟩,
          fun hEnough => ⟨(hRepeated.enough hEnough).1, hStop ▸ (hRepeated.enough hEnough).2.2⟩⟩
      exact ⟨laps, last, hRecorded, fun _ => ⟨stop, tried, hRepeated, hProgress⟩⟩
    · exact ⟨laps, last, hRecorded, fun h => absurd h hStill⟩
  · exact fun _ _ hHalts => hHalts.2

/-- One digit, or none. -/
def digit? : Matcher :=
  .optional (.primitive (.bytes (.one .literal .asciiDigit)))

def comma : Matcher :=
  .primitive (.literal .literal [44])

/-- A list of one digit, with a separator after it and no digit. -/
def unfinished : Reader where
  window := .ofSource ⟨[.data [49, 44, 120]]⟩
  cursor := { position := 0 }

/-- The separator at the end is consumed, and what stands in for the digit after it counts. -/
theorem many_counts_moving_unfinished :
    let attempt (m : Matcher) := m.attempt (handing.call 1)
    Leads ((Matcher.many .literal 2 none digit? (some comma)).attempt (handing.call 1)) unfinished
      (fun found after =>
        (found.map fun t => (t.content, t.submatches), after.cursor.position) =
          (some ([49, 44], [.leaf .literal [49] 0, .empty 2]), 2) ∧
        ∃ laps last,
          Recorded (attempt digit?) (some (attempt comma)) .literal 2 none unfinished laps last
            found after ∧
          ∃ stop tried,
            Repeated (attempt digit?) (some (attempt comma)) .literal 2 none unfinished laps stop
              tried found after ∧
            Progress (attempt digit?) (some (attempt comma)) none unfinished
              unfinished.cursor.position laps stop)
      (fun _ _ => False) := by
  intro attempt
  have hInside : unfinished.Inside := ⟨Nat.le_refl _, Nat.zero_le _⟩
  have hRun : Leads ((Matcher.many .literal 2 none digit? (some comma)).attempt (handing.call 1))
      unfinished
      (fun found after =>
        (found.map fun t => (t.content, t.submatches), after.cursor.position) =
          (some ([49, 44], [.leaf .literal [49] 0, .empty 2]), 2))
      (fun _ _ => False) := by
    unfold Leads
    cbv
  have hCounts := many_counts_moving handing 1 .literal 2 none digit? (some comma) hInside
  apply (Leads.and hRun hCounts).mono
  · rintro found after ⟨hFound, laps, last, hRecorded, hAlone⟩
    exact ⟨hFound, laps, last, hRecorded, hAlone (.inl propagates_handing)⟩
  · exact fun _ _ hHalts => hHalts.1

/-- Not every element that counts has consumed something of its own. -/
theorem not_forall_element_moves :
    ¬ ∀ (least : Nat) (most : Option Nat) (element : Matcher) (separator : Option Matcher)
      (reader : Reader) (laps : List Lap) (stop : Nat) (tried : Reader) (found : Option Match)
      (after : Reader), reader.Inside →
      (Matcher.many .literal least most element separator).attempt (handing.call 1) reader =
        .ok found after →
      Repeated (element.attempt (handing.call 1)) (separator.map (·.attempt (handing.call 1)))
        .literal least most reader laps stop tried found after →
      ∀ lap ∈ laps, lap.middle < lap.stop := by
  intro hMoves
  have hInside : unfinished.Inside := ⟨Nat.le_refl _, Nat.zero_le _⟩
  have hFirst : Leads (lapFrom (digit?.attempt (handing.call 1))
      (some (comma.attempt (handing.call 1))) 0 0) unfinished
      (fun found _ => found.map Lap.stop = some 1) (fun _ _ => False) := by
    unfold Leads
    cbv
  have hSecond : Leads (lapFrom (digit?.attempt (handing.call 1))
      (some (comma.attempt (handing.call 1))) 1 1) unfinished
      (fun found _ => found.map (fun lap => (lap.middle, lap.stop)) = some (2, 2))
      (fun _ _ => False) := by
    unfold Leads
    cbv
  have hMatches : Leads
      ((Matcher.many .literal 2 none digit? (some comma)).attempt (handing.call 1)) unfinished
      (fun found _ => found.isSome) (fun _ _ => False) := by
    unfold Leads
    cbv
  have hMany := leads_many handing 1 .literal 2 none digit? (some comma) hInside
  cases hRun : (Matcher.many .literal 2 none digit? (some comma)).attempt (handing.call 1)
      unfinished with
  | error halt after => exact hMatches.of_error hRun
  | ok found after =>
    obtain ⟨laps, stop, tried, hRepeated, -⟩ := hMany.of_ok hRun (.inl propagates_handing)
    have hAll := hMoves 2 none digit? (some comma) unfinished laps stop tried found after hInside
      hRun hRepeated
    have hEnough : ¬ laps.length < 2 := by
      intro hFew
      have hSome := hMatches.of_ok hRun
      rw [(hRepeated.too_few hFew).1] at hSome
      cases hSome
    cases hRepeated.greedy.made with
    | nil => exact hEnough (by simp)
    | @cons _ _ _ lap rest hLap _ _ hRest =>
      obtain ⟨last, hLap⟩ := hLap
      have hStop : lap.stop = 1 := Option.some.inj (hFirst.of_ok hLap)
      rw [hStop] at hRest
      cases hRest with
      | nil => exact hEnough (by simp)
      | @cons _ _ _ lap' rest hLap' _ _ _ =>
        obtain ⟨last', hLap'⟩ := hLap'
        obtain ⟨hMiddle, hStop'⟩ := Prod.mk.inj (Option.some.inj (hSecond.of_ok hLap'))
        have hMoved := hAll lap' (by simp)
        omega

end Library

end StreamMatch
