import StreamMatch.Proofs.Agreement
import StreamMatch.Proofs.Coincidence
import StreamMatch.Proofs.Independence
import StreamMatch.Proofs.Malformed
import StreamMatch.Proofs.Rollback

/-!
A matcher of a run of units comes to what a repetition of a matcher of one unit does
(`Matcher.repetition_coincides_run`), although the one scans and the other forks, commits and
reports for every unit. A scan of bytes takes them in batches and reads ahead of what it takes, so
that it is compared with a repetition through the bytes of the stream that either takes. A scan of
code points reads just what a repetition does: the two go through the same windows, whatever the
source does (`Attempt.leads_many_one`).
-/

namespace StreamMatch

/-- What a match says of itself, without its submatches. -/
def Match.outline (m : Match) : Tag × Nat × List UInt8 :=
  (m.tag, m.offset, m.content)

/-- Below the root a commit only moves the cursor. -/
theorem Reading.leads_commit_deep {fork : Cursor} {reader : Reader}
    {returned : Unit → Reader → Prop} {halted : Halt → Reader → Prop}
    (hDeep : reader.cursor.depth ≠ 0) (hDepth : fork.depth = reader.cursor.depth + 1)
    (hReturned : returned ()
      { reader with cursor := { reader.cursor with position := fork.position } }) :
    Leads (commit fork) reader returned halted := by
  apply Leads.returns _ hReturned
  rw [commit_eq, if_pos hDepth, if_pos hDeep]

namespace Window

/-- The bytes of the code point at this offset of the stream, if it is accepted. -/
def unitAt (accepts : Predicate Char) (offset : Nat) : Windowed (Option (List UInt8)) := do
  let next ← decodeAt offset 1
  match next.chars with
  | [] => return none
  | c :: _ => if accepts c then return some (← peekAt offset next.length) else return none

/-- A code point takes at least a byte of what is ahead. -/
theorem leads_unitAt (accepts : Predicate Char) (offset : Nat) (window : Window) :
    Leads (unitAt accepts offset) window
      (fun found after => Continues window after ∧
        ∀ bytes ∈ found, 0 < bytes.length ∧
          offset + bytes.length ≤ window.start + window.ahead.length)
      (fun _ _ => True) := by
  rw [unitAt, decodeAt, leads_bind, leads_bind]
  apply (leads_relative offset window).mono
  · intro distance before hBefore
    obtain ⟨rfl, hStart, rfl⟩ := hBefore
    apply (leads_decode _ 1 before).mono
    · intro next middle hMiddle
      obtain ⟨hContinues, hDecode, -⟩ := hMiddle
      cases hChars : next.chars with
      | nil => exact ⟨hContinues, by simp⟩
      | cons c more =>
        have hLength := Utf8.length_pos_of_decode hDecode (by simp [hChars])
        have hMost := Utf8.length_le_of_decode hDecode
        rw [List.length_drop] at hMost
        dsimp only
        split
        · rw [leads_bind, peekAt, leads_bind]
          apply (leads_relative offset middle).mono
          · intro distance last hLast
            obtain ⟨rfl, hStill, rfl⟩ := hLast
            apply (leads_peek _ _ last).mono
            · intro bytes after hPeek
              obtain ⟨hAfter, rfl, -⟩ := hPeek
              refine ⟨hContinues.trans hAfter, ?_⟩
              have hSame := hContinues.start_eq
              rw [hContinues.ahead_eq, hSame]
              simp only [Option.mem_def, Option.some.injEq, forall_eq', List.length_take,
                List.length_drop]
              omega
            · exact fun _ _ _ => trivial
          · exact fun _ _ _ => trivial
        · exact ⟨hContinues, by simp⟩
    · exact fun _ _ _ => trivial
  · exact fun _ _ _ => trivial

end Window

namespace UnitRun

open Reading

variable {run : CharRun} {reader : Reader}

/-- Reads the next code point, if it is accepted. -/
def takeUnit (accepts : Predicate Char) : Reading (Option (List UInt8)) := do
  let place ← position
  let found ← onWindow (Window.unitAt accepts place)
  moveTo (place + (found.getD []).length)
  return found

/-- A run that goes on behind a unit, if there is one. -/
def goOn (rest : Reading (Nat × List UInt8)) : Option (List UInt8) → Reading (Nat × List UInt8)
  | none => return (0, [])
  | some bytes => counted bytes <$> rest

/-- A run that may take one more unit takes it and goes on, or ends there. -/
theorem takeChars_succ (run : CharRun) (allowed : Nat) :
    run.takeChars (allowed + 1) = takeUnit run.accepts >>= goOn (run.takeChars allowed) := by
  funext reader
  have hPosition (reader : Reader) : position reader = .ok reader.cursor.position reader := rfl
  simp only [takeChars, takeUnit, peekChars, Reading.read, peek, bind, EStateM.bind, hPosition,
    onWindow, Window.unitAt]
  cases hDecode : Window.decodeAt reader.cursor.position 1 reader.window with
  | error fault window => rfl
  | ok next window =>
    dsimp only
    cases next.chars with
    | nil => rfl
    | cons c more =>
      dsimp only
      by_cases hAccepts : run.accepts c = true
      · simp only [if_pos hAccepts, EStateM.bind, hPosition, onWindow]
        cases Window.peekAt reader.cursor.position next.length window with
        | error fault last => rfl
        | ok bytes last =>
          rfl
      · simp only [if_neg hAccepts]
        rfl

/-- A unit is read in the window, and the cursor moves past it. -/
theorem leads_takeUnit {accepts : Predicate Char} {returned : Option (List UInt8) → Reader → Prop}
    {halted : Halt → Reader → Prop} :
    Leads (takeUnit accepts) reader returned halted ↔
      Leads (Window.unitAt accepts reader.cursor.position) reader.window
        (fun found window => returned found (reader.further window (found.getD []).length))
        (fun fault window => halted (.fault fault) { reader with window }) := by
  simp only [takeUnit, leads_bind, leads_position, leads_onWindow, leads_moveTo, leads_pure]
  rfl

end UnitRun

namespace Primitive

open Reading UnitRun

/-- A run of one code point takes it, if it is accepted. -/
theorem scan_one (tag : Tag) (accepts : Predicate Char) :
    (Primitive.chars (.one tag accepts)).scan = takeUnit accepts := by
  have hScan : (Primitive.chars (.one tag accepts)).scan = (do
      let found ← (UnitRun.one tag accepts).takeChars 1
      return if found.1 < 1 then none else some found.2 : Reading (Option (List UInt8))) := rfl
  rw [hScan, takeChars_succ]
  funext reader
  simp only [bind, EStateM.bind]
  have hAccepts : (UnitRun.one tag accepts).accepts = accepts := rfl
  rw [hAccepts]
  cases takeUnit accepts reader with
  | error halt after => rfl
  | ok found after =>
    cases found with
    | none => rfl
    | some bytes =>
      simp [goOn, counted, takeChars, Functor.map, EStateM.map, pure, EStateM.pure]

/-- A round of a repetition of one code point, run on a fork, takes it if it is accepted. -/
theorem leads_onFork_round {tag : Tag} {accepts : Predicate Char} {reader : Reader}
    {returned : Option (List UInt8 × Match) × Cursor → Reader → Prop}
    {halted : Halt → Reader → Prop}
    (hUnit : Leads (Window.unitAt accepts reader.cursor.position) reader.window
      (fun found window => ∀ reports,
        returned (found.map fun content => (content, .leaf tag content reader.cursor.position),
            { reader.cursor.fork with
              position := reader.cursor.position + (found.getD []).length })
          { reader with window, reports })
      (fun fault window => ∀ reports, halted (.fault fault) { reader with window, reports })) :
    Leads (onFork (Attempt.round (Primitive.chars (.one tag accepts)).attempt none)) reader
      returned halted := by
  rw [leads_onFork, Attempt.round, leads_bind, attempt, leads_bind, leads_position]
  apply (leads_report _ _).bind (fun _ _ hNever => hNever.elim)
  intro _ _ hReports
  obtain ⟨reports, rfl⟩ := hReports
  rw [leads_bind, leads_guarded, leads_onFork, scan_one, leads_takeUnit]
  apply hUnit.mono
  · intro found window hFound
    cases found with
    | none => exact hFound reports
    | some content =>
      apply (leads_report _ _).bind (fun _ _ hNever => hNever.elim)
      intro _ _ hReports
      obtain ⟨reports, rfl⟩ := hReports
      rw [leads_bind]
      exact leads_commit_deep (Nat.succ_ne_zero _) rfl (hFound reports)
  · intro fault window hFault
    apply (leads_report _ _).mono
    · intro _ _ hReports
      obtain ⟨reports, rfl⟩ := hReports
      exact hFault reports
    · exact fun _ _ hNever => hNever.elim

/-- An attempt at a run of code points takes them on a fork, and commits that if they are enough. -/
theorem leads_attempt_of_takes {run : CharRun} {reader : Reader}
    {returned : Option Match → Reader → Prop} {halted : Halt → Reader → Prop}
    (hTakes : ∀ reports,
      Leads (run.takeChars run.most) { reader with cursor := reader.cursor.fork, reports }
        (fun taken last => ∀ reports,
          if taken.1 < run.least then returned none { last with cursor := reader.cursor, reports }
          else Leads (commit last.cursor) { last with cursor := reader.cursor, reports }
            (fun _ => returned (some (.leaf run.tag taken.2 reader.cursor.position))) halted)
        (fun halt last => ∀ reports, halted halt { last with cursor := reader.cursor, reports })) :
    Leads (Primitive.chars run).attempt reader returned halted := by
  rw [attempt, leads_bind, leads_position]
  apply (leads_report _ _).bind (fun _ _ hNever => hNever.elim)
  intro _ _ hReports
  obtain ⟨reports, rfl⟩ := hReports
  rw [leads_bind, leads_guarded, leads_onFork, scan, scanChars]
  apply (hTakes reports).bind
  · intro halt last hHalts
    cases halt with
    | fault fault =>
      apply (leads_report _ _).mono
      · intro _ _ hReports
        obtain ⟨reports, rfl⟩ := hReports
        exact hHalts reports
      · exact fun _ _ hNever => hNever.elim
    | misplaced => exact hHalts last.reports
    | exhausted => exact hHalts last.reports
  · intro taken last hTaken
    rw [leads_pure]
    by_cases hFew : taken.1 < run.least
    · have hNone := hTaken last.reports
      rw [if_pos hFew] at hNone ⊢
      exact hNone
    · rw [if_neg hFew]
      apply (leads_report _ _).bind (fun _ _ hNever => hNever.elim)
      intro _ _ hReports
      obtain ⟨reports, rfl⟩ := hReports
      have hSome := hTaken reports
      rw [if_neg hFew] at hSome
      exact hSome.bind (fun _ _ hHalts => hHalts) fun _ _ hReturned => hReturned

end Primitive

/-- Another reader at the same place of the same window. -/
structure Reader.Beside (reader other : Reader) : Prop where
  window_eq : other.window = reader.window
  position_eq : other.cursor.position = reader.cursor.position

namespace UnitRun

open Reading

variable {run : CharRun} {allowed : Nat} {reader other : Reader}
  {returned : Nat × List UInt8 → Reader → Prop} {halted : Halt → Reader → Prop}

/-- A run goes on behind the unit that is read at another reader in the same place. -/
theorem leads_takeChars_beside (hBeside : reader.Beside other) {found : Option (List UInt8)}
    {window : Window}
    (hUnit : Window.unitAt run.accepts reader.cursor.position reader.window = .ok found window)
    (hRest : Leads (goOn (run.takeChars allowed) found)
      (other.further window (found.getD []).length) returned halted) :
    Leads (run.takeChars (allowed + 1)) other returned halted := by
  rw [takeChars_succ, leads_bind, leads_takeUnit, hBeside.window_eq, hBeside.position_eq]
  exact .returns hUnit hRest

/-- A run meets the fault that is met at another reader in the same place. -/
theorem leads_takeChars_fault (hBeside : reader.Beside other) {fault : Fault} {window : Window}
    (hUnit : Window.unitAt run.accepts reader.cursor.position reader.window = .error fault window)
    (hHalted : halted (.fault fault) { other with window }) :
    Leads (run.takeChars (allowed + 1)) other returned halted := by
  rw [takeChars_succ, leads_bind, leads_takeUnit, hBeside.window_eq, hBeside.position_eq]
  exact .halts hUnit hHalted

end UnitRun

namespace Attempt

open Reading UnitRun

/-- Rounds of one code point take those that a run of them takes from the same place. -/
theorem leads_rounds_one (run : CharRun) (tag : Tag) (count : Nat) {allowed : Nat} (reader : Reader)
    (hDeep : reader.cursor.depth ≠ 0)
    (hAllowed : reader.window.start + reader.window.ahead.length <
      reader.cursor.position + allowed) (hSome : 0 < allowed) :
    Leads (rounds (Primitive.chars (.one tag run.accepts)).attempt none (some run.most) count
        allowed) reader
      (fun made after => after.cursor.depth = reader.cursor.depth ∧
        ∀ other, reader.Beside other →
          Leads (run.takeChars (run.most - count)) other
            (fun taken last => taken = (made.2.length, made.1) ∧ after.Beside last ∧
              last.cursor.depth = other.cursor.depth)
            (fun _ _ => False))
      (fun halt _ => ∀ other, reader.Beside other →
        Leads (run.takeChars (run.most - count)) other (fun _ _ => False)
          (fun problem _ => problem = halt)) := by
  induction allowed generalizing count reader with
  | zero => cases hSome
  | succ allowed ih =>
    rw [rounds]
    by_cases hEnough : run.most ≤ count
    · rw [if_pos (by simpa using hEnough)]
      refine ⟨rfl, fun other hBeside => ?_⟩
      rw [Nat.sub_eq_zero_of_le hEnough]
      exact ⟨rfl, hBeside, rfl⟩
    · have hMay : run.most - count = run.most - (count + 1) + 1 := by omega
      rw [if_neg (by simpa using hEnough), ite_self, hMay, leads_bind, leads_position, leads_bind]
      apply Primitive.leads_onFork_round
      apply ((Window.leads_unitAt _ _ _).and (Leads.self _ _)).mono
      · intro found window hFound reports
        obtain ⟨⟨hContinues, hMoves⟩, hUnit⟩ := hFound
        cases found with
        | none =>
          refine ⟨rfl, fun other hBeside => leads_takeChars_beside hBeside hUnit ?_⟩
          exact ⟨rfl, ⟨rfl, hBeside.position_eq⟩, rfl⟩
        | some bytes =>
          obtain ⟨hBytes, hEnd⟩ := hMoves bytes rfl
          dsimp only [Option.map_some, Option.getD_some]
          rw [if_neg (by omega)]
          rw [leads_bind]
          refine leads_commit_deep ?_ rfl ?_
          · exact hDeep
          -- A round takes a byte at least: there are still more rounds allowed than bytes left.
          have hNext : window.start + window.ahead.length <
              reader.cursor.position + bytes.length + allowed := by
            rw [hContinues.ahead_eq, hContinues.start_eq]
            omega
          have hPlace {other : Reader} (hBeside : reader.Beside other) :
              other.cursor.position + bytes.length = reader.cursor.position + bytes.length :=
            congrArg (· + bytes.length) hBeside.position_eq
          refine Leads.bind (ih (count + 1) _ ?_ ?_ ?_) ?_ ?_
          · exact hDeep
          · exact hNext
          · omega
          · intro halt _ hHalts other hBeside
            apply leads_takeChars_beside hBeside hUnit
            exact leads_map.2 (hHalts _ ⟨rfl, hPlace hBeside⟩)
          · intro made after hMade
            obtain ⟨hDepth, hRest⟩ := hMade
            refine ⟨hDepth, fun other hBeside => leads_takeChars_beside hBeside hUnit ?_⟩
            apply leads_map.2
            apply (hRest (other.further window bytes.length) ⟨rfl, hPlace hBeside⟩).mono
            · intro taken last hTaken
              obtain ⟨rfl, hLast, hSame⟩ := hTaken
              exact ⟨rfl, hLast, hSame⟩
            · exact fun _ _ hNever => hNever
      · intro fault window hFault reports other hBeside
        exact leads_takeChars_fault hBeside hFault.2 rfl

/-- A commit at the same cursor over the same window comes to the same. -/
theorem leads_commit_beside (fork : Cursor) (reader : Reader) :
    Leads (commit fork) reader
      (fun _ last => ∀ fork' other, fork'.position = fork.position → fork'.depth = fork.depth →
        other.window = reader.window → other.cursor = reader.cursor →
        Leads (commit fork') other (fun _ after => after.cursor = last.cursor) (fun _ _ => False))
      (fun halt last => last = reader ∧
        ∀ fork' other, fork'.position = fork.position → fork'.depth = fork.depth →
          other.window = reader.window → other.cursor = reader.cursor →
          Leads (commit fork') other (fun _ _ => False)
            (fun problem after => problem = halt ∧ after.cursor = reader.cursor)) := by
  apply (leads_commit fork reader).mono
  · intro _ last hLast fork' other hPosition hDepth hWindow hCursor
    have hOther : commit fork' other =
        .ok () { other with window := last.window, cursor := last.cursor } := by
      obtain ⟨hFork, ⟨hRoot, hStart, rfl⟩ | ⟨hDeep, rfl⟩⟩ := hLast
      · rw [commit_eq, hPosition, hDepth, hWindow, hCursor, if_pos hFork,
          if_neg (not_not_intro hRoot), if_pos hStart]
      · rw [commit_eq, hPosition, hDepth, hCursor, if_pos hFork, if_pos hDeep, ← hWindow]
    exact .returns hOther rfl
  · intro halt last hLast
    obtain ⟨rfl, hHalts⟩ := hLast
    refine ⟨rfl, fun fork' other hPosition hDepth hWindow hCursor => ?_⟩
    have hOther : commit fork' other = .error halt other := by
      rcases hHalts with ⟨hFork, rfl⟩ | ⟨hFork, hRoot, hStale, rfl⟩
      · rw [commit_eq, hDepth, hCursor, if_neg hFork]
      · rw [commit_eq, hPosition, hDepth, hWindow, hCursor, if_pos hFork,
          if_neg (not_not_intro hRoot), if_neg (Nat.not_le.2 hStale)]
    exact .halts hOther ⟨rfl, hCursor⟩

/-- An attempt at a run of code points ends as a commit of the rounds that have taken the same. -/
theorem leads_attempt_of_beside {run : CharRun} {reader forked : Reader} {count : Nat}
    {content : List UInt8} {returned : Option Match → Reader → Prop}
    {halted : Halt → Reader → Prop} (hDepth : forked.cursor.depth = reader.cursor.fork.depth)
    (hTakes : ∀ other, Reader.Beside { reader with cursor := reader.cursor.fork } other →
      Leads (run.takeChars run.most) other
        (fun taken last => taken = (count, content) ∧ forked.Beside last ∧
          last.cursor.depth = other.cursor.depth)
        (fun _ _ => False))
    (hEnds : ∀ last reports, forked.Beside last → last.cursor.depth = forked.cursor.depth →
      if count < run.least then returned none { last with cursor := reader.cursor, reports }
      else Leads (commit last.cursor) { last with cursor := reader.cursor, reports }
        (fun _ => returned (some (.leaf run.tag content reader.cursor.position))) halted) :
    Leads (Primitive.chars run).attempt reader returned halted := by
  apply Primitive.leads_attempt_of_takes
  intro reports
  apply (hTakes { reader with cursor := reader.cursor.fork, reports } ⟨rfl, rfl⟩).mono
  · intro taken last hTaken reports
    obtain ⟨rfl, hBeside, hSame⟩ := hTaken
    exact hEnds last reports hBeside (hSame.trans hDepth.symm)
  · exact fun _ _ hNever => hNever.elim

/-- To repeat one code point comes to what a run of code points does. -/
theorem leads_many_one (run : CharRun) (reader : Reader) :
    Leads (many run.tag run.least (some run.most)
        (Primitive.chars (.one run.tag run.accepts)).attempt none) reader
      (fun found after => Leads (Primitive.chars run).attempt reader
        (fun other last => other.map Match.outline = found.map Match.outline ∧
          last.cursor = after.cursor)
        (fun _ _ => False))
      (fun halt after => Leads (Primitive.chars run).attempt reader (fun _ _ => False)
        (fun problem last => problem = halt ∧ last.cursor = after.cursor)) := by
  rw [many, leads_bind, leads_position, leads_bind, leads_get, leads_bind, leads_onFork]
  have hRounds := leads_rounds_one run run.tag 0 { reader with cursor := reader.cursor.fork }
    (Nat.succ_ne_zero _) reader.end_lt_remaining (Nat.succ_pos _)
  apply hRounds.mono
  · intro made forked hMade
    obtain ⟨hDepth, hTakes⟩ := hMade
    obtain ⟨content, elements⟩ := made
    dsimp only at hTakes ⊢
    by_cases hFew : elements.length < run.least
    · rw [if_pos hFew]
      apply leads_attempt_of_beside hDepth hTakes
      intro last reports _ _
      rw [if_pos hFew]
      exact ⟨rfl, rfl⟩
    · rw [if_neg hFew]
      apply (leads_commit_beside _ _).bind
      · intro halt after hHalts
        obtain ⟨rfl, hCommit⟩ := hHalts
        apply leads_attempt_of_beside hDepth hTakes
        intro last reports hBeside hSame
        rw [if_neg hFew]
        exact hCommit _ _ hBeside.position_eq hSame hBeside.window_eq rfl
      · intro _ after hCommit
        apply leads_attempt_of_beside hDepth hTakes
        intro last reports hBeside hSame
        rw [if_neg hFew]
        apply (hCommit last.cursor { last with cursor := reader.cursor, reports }
          hBeside.position_eq hSame hBeside.window_eq rfl).mono
        · exact fun _ final hFinal => ⟨rfl, hFinal⟩
        · exact fun _ _ hNever => hNever
  · intro halt forked hHalts
    apply Primitive.leads_attempt_of_takes
    intro reports
    apply (hHalts { reader with cursor := reader.cursor.fork, reports } ⟨rfl, rfl⟩).mono
    · exact fun _ _ hNever => hNever.elim
    · exact fun _ _ hProblem _ => ⟨hProblem, rfl⟩

end Attempt

namespace Primitive

variable {policy : DecodePolicy} {tag : Tag} {accepts : Predicate UInt8}

/-- At the end of the bytes there is no byte to take. -/
theorem peg_one_nil (offset : Nat) :
    (Primitive.bytes (.one tag accepts)).peg policy offset [] = some .unmatched :=
  rfl

/-- A byte is taken if it is accepted. -/
theorem peg_one_cons (offset : Nat) (byte : UInt8) (rest : List UInt8) :
    (Primitive.bytes (.one tag accepts)).peg policy offset (byte :: rest) =
      if accepts byte then some (.matched (.leaf tag [byte] offset) 1) else some .unmatched := by
  have hRecognize : (Primitive.bytes (.one tag accepts)).recognize policy offset (byte :: rest) =
      .ok (if (((byte :: rest).takeWhile accepts).take 1).length < 1 then none
        else some (((byte :: rest).takeWhile accepts).take 1)) := rfl
  rw [peg, hRecognize]
  by_cases hAccepts : accepts byte = true
  · simp [hAccepts, Primitive.tag, UnitRun.one, UnitRun.between]
  · simp [hAccepts]

end Primitive

namespace Peg

variable (policy : DecodePolicy) (tag : Tag) (accepts : Predicate UInt8)

/-- Rounds of one byte take those that are accepted, but no more than there may be. -/
theorem exists_rounds_one (most count offset : Nat) (rest : List UInt8) :
    ∃ elements, rounds ((Primitive.bytes (.one tag accepts)).peg policy) none (some most) count
        offset rest =
      some (.matched ((rest.takeWhile accepts).take (most - count), elements) elements.length) ∧
      elements.length = ((rest.takeWhile accepts).take (most - count)).length := by
  induction rest generalizing count offset with
  | nil =>
    refine ⟨[], ?_, by simp⟩
    rw [rounds, ite_self, round, andThen, Primitive.peg_one_nil]
    simp
  | cons byte rest ih =>
    rw [rounds]
    by_cases hEnough : most ≤ count
    · rw [if_pos (by simpa using hEnough), Nat.sub_eq_zero_of_le hEnough]
      exact ⟨[], rfl, rfl⟩
    · rw [if_neg (by simpa using hEnough), ite_self, round, andThen, Primitive.peg_one_cons]
      by_cases hAccepts : accepts byte = true
      · obtain ⟨elements, hRounds, hLength⟩ := ih (count + 1) (offset + 1)
        have hMay : most - count = most - (count + 1) + 1 := by omega
        refine ⟨.leaf tag [byte] offset :: elements, ?_, ?_⟩
        · simp [hAccepts, hRounds, hMay, success, Match.leaf, Match.composite,
            Nat.add_comm 1 elements.length]
        · simp [hAccepts, hMay, hLength]
      · refine ⟨[], ?_, ?_⟩
        · simp [hAccepts]
        · simp [hAccepts]

/-- To repeat one byte matches those that are accepted, if they are enough. -/
theorem exists_many_one (least most offset : Nat) (rest : List UInt8) :
    let taken := (rest.takeWhile accepts).take most
    ∃ elements, many tag least (some most) ((Primitive.bytes (.one tag accepts)).peg policy) none
        offset rest =
      if taken.length < least then some .unmatched
      else some (.matched (.composite tag offset taken elements) taken.length) := by
  intro taken
  obtain ⟨elements, hRounds, hLength⟩ :=
    exists_rounds_one policy tag accepts most 0 offset rest
  refine ⟨elements, ?_⟩
  rw [Nat.sub_zero] at hRounds hLength
  rw [many, andThen, hRounds, ← hLength]
  by_cases hFew : elements.length < least
  · rw [if_pos hFew]
    simp only [Option.bind_eq_bind, Option.bind_some, if_pos hFew]
    rfl
  · rw [if_neg hFew]
    simp only [Option.bind_eq_bind, Option.bind_some, if_neg hFew]
    rfl

end Peg

/-- What comes of an attempt at a run that finds so many units, which span these bytes: a match, if
they are enough, and else no match, with nothing consumed. -/
inductive Reader.Takes (tag : Tag) (least count : Nat) (taken : List UInt8) (reader : Reader) :
    Option Match → Reader → Prop
  | few {after : Reader} (hFew : count < least)
      (hPosition : after.cursor.position = reader.cursor.position) :
      Takes tag least count taken reader none after
  | enough {m : Match} {after : Reader} (hEnough : least ≤ count)
      (hOutline : m.outline = (tag, reader.cursor.position, taken))
      (hPosition : after.cursor.position = reader.cursor.position + taken.length) :
      Takes tag least count taken reader (some m) after

section Scanned

open Utf8

variable {stream : List UInt8} {reader : Reader} {tag : Tag} {least count : Nat}
  {taken : List UInt8}

/-- Two attempts that find the same units come to the same. -/
theorem Reader.Takes.agree {found other : Option Match} {left right : Reader}
    (hFirst : reader.Takes tag least count taken found left)
    (hSecond : reader.Takes tag least count taken other right) :
    other.map Match.outline = found.map Match.outline ∧
      right.cursor.position = left.cursor.position := by
  cases hFirst with
  | few hFew hLeft =>
    cases hSecond with
    | few _ hRight => exact ⟨rfl, hRight.trans hLeft.symm⟩
    | enough hEnough => exact absurd hFew (Nat.not_lt.2 hEnough)
  | enough hEnough hOutline hLeft =>
    cases hSecond with
    | few hFew => exact absurd hFew (Nat.not_lt.2 hEnough)
    | enough _ hOther hRight =>
      exact ⟨congrArg some (hOther.trans hOutline.symm), hRight.trans hLeft.symm⟩

/-- It only matters what the match says of itself, and where the cursor is. -/
theorem Reader.Takes.congr {found other : Option Match} {left right : Reader}
    (hTakes : reader.Takes tag least count taken found left)
    (hOutline : other.map Match.outline = found.map Match.outline)
    (hPosition : right.cursor.position = left.cursor.position) :
    reader.Takes tag least count taken other right := by
  cases hTakes with
  | few hFew hLeft =>
    obtain rfl := Option.map_eq_none_iff.1 hOutline
    exact .few hFew (hPosition.trans hLeft)
  | enough hEnough hLeftOutline hLeft =>
    obtain ⟨m, rfl, hSame⟩ := Option.map_eq_some_iff.1 hOutline
    exact .enough hEnough (hSame.trans hLeftOutline) (hPosition.trans hLeft)

/-- A primitive takes what it recognizes. -/
theorem Reader.takes_leaf {content? : Option (List UInt8)} {found : Option Match} {after : Reader}
    (hContent : content? = if count < least then none else some taken)
    (hFound : found = content?.map (Match.leaf tag · reader.cursor.position))
    (hPosition : after.cursor.position = reader.cursor.position + (content?.getD []).length) :
    reader.Takes tag least count taken found after := by
  subst hFound
  by_cases hFew : count < least
  · rw [if_pos hFew] at hContent
    subst hContent
    exact .few hFew hPosition
  · rw [if_neg hFew] at hContent
    subst hContent
    exact .enough (Nat.not_lt.1 hFew) rfl hPosition

namespace Attempt

variable {policy : DecodePolicy}

/-- To repeat one byte takes the bytes that are accepted, but no more than there may be. -/
theorem leads_many_byte (tag : Tag) (least most : Nat) (accepts : Predicate UInt8)
    (hReady : reader.Ready stream policy) :
    let taken := ((stream.drop reader.cursor.position).takeWhile accepts).take most
    Leads (many tag least (some most) (Primitive.bytes (.one tag accepts)).attempt none) reader
      (reader.Takes tag least taken.length taken) (fun _ _ => False) := by
  intro taken
  have hElement : Simulates stream policy (Primitive.bytes (.one tag accepts)).attempt
      ((Primitive.bytes (.one tag accepts)).peg policy) :=
    Primitive.simulates_attempt _
  have hSimulates := (simulates_many tag least (some most) hElement .none).leads reader hReady
  have hBack : RollsBack
      (many tag least (some most) (Primitive.bytes (.one tag accepts)).attempt none) :=
    rollsBack_many tag least (some most) hElement.steady (by simp)
  obtain ⟨elements, hMany⟩ : ∃ elements, reader.verdict stream (Peg.many tag least (some most)
        ((Primitive.bytes (.one tag accepts)).peg policy) none) =
      if taken.length < least then some .unmatched
      else some (.matched (.composite tag reader.cursor.position taken elements) taken.length) :=
    Peg.exists_many_one policy tag accepts least most reader.cursor.position
      (stream.drop reader.cursor.position)
  apply (hSimulates.and (hBack reader)).mono
  · intro found after hFound
    rw [hMany] at hFound
    obtain ⟨hVerdict, hNone⟩ := hFound
    by_cases hFew : taken.length < least
    · rw [if_pos hFew] at hVerdict
      cases found with
      | none => exact .few hFew (congrArg Cursor.position (hNone rfl).cursor_eq)
      | some m =>
        obtain ⟨consumed, hMatched, -⟩ := hVerdict
        cases hMatched
    · rw [if_neg hFew] at hVerdict
      cases found with
      | none => cases hVerdict
      | some m =>
        obtain ⟨consumed, hMatched, hPosition, -⟩ := hVerdict
        cases hMatched
        exact .enough (Nat.not_lt.1 hFew) rfl hPosition
  · intro halt _ hHalts
    rw [hMany] at hHalts
    obtain ⟨⟨place, -, hMalformed⟩ | ⟨-, hNone⟩, -⟩ := hHalts
    · split at hMalformed
      · cases hMalformed
      · cases hMalformed
    · split at hNone
      · cases hNone
      · cases hNone

end Attempt

/-- A run of bytes takes those that are accepted, but no more than there may be. -/
theorem Primitive.leads_attempt_bytes {policy : DecodePolicy} (run : ByteRun)
    (hReady : reader.Ready stream policy) :
    let taken := ((stream.drop reader.cursor.position).takeWhile run.accepts).take run.most
    Leads (Primitive.bytes run).attempt reader
      (reader.Takes run.tag run.least taken.length taken) (fun _ _ => False) := by
  intro taken
  have hRecognize : (Primitive.bytes run).recognize policy reader.cursor.position
      (stream.drop reader.cursor.position) =
    .ok (if taken.length < run.least then none else some taken) := rfl
  apply ((Primitive.bytes run).leads_attempt_ready hReady).mono
  · intro found after hFound
    obtain ⟨content?, hContent, hMatch, hPosition⟩ := hFound
    cases hRecognize.symm.trans hContent
    exact Reader.takes_leaf rfl hMatch hPosition
  · intro halt after hHalts
    obtain ⟨fault, -, hFault⟩ := hHalts
    cases hRecognize.symm.trans hFault

/-- Under either policy, a run that comes to no fault takes the longest run there is. -/
theorem UnitRun.longestRun_of_accepted {policy : DecodePolicy} {run : CharRun} {offset most : Nat}
    {bytes : List UInt8} {found : Nat × List UInt8}
    (hFound : run.acceptedChars policy offset most bytes = .ok found) :
    ∃ chars length, found = (chars.length, bytes.take length) ∧
      LongestRun run.accepts most bytes chars length := by
  obtain ⟨chars, length, hChars, hLongest⟩ := run.exists_longestRun offset most bytes
  refine ⟨chars, length, ?_, hLongest⟩
  cases policy with
  | lenient => exact Except.ok.inj (hFound.symm.trans hChars)
  | strict =>
    obtain ⟨other, hOther, hSifted⟩ := run.sifted_acceptedChars offset most bytes
    rw [hFound] at hSifted
    cases hSifted with
    | clean hClean => exact Except.ok.inj (hOther.symm.trans hChars)

/-- A run of code points takes the longest run there is, if it comes to no fault. -/
theorem Primitive.leads_attempt_chars (run : CharRun) (hOver : reader.window.Over stream) :
    Leads (Primitive.chars run).attempt reader
      (fun found after => ∃ chars length,
        LongestRun run.accepts run.most (stream.drop reader.cursor.position) chars length ∧
        reader.Takes run.tag run.least chars.length
          ((stream.drop reader.cursor.position).take length) found after)
      (fun _ _ => True) := by
  apply ((Primitive.chars run).leads_attempt hOver).mono
  · intro found after hFound
    obtain ⟨content?, hContent, hMatch, hCursor, -⟩ := hFound
    rw [recognize] at hContent
    cases hAccepted : run.acceptedChars reader.window.config.policy reader.cursor.position run.most
      (stream.drop reader.cursor.position) with
    | error fault =>
      rw [hAccepted] at hContent
      cases hContent
    | ok taken =>
      rw [hAccepted] at hContent
      obtain ⟨chars, length, rfl, hLongest⟩ := UnitRun.longestRun_of_accepted hAccepted
      cases hContent
      exact ⟨chars, length, hLongest, Reader.takes_leaf rfl hMatch (by rw [hCursor])⟩
  · exact fun _ _ _ => trivial

/-- A matcher of a run of units comes to what a repetition of a matcher of one unit does. Both take
the longest run of accepted units, cut at the greatest number of them, and match if these are
enough. For bytes no read may fail, since a scan reads further ahead than a repetition does. For
code points both meet the same fault, if they meet one. -/
theorem Matcher.repetition_coincides_run (call : String → Attempt) (tag : Tag) (least most : Nat)
    (hOver : reader.window.Over stream) :
    let rest := stream.drop reader.cursor.position
    (∀ accepts : Predicate UInt8, reader.Inside → reader.window.source.Calm →
      let taken := (rest.takeWhile accepts).take (max most least)
      Coincide (fun _ => False)
        (((atLeast tag least (.primitive (.bytes (.one tag accepts)))).atMost most).attempt call)
        ((Matcher.primitive (.bytes (.between tag least most accepts))).attempt call)
        (reader, reader)
        (fun found other after => other.map Match.outline = found.map Match.outline ∧
          after.2.cursor.position = after.1.cursor.position ∧
          reader.Takes tag least taken.length taken found after.1)
        (fun _ _ => False)) ∧
    ∀ accepts : Predicate Char,
      Coincide (fun _ => False)
        (((atLeast tag least (.primitive (.chars (.one tag accepts)))).atMost most).attempt call)
        ((Matcher.primitive (.chars (.between tag least most accepts))).attempt call)
        (reader, reader)
        (fun found other after => other.map Match.outline = found.map Match.outline ∧
          after.2.cursor.position = after.1.cursor.position ∧
          ∃ chars length, LongestRun accepts (max most least) rest chars length ∧
            reader.Takes tag least chars.length (rest.take length) found after.1)
        (fun _ after => after.2.cursor.position = after.1.cursor.position) := by
  intro rest
  constructor
  · intro accepts hInside hCalm taken
    have hPosition := Nat.le_trans hInside.le_end hOver.delivered_le
    have hReady : reader.Ready stream reader.window.config.policy :=
      ⟨hOver, hCalm, rfl, hInside.retains, hPosition⟩
    have hMany := Attempt.leads_many_byte tag least (max most least) accepts hReady
    have hScan := Primitive.leads_attempt_bytes (.between tag least most accepts) hReady
    apply Coincide.of_leads hMany hScan
    intro found other left right hFound hOther
    obtain ⟨hOutline, hSame⟩ := Reader.Takes.agree hFound hOther
    exact ⟨hOutline, hSame, hFound⟩
  · intro accepts
    have hScan := Primitive.leads_attempt_chars (.between tag least most accepts) hOver
    apply Coincide.of_nested
    apply (Attempt.leads_many_one (.between tag least most accepts) reader).mono
    · intro found left hSecond
      apply (hSecond.and hScan).mono
      · intro other right hOther
        obtain ⟨⟨hOutline, hCursor⟩, chars, length, hLongest, hTakes⟩ := hOther
        have hPosition := congrArg Cursor.position hCursor
        exact ⟨hOutline, hPosition, chars, length, hLongest,
          hTakes.congr hOutline.symm hPosition.symm⟩
      · exact fun _ _ hHalts => hHalts.1
    · intro halt left hSecond
      apply hSecond.mono
      · exact fun _ _ hNever => hNever
      · intro problem right hProblem
        exact ⟨hProblem.1, congrArg Cursor.position hProblem.2⟩

/-- Three bytes that stand in two pieces of the marred stream are matched both ways. Under the
strict policy a third code point is refused both ways, since the last byte is in no character. -/
theorem Matcher.repetition_coincides_run_marred :
    let call : String → Attempt := fun _ => Pure.pure none
    let lenient := Reader.marred .lenient
    let strict := Reader.marred .strict
    let byte := Matcher.primitive (.bytes (.one .literal Predicate.always))
    let char := Matcher.primitive (.chars (.one .literal Predicate.always))
    Coincide (fun _ => False) (((atLeast .literal 1 byte).atMost 3).attempt call)
      ((Matcher.primitive (.bytes (.between .literal 1 3 Predicate.always))).attempt call)
      (lenient, lenient)
      (fun found other after => found.map Match.outline = some (.literal, 0, [0x41, 0xef, 0xbf]) ∧
        other.map Match.outline = found.map Match.outline ∧
        after.2.cursor.position = after.1.cursor.position)
      (fun _ _ => False) ∧
    Coincide (fun _ => False) (((atLeast .literal 1 char).atMost 3).attempt call)
      ((Matcher.primitive (.chars (.between .literal 1 3 Predicate.always))).attempt call)
      (strict, strict) (fun _ _ _ => False) (fun halt _ => halt = .fault (.invalidUtf8 4)) := by
  intro call lenient strict byte char
  constructor
  · have hReady := Reader.ready_marred .lenient
    have hInside : lenient.Inside := ⟨Nat.le_refl _, Nat.zero_le _⟩
    have hBytes := (Matcher.repetition_coincides_run call .literal 1 3 hReady.lies_over).1
      Predicate.always hInside hReady.calm
    apply hBytes.imp
    intro found other after hFound
    obtain ⟨hOutline, hPosition, hTakes⟩ := hFound
    refine ⟨?_, hOutline, hPosition⟩
    cases hTakes with
    | few hFew => exact absurd hFew (by decide)
    | enough _ hMatch => exact congrArg some hMatch
  · have hReady := Reader.ready_marred .strict
    have hRecognize : (Primitive.chars (.between .literal 1 3 Predicate.always)).recognize .strict 0
        marred.content = .error (.invalidUtf8 4) := rfl
    have hScan := Primitive.leads_attempt_ready (.chars (.between .literal 1 3 Predicate.always))
      hReady
    have hChars := (Matcher.repetition_coincides_run call .literal 1 3 hReady.lies_over).2
      Predicate.always
    cases hChars with
    | returns hFirst hSecond =>
      obtain ⟨content?, hContent, -⟩ := hScan.of_ok hSecond
      cases hRecognize.symm.trans hContent
    | halts hFirst hSecond =>
      obtain ⟨fault, rfl, hFault⟩ := hScan.of_error hSecond
      cases hRecognize.symm.trans hFault
      exact .halts hFirst hSecond rfl
    | excuses _ hNever => exact hNever.elim

end Scanned

end StreamMatch
