import StreamMatch.Proofs.Peg
import StreamMatch.Proofs.Steadiness

/-!
Actions that do what a recognizer of lists of bytes says. At every cursor that stands in the window
they come to the verdict on the bytes of the stream from there on, and a match leaves the cursor
past what it has consumed (`Simulates`). For each way of combining attempts there is one of
combining recognizers, and the first simulates the second.
-/

namespace StreamMatch

variable {α β : Type} {stream : List UInt8} {policy : DecodePolicy}

/-- A reader over this stream, no read of which fails for good. Its cursor is neither before the
window nor beyond the stream. -/
structure Reader.Ready (stream : List UInt8) (policy : DecodePolicy) (reader : Reader) : Prop where
  lies_over : reader.window.Over stream
  calm : reader.window.source.Calm
  policy_eq : reader.window.config.policy = policy
  start_le : reader.window.start ≤ reader.cursor.position
  position_le : reader.cursor.position ≤ stream.length

/-- What a recognizer says of the bytes from the cursor on. -/
def Reader.verdict (stream : List UInt8) (peg : Peg α) (reader : Reader) : Option (Verdict α) :=
  peg reader.cursor.position (stream.drop reader.cursor.position)

/-- A run that halts in this way shows that the verdict is the refusal of the same bytes, or that
there is none. -/
def Halt.Shows (halt : Halt) (verdict : Option (Verdict α)) : Prop :=
  (∃ place, halt = .fault (.invalidUtf8 place) ∧ verdict = some (.malformed place)) ∨
    halt = .exhausted ∧ verdict = none

/-- A fork of the cursor that has moved so many bytes ahead in the stream. -/
structure Cursor.Precedes (stream : List UInt8) (cursor fork : Cursor) (consumed : Nat) : Prop where
  depth_eq : fork.depth = cursor.depth + 1
  position_eq : fork.position = cursor.position + consumed
  position_le : fork.position ≤ stream.length

/-- However it ends, the action does what the recognizer says. -/
structure Simulates (stream : List UInt8) (policy : DecodePolicy) (action : Reading (Option α))
    (peg : Peg α) : Prop where
  steady : Reading.Steady action
  leads : ∀ reader, reader.Ready stream policy →
    Leads action reader
      (fun found after =>
        match found with
        | none => reader.verdict stream peg = some .unmatched
        | some value => ∃ consumed, reader.verdict stream peg = some (.matched value consumed) ∧
          after.cursor.position = reader.cursor.position + consumed ∧ after.Ready stream policy)
      (fun halt _ => halt.Shows (reader.verdict stream peg))

/-- If there is no verdict on a part, or if it is a refusal, then so it is with the whole. -/
theorem Halt.Shows.bind {halt : Halt} {verdict : Option (Verdict α)}
    {next : Verdict α → Option (Verdict β)} (hShows : halt.Shows verdict)
    (hNext : ∀ place, next (.malformed place) = some (.malformed place)) :
    halt.Shows (verdict >>= next) := by
  rcases hShows with ⟨place, rfl, rfl⟩ | ⟨rfl, rfl⟩
  · exact .inl ⟨place, rfl, hNext place⟩
  · exact .inr ⟨rfl, rfl⟩

namespace Reader.Ready

variable {reader after : Reader}

theorem fork (hReady : reader.Ready stream policy) :
    Ready stream policy { reader with cursor := reader.cursor.fork } :=
  ⟨hReady.lies_over, hReady.calm, hReady.policy_eq, hReady.start_le, hReady.position_le⟩

/-- An action on a fork discards nothing, so that the cursor at hand still stands in the window. -/
theorem of_fork (hReady : reader.Ready stream policy)
    (hKeeps : Keeps { reader with cursor := reader.cursor.fork } after) :
    Ready stream policy { after with cursor := reader.cursor } := by
  have hWindow := hKeeps.continues (Nat.succ_ne_zero _)
  refine ⟨hKeeps.lies_over stream hReady.lies_over, hKeeps.calm hReady.calm,
    hKeeps.config_eq ▸ hReady.policy_eq, ?_, hReady.position_le⟩
  have hStart := hReady.start_le
  have hSame := hWindow.start_eq
  dsimp only at hSame ⊢
  omega

theorem length_le_remaining (hReady : reader.Ready stream policy) :
    stream.length - reader.cursor.position ≤ reader.remaining := by
  have hEnd := reader.end_lt_remaining
  rw [← hReady.lies_over.drop_start, List.length_drop] at hEnd
  have hStart := hReady.lies_over.start_le
  omega

end Reader.Ready

namespace Reading

variable {action : Reading α} {reader : Reader}

/-- What is read at a cursor in the window is what the stream has there, and no read fails. -/
theorem Observes.leads_ready {look : Look α} (hObserves : Observes action look)
    (hReady : reader.Ready stream policy) :
    Leads action reader
      (fun value after => ∃ moved,
        look policy reader.cursor.position (stream.drop reader.cursor.position) =
          .ok (value, moved) ∧
        after.cursor.position = reader.cursor.position + moved ∧ after.Ready stream policy)
      (fun halt _ => ∃ fault, halt = .fault fault ∧
        look policy reader.cursor.position (stream.drop reader.cursor.position) = .error fault) := by
  refine (hObserves reader stream hReady.lies_over).mono ?_ ?_
  · rintro value _ ⟨window, moved, rfl, hWindow, -, hLook, hMoved⟩
    rw [hReady.policy_eq] at hLook
    refine ⟨moved, hLook, rfl, hWindow.lies_over hReady.lies_over, hWindow.calm hReady.calm, ?_, ?_, ?_⟩
    · exact hWindow.config_eq ▸ hReady.policy_eq
    · have hStart := hReady.start_le
      have hSame := hWindow.start_eq
      simp only [Reader.further]
      omega
    · have hEnd := (hWindow.lies_over hReady.lies_over).delivered_le
      have hPosition := hReady.position_le
      simp only [Reader.further]
      omega
  · rintro halt _ ⟨window, fault, rfl, rfl, -, hCases⟩
    refine ⟨fault, rfl, ?_⟩
    rcases hCases with ⟨hStale, -⟩ | ⟨-, hCalm | hFault⟩
    · exact absurd hReady.start_le (Nat.not_le.2 hStale)
    · exact absurd hReady.calm hCalm
    · rw [← hReady.policy_eq]
      exact hFault

/-- A fork that has moved ahead of a cursor in the window can be committed. -/
theorem leads_commit_ready (hReady : reader.Ready stream policy) {fork : Cursor} {consumed : Nat}
    (hFork : reader.cursor.Precedes stream fork consumed) :
    Leads (commit fork) reader
      (fun _ after => after.cursor =
          { reader.cursor with position := reader.cursor.position + consumed } ∧
        after.Ready stream policy)
      (fun _ _ => False) := by
  have hStart := hReady.start_le
  have hPosition := hFork.position_eq
  rw [← hPosition]
  refine (leads_commit fork reader).mono ?_ ?_
  · rintro - _ ⟨-, ⟨hRoot, -, rfl⟩ | ⟨-, rfl⟩⟩
    · obtain ⟨hConfig, hSource, -⟩ :=
        reader.window.rest_discard (fork.position - reader.window.start)
      refine ⟨rfl, hReady.lies_over.discard _, hSource ▸ hReady.calm, hConfig ▸ hReady.policy_eq, ?_,
        hFork.position_le⟩
      simp only [Window.start_discard]
      omega
    · refine ⟨rfl, hReady.lies_over, hReady.calm, hReady.policy_eq, ?_, hFork.position_le⟩
      dsimp only
      omega
  · rintro halt after ⟨-, ⟨hDepth, -⟩ | ⟨-, -, hStale, -⟩⟩
    · exact hDepth hFork.depth_eq
    · omega

/-- Whatever comes of a steady action on a fork, the cursor at hand still stands in the window. -/
theorem Steady.leads_onFork (hSteady : Steady action) (hReady : reader.Ready stream policy)
    {returned : α → Reader → Prop} {halted : Halt → Reader → Prop}
    (hAction : Leads action { reader with cursor := reader.cursor.fork } returned halted) :
    Leads (onFork action) reader
      (fun result after => after.cursor = reader.cursor ∧ after.Ready stream policy ∧
        result.2.depth = reader.cursor.depth + 1 ∧
        ∃ forked, forked.cursor = result.2 ∧ returned result.1 forked)
      (fun halt after => after.cursor = reader.cursor ∧ ∃ forked, halted halt forked) := by
  refine Reading.leads_onFork.2 (((hSteady _).and hAction).mono ?_ ?_)
  · rintro value forked ⟨hKeeps, hReturned⟩
    exact ⟨rfl, hReady.of_fork hKeeps, hKeeps.depth_eq, forked, rfl, hReturned⟩
  · rintro halt forked ⟨-, hHalted⟩
    exact ⟨rfl, forked, hHalted⟩

end Reading

namespace Simulates

open Reading

variable {action : Reading (Option α)} {first : Peg α}

theorem success (value : α) : Simulates stream policy (pure (some value)) (Peg.success value) where
  steady := .pure _
  leads := fun _ hReady => ⟨0, rfl, rfl, hReady⟩

theorem failure : Simulates stream policy (pure none : Reading (Option α)) Peg.failure where
  steady := .pure _
  leads := fun _ _ => rfl

/-- One after the other: the second starts where the first has ended. -/
theorem bind {body : Option α → Reading (Option β)} {next : α → Peg β}
    (hAction : Simulates stream policy action first) (hNone : body none = pure none)
    (hSome : ∀ value, Simulates stream policy (body (some value)) (next value)) :
    Simulates stream policy (action >>= body) (first.andThen next) where
  steady := hAction.steady.bind fun found => by
    cases found with
    | none =>
      rw [hNone]
      exact .pure none
    | some value => exact (hSome value).steady
  leads := by
    intro reader hReady
    simp only [Reader.verdict, Peg.andThen]
    refine (hAction.leads reader hReady).bind ?_ ?_
    · exact fun halt _ hShows => hShows.bind fun _ => rfl
    · intro found middle hFound
      cases found with
      | none =>
        rw [Reader.verdict] at hFound
        rw [hNone, hFound]
        exact rfl
      | some value =>
        obtain ⟨consumed, hVerdict, hPosition, hMiddle⟩ := hFound
        rw [Reader.verdict] at hVerdict
        simp only [hVerdict, Option.bind_eq_bind, Option.bind_some, List.drop_drop]
        have hNext := (hSome value).leads middle hMiddle
        simp only [Reader.verdict, hPosition] at hNext
        refine hNext.mono ?_ ?_
        · intro found after hLater
          cases found with
          | none =>
            dsimp only at hLater ⊢
            rw [hLater]
            rfl
          | some result =>
            obtain ⟨more, hMore, hEnd, hAfter⟩ := hLater
            refine ⟨consumed + more, ?_, ?_, hAfter⟩
            · rw [hMore]
              rfl
            · rw [hEnd, Nat.add_assoc]
        · exact fun halt _ hShows => hShows.bind fun _ => rfl

/-- An action that is told its offset does what a recognizer does that is made for this offset. -/
theorem position {body : Nat → Reading (Option α)} {whole : Peg α}
    (hBody : ∀ offset, ∃ peg, Simulates stream policy (body offset) peg ∧
      peg offset = whole offset) :
    Simulates stream policy (Reading.position >>= body) whole where
  steady := steady_position.bind fun offset => by
    obtain ⟨peg, hPeg, -⟩ := hBody offset
    exact hPeg.steady
  leads := by
    intro reader hReady
    obtain ⟨peg, hPeg, hSame⟩ := hBody reader.cursor.position
    rw [leads_bind, leads_position, Reader.verdict, ← hSame]
    exact hPeg.leads reader hReady

/-- On a fork the cursor at hand stays where it is, and what was found is not lost. -/
theorem leads_onFork (hAction : Simulates stream policy action first) {reader : Reader}
    (hReady : reader.Ready stream policy) :
    Leads (onFork action) reader
      (fun result after => after.cursor = reader.cursor ∧ after.Ready stream policy ∧
        match result.1 with
        | none => reader.verdict stream first = some .unmatched
        | some value => ∃ consumed, reader.verdict stream first = some (.matched value consumed) ∧
          reader.cursor.Precedes stream result.2 consumed)
      (fun halt after => after.cursor = reader.cursor ∧
        halt.Shows (reader.verdict stream first)) := by
  refine (hAction.steady.leads_onFork hReady (hAction.leads _ hReady.fork)).mono ?_ ?_
  · rintro ⟨found, fork⟩ after ⟨hCursor, hAfter, hDepth, forked, rfl, hFound⟩
    refine ⟨hCursor, hAfter, ?_⟩
    cases found with
    | none => exact hFound
    | some value =>
      obtain ⟨consumed, hVerdict, hPosition, hForked⟩ := hFound
      exact ⟨consumed, hVerdict, hDepth, hPosition, hForked.position_le⟩
  · rintro halt after ⟨hCursor, forked, hShows⟩
    exact ⟨hCursor, hShows⟩

end Simulates

namespace Attempt

open Reading

variable {attempt : Attempt} {peg : Peg Match}

/-- All that can come of an attempt whose match is kept only if there is one. -/
theorem leads_keep (hAttempt : Simulates stream policy attempt peg) {reader : Reader}
    (hReady : reader.Ready stream policy) :
    Leads attempt.keep reader
      (fun found after => after.Ready stream policy ∧
        match found with
        | none => after.cursor = reader.cursor ∧ reader.verdict stream peg = some .unmatched
        | some m => ∃ consumed, reader.verdict stream peg = some (.matched m consumed) ∧
          after.cursor = { reader.cursor with position := reader.cursor.position + consumed })
      (fun halt after => after.cursor = reader.cursor ∧
        halt.Shows (reader.verdict stream peg)) := by
  rw [keep]
  refine (hAttempt.leads_onFork hReady).bind (fun _ _ h => h) ?_
  rintro ⟨found, fork⟩ after ⟨hCursor, hAfter, hFound⟩
  cases found with
  | none => exact ⟨hAfter, hCursor, hFound⟩
  | some m =>
    obtain ⟨consumed, hVerdict, hFork⟩ := hFound
    rw [← hCursor] at hFork
    refine (leads_commit_ready hAfter hFork).bind (fun _ _ h => h.elim) ?_
    rintro - last ⟨hLast, hReady⟩
    refine ⟨hReady, consumed, hVerdict, ?_⟩
    rw [hLast, hCursor]

theorem simulates_keep (hAttempt : Simulates stream policy attempt peg) :
    Simulates stream policy attempt.keep peg where
  steady := steady_keep hAttempt.steady
  leads := by
    intro reader hReady
    refine (leads_keep hAttempt hReady).mono ?_ (fun _ _ h => h.2)
    rintro found after ⟨hAfter, hFound⟩
    cases found with
    | none => exact hFound.2
    | some m =>
      obtain ⟨consumed, hVerdict, hCursor⟩ := hFound
      exact ⟨consumed, hVerdict, by rw [hCursor], hAfter⟩

/-- Another attempt from the same place, if the first one does not match. -/
theorem simulates_orElse {body : Option Match → Attempt} {other : Peg Match}
    (hAttempt : Simulates stream policy attempt peg) (hSome : ∀ m, body (some m) = pure (some m))
    (hNone : Simulates stream policy (body none) other) :
    Simulates stream policy (attempt.keep >>= body) (peg.orElse other) where
  steady := (steady_keep hAttempt.steady).bind fun found => by
    cases found with
    | none => exact hNone.steady
    | some m =>
      rw [hSome]
      exact .pure _
  leads := by
    intro reader hReady
    simp only [Reader.verdict, Peg.orElse]
    refine (leads_keep hAttempt hReady).bind ?_ ?_
    · exact fun halt _ hShows => hShows.2.bind fun _ => rfl
    · rintro found middle ⟨hMiddle, hFound⟩
      cases found with
      | none =>
        obtain ⟨hCursor, hVerdict⟩ := hFound
        have hOther := hNone.leads middle hMiddle
        rw [Reader.verdict] at hVerdict
        simp only [Reader.verdict, hCursor] at hOther
        simp only [hVerdict]
        exact hOther
      | some m =>
        obtain ⟨consumed, hVerdict, hCursor⟩ := hFound
        rw [Reader.verdict] at hVerdict
        rw [hSome, hVerdict]
        exact ⟨consumed, rfl, by rw [hCursor], hMiddle⟩

end Attempt

end StreamMatch
