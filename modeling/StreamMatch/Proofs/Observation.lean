import StreamMatch.Cursor.Reading
import StreamMatch.Proofs.Decoding

/-!
What a cursor that reads finds out. Each way of reading is a function of the position and of what
the stream holds from there on (`Reading.Observes`): neither the pieces in which the source
delivers, nor what has been discarded before the cursor, has any part in it. A cursor that lies
before the window is told so, and nothing else comes of its reading.
-/

namespace StreamMatch

namespace Window

/-- Every window lies over some stream: of the bytes before its start nothing is known. -/
theorem exists_over (window : Window) : ∃ stream, window.Over stream := by
  refine ⟨List.replicate window.start 0 ++ window.ahead, ?_, ?_⟩
  · rw [List.length_append, List.length_replicate]
    omega
  · rw [List.drop_append_of_le_length (by simp), List.drop_of_length_le (by simp),
      List.nil_append]

theorem Over.drop_eq {window : Window} {stream : List UInt8} (hOver : window.Over stream)
    {offset : Nat} (hOffset : window.start ≤ offset) :
    window.ahead.drop (offset - window.start) = stream.drop offset := by
  rw [← hOver.drop_start, List.drop_drop, Nat.add_sub_cancel' hOffset]

theorem leads_relative (offset : Nat) (window : Window) :
    Leads (relative offset) window
      (fun distance after => after = window ∧ window.start ≤ offset ∧
        distance = offset - window.start)
      (fun fault after => after = window ∧ offset < window.start ∧
        fault = .reclaimed offset window.start) := by
  simp only [relative, leads_bind, leads_get]
  split
  · next hBefore => exact ⟨rfl, hBefore, rfl⟩
  · next hBefore => exact ⟨rfl, Nat.not_lt.1 hBefore, rfl⟩

/-- At every distance into a window the action finds what `find` says of the offset and of the
bytes ahead there, and the bytes that this spans have been read. -/
def Finds {α : Type} (action : (distance : Nat) → Windowed α)
    (find : DecodePolicy → (offset : Nat) → List UInt8 → Except Fault α) (width : α → Nat) : Prop :=
  ∀ distance window,
    Leads (action distance) window
      (fun value after => Continues window after ∧
        find window.config.policy (window.start + distance) (window.ahead.drop distance) =
          .ok value ∧
        distance + width value ≤ max distance after.length)
      (fun fault after => Continues window after ∧
        (¬ window.source.Calm ∨
          find window.config.policy (window.start + distance) (window.ahead.drop distance) =
            .error fault))

theorem finds_peek (count : Nat) :
    Finds (peek · count) (fun _ _ rest => .ok (rest.take count)) List.length := by
  intro distance window
  exact (leads_peek distance count window).mono (fun _ _ h => ⟨h.1, by rw [h.2.1], h.2.2⟩)
    (fun _ _ h => ⟨h.1, .inl h.2⟩)

theorem finds_decode (count : Nat) :
    Finds (decode · count) (fun policy offset rest => Utf8.decode policy offset count rest)
      Decoded.length :=
  fun distance window => leads_decode distance count window

theorem finds_end :
    Finds (fun distance => do fill (distance + 1); return decide ((← get).length ≤ distance))
      (fun _ _ rest => .ok rest.isEmpty) (fun _ => 0) := by
  intro distance window
  refine (leads_fill (distance + 1) window).bind (fun _ _ h => ⟨h.1, .inl h.2⟩) ?_
  rintro - after ⟨hAfter, hEnough⟩
  refine ⟨hAfter, ?_, Nat.le_max_left _ _⟩
  have hLength := after.length_le_length_ahead
  have hRetained := after.length_retained
  dsimp only
  rw [← hAfter.ahead_eq]
  rcases hEnough with hEnough | hEnded
  · have hRest : after.ahead.drop distance ≠ [] := by
      rw [Ne, List.drop_eq_nil_iff]
      omega
    rw [List.isEmpty_eq_false_iff.2 hRest, decide_eq_false (by omega)]
  · rw [hEnded]
    by_cases hDistance : after.length ≤ distance
    · rw [List.drop_of_length_le (by omega), decide_eq_true hDistance, List.isEmpty_nil]
    · have hRest : after.retained.drop distance ≠ [] := by
        rw [Ne, List.drop_eq_nil_iff]
        omega
      rw [List.isEmpty_eq_false_iff.2 hRest, decide_eq_false hDistance]

end Window

/-- What there is to find out at an offset of the stream with these bytes ahead: a fault, or a
result and how far the cursor moves. -/
abbrev Look (α : Type) :=
  DecodePolicy → (offset : Nat) → List UInt8 → Except Fault (α × Nat)

/-- A reader further on, over a later state of its window. -/
def Reader.further (reader : Reader) (window : Window) (moved : Nat) : Reader :=
  { reader with
    window
    cursor := { reader.cursor with position := reader.cursor.position + moved } }

/-- A cursor never has more ahead of it than what the window and the source may still have. -/
theorem Reader.end_lt_remaining (reader : Reader) :
    reader.window.start + reader.window.ahead.length <
      reader.cursor.position + (reader.remaining + 1) := by
  have hAhead : reader.window.ahead.length ≤ reader.window.length + reader.window.source.size := by
    rw [Window.ahead, List.length_append, Window.length_retained]
    split
    · exact Nat.add_le_add_left (Nat.zero_le _) _
    · exact Nat.add_le_add_left reader.window.source.length_content_le_size _
  rw [Reader.remaining]
  omega

namespace Reading

variable {α β : Type}

@[simp]
theorem leads_position {reader : Reader} {returned : Nat → Reader → Prop}
    {halted : Halt → Reader → Prop} :
    Leads position reader returned halted ↔ returned reader.cursor.position reader :=
  Iff.rfl

@[simp]
theorem leads_moveTo {offset : Nat} {reader : Reader} {returned : Unit → Reader → Prop}
    {halted : Halt → Reader → Prop} :
    Leads (moveTo offset) reader returned halted ↔
      returned () { reader with cursor := { reader.cursor with position := offset } } :=
  Iff.rfl

@[simp]
theorem leads_onWindow {action : Windowed α} {reader : Reader} {returned : α → Reader → Prop}
    {halted : Halt → Reader → Prop} :
    Leads (onWindow action) reader returned halted ↔
      Leads action reader.window (fun value window => returned value { reader with window })
        (fun fault window => halted (.fault fault) { reader with window }) := by
  simp only [Leads, onWindow]
  cases action reader.window <;> rfl

/-- At every reader the action finds out what `look` says of the stream, and reads no more of the
source than that. Of a cursor before the window only this comes to light. A source that is not calm
may fault instead. -/
def Observes (action : Reading α) (look : Look α) : Prop :=
  ∀ reader stream, reader.window.Over stream →
    Leads action reader
      (fun value after => ∃ window moved,
        after = reader.further window moved ∧ reader.window.Continues window ∧
        reader.window.start ≤ reader.cursor.position ∧
        look reader.window.config.policy reader.cursor.position
          (stream.drop reader.cursor.position) = .ok (value, moved) ∧
        reader.cursor.position + moved ≤
          max reader.cursor.position (window.start + window.length))
      (fun halt after => ∃ window fault,
        halt = .fault fault ∧ after = reader.further window 0 ∧
        reader.window.Continues window ∧
        (reader.cursor.position < reader.window.start ∧ window = reader.window ∧
            fault = .reclaimed reader.cursor.position reader.window.start ∨
          reader.window.start ≤ reader.cursor.position ∧
            (¬ reader.window.source.Calm ∨
              look reader.window.config.policy reader.cursor.position
                (stream.drop reader.cursor.position) = .error fault)))

/-- An answer computed from what was found out. -/
theorem Observes.map {action : Reading α} {look : Look α} (hObserves : Observes action look)
    (answer : α → β) :
    Observes (do return answer (← action)) fun policy offset rest =>
      (look policy offset rest).map fun found => (answer found.1, found.2) := by
  intro reader stream hOver
  refine (hObserves reader stream hOver).bind ?_ ?_
  · rintro halt after ⟨window, fault, rfl, rfl, hWindow, hCases⟩
    refine ⟨window, fault, rfl, rfl, hWindow, hCases.imp_right fun h => ⟨h.1, ?_⟩⟩
    exact h.2.imp_right fun hLook => congrArg (Except.map _) hLook
  · rintro value after ⟨window, moved, rfl, hWindow, hStart, hLook, hEnd⟩
    exact ⟨window, moved, rfl, hWindow, hStart, congrArg (Except.map _) hLook, hEnd⟩

section

variable {action : (distance : Nat) → Windowed α}
  {find : DecodePolicy → (offset : Nat) → List UInt8 → Except Fault α} {width : α → Nat}

theorem leads_found (hFinds : Window.Finds action find width) {reader : Reader}
    {stream : List UInt8} (hOver : reader.window.Over stream) :
    Leads (do let offset ← position; onWindow (do action (← Window.relative offset))) reader
      (fun value after => ∃ window,
        after = reader.further window 0 ∧ reader.window.Continues window ∧
        reader.window.start ≤ reader.cursor.position ∧
        find reader.window.config.policy reader.cursor.position
          (stream.drop reader.cursor.position) = .ok value ∧
        reader.cursor.position + width value ≤
          max reader.cursor.position (window.start + window.length))
      (fun halt after => ∃ window fault,
        halt = .fault fault ∧ after = reader.further window 0 ∧
        reader.window.Continues window ∧
        (reader.cursor.position < reader.window.start ∧ window = reader.window ∧
            fault = .reclaimed reader.cursor.position reader.window.start ∨
          reader.window.start ≤ reader.cursor.position ∧
            (¬ reader.window.source.Calm ∨
              find reader.window.config.policy reader.cursor.position
                (stream.drop reader.cursor.position) = .error fault))) := by
  simp only [leads_bind, leads_position, leads_onWindow]
  refine (Window.leads_relative _ _).mono ?_ ?_
  · rintro distance _ ⟨rfl, hStart, rfl⟩
    have hFound := hFinds (reader.cursor.position - reader.window.start) reader.window
    rw [hOver.drop_eq hStart, Nat.add_sub_cancel' hStart] at hFound
    refine hFound.mono ?_ ?_
    · rintro value window ⟨hWindow, hFind, hWidth⟩
      have hSame := hWindow.start_eq
      exact ⟨window, rfl, hWindow, hStart, hFind, by omega⟩
    · rintro fault window ⟨hWindow, hFault⟩
      exact ⟨window, fault, rfl, rfl, hWindow, .inr ⟨hStart, hFault⟩⟩
  · rintro fault _ ⟨rfl, hStale, rfl⟩
    exact ⟨reader.window, _, rfl, rfl, .refl _, .inl ⟨hStale, rfl, rfl⟩⟩

/-- A cursor that looks without moving. -/
theorem observes_of_finds (hFinds : Window.Finds action find width) :
    Observes (do let offset ← position; onWindow (do action (← Window.relative offset)))
      fun policy offset rest => (find policy offset rest).map (·, 0) := by
  intro reader stream hOver
  refine (leads_found hFinds hOver).mono ?_ ?_
  · rintro value after ⟨window, rfl, hWindow, hStart, hFind, -⟩
    exact ⟨window, 0, rfl, hWindow, hStart, congrArg (Except.map _) hFind, Nat.le_max_left _ _⟩
  · rintro halt after ⟨window, fault, rfl, rfl, hWindow, hCases⟩
    refine ⟨window, fault, rfl, rfl, hWindow, hCases.imp_right fun h => ⟨h.1, ?_⟩⟩
    exact h.2.imp_right fun hFind => congrArg (Except.map _) hFind

/-- A cursor that moves past what it has found. -/
theorem observes_of_finds_moving (hFinds : Window.Finds action find width) (answer : α → β) :
    Observes
      (do
        let value ← do let offset ← position; onWindow (do action (← Window.relative offset))
        moveTo ((← position) + width value)
        return answer value)
      fun policy offset rest =>
        (find policy offset rest).map fun value => (answer value, width value) := by
  intro reader stream hOver
  refine (leads_found hFinds hOver).bind ?_ ?_
  · rintro halt after ⟨window, fault, rfl, rfl, hWindow, hCases⟩
    refine ⟨window, fault, rfl, rfl, hWindow, hCases.imp_right fun h => ⟨h.1, ?_⟩⟩
    exact h.2.imp_right fun hFind => congrArg (Except.map _) hFind
  · rintro value after ⟨window, rfl, hWindow, hStart, hFind, hWidth⟩
    exact ⟨window, width value, rfl, hWindow, hStart, congrArg (Except.map _) hFind, hWidth⟩

end

theorem observes_peek (count : Nat) :
    Observes (peek count) fun _ _ rest => .ok (rest.take count, 0) :=
  observes_of_finds (Window.finds_peek count)

theorem observes_peekChars (count : Nat) :
    Observes (peekChars count) fun policy offset rest =>
      (Utf8.decode policy offset count rest).map (·, 0) :=
  observes_of_finds (Window.finds_decode count)

theorem observes_read (count : Nat) :
    Observes (read count) fun _ _ rest => .ok (rest.take count, (rest.take count).length) :=
  observes_of_finds_moving (Window.finds_peek count) id

theorem observes_readChars (count : Nat) :
    Observes (readChars count) fun policy offset rest =>
      (Utf8.decode policy offset count rest).map fun decoded => (decoded.chars, decoded.length) :=
  observes_of_finds_moving (Window.finds_decode count) Decoded.chars

theorem observes_advance (count : Nat) :
    Observes (advance count) fun _ _ rest =>
      .ok ((rest.take count).length, (rest.take count).length) :=
  (observes_read count).map List.length

theorem observes_isAtEnd :
    Observes isAtEnd fun _ _ rest => .ok (rest.isEmpty, 0) :=
  observes_of_finds Window.finds_end

end Reading

end StreamMatch
