import StreamMatch.Proofs.StreamDeterminedReads

/-!
Where the cursor at hand is not before the window, a run at a root may discard what lies before it,
and moves the cursor along; below the root nothing is discarded at all. So the cursor is not before
the window afterwards either (`Reader.Serves`), whatever is read is still there, and every fork that
is committed is one generation below the cursor that it goes to (`Halt.IsFair`). This goes along
with all that matchers are made of (`Reading.safety`).
-/

namespace StreamMatch

/-- The run was not told that input is gone, and it committed no fork where it does not belong. -/
def Halt.IsFair (halt : Halt) : Prop :=
  halt ≠ .misplaced ∧ ∀ offset start, halt ≠ .fault (.reclaimed offset start)

@[simp]
theorem Halt.isFair_exhausted : Halt.exhausted.IsFair := by
  simp [IsFair]

@[simp]
theorem Halt.isFair_fault {fault : Fault} :
    (Halt.fault fault).IsFair ↔ ∀ offset start, fault ≠ .reclaimed offset start := by
  simp [IsFair]

namespace Reader

/-- The cursor is not before the window. -/
def Retains (reader : Reader) : Prop :=
  reader.window.start ≤ reader.cursor.position

/-- What holds of the reader after a run from the reader `before`: the cursor is not before the
window, and below the root the window starts where it did. The start never moves back, so that it
was there all along. -/
structure Serves (before after : Reader) : Prop where
  retains : after.Retains
  depth_eq : after.cursor.depth = before.cursor.depth
  start_le : before.window.start ≤ after.window.start
  start_eq : before.cursor.depth ≠ 0 → after.window.start = before.window.start

variable {first second third : Reader}

theorem Retains.serves (hRetains : first.Retains) : first.Serves first :=
  ⟨hRetains, rfl, Nat.le_refl _, fun _ => rfl⟩

theorem Serves.trans (hFirst : first.Serves second) (hSecond : second.Serves third) :
    first.Serves third where
  retains := hSecond.retains
  depth_eq := hSecond.depth_eq.trans hFirst.depth_eq
  start_le := Nat.le_trans hFirst.start_le hSecond.start_le
  start_eq hDeep :=
    (hSecond.start_eq (hFirst.depth_eq ▸ hDeep)).trans (hFirst.start_eq hDeep)

/-- Where the start of the window stays, so may the cursor. -/
theorem Retains.serves_of_start_eq {window : Window} (hRetains : first.Retains)
    (hStart : window.start = first.window.start) (reports : Array Report) :
    first.Serves { window, cursor := first.cursor, reports } := by
  refine ⟨?_, rfl, Nat.le_of_eq hStart.symm, fun _ => hStart⟩
  change window.start ≤ first.cursor.position
  rw [hStart]
  exact hRetains

end Reader

namespace Reading

variable {α : Type}

/-- Run at a cursor that is at least so deep and not before the window, the action leaves it there,
however it ends, and is not told that input is gone. -/
def Safe (least : Nat) (action : Reading α) : Prop :=
  ∀ reader : Reader, least ≤ reader.cursor.depth → reader.Retains →
    Leads action reader (fun _ after => reader.Serves after)
      (fun halt after => halt.IsFair ∧ reader.Serves after)

/-- Safety as a kind of claim. A fork may be committed if it is one generation below the cursor at
hand, and not before the window. -/
def safekeeping (least : Nat) : Judgement where
  State := Reader
  Runs := Leads
  Sound reader := least ≤ reader.cursor.depth ∧ reader.Retains
  Leaves before after := least ≤ after.cursor.depth ∧ before.Serves after
  Stops before halt after := halt.IsFair ∧ before.Serves after
  Committable reader fork :=
    fork.depth = reader.cursor.depth + 1 ∧ reader.window.start ≤ fork.position

variable {least : Nat}

theorem kept_safekeeping {action : Reading α} :
    (safekeeping least).Kept action ↔ Safe least action := by
  constructor
  · intro hAction reader hLeast hRetains
    exact (hAction reader ⟨hLeast, hRetains⟩).mono (fun _ _ h => h.2) (fun _ _ h => h)
  · intro hAction reader hSound
    apply (hAction reader hSound.1 hSound.2).mono
    · exact fun _ _ h => ⟨h.depth_eq ▸ hSound.1, h⟩
    · exact fun _ _ h => h

section Reads

variable {action : Reading α} {look : Look α} {reader : Reader}

/-- A run that is foretold halts for want of the source, or as it was foretold. -/
theorem Foretold.fair {returned : α → Nat → Cursor → Prop} {halted : Halt → Nat → Cursor → Prop}
    (hAction : Foretold True reader.window action 0 reader.cursor returned halted)
    (hFair : ∀ halt need last, halted halt need last → halt.IsFair) :
    Leads action reader (fun _ _ => True) (fun halt _ => halt.IsFair) := by
  have hScene : Scene reader.window 0 reader.cursor reader :=
    ⟨.refl _, .inl (Nat.zero_le _), rfl⟩
  apply Leads.mono (hAction.leads hScene)
  · exact fun _ _ _ => trivial
  · intro halt after hEnd
    obtain ⟨-, ⟨-, kind, message, rfl⟩ | ⟨need, -, hHalted⟩⟩ := hEnd (.inl trivial)
    · simp
    · exact hFair halt need _ hHalted

/-- An action that only looks at the stream, and moves the cursor on, leaves the start of the window
where it is. -/
def Mild (action : Reading α) : Prop :=
  ∀ reader : Reader, reader.Retains →
    Leads action reader
      (fun _ after => reader.Serves after ∧ after.window.start = reader.window.start)
      (fun halt after => halt.IsFair ∧ reader.Serves after ∧
        after.window.start = reader.window.start)

theorem safe_of_mild (hAction : Mild action) : Safe least action := by
  intro reader _ hRetains
  apply (hAction reader hRetains).mono
  · exact fun _ _ h => h.1
  · exact fun _ _ h => ⟨h.1, h.2.1⟩

theorem Observes.mild (hObserves : Observes action look)
    (hFair : ∀ reader : Reader, reader.Retains →
      Leads action reader (fun _ _ => True) (fun halt _ => halt.IsFair)) : Mild action := by
  intro reader hRetains
  obtain ⟨stream, hOver⟩ := reader.window.exists_over
  apply ((hObserves reader stream hOver).and (hFair reader hRetains)).mono
  · rintro value _ ⟨⟨window, moved, rfl, hWindow, -⟩, -⟩
    have hStart := hWindow.start_eq
    refine ⟨⟨?_, rfl, Nat.le_of_eq hStart.symm, fun _ => hStart⟩, hStart⟩
    change window.start ≤ reader.cursor.position + moved
    exact Nat.le_trans (hStart ▸ hRetains) (Nat.le_add_right _ _)
  · rintro halt _ ⟨⟨window, fault, -, rfl, hWindow, -⟩, hFair⟩
    exact ⟨hFair, hRetains.serves_of_start_eq hWindow.start_eq _, hWindow.start_eq⟩

theorem fair_peek (count : Nat) (hRetains : reader.Retains) :
    Leads (peek count) reader (fun _ _ => True) (fun halt _ => halt.IsFair) :=
  (foretold_peek hRetains count).fair fun _ _ _ h => h.elim

theorem fair_peekChars (count : Nat) (hRetains : reader.Retains) :
    Leads (peekChars count) reader (fun _ _ => True) (fun halt _ => halt.IsFair) := by
  apply (foretold_peekChars hRetains count).fair
  rintro halt need last ⟨-, place, rfl⟩
  simp

theorem fair_read (count : Nat) (hRetains : reader.Retains) :
    Leads (read count) reader (fun _ _ => True) (fun halt _ => halt.IsFair) :=
  (fair_peek count hRetains).bind (fun _ _ h => h) fun _ _ _ => trivial

theorem mild_peek (count : Nat) : Mild (peek count) :=
  (observes_peek count).mild fun _ => fair_peek count

theorem mild_peekChars (count : Nat) : Mild (peekChars count) :=
  (observes_peekChars count).mild fun _ => fair_peekChars count

theorem mild_read (count : Nat) : Mild (read count) :=
  (observes_read count).mild fun _ => fair_read count

theorem mild_readChars (count : Nat) : Mild (readChars count) :=
  (observes_readChars count).mild fun _ hRetains =>
    (fair_peekChars count hRetains).bind (fun _ _ h => h) fun _ _ _ => trivial

theorem mild_advance (count : Nat) : Mild (advance count) :=
  (observes_advance count).mild fun _ hRetains =>
    (fair_read count hRetains).bind (fun _ _ h => h) fun _ _ _ => trivial

theorem mild_isAtEnd : Mild isAtEnd :=
  observes_isAtEnd.mild fun _ hRetains =>
    (foretold_isAtEnd hRetains).fair fun _ _ _ h => h.elim

theorem mild_location : Mild location := by
  intro reader hRetains
  simp only [location, Window.locationAt, leads_bind, leads_position, leads_onWindow, leads_get,
    leads_pure]
  apply (Window.leads_relative _ _).mono
  · rintro distance _ ⟨rfl, -⟩
    exact ⟨hRetains.serves, rfl⟩
  · rintro fault _ ⟨-, hStale, -⟩
    exact absurd hRetains (Nat.not_le.2 hStale)

theorem mild_get : Mild (get : Reading Reader) :=
  fun _ hRetains => ⟨hRetains.serves, rfl⟩

end Reads

/-- On a fork nothing is discarded, and where it ends it can be committed. -/
theorem Safe.onFork {action : Reading α} (hAction : Safe least action) {reader : Reader}
    (hLeast : least ≤ reader.cursor.depth) (hRetains : reader.Retains) :
    Leads (Reading.onFork action) reader
      (fun result after => (safekeeping least).Awaits reader after ∧
        (safekeeping least).Committable after result.2)
      (fun halt after => halt.IsFair ∧ reader.Serves after) := by
  rw [leads_onFork]
  apply (hAction { reader with cursor := reader.cursor.fork } (Nat.le_succ_of_le hLeast)
    hRetains).mono
  · intro value after hAfter
    have hStart := hAfter.start_eq (Nat.succ_ne_zero _)
    have hServes := hRetains.serves_of_start_eq hStart after.reports
    refine ⟨⟨⟨hLeast, hServes⟩, fun fork hFork => ⟨hFork.1, ?_⟩⟩, hAfter.depth_eq, hAfter.retains⟩
    exact hStart ▸ hFork.2
  · rintro halt after ⟨hFair, hAfter⟩
    exact ⟨hFair, hRetains.serves_of_start_eq (hAfter.start_eq (Nat.succ_ne_zero _)) _⟩

/-- At a root no more is discarded than lies before the fork. -/
theorem safe_commit {fork : Cursor} {reader : Reader}
    (hDepth : fork.depth = reader.cursor.depth + 1) (hStart : reader.window.start ≤ fork.position) :
    Leads (commit fork) reader (fun _ after => reader.Serves after) (fun _ _ => False) := by
  apply (leads_commit fork reader).mono
  · rintro - _ ⟨-, ⟨hRoot, -, rfl⟩ | ⟨-, rfl⟩⟩
    · have hDiscard := reader.window.start_discard (fork.position - reader.window.start)
      refine ⟨?_, rfl, ?_, fun hDeep => absurd hRoot hDeep⟩
      · change (reader.window.discard _).start ≤ fork.position
        omega
      · change reader.window.start ≤ (reader.window.discard _).start
        omega
    · exact ⟨hStart, rfl, Nat.le_refl _, fun _ => rfl⟩
  · rintro halt _ ⟨-, ⟨hMisplaced, -⟩ | ⟨-, -, hStale, -⟩⟩
    · exact hMisplaced hDepth
    · omega

theorem safe_reclaim : Safe least reclaim := by
  intro reader _ hRetains
  apply (leads_reclaim reader).mono
  · rintro - _ (⟨hRoot, -, rfl⟩ | ⟨-, rfl⟩)
    · have hDiscard :=
        reader.window.start_discard (reader.cursor.position - reader.window.start)
      unfold Reader.Retains at hRetains
      refine ⟨?_, rfl, ?_, fun hDeep => absurd hRoot hDeep⟩
      · change (reader.window.discard _).start ≤ reader.cursor.position
        omega
      · change reader.window.start ≤ (reader.window.discard _).start
        omega
    · exact hRetains.serves
  · rintro halt _ ⟨-, -, hStale, -⟩
    exact absurd hRetains (Nat.not_le.2 hStale)

theorem safe_report (report : Report) {reader : Reader} (hLeast : least ≤ reader.cursor.depth)
    (hRetains : reader.Retains) :
    Leads (Reading.report report) reader
      (fun _ after => (safekeeping least).Awaits reader after)
      (fun halt after => halt.IsFair ∧ reader.Serves after) := by
  apply (leads_report report reader).mono
  · rintro - _ ⟨reports, rfl⟩
    exact ⟨⟨hLeast, hRetains.serves_of_start_eq rfl reports⟩, fun _ h => h⟩
  · exact fun _ _ h => h.elim

/-- Safety goes along with all that matchers are made of. -/
def safety (least : Nat) : Calculus where
  toJudgement := safekeeping least
  sound hLeaves := ⟨hLeaves.1, hLeaves.2.retains⟩
  refl hSound := ⟨hSound.1, Reader.Retains.serves hSound.2⟩
  trans hFirst hSecond := ⟨hSecond.1, hFirst.2.trans hSecond.2⟩
  stops hLeaves hStops := ⟨hStops.1, hLeaves.2.trans hStops.2⟩
  pure hReturned := hReturned
  mono := Leads.mono
  bind hAction hNext := Leads.bind hAction (fun _ _ h => h) hNext
  exhausted _ hSound := ⟨Halt.isFair_exhausted, Reader.Retains.serves hSound.2⟩
  invalidUtf8 place _ hSound := ⟨by simp, Reader.Retains.serves hSound.2⟩
  position := kept_safekeeping.2 fun _ _ hRetains => hRetains.serves
  peek count := kept_safekeeping.2 (safe_of_mild (mild_peek count))
  peekChars count := kept_safekeeping.2 (safe_of_mild (mild_peekChars count))
  read count := kept_safekeeping.2 (safe_of_mild (mild_read count))
  isAtEnd := kept_safekeeping.2 (safe_of_mild mild_isAtEnd)
  report report _ hSound := safe_report report hSound.1 hSound.2
  onFork hAction hSound := (kept_safekeeping.1 hAction).onFork hSound.1 hSound.2
  guarded primitive offset reader hScan hSound := by
    apply (primitive.leads_guarded offset reader).2
    apply ((kept_safekeeping.1 hScan).onFork hSound.1 hSound.2).mono (fun _ _ h => h)
    intro halt middle hHalted
    cases halt with
    | fault fault =>
      apply (leads_report _ middle).mono
      · rintro - _ ⟨reports, rfl⟩
        exact ⟨hHalted.1, hHalted.2.trans (hHalted.2.retains.serves_of_start_eq rfl reports)⟩
      · exact fun _ _ h => h.elim
    | misplaced => exact hHalted
    | exhausted => exact hHalted
  commit {fork reader} hFork hSound := by
    apply (safe_commit hFork.1 hFork.2).mono
    · exact fun _ after hServes => ⟨hServes.depth_eq ▸ hSound.1, hServes⟩
    · exact fun _ _ h => h.elim

end Reading

open Reading

/-- A matcher is safe if what the names of rules stand for is. -/
theorem Matcher.safe_attempt {least : Nat} {call : String → Attempt}
    (hCall : ∀ name, Safe least (call name)) (m : Matcher) : Safe least (m.attempt call) := by
  apply kept_safekeeping.1
  apply (safety least).kept_attempt
  · exact fun tag fewest most _ _ =>
      (safety least).kept_many (kept_safekeeping.2 (safe_of_mild mild_get)) tag fewest most
  · exact fun name => kept_safekeeping.2 (hCall name)

end StreamMatch
