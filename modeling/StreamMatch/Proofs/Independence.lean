import StreamMatch.Proofs.Safekeeping
import StreamMatch.Proofs.StreamDeterminedScripts

/-!
What has been read before makes no difference. A run that is made after others have read ahead in
the window does what it would have done before them, and leaves its cursor in the same place
(`Reading.Foreseeable.leads_again`). So attempts that are made one after the other from the same
place have nothing to do with each other (`Reading.Foreseeable.leads_onFork_again`).
-/

namespace StreamMatch

namespace Window

variable {base window : Window} {less want : Nat}

/-- Where a demand can be met, so can a smaller one. -/
theorem exists_fill_of_le (hLess : less ≤ want) (hFill : fill want base = .ok () window) :
    ∃ between, fill less base = .ok () between := by
  have hBoth := fill_fill hLess base
  rw [hFill] at hBoth
  cases hRun : fill less base with
  | ok _ between => exact ⟨between, rfl⟩
  | error fault between =>
    simp only [bind, EStateM.bind, hRun] at hBoth
    cases hBoth

/-- A demand that comes after another one does what the greater of the two does. -/
theorem fill_max (hFill : fill want base = .ok () window) (need : Nat) :
    fill (max want need) base = fill need window := by
  rcases Nat.le_total need want with hLess | hMore
  · have hFilled := (leads_fill_draws want base).of_ok hFill
    rw [Nat.max_eq_left hLess, hFill, fill_of_filled (hFilled.2.mono hLess)]
  · have hBoth := fill_fill hMore base
    simp only [bind, EStateM.bind, hFill] at hBoth
    rw [Nat.max_eq_right hMore, hBoth]

end Window

/-- The cursor is not stale, that is, not before the window, and it is not past what has been read,
as no cursor of a session ever is (`Session.Follows.delivered`). -/
structure Reader.Inside (reader : Reader) : Prop where
  retains : reader.Retains
  le_end : reader.cursor.position ≤ reader.window.start + reader.window.length

namespace Reading

open Window

/-- The reader has got on from the window `base` by a demand for so many bytes, and by nothing
else. -/
def Reached (base : Window) (want : Nat) (reader : Reader) : Prop :=
  fill want base = .ok () reader.window

variable {α : Type} {base : Window} {less more : Nat} {early late reader : Reader}

theorem reached_self (reader : Reader) : Reached reader.window reader.window.length reader :=
  fill_of_filled (.inl (Nat.le_refl _))

theorem Reached.scene (hReached : Reached base more reader) :
    Scene base more reader.cursor reader := by
  obtain ⟨hDraws, hFilled⟩ := (leads_fill_draws more base).of_ok hReached
  exact ⟨(Alike.refl base).of_draws hDraws, hFilled, rfl⟩

section Again

variable (hEarly : Reached base less early) (hLate : Reached base more late) (hMore : less ≤ more)

include hEarly hLate hMore

/-- What the later reader finds read, or reads, the earlier one can read as well, and where a demand
goes further than the later reader has got, it is the same demand from both. -/
theorem Reached.fill_both (need : Nat) :
    (∃ sooner later, fill need early.window = .ok () sooner ∧ fill need late.window = .ok () later ∧
        fill (max more need) base = .ok () later) ∨
      ∃ fault window, fill need early.window = .error fault window ∧
        fill need late.window = .error fault window := by
  have hBefore := fill_max hEarly need
  have hAfter := fill_max hLate need
  cases hFill : fill need late.window with
  | ok _ later =>
    rw [hFill] at hAfter
    obtain ⟨sooner, hSooner⟩ := exists_fill_of_le (by omega : max less need ≤ max more need) hAfter
    exact .inl ⟨sooner, later, hBefore ▸ hSooner, rfl, hAfter⟩
  | error fault window =>
    have hFurther : ¬ need ≤ more := by
      intro hLess
      rw [fill_of_filled (hLate.scene.filled.mono hLess)] at hFill
      cases hFill
    refine .inr ⟨fault, window, ?_, rfl⟩
    rw [← hBefore, Nat.max_eq_right (by omega), ← hFill, ← hAfter, Nat.max_eq_right (by omega)]

variable {handed : Prop} {action : Reading α} (hAction : Foreseeable handed action)
  (hCursor : late.cursor = early.cursor)

include hAction hCursor

/-- A run later on does what a run from the same place did before, or would have done. -/
theorem Foreseeable.leads_again (hPlaced : Placed base less early.cursor) :
    LeadsUndisturbed handed action late
      (fun value after => (∃ need, more ≤ need ∧ Reached base need after ∧
          Onward base early.cursor need after.cursor) ∧
        ∃ sooner, action early = .ok value sooner ∧ sooner.cursor = after.cursor ∧
          Undisturbed handed early sooner)
      (fun halt _ => ∃ sooner, action early = .error halt sooner) := by
  obtain ⟨⟨outcome, need, last⟩, hNeed, hTakes, hEnd⟩ := hAction.foretold hPlaced
  have hFirst := hTakes early hEarly.scene
  have hScene : Scene base less early.cursor late := by
    obtain ⟨hAlike, hFilled, -⟩ := hLate.scene
    exact ⟨hAlike, hFilled.mono hMore, hCursor⟩
  have hSecond := hTakes late hScene
  obtain ⟨between, window, hSooner, hLater, hBoth⟩ | ⟨fault, window, hSooner, hLater⟩ :=
    hEarly.fill_both hLate hMore need
  · obtain ⟨reports, hSoonerRun⟩ := hFirst.of_ok hSooner
    obtain ⟨reports', hLaterRun⟩ := hSecond.of_ok hLater
    cases outcome with
    | ok value =>
      have hOnward := Onward.mono hEnd (Nat.le_max_right more need)
      have hStill := Nat.le_of_eq (failuresAhead_of_finish hSooner last reports).symm
      exact .returns hLaterRun fun _ =>
        ⟨⟨max more need, Nat.le_max_left _ _, hBoth, hOnward⟩, _, hSoonerRun, rfl, .inr hStill⟩
    | error halt => exact .halts hLaterRun fun _ => ⟨_, hSoonerRun⟩
  · apply (hSecond.of_error hLater).leads_disturbed.mono
    · exact fun _ _ hNever => hNever.elim
    · rintro halt after ⟨hHanded, rfl, -⟩
      obtain ⟨stopped, reports, hSoonerRun⟩ := (hFirst.of_error hSooner).exists_eq hHanded
      exact ⟨_, hSoonerRun⟩

/-- The other way round, a run that did well before does so again. -/
theorem Foreseeable.leads_later (hPlaced : Placed base less early.cursor) {value : α}
    {sooner : Reader} (hSooner : action early = .ok value sooner)
    (hStill : Undisturbed handed early sooner) :
    Leads action late
      (fun value' after => value' = value ∧ after.cursor = sooner.cursor ∧
        ∃ need, more ≤ need ∧ Reached base need after ∧
          Onward base early.cursor need after.cursor)
      (fun _ _ => False) := by
  obtain ⟨⟨outcome, need, last⟩, hNeed, hTakes, hEnd⟩ := hAction.foretold hPlaced
  have hFirst := hTakes early hEarly.scene
  have hScene : Scene base less early.cursor late := by
    obtain ⟨hAlike, hFilled, -⟩ := hLate.scene
    exact ⟨hAlike, hFilled.mono hMore, hCursor⟩
  obtain ⟨between, window, hBetween, hLater, hBoth⟩ | ⟨fault, window, hBetween, -⟩ :=
    hEarly.fill_both hLate hMore need
  · obtain ⟨reports, hSoonerRun⟩ := hFirst.of_ok hBetween
    obtain ⟨reports', hLaterRun⟩ := (hTakes late hScene).of_ok hLater
    rw [hSooner] at hSoonerRun
    cases outcome with
    | ok value' =>
      cases hSoonerRun
      have hOnward := Onward.mono hEnd (Nat.le_max_right more need)
      exact .returns hLaterRun ⟨rfl, rfl, max more need, Nat.le_max_left _ _, hBoth, hOnward⟩
    | error halt => cases hSoonerRun
  · exact ((hFirst.of_error hBetween).leads_disturbed.of_ok hSooner hStill).elim

end Again

/-- On a fork as well, and so the cursor at hand may be a root. -/
theorem Foreseeable.leads_onFork_again {handed : Prop} {action : Reading α}
    (hAction : Foreseeable handed action) (hEarly : Reached base less early)
    (hLate : Reached base more late) (hMore : less ≤ more) (hCursor : late.cursor = early.cursor)
    (hPlaced : Placed base less early.cursor.fork) :
    LeadsUndisturbed handed (Reading.onFork action) late
      (fun result after => after.cursor = late.cursor ∧
        (∃ need, more ≤ need ∧ Reached base need after ∧
          Onward base early.cursor.fork need result.2) ∧
        ∃ sooner, Reading.onFork action early = .ok result sooner ∧
          Undisturbed handed early sooner)
      (fun halt _ => ∃ sooner, Reading.onFork action early = .error halt sooner) := by
  have hEarly : Reached base less { early with cursor := early.cursor.fork } := hEarly
  have hLate : Reached base more { late with cursor := late.cursor.fork } := hLate
  have hFork := hAction.leads_again hEarly hLate hMore (congrArg Cursor.fork hCursor) hPlaced
  apply leads_onFork.2
  apply Leads.mono hFork
  · intro value after hAfter hStill
    obtain ⟨hReached, sooner, hSooner, hSame, hSoonerStill⟩ := hAfter hStill
    refine ⟨rfl, hReached, { sooner with cursor := early.cursor }, ?_, hSoonerStill⟩
    simp only [Reading.onFork, hSooner, hSame]
  · intro halt after hAfter hStill
    obtain ⟨sooner, hSooner⟩ := hAfter hStill
    exact ⟨{ sooner with cursor := early.cursor }, by simp only [Reading.onFork, hSooner]⟩

theorem Foreseeable.leads_onFork_later {handed : Prop} {action : Reading α}
    (hAction : Foreseeable handed action) (hEarly : Reached base less early)
    (hLate : Reached base more late) (hMore : less ≤ more) (hCursor : late.cursor = early.cursor)
    (hPlaced : Placed base less early.cursor.fork) {result : α × Cursor} {sooner : Reader}
    (hSooner : Reading.onFork action early = .ok result sooner)
    (hStill : Undisturbed handed early sooner) :
    Leads (Reading.onFork action) late
      (fun result' after => result' = result ∧ after.cursor = late.cursor ∧
        ∃ need, more ≤ need ∧ Reached base need after ∧
          Onward base early.cursor.fork need result.2)
      (fun _ _ => False) := by
  have hEarly : Reached base less { early with cursor := early.cursor.fork } := hEarly
  have hLate : Reached base more { late with cursor := late.cursor.fork } := hLate
  apply leads_onFork.2
  simp only [Reading.onFork] at hSooner
  split at hSooner
  · next value between hRun =>
    cases hSooner
    apply (hAction.leads_later hEarly hLate hMore (congrArg Cursor.fork hCursor) hPlaced hRun
      hStill).mono
    · rintro value' after ⟨rfl, hSame, hReached⟩
      rw [hSame] at hReached ⊢
      exact ⟨rfl, rfl, hReached⟩
    · exact fun _ _ hNever => hNever
  · cases hSooner

/-- A fork that went on from the cursor at hand can be committed to it. At a root this discards what
lies before. -/
theorem exists_commit_eq {need : Nat} {fork : Cursor} (hReached : Reached base need reader)
    (hStart : base.start ≤ reader.cursor.position)
    (hFork : Onward base reader.cursor.fork need fork) :
    ∃ count, (reader.cursor.depth ≠ 0 → count = 0) ∧
      commit fork reader = .ok () { reader with
        window := reader.window.discard count
        cursor := { reader.cursor with position := fork.position } } := by
  have hRetained : reader.window.start ≤ fork.position := by
    rw [hReached.scene.alike.start_eq]
    exact Nat.le_trans hStart hFork.position_le
  have hDepth : fork.depth = reader.cursor.depth + 1 := hFork.depth_eq
  by_cases hRoot : reader.cursor.depth = 0
  · refine ⟨fork.position - reader.window.start, absurd hRoot, ?_⟩
    rw [commit_eq, if_pos hDepth, if_neg (by simp [hRoot]), if_pos hRetained]
  · refine ⟨0, fun _ => rfl, ?_⟩
    rw [commit_eq, if_pos hDepth, if_pos hRoot, discard_zero]

/-- A cursor can be moved past bytes that there are to read. -/
theorem advance_eq_of_fill (reader : Reader) {count : Nat} {window : Window}
    (hRetains : reader.Retains)
    (hFill : fill (reader.cursor.position - reader.window.start + count) reader.window =
      .ok () window)
    (hEnough : reader.cursor.position - reader.window.start + count ≤
      reader.window.ahead.length) :
    advance count reader = .ok count (reader.further window count) := by
  obtain ⟨hDraws, hFilled⟩ := (leads_fill_draws _ _).of_ok hFill
  have hLength : (window.slice (reader.cursor.position - reader.window.start) count).length =
      count := by
    rw [((Alike.refl _).of_draws hDraws).slice_eq hFilled, List.length_take, List.length_drop]
    omega
  have hPeek : peek count reader =
      .ok (window.slice (reader.cursor.position - reader.window.start) count)
        { reader with window } := by
    change onWindow (Window.peekAt reader.cursor.position count) reader = _
    simp only [onWindow, Window.peekAt, Window.peek, bind, EStateM.bind, relative_eq hRetains,
      hFill]
    rfl
  simp only [advance, read, bind, EStateM.bind, hPeek]
  change EStateM.Result.ok (window.slice _ count).length
    (reader.further window (window.slice _ count).length) = _
  rw [hLength]

/-- A fork can be moved to any place that a later reader has got to. -/
theorem exists_advance_eq {place : Nat} (hRetains : reader.Retains)
    (hLate : Reached reader.window more late) (hPlace : reader.cursor.position ≤ place)
    (hReach : place ≤ reader.window.start + reader.window.reach more) :
    ∃ early,
      advance (place - reader.cursor.position) { reader with cursor := reader.cursor.fork } =
        .ok (place - reader.cursor.position) early ∧
      early.cursor = { reader.cursor.fork with position := place } ∧
      Reached reader.window (place - reader.window.start) early := by
  have hStart : reader.window.start ≤ reader.cursor.position := hRetains
  have hCount : reader.cursor.position - reader.window.start +
      (place - reader.cursor.position) = place - reader.window.start := by
    omega
  unfold reach at hReach
  obtain ⟨window, hFill⟩ :=
    exists_fill_of_le (by omega : place - reader.window.start ≤ more) hLate
  have hEnough : reader.cursor.position - reader.window.start +
      (place - reader.cursor.position) ≤ reader.window.ahead.length := by
    omega
  rw [← hCount] at hFill
  have hAdvance := advance_eq_of_fill { reader with cursor := reader.cursor.fork } hRetains hFill
    hEnough
  refine ⟨_, hAdvance, ?_, hCount ▸ hFill⟩
  simp only [Reader.further, Cursor.position_fork, Nat.add_sub_cancel' hPlace]

end Reading

open Reading in
/-- A cursor inside its window is placed there, and so is a fork of it. -/
theorem Reader.Inside.placed_fork {reader : Reader} (hInside : reader.Inside) :
    Placed reader.window reader.window.length reader.cursor.fork := by
  have hAhead := reader.window.length_le_length_ahead
  have hEnd := hInside.le_end
  refine ⟨Nat.succ_ne_zero _, hInside.retains, ?_⟩
  rw [Window.reach, Nat.min_eq_left hAhead]
  exact hEnd

end StreamMatch
