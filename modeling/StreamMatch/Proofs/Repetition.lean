import Mathlib
import StreamMatch.Proofs.RepetitionRounds
import StreamMatch.Proofs.Retrying

/-!
Repetitions. A repetition takes one round after the other for as long as they match and move its
cursor, or until there are as many as there may be. Each of these rounds is what it would have been
alone, from where the round before it ended (`Attempt.leads_onFork_lap`). So the repetition makes as
many rounds as possible, and it runs no others but the one that puts an end to them
(`Library.many_takes_greedily`), unless a failure of the source surfaces in a script that goes on
after it.
-/

namespace StreamMatch

namespace Attempt

open Reading

section Runs

variable {handed : Prop} {element : Attempt} {separator : Option Attempt}
  {reader late after : Reader} {more need count place : Nat}

/-- Later on a reader has got to this place, on a fork of the cursor at hand, and it has done
nothing to the window but read on. -/
structure Arrives (reader : Reader) (more place : Nat) (late : Reader) : Prop where
  reached : Reached reader.window more late
  cursor_eq : late.cursor = { reader.cursor.fork with position := place }
  position_le : reader.cursor.position ≤ place
  le_reach : place ≤ reader.window.start + reader.window.reach more

theorem Arrives.position_eq (hArrives : Arrives reader more place late) :
    late.cursor.position = place := by
  rw [hArrives.cursor_eq]

/-- To read on makes no difference. -/
theorem Arrives.of_reached (hArrives : Arrives reader more place late) (hNeed : more ≤ need)
    (hReached : Reached reader.window need after) (hCursor : after.cursor = late.cursor) :
    Arrives reader need place after where
  reached := hReached
  cursor_eq := hCursor.trans hArrives.cursor_eq
  position_le := hArrives.position_le
  le_reach := Nat.le_trans hArrives.le_reach
    (Nat.add_le_add_left (reader.window.reach_mono hNeed) _)

/-- A round that is committed takes the reader to where it ended. -/
theorem Arrives.leads_commit {fork : Cursor} (hArrives : Arrives reader more place late)
    (hRetains : reader.Retains) (hFork : Onward reader.window late.cursor.fork more fork) :
    Leads (commit fork) late
      (fun _ later =>
        later = { late with cursor := { late.cursor with position := fork.position } } ∧
        Arrives reader more fork.position later)
      (fun _ _ => False) := by
  have hPlace := hArrives.position_le
  have hCursor := hArrives.cursor_eq
  have hHere := hArrives.position_eq
  have hStart : reader.window.start ≤ late.cursor.position := by
    rw [hHere]
    exact Nat.le_trans hRetains hPlace
  obtain ⟨count, hNone, hCommit⟩ := exists_commit_eq hArrives.reached hStart hFork
  have hDeep : late.cursor.depth ≠ 0 := by
    rw [hCursor]
    exact Nat.succ_ne_zero _
  rw [hNone hDeep, Window.discard_zero] at hCommit
  have hMoves : late.cursor.position ≤ fork.position := hFork.position_le
  unfold Leads
  rw [hCommit]
  refine ⟨rfl, hArrives.reached, ?_, by omega, hFork.le_reach⟩
  rw [hCursor]
section Alone

variable {early : Reader}
  (hAdvance : advance (place - reader.cursor.position)
    { reader with cursor := reader.cursor.fork } = .ok (place - reader.cursor.position) early)

include hAdvance

theorem lapAlone_of_ok {trial : Option Lap × Cursor}
    (hRun : onFork (lap element (due separator count)) early = .ok trial after) :
    LapAlone element separator reader count place trial.1 := by
  refine ⟨{ after with cursor := reader.cursor }, ?_⟩
  simp only [lapFrom, onFork, bind, EStateM.bind, position_eq, Cursor.position_fork, hAdvance]
  simp only [onFork] at hRun
  rw [hRun]
  rfl

theorem lapFrom_eq_error {halt : Halt}
    (hRun : onFork (lap element (due separator count)) early = .error halt after) :
    lapFrom element separator count place reader =
      .error halt { after with cursor := reader.cursor } := by
  simp only [lapFrom, onFork, bind, EStateM.bind, position_eq, Cursor.position_fork, hAdvance]
  simp only [onFork] at hRun
  rw [hRun]

end Alone

/-- What is known of the round that was tried at a place: it is what it would have been alone. -/
structure Tried (element : Attempt) (separator : Option Attempt) (reader late : Reader)
    (more count place : Nat) (trial : Option Lap × Cursor) (after : Reader) : Prop where
  run : onFork (lap element (due separator count)) late = .ok trial after
  cursor_eq : after.cursor = late.cursor
  alone : LapAlone element separator reader count place trial.1
  onward : ∃ need, more ≤ need ∧ Reached reader.window need after ∧
    Onward reader.window late.cursor.fork need trial.2
  places (lap : Lap) (hLap : trial.1 = some lap) : lap.start = place ∧ lap.stop = trial.2.position

/-- A round is what it would have been alone. -/
theorem leads_onFork_lap (hElement : Foreseeable handed element)
    (hSeparator : ∀ attempt ∈ separator, Foreseeable handed attempt)
    (hAdvances : Advances element) (hAdvances' : ∀ attempt ∈ separator, Advances attempt)
    (hRetains : reader.Retains) (hArrives : Arrives reader more place late) (count : Nat) :
    LeadsUndisturbed handed (onFork (lap element (due separator count))) late
      (Tried element separator reader late more count place)
      (fun halt _ => ∃ last, lapFrom element separator count place reader = .error halt last) := by
  obtain ⟨hReached, hCursor, hPlace, hReach⟩ := hArrives
  obtain ⟨early, hAdvance, hEarlyCursor, hEarly⟩ :=
    exists_advance_eq hRetains hReached hPlace hReach
  have hStart : reader.window.start ≤ place := Nat.le_trans hRetains hPlace
  have hSame : late.cursor = early.cursor := hCursor.trans hEarlyCursor.symm
  have hLess : place - reader.window.start ≤ more := by
    unfold Window.reach at hReach
    omega
  have hPlaced : Placed reader.window (place - reader.window.start) early.cursor.fork := by
    rw [hEarlyCursor]
    refine ⟨Nat.succ_ne_zero _, hStart, ?_⟩
    unfold Window.reach at hReach ⊢
    dsimp only [Cursor.fork]
    omega
  have hLap := foreseeable_lap hElement (forall_mem_due hSeparator count)
  have hAgain := hLap.leads_onFork_again hEarly hReached hLess hSame hPlaced
  have hPlaces := leads_onFork_lap_places hAdvances hAdvances' count late
  apply (hAgain.and (.of_leads (hPlaces.and (.self _ late)))).mono
  · intro trial after hTrial
    obtain ⟨⟨hAfter, hOnward, sooner, hSooner, -⟩, hPlaces, hRun⟩ := hTrial
    have hAlone := lapAlone_of_ok hAdvance hSooner
    refine ⟨hRun, hAfter, hAlone, hSame ▸ hOnward, fun lap hLap => ?_⟩
    obtain ⟨hBegins, hStops, -⟩ := hPlaces lap hLap
    rw [hCursor] at hBegins
    exact ⟨hBegins, hStops⟩
  · intro halt after hHalts
    obtain ⟨⟨sooner, hSooner⟩, -⟩ := hHalts
    exact ⟨_, lapFrom_eq_error hAdvance hSooner⟩

/-- A round that is tried does nothing to the window but read on. -/
theorem Tried.exists_arrives {trial : Option Lap × Cursor}
    (hTried : Tried element separator reader late more count place trial after)
    (hArrives : Arrives reader more place late) :
    ∃ need, Arrives reader need place after ∧
      Onward reader.window late.cursor.fork need trial.2 := by
  obtain ⟨need, hNeed, hReached, hOnward⟩ := hTried.onward
  exact ⟨need, hArrives.of_reached hNeed hReached hTried.cursor_eq, hOnward⟩

theorem Tried.start_eq {lap : Lap} {fork : Cursor}
    (hTried : Tried element separator reader late more count place (some lap, fork) after) :
    lap.start = place :=
  (hTried.places lap rfl).1

theorem Tried.stop_eq {lap : Lap} {fork : Cursor}
    (hTried : Tried element separator reader late more count place (some lap, fork) after) :
    lap.stop = fork.position :=
  (hTried.places lap rfl).2

/-- The round is committed, and with that the reader is where it ended. -/
theorem Tried.leads_commit {lap : Lap} {fork : Cursor}
    (hTried : Tried element separator reader late more count place (some lap, fork) after)
    (hRetains : reader.Retains) (hArrives : Arrives reader more place late) :
    Leads (commit fork) after
      (fun _ next => commit fork after = .ok () next ∧
        next = { after with cursor := { after.cursor with position := lap.stop } } ∧
        ∃ need, Arrives reader need lap.stop next)
      (fun _ _ => False) := by
  obtain ⟨need, hStill, hOnward⟩ := hTried.exists_arrives hArrives
  rw [hTried.stop_eq]
  have hCommit := hStill.leads_commit hRetains (hTried.cursor_eq ▸ hOnward)
  apply (hCommit.and (.self _ after)).mono
  · intro _ next hNext
    obtain ⟨⟨hSame, hNext⟩, hRun⟩ := hNext
    exact ⟨hRun, hSame, need, hNext⟩
  · exact fun _ _ hHalts => hHalts.1

/-- What a round does to a reader it does as well from a cursor that has to go to its place. -/
theorem lapsAt_cons_eq {trial : Option Lap × Cursor} {after : Reader} (rest : List Nat)
    (hRun : onFork (lap element (due separator count)) late = .ok trial after)
    (hPlace : late.cursor.position = place) (position : Nat) :
    lapsAt element separator count (place :: rest)
        { late with cursor := { late.cursor with position } } =
      lapsAt element separator (count + 1) rest
        { after with cursor := { late.cursor with position } } := by
  subst hPlace
  have hFork : onFork (do moveTo late.cursor.position; lap element (due separator count))
      { late with cursor := { late.cursor with position } } =
      .ok trial { after with cursor := { late.cursor with position } } := by
    have hMoved : (do moveTo late.cursor.position; lap element (due separator count))
        { late with cursor := Cursor.fork { late.cursor with position } } =
        lap element (due separator count) { late with cursor := late.cursor.fork } :=
      rfl
    unfold onFork at hRun ⊢
    rw [hMoved]
    cases hLap : lap element (due separator count) { late with cursor := late.cursor.fork } with
    | ok found last =>
      rw [hLap] at hRun
      cases hRun
      rfl
    | error halt last =>
      rw [hLap] at hRun
      cases hRun
  rw [lapsAt]
  change EStateM.bind (onFork _) _ _ = _
  rw [EStateM.bind, hFork]

section Making

variable {most : Option Nat} {stop : Nat} {lap : Lap} {laps : List Lap}

/-- These rounds were made by a reader that began at a place, as many as possible. They and no
others were run to get to the reader `after`. -/
structure Makes (element : Attempt) (separator : Option Attempt) (most : Option Nat)
    (reader : Reader) (count place : Nat) (late : Reader) (laps : List Lap) (stop : Nat)
    (after : Reader) : Prop where
  greedy : Greedy element separator most reader count place laps stop
  made : Made element separator most count late laps after
  arrives : ∃ need, Arrives reader need stop after
  runs (position : Nat) :
    lapsAt element separator count (places most count laps stop)
        { late with cursor := { late.cursor with position } } =
      .ok () { after with cursor := { late.cursor with position } }

/-- A round that may be made halts if it is run alone. -/
def Breaks (element : Attempt) (separator : Option Attempt) (most : Option Nat) (reader : Reader)
    (count place : Nat) (halt : Halt) : Prop :=
  ∃ laps stop last, Laps element separator reader count place laps stop ∧
    (∀ bound ∈ most, count + laps.length < bound) ∧
    lapFrom element separator (count + laps.length) stop reader = .error halt last

theorem makes_of_enough (hMost : most = some count) (hArrives : Arrives reader more place late) :
    Makes element separator most reader count place late [] place late where
  greedy := ⟨.nil count place, by simp [hMost], .inl hMost⟩
  made := .enough (by simp [hMost])
  arrives := ⟨more, hArrives⟩
  runs position := by
    have hPlaces : places most count [] place = [] := by simp [places, hMost]
    rw [hPlaces]
    rfl

/-- The round that puts an end to them is run, but it is not one of those that are made. -/
theorem makes_of_stays {trial : Option Lap × Cursor} (hFewer : ∀ bound ∈ most, count < bound)
    (hArrives : Arrives reader more place late)
    (hTried : Tried element separator reader late more count place trial after)
    (hStays : ∀ lap, trial.1 = some lap → trial.2.position = place) :
    Makes element separator most reader count place late [] place after where
  greedy := by
    refine ⟨.nil count place, fun bound hBound => Nat.le_of_lt (hFewer bound hBound), .inr ?_⟩
    exact ⟨trial.1, hTried.alone, fun lap hLap => (hTried.places lap hLap).2.trans (hStays lap hLap)⟩
  made := by
    refine .stays hFewer hTried.run fun lap hLap => ?_
    obtain ⟨hStart, hStop⟩ := hTried.places lap hLap
    rw [hStart, hStop, hStays lap hLap]
  arrives := by
    obtain ⟨need, hStill, -⟩ := hTried.exists_arrives hArrives
    exact ⟨need, hStill⟩
  runs position := by
    have hMost : most ≠ some count := by
      intro hMost
      exact absurd (hFewer count hMost) (Nat.lt_irrefl count)
    have hPlaces : places most count [] place = [place] := by simp [places, hMost]
    rw [hPlaces, lapsAt_cons_eq [] hTried.run hArrives.position_eq]
    rfl

theorem Makes.cons {middle next : Reader} {fork : Cursor}
    (hFewer : ∀ bound ∈ most, count < bound) (hArrives : Arrives reader more place late)
    (hTried : Tried element separator reader late more count place (some lap, fork) middle)
    (hMoves : place < lap.stop) (hCommit : commit fork middle = .ok () next)
    (hNext : next = { middle with cursor := { middle.cursor with position := lap.stop } })
    (hRest : Makes element separator most reader (count + 1) lap.stop next laps stop after) :
    Makes element separator most reader count place late (lap :: laps) stop after where
  greedy := .cons hTried.alone hTried.start_eq hMoves hRest.greedy
  made := .moves hFewer hTried.run (hTried.start_eq ▸ hMoves) hCommit hRest.made
  arrives := hRest.arrives
  runs position := by
    have hRuns := hRest.runs position
    rw [hNext, hTried.cursor_eq] at hRuns
    rw [places_cons, hTried.start_eq, lapsAt_cons_eq _ hTried.run hArrives.position_eq, hRuns]

theorem Breaks.cons {middle : Reader} {fork : Cursor} {halt : Halt}
    (hTried : Tried element separator reader late more count place (some lap, fork) middle)
    (hMoves : place < lap.stop)
    (hRest : Breaks element separator most reader (count + 1) lap.stop halt) :
    Breaks element separator most reader count place halt := by
  obtain ⟨laps, stop, last, hLaps, hFewer, hHalts⟩ := hRest
  rw [← length_cons_eq count lap] at hFewer hHalts
  exact ⟨lap :: laps, stop, last, .cons hTried.alone hTried.start_eq hMoves hLaps, hFewer, hHalts⟩

end Making

theorem addsNoFailure_goOn (hElement : Foreseeable handed element)
    (hSeparator : ∀ attempt ∈ separator, Foreseeable handed attempt) (most : Option Nat)
    (count allowed before : Nat) (trial : Option Lap × Cursor) :
    AddsNoFailure (goOn element separator most count allowed before trial) := by
  obtain ⟨found, fork⟩ := trial
  cases found with
  | none => exact .pure _
  | some lap =>
    have hRounds := foreseeable_rounds most hElement hSeparator (count + 1) allowed
    rw [goOn]
    split
    · exact .pure _
    · exact (steady_commit fork).addsNoFailure.bind fun _ =>
        hRounds.addsNoFailure.bind fun made => .pure _

/-- Behind a round that was tried at a place, a repetition does what it has to, if the rounds that are
left do so behind a round that moved. -/
theorem leads_goOn_greedy (hElement : Foreseeable handed element)
    (hSeparator : ∀ attempt ∈ separator, Foreseeable handed attempt) {most : Option Nat}
    {allowed : Nat} {middle : Reader} {trial : Option Lap × Cursor} (hRetains : reader.Retains)
    (hArrives : Arrives reader more place late) (hFewer : ∀ bound ∈ most, count < bound)
    (hTried : Tried element separator reader late more count place trial middle)
    (hRest : ∀ {need stop next}, place < stop → Arrives reader need stop next →
      LeadsUndisturbed handed (rounds element separator most (count + 1) allowed) next
        (fun made after => ∃ laps last,
          Makes element separator most reader (count + 1) stop next laps last after ∧
          made = (laps.flatMap Lap.content, laps.map Lap.element))
        (fun halt _ => Breaks element separator most reader (count + 1) stop halt)) :
    LeadsUndisturbed handed (goOn element separator most count allowed place trial) middle
      (fun made after => ∃ laps last,
        Makes element separator most reader count place late laps last after ∧
        made = (laps.flatMap Lap.content, laps.map Lap.element))
      (fun halt _ => Breaks element separator most reader count place halt) := by
  obtain ⟨found, fork⟩ := trial
  cases found with
  | none =>
    exact .of_leads ⟨[], place, makes_of_stays hFewer hArrives hTried (by simp), rfl⟩
  | some lap =>
    rw [goOn]
    split
    · next hSame =>
      have hStays : ∀ other, some lap = some other → fork.position = place := fun _ _ => hSame
      exact .of_leads ⟨[], place, makes_of_stays hFewer hArrives hTried hStays, rfl⟩
    · next hMoved =>
      have hMoves : place < lap.stop := by
        obtain ⟨need, -, hOnward⟩ := hTried.exists_arrives hArrives
        have hPosition := hOnward.position_le
        rw [Cursor.position_fork, hArrives.position_eq, ← hTried.stop_eq] at hPosition
        rw [← hTried.stop_eq] at hMoved
        omega
      have hRounds := foreseeable_rounds most hElement hSeparator (count + 1) allowed
      have hCommit := hTried.leads_commit hRetains hArrives
      apply (LeadsUndisturbed.of_leads hCommit).bind (steady_commit fork).addsNoFailure
        (fun _ => hRounds.addsNoFailure.bind fun made => .pure _)
      · exact fun _ _ hNever => hNever.elim
      · intro _ next hNext
        obtain ⟨hRun, hSame, need, hNext⟩ := hNext
        apply (hRest hMoves hNext).bind hRounds.addsNoFailure (fun made => .pure _)
        · exact fun _ _ hHalts => hHalts.cons hTried hMoves
        · intro made after hMade
          obtain ⟨laps, last, hMakes, rfl⟩ := hMade
          have hAll := hMakes.cons hFewer hArrives hTried hMoves hRun hSame
          exact .of_leads ⟨lap :: laps, last, hAll, rfl⟩

/-- From a place that a repetition has come to, it makes as many rounds as possible, and it runs
these and no others. It halts only where a round alone does. -/
theorem leads_rounds_greedy (hElement : Foreseeable handed element)
    (hSeparator : ∀ attempt ∈ separator, Foreseeable handed attempt)
    (hAdvances : Advances element) (hAdvances' : ∀ attempt ∈ separator, Advances attempt)
    {most : Option Nat} {allowed : Nat} (hRetains : reader.Retains)
    (hArrives : Arrives reader more place late) (hCount : ∀ bound ∈ most, count ≤ bound)
    (hAllowed : reader.window.start + reader.window.ahead.length < place + allowed) :
    LeadsUndisturbed handed (rounds element separator most count allowed) late
      (fun made after => ∃ laps stop,
        Makes element separator most reader count place late laps stop after ∧
        made = (laps.flatMap Lap.content, laps.map Lap.element))
      (fun halt _ => Breaks element separator most reader count place halt) := by
  induction allowed generalizing count place late more with
  | zero =>
    have hReach := hArrives.le_reach
    unfold Window.reach at hReach
    omega
  | succ allowed ih =>
    rw [rounds_succ_eq]
    split
    · next hEnough =>
      exact .of_leads
        ⟨[], place, makes_of_enough (eq_some_of_enough hCount hEnough) hArrives, rfl⟩
    · next hMay =>
      have hFewer := lt_of_not_enough hMay
      have hTrial : AddsNoFailure (onFork (lap element (due separator count))) :=
        (foreseeable_lap hElement (forall_mem_due hSeparator count)).addsNoFailure.onFork
      change LeadsUndisturbed handed (onFork (lap element (due separator count)) >>=
        goOn element separator most count allowed late.cursor.position) late _ _
      rw [hArrives.position_eq]
      have hLap := leads_onFork_lap hElement hSeparator hAdvances hAdvances' hRetains hArrives count
      apply hLap.bind hTrial (addsNoFailure_goOn hElement hSeparator most count allowed place)
      · intro halt after hHalts
        obtain ⟨last, hHalts⟩ := hHalts
        exact ⟨[], place, last, .nil count place, hFewer, hHalts⟩
      · intro trial middle hTried
        exact leads_goOn_greedy hElement hSeparator hRetains hArrives hFewer hTried
          fun hMoves hNext => ih hNext hFewer (by omega)

/-- What a repetition comes to that made these rounds, which left the reader `tried`. -/
structure Repeated (element : Attempt) (separator : Option Attempt) (tag : Tag) (least : Nat)
    (most : Option Nat) (reader : Reader) (laps : List Lap) (stop : Nat) (tried : Reader)
    (found : Option Match) (after : Reader) : Prop where
  greedy : Greedy element separator most reader 0 reader.cursor.position laps stop
  /-- The rounds that are made are run, with one more unless there may be none, and no others. -/
  runs : onFork (lapsAt element separator 0 (places most 0 laps stop)) reader =
    .ok ((), reader.cursor.fork) tried
  /-- Without enough of them there is no match, and nothing is left to do. -/
  too_few : laps.length < least → found = none ∧ after = tried ∧ after.cursor = reader.cursor
  /-- Enough of them make a match, and the cursor goes to where the last of them stops. -/
  enough : least ≤ laps.length →
    found = some (.composite tag reader.cursor.position (laps.flatMap Lap.content)
      (laps.map Lap.element)) ∧
    commit { reader.cursor.fork with position := stop } tried = .ok () after ∧
    after.cursor = { reader.cursor with position := stop }

section Fork

variable {most : Option Nat} {stop : Nat} {laps : List Lap} {last : Reader}

theorem arrives_fork (hInside : reader.Inside) :
    Arrives reader reader.window.length reader.cursor.position
      { reader with cursor := reader.cursor.fork } where
  reached := reached_self reader
  cursor_eq := rfl
  position_le := Nat.le_refl _
  le_reach := hInside.placed_fork.le_reach

/-- The rounds of a repetition run once more, on a fork of its cursor. -/
theorem Makes.onFork_eq (hMakes : Makes element separator most reader 0 reader.cursor.position
      { reader with cursor := reader.cursor.fork } laps stop last) :
    onFork (lapsAt element separator 0 (places most 0 laps stop)) reader =
      .ok ((), reader.cursor.fork) { last with cursor := reader.cursor } := by
  have hRuns : lapsAt element separator 0 (places most 0 laps stop)
      { reader with cursor := reader.cursor.fork } =
      .ok () { last with cursor := reader.cursor.fork } :=
    hMakes.runs reader.cursor.position
  simp only [onFork, hRuns]

/-- To commit the fork that the rounds were made on takes the cursor to where the last of them
stops. -/
theorem Makes.exists_commit_eq (hInside : reader.Inside)
    (hMakes : Makes element separator most reader 0 reader.cursor.position
      { reader with cursor := reader.cursor.fork } laps stop last) :
    ∃ after, commit { reader.cursor.fork with position := stop }
        { last with cursor := reader.cursor } = .ok () after ∧
      after.cursor = { reader.cursor with position := stop } := by
  obtain ⟨need, hReached, -, hPlace, hReach⟩ := hMakes.arrives
  have hReached : Reached reader.window need { last with cursor := reader.cursor } := hReached
  have hFork : Onward reader.window reader.cursor.fork need
      { reader.cursor.fork with position := stop } :=
    ⟨hPlace, hReach, rfl⟩
  obtain ⟨count, -, hCommit⟩ := Reading.exists_commit_eq hReached hInside.retains hFork
  exact ⟨_, hCommit, rfl⟩

end Fork

/-- A repetition comes to what its rounds come to, each run alone. -/
theorem leads_many_greedy (hElement : Foreseeable handed element)
    (hSeparator : ∀ attempt ∈ separator, Foreseeable handed attempt)
    (hAdvances : Advances element) (hAdvances' : ∀ attempt ∈ separator, Advances attempt)
    (tag : Tag) (least : Nat) (most : Option Nat) (hInside : reader.Inside) :
    LeadsUndisturbed handed (many tag least most element separator) reader
      (fun found after => ∃ laps stop tried,
        Repeated element separator tag least most reader laps stop tried found after ∧
        ∃ last, Made element separator most 0 { reader with cursor := reader.cursor.fork } laps
          last ∧ last.cursor.position = stop)
      (fun halt _ => Breaks element separator most reader 0 reader.cursor.position halt) := by
  have hAdds := (foreseeable_rounds most hElement hSeparator 0 (reader.remaining + 1)).addsNoFailure
  have hCount : ∀ bound ∈ most, 0 ≤ bound := fun bound _ => Nat.zero_le bound
  have hRounds := leads_rounds_greedy hElement hSeparator hAdvances hAdvances' hInside.retains
    (arrives_fork hInside) hCount reader.end_lt_remaining
  apply hRounds.onFork.bind hAdds.onFork
  · intro result
    obtain ⟨⟨content, elements⟩, fork⟩ := result
    dsimp only
    split
    · exact .pure none
    · exact (steady_commit fork).addsNoFailure.bind fun _ => .pure _
  · exact fun _ _ hHalts => hHalts.choose_spec
  · intro result tried hTried
    obtain ⟨last, ⟨laps, stop, hMakes, hSame⟩, hFork, rfl⟩ := hTried
    obtain ⟨made, fork⟩ := result
    dsimp only at hSame hFork
    obtain rfl := hSame
    obtain rfl := hFork
    obtain ⟨need, hArrives⟩ := hMakes.arrives
    have hMade : ∃ last, Made element separator most 0 { reader with cursor := reader.cursor.fork }
        laps last ∧ last.cursor.position = stop :=
      ⟨last, hMakes.made, hArrives.position_eq⟩
    apply LeadsUndisturbed.of_leads
    dsimp only
    rw [List.length_map, hArrives.cursor_eq]
    split
    · next hFew =>
      have hEnough : ¬ least ≤ laps.length := by omega
      exact ⟨laps, stop, _, ⟨hMakes.greedy, hMakes.onFork_eq, fun _ => ⟨rfl, rfl, rfl⟩,
        fun hLeast => absurd hLeast hEnough⟩, hMade⟩
    · next hEnough =>
      obtain ⟨after, hCommit, hCursor⟩ := hMakes.exists_commit_eq hInside
      unfold Leads
      simp only [bind, EStateM.bind, hCommit]
      exact ⟨laps, stop, _, ⟨hMakes.greedy, hMakes.onFork_eq, fun hFew => absurd hFew hEnough,
        fun _ => ⟨rfl, hCommit, hCursor⟩⟩, hMade⟩

end Runs

end Attempt

namespace Library

open Reading Attempt

section Parts

variable (library : Library) (depth : Nat)

theorem foreseeable_attempt (m : Matcher) :
    Foreseeable library.Propagates (m.attempt (library.call depth)) :=
  Matcher.foreseeable_attempt (foreseeable_call id depth) m

theorem advances_attempt (m : Matcher) : Advances (m.attempt (library.call depth)) :=
  Matcher.advances_attempt (library.advances_call depth) m

theorem forall_mem_map {property : Attempt → Prop}
    (hAll : ∀ m : Matcher, property (m.attempt (library.call depth))) (m? : Option Matcher) :
    ∀ other ∈ m?.map (·.attempt (library.call depth)), property other := by
  intro other hOther
  obtain ⟨m, -, rfl⟩ := Option.map_eq_some_iff.1 hOther
  exact hAll m

end Parts

variable (library : Library) (depth : Nat) (tag : Tag) (least : Nat) (most : Option Nat)
  (element : Matcher) (separator : Option Matcher) {reader : Reader} (hInside : reader.Inside)

include hInside

theorem leads_many :
    let attempt (m : Matcher) := m.attempt (library.call depth)
    LeadsUndisturbed library.Propagates
      ((Matcher.many tag least most element separator).attempt (library.call depth)) reader
      (fun found after => ∃ laps stop tried,
        Repeated (attempt element) (separator.map attempt) tag least most reader laps stop tried
          found after ∧
        ∃ last, Made (attempt element) (separator.map attempt) most 0
          { reader with cursor := reader.cursor.fork } laps last ∧ last.cursor.position = stop)
      (fun halt _ => Breaks (attempt element) (separator.map attempt) most reader 0
        reader.cursor.position halt) := by
  intro attempt
  have hForeseeable := library.foreseeable_attempt depth
  have hAdvances := library.advances_attempt depth
  rw [Matcher.attempt, Matcher.attempt?_eq_map]
  exact leads_many_greedy (hForeseeable element) (library.forall_mem_map depth hForeseeable separator)
    (hAdvances element) (library.forall_mem_map depth hAdvances separator) tag least most hInside

/-- Repetition is greedy, where the cursor lies in the window, as long as no failure of the source
surfaces in a script that goes on after it. There is just one way to take as many rounds as possible,
each of which, run alone from where the one before it stops, matches and moves on. With enough of
them the elements are the submatches, the contents of the rounds in a row are the content, and the
cursor goes to where the last of them stops. With fewer there is no match, and the cursor stays.
These rounds are run, with one more that puts an end to them unless there are as many as there may
be, and no others. A repetition halts only where such a round alone does. -/
theorem many_takes_greedily :
    let attempt (m : Matcher) := m.attempt (library.call depth)
    LeadsUndisturbed library.Propagates
      ((Matcher.many tag least most element separator).attempt (library.call depth)) reader
      (fun found after => ∃ laps stop tried,
        Repeated (attempt element) (separator.map attempt) tag least most reader laps stop tried
          found after ∧
        ∀ laps' stop', Greedy (attempt element) (separator.map attempt) most reader 0
          reader.cursor.position laps' stop' → laps' = laps ∧ stop' = stop)
      (fun halt _ => Breaks (attempt element) (separator.map attempt) most reader 0
        reader.cursor.position halt) := by
  intro attempt
  apply (leads_many library depth tag least most element separator hInside).mono
  · intro found after hFound
    obtain ⟨laps, stop, tried, hRepeated, -⟩ := hFound
    exact ⟨laps, stop, tried, hRepeated, fun laps' stop' => hRepeated.greedy.unique⟩
  · exact fun _ _ hBreaks => hBreaks

/-- A list that ends with its separator. -/
def dangling : Reader where
  window := .ofSource ⟨[.data [49, 44], .failure .interrupted "", .data [50, 44, 120]]⟩
  cursor := { position := 0 }

omit hInside in
/-- The separator at the end is left where it is. -/
theorem many_takes_greedily_dangling :
    let attempt (m : Matcher) := m.attempt (handing.call 1)
    let element : Matcher := .primitive (.bytes (.one .literal .asciiDigit))
    let separator : Option Matcher := some (.primitive (.literal .literal [44]))
    Leads ((Matcher.many .absent 1 (some 3) element separator).attempt (handing.call 1)) dangling
      (fun found after => (found.map (·.content), after.cursor.position) = (some [49, 44, 50], 3) ∧
        ∃ laps stop tried,
          Repeated (attempt element) (separator.map attempt) .absent 1 (some 3) dangling laps stop
            tried found after ∧
          ∀ laps' stop', Greedy (attempt element) (separator.map attempt) (some 3) dangling 0
            dangling.cursor.position laps' stop' → laps' = laps ∧ stop' = stop)
      (fun _ _ => False) := by
  intro attempt element separator
  have hInside : dangling.Inside := ⟨Nat.le_refl _, Nat.zero_le _⟩
  have hRun : Leads ((Matcher.many .absent 1 (some 3) element separator).attempt (handing.call 1))
      dangling
      (fun found after => (found.map (·.content), after.cursor.position) = (some [49, 44, 50], 3))
      (fun _ _ => False) := by
    unfold Leads
    cbv
  have hGreedily := many_takes_greedily handing 1 .absent 1 (some 3) element separator hInside
  apply (Leads.and hRun hGreedily).mono
  · exact fun _ _ hFound => ⟨hFound.1, hFound.2 (.inl propagates_handing)⟩
  · exact fun _ _ hHalts => hHalts.1

/-- A reader whose source fails once before it delivers four bytes. -/
def restarting : Reader where
  window := .ofSource ⟨[.failure .brokenPipe "broken", .data [97, 98, 99, 100]]⟩
  cursor := { position := 0 }

omit hInside in
/-- A repetition of a script that goes on after a failure of the source is no chain of rounds that
do the same alone. The first round does without its first byte, since the source fails, and the
second, alone, has the failure still before it. -/
theorem not_forall_takes_greedily :
    ¬ ∀ (library : Library) (depth : Nat) (element : Matcher) (reader : Reader), reader.Inside →
      Leads ((Matcher.many .absent 0 none element none).attempt (library.call depth)) reader
        (fun found after => ∃ laps stop tried,
          Repeated (element.attempt (library.call depth)) none .absent 0 none reader laps stop tried
            found after)
        (fun _ _ => True) := by
  intro hGreedily
  have hElement : (Matcher.rule "late").attempt (heedless.call 1) =
      late.run (·.attempt (heedless.call 0)) Script.noCursors :=
    rfl
  have hMany : (Matcher.many .absent 0 none (.rule "late") none).attempt (heedless.call 1) =
      Attempt.many .absent 0 none (late.run (·.attempt (heedless.call 0)) Script.noCursors) none :=
    rfl
  simp only [late, Script.run] at hElement hMany
  have hRun : Leads ((Matcher.many .absent 0 none (.rule "late") none).attempt (heedless.call 1))
      restarting (fun _ _ => True) fun _ _ => False := by
    rw [hMany]
    unfold Leads
    cbv
  have hFirst : Leads (lapFrom ((Matcher.rule "late").attempt (heedless.call 1)) none 0 0) restarting
      (fun found _ => found.map Lap.stop = some 1) fun _ _ => False := by
    rw [hElement]
    unfold Leads
    cbv
  have hSecond : Leads (lapFrom ((Matcher.rule "late").attempt (heedless.call 1)) none 1 1)
      restarting (fun _ _ => False) fun _ _ => True := by
    rw [hElement]
    unfold Leads
    cbv
  have hInside : restarting.Inside := ⟨Nat.le_refl _, Nat.zero_le _⟩
  have hChain := hGreedily heedless 1 (.rule "late") restarting hInside
  obtain ⟨_, _, -, laps, stop, tried, hRepeated⟩ | ⟨_, _, hNever, -⟩ := (hRun.and hChain).ends
  · obtain ⟨hLaps, -, hEnds⟩ := hRepeated.greedy
    cases hLaps with
    | nil =>
      obtain hNone | ⟨found, ⟨after, hAlone⟩, hStays⟩ := hEnds
      · cases hNone
      · obtain ⟨lap, rfl, hStop⟩ := Option.map_eq_some_iff.1 (hFirst.of_ok hAlone)
        have hStill := hStays lap rfl
        rw [hStop] at hStill
        cases hStill
    | @cons _ _ _ lap rest hLap _ _ hRest =>
      obtain ⟨after, hLap⟩ := hLap
      have hStop : lap.stop = 1 := Option.some.inj (hFirst.of_ok hLap)
      rw [hStop] at hRest
      cases hRest with
      | nil =>
        obtain hNone | ⟨found, ⟨last, hAlone⟩, -⟩ := hEnds
        · cases hNone
        · exact hSecond.of_ok hAlone
      | cons hLap' _ _ _ =>
        obtain ⟨last, hLap'⟩ := hLap'
        exact hSecond.of_ok hLap'
  · exact hNever

end Library

end StreamMatch
