import StreamMatch.Proofs.Advancing
import StreamMatch.Proofs.Independence

/-!
The rounds of a repetition. A round that is run alone says where it begins and where it ends
(`Attempt.LapAlone`), and from where one round ends the next one may be run (`Attempt.Laps`). Where
each of them has to move on, there is only one way to make as many as possible
(`Attempt.Greedy.unique`), and a round that could be made is made (`Attempt.Greedy.exists_append`).
-/

namespace StreamMatch

/-- A round of a repetition that matched, with the places that it passed. -/
structure Lap where
  /-- Where the round began. -/
  start : Nat
  /-- The match of the separator, if one was due. -/
  gap : Option Match
  /-- Where the element began. -/
  middle : Nat
  /-- The match of the element. -/
  element : Match
  /-- Where the round ended. -/
  stop : Nat

/-- What was consumed, the separator included. -/
def Lap.content (lap : Lap) : List UInt8 :=
  (lap.gap.elim [] Match.content) ++ lap.element.content

/-- The places of a round whose separator is this follow on one another. -/
structure Lap.InOrder (lap : Lap) (separator : Option Attempt) : Prop where
  start_le : lap.start ≤ lap.middle
  le_stop : lap.middle ≤ lap.stop
  isSome_gap : lap.gap.isSome = separator.isSome
  middle_eq : lap.gap = none → lap.middle = lap.start

/-- The element has consumed something, or else it comes after a separator that has. -/
def Lap.Moves (lap : Lap) : Prop :=
  lap.middle < lap.stop ∨ lap.middle = lap.stop ∧ lap.gap.isSome ∧ lap.start < lap.middle

/-- A round that moves on as a whole does so by its element or by its separator. -/
theorem Lap.InOrder.moves {lap : Lap} {separator : Option Attempt} (hOrder : lap.InOrder separator)
    (hMoves : lap.start < lap.stop) : lap.Moves := by
  rcases Nat.lt_or_ge lap.middle lap.stop with hElement | hIdle
  · exact .inl hElement
  · have hSame := Nat.le_antisymm hOrder.le_stop hIdle
    -- without a separator the element would begin where the round does, and nothing would move
    have hGap : lap.gap.isSome := by
      cases hGap : lap.gap with
      | none =>
        have hStart := hOrder.middle_eq hGap
        omega
      | some gap => rfl
    exact .inr ⟨hSame, hGap, by omega⟩

namespace Attempt

open Reading

/-- The element of a round, and what has been taken down of the round before it. -/
def lapEnd (element : Attempt) (start : Nat) (gap : Option Match) (middle : Nat) :
    Reading (Option Lap) := do
  let some m ← element | return none
  return some ⟨start, gap, middle, m, ← position⟩

/-- A round that takes down the places that it passes. -/
def lap (element : Attempt) : (separator : Option Attempt) → Reading (Option Lap)
  | none => do
    let start ← position
    lapEnd element start none start
  | some separator => do
    let start ← position
    let some gap ← separator | return none
    lapEnd element start (some gap) (← position)

/-- The separator that is due in a round that comes after so many. -/
def due (separator : Option Attempt) (count : Nat) : Option Attempt :=
  if count = 0 then none else separator

/-- The round that comes after `count` others, run alone: a fork of the cursor at hand reads its way
to the place where the round is to begin, and the round is run on a fork of that. -/
def lapFrom (element : Attempt) (separator : Option Attempt) (count place : Nat) :
    Reading (Option Lap) := do
  let ((found, _), _) ← onFork do
    let _ ← advance (place - (← position))
    onFork (lap element (due separator count))
  return found

/-- Rounds at these places, one after the other, whatever they come to. -/
def lapsAt (element : Attempt) (separator : Option Attempt) :
    (count : Nat) → List Nat → Reading Unit
  | _, [] => return
  | count, place :: rest => do
    let _ ← onFork do
      moveTo place
      lap element (due separator count)
    lapsAt element separator (count + 1) rest

section Rounds

variable {element : Attempt} {separator : Option Attempt}

theorem position_eq (reader : Reader) : position reader = .ok reader.cursor.position reader :=
  rfl

/-- To take down the places makes no difference. -/
theorem round_eq_lap (element : Attempt) (separator : Option Attempt) :
    round element separator =
      Option.map (fun lap => (lap.content, lap.element)) <$> lap element separator := by
  funext reader
  cases separator with
  | none =>
    simp only [round, lap, lapEnd, Functor.map, EStateM.map, bind, EStateM.bind, position_eq]
    cases element reader with
    | error halt after => rfl
    | ok found after => cases found <;> rfl
  | some separator =>
    simp only [round, lap, lapEnd, Functor.map, EStateM.map, bind, EStateM.bind, position_eq]
    cases separator reader with
    | error halt middle => rfl
    | ok found middle =>
      cases found with
      | none => rfl
      | some gap =>
        simp only [EStateM.bind, position_eq]
        cases element middle with
        | error halt after => rfl
        | ok found after => cases found <;> rfl

theorem onFork_map {α β : Type} (change : α → β) (action : Reading α) :
    onFork (change <$> action) = (fun result => (change result.1, result.2)) <$> onFork action := by
  funext reader
  simp only [onFork, Functor.map, EStateM.map]
  cases action { reader with cursor := reader.cursor.fork } <;> rfl

/-- What is left to do after the trial of a round that began at this place. -/
def goOn (element : Attempt) (separator : Option Attempt) (most : Option Nat)
    (count allowed before : Nat) : Option Lap × Cursor → Reading (List UInt8 × List Match)
  | (none, _) => return ([], [])
  | (some lap, fork) => do
    if fork.position = before then return ([], [])
    commit fork
    let (content, elements) ← rounds element separator most (count + 1) allowed
    return (lap.content ++ content, lap.element :: elements)

/-- The rounds that are left, if there may be more. -/
theorem rounds_succ_eq (element : Attempt) (separator : Option Attempt) (most : Option Nat)
    (count allowed : Nat) :
    rounds element separator most count (allowed + 1) = (do
      if most.any (· ≤ count) then return ([], [])
      let before ← position
      goOn element separator most count allowed before
        (← onFork (lap element (due separator count)))) := by
  rw [rounds, due, round_eq_lap, onFork_map]
  congr 1
  simp only [bind_map_left]
  congr 1
  funext before
  congr 1
  funext trial
  obtain ⟨found, fork⟩ := trial
  cases found <;> rfl

end Rounds

section Kinds

variable (C : Calculus) {element : Attempt} {separator : Option Attempt}

theorem kept_lapEnd (hElement : C.Kept element) (start : Nat) (gap : Option Match) (middle : Nat) :
    C.Kept (lapEnd element start gap middle) := by
  apply C.kept_bind hElement
  intro found
  cases found with
  | none => exact C.kept_pure none
  | some m => exact C.kept_bind C.position fun stop => C.kept_pure _

theorem kept_lap (hElement : C.Kept element) (hSeparator : ∀ attempt ∈ separator, C.Kept attempt) :
    C.Kept (lap element separator) := by
  cases separator with
  | none => exact C.kept_bind C.position fun start => kept_lapEnd C hElement start none start
  | some separator =>
    apply C.kept_bind C.position
    intro start
    apply C.kept_bind (hSeparator separator rfl)
    intro found
    cases found with
    | none => exact C.kept_pure none
    | some gap =>
      exact C.kept_bind C.position fun middle => kept_lapEnd C hElement start (some gap) middle

theorem foreseeable_lap {handed : Prop} (hElement : Foreseeable handed element)
    (hSeparator : ∀ attempt ∈ separator, Foreseeable handed attempt) :
    Foreseeable handed (lap element separator) :=
  kept_foreseeing.1 (kept_lap (foresight handed) (kept_foreseeing.2 hElement)
    fun attempt hMem => kept_foreseeing.2 (hSeparator attempt hMem))

end Kinds

section Places

variable {element : Attempt} {separator : Option Attempt} {property : Attempt → Prop}

theorem leads_lapEnd (hElement : Advances element) (start : Nat) (gap : Option Match)
    (middle : Nat) (reader : Reader) :
    Leads (lapEnd element start gap middle) reader
      (fun found after => reader.cursor.position ≤ after.cursor.position ∧
        ∀ lap, found = some lap → lap.start = start ∧ lap.gap = gap ∧ lap.middle = middle ∧
          lap.stop = after.cursor.position)
      (fun _ _ => True) := by
  apply (hElement reader).bind
  · exact fun _ _ _ => trivial
  · intro found after hAfter
    cases found with
    | none => exact ⟨hAfter, by simp⟩
    | some m =>
      refine ⟨hAfter, fun lap hLap => ?_⟩
      cases hLap
      exact ⟨rfl, rfl, rfl, rfl⟩

/-- A round begins and ends where its cursor does. Its element does not begin before it, and without
a separator it begins with the element. -/
theorem leads_lap (hElement : Advances element)
    (hSeparator : ∀ attempt ∈ separator, Advances attempt) (reader : Reader) :
    Leads (lap element separator) reader
      (fun found after => ∀ lap, found = some lap → lap.start = reader.cursor.position ∧
        lap.stop = after.cursor.position ∧ lap.InOrder separator)
      (fun _ _ => True) := by
  cases separator with
  | none =>
    apply (leads_lapEnd hElement reader.cursor.position none reader.cursor.position reader).mono
    · rintro found after ⟨hMoves, hPlaces⟩ lap hLap
      obtain ⟨hStart, hGap, hMiddle, hStop⟩ := hPlaces lap hLap
      exact ⟨hStart, hStop, by omega, by omega, by rw [hGap]; rfl, fun _ => by omega⟩
    · exact fun _ _ _ => trivial
  | some separator =>
    apply (hSeparator separator rfl reader).bind
    · exact fun _ _ _ => trivial
    · intro found between hBefore
      cases found with
      | none => exact fun lap hLap => by cases hLap
      | some gap =>
        apply (leads_lapEnd hElement reader.cursor.position (some gap) between.cursor.position
          between).mono
        · rintro found after ⟨hMoves, hPlaces⟩ lap hLap
          obtain ⟨hStart, hGap, hMiddle, hStop⟩ := hPlaces lap hLap
          exact ⟨hStart, hStop, by omega, by omega, by rw [hGap]; rfl, by simp [hGap]⟩
        · exact fun _ _ _ => trivial

/-- What is true of the separator is true of it where it is due. -/
theorem forall_mem_due (hSeparator : ∀ attempt ∈ separator, property attempt) (count : Nat) :
    ∀ attempt ∈ due separator count, property attempt := by
  unfold due
  split
  · simp
  · exact hSeparator

end Places

section Chains

variable (element : Attempt) (separator : Option Attempt) (most : Option Nat) (reader : Reader)

/-- The round that comes after so many, run alone from this place, comes to this. -/
def LapAlone (count place : Nat) (found : Option Lap) : Prop :=
  ∃ after, lapFrom element separator count place reader = .ok found after

/-- Rounds that come after `count` others, the first of them at this place. Each of them, run alone
from where the one before it stops, matches and moves on. -/
inductive Laps : (count place : Nat) → List Lap → (stop : Nat) → Prop where
  | nil (count place : Nat) : Laps count place [] place
  | cons {count place stop : Nat} {lap : Lap} {laps : List Lap}
    (hLap : LapAlone element separator reader count place (some lap)) (hStart : lap.start = place)
    (hMoves : place < lap.stop) (hRest : Laps (count + 1) lap.stop laps stop) :
    Laps count place (lap :: laps) stop

/-- As many rounds as possible, after `count` others: there are as many as there may be, or one
more, run alone from where the last of them stops, does not match or does not move on. -/
structure Greedy (count place : Nat) (laps : List Lap) (stop : Nat) : Prop where
  made : Laps element separator reader count place laps stop
  le_most : ∀ bound ∈ most, count + laps.length ≤ bound
  ends : most = some (count + laps.length) ∨
    ∃ found, LapAlone element separator reader (count + laps.length) stop found ∧
      ∀ lap, found = some lap → lap.stop = stop

/-- What is progress in rounds of which the first begins at this place, after no others. A round is
made if it moves on as a whole, whether it is the element or the separator that moves. -/
structure Progress (place : Nat) (laps : List Lap) (stop : Nat) : Prop where
  /-- An element has consumed something, or else it comes after a separator that has. -/
  moves : ∀ lap ∈ laps, lap.Moves
  /-- A round that may be made and moves on is made. -/
  made : ∀ front stop' lap, Laps element separator reader 0 place front stop' →
    (∀ bound ∈ most, front.length < bound) →
    LapAlone element separator reader front.length stop' (some lap) → stop' < lap.stop →
    ∃ rest, laps = front ++ lap :: rest
  /-- A round that may be made and still is not has not moved on. -/
  stays : most ≠ some laps.length → ∀ lap,
    LapAlone element separator reader laps.length stop (some lap) → lap.stop = stop

/-- Where rounds are run: all those that are made, and another one that puts an end to them, unless
there are as many as there may be. -/
def places (count : Nat) (laps : List Lap) (stop : Nat) : List Nat :=
  laps.map Lap.start ++ if most = some (count + laps.length) then [] else [stop]

end Chains

section Making

/-- The rounds that a run makes from this reader on, after `count` others. A round that matches and
moves on is made, and the next one is run after its commit. A round that does not match or does not
move is the last one that is run, and none is run where there are as many as there may be. -/
inductive Made (element : Attempt) (separator : Option Attempt) (most : Option Nat) :
    (count : Nat) → Reader → List Lap → Reader → Prop where
  | enough {count : Nat} {reader : Reader} (hEnough : most.any (· ≤ count)) :
    Made element separator most count reader [] reader
  | stays {count : Nat} {reader after : Reader} {found : Option Lap} {fork : Cursor}
    (hFewer : ∀ bound ∈ most, count < bound)
    (hRun : onFork (lap element (due separator count)) reader = .ok (found, fork) after)
    (hStays : ∀ lap, found = some lap → lap.stop = lap.start) :
    Made element separator most count reader [] after
  | moves {count : Nat} {reader middle next after : Reader} {lap : Lap} {laps : List Lap}
    {fork : Cursor} (hFewer : ∀ bound ∈ most, count < bound)
    (hRun : onFork (Attempt.lap element (due separator count)) reader = .ok (some lap, fork) middle)
    (hMoves : lap.start < lap.stop) (hCommit : commit fork middle = .ok () next)
    (hRest : Made element separator most (count + 1) next laps after) :
    Made element separator most count reader (lap :: laps) after

variable {element : Attempt} {separator : Option Attempt} {most : Option Nat} {count : Nat}
  {reader after : Reader} {laps : List Lap}

/-- A repetition that has not gone past its bound has reached it where it may not go on. -/
theorem eq_some_of_enough (hCount : ∀ bound ∈ most, count ≤ bound)
    (hEnough : most.any (· ≤ count) = true) : most = some count := by
  cases most with
  | none => cases hEnough
  | some bound =>
    have hReached : bound ≤ count := by simpa using hEnough
    exact congrArg some (Nat.le_antisymm hReached (hCount bound rfl))

theorem lt_of_not_enough (hMay : ¬ most.any (· ≤ count) = true) :
    ∀ bound ∈ most, count < bound := by
  intro bound hBound
  rw [Option.mem_def.1 hBound] at hMay
  simpa using hMay

section Advancing

variable (hElement : Advances element) (hSeparator : ∀ attempt ∈ separator, Advances attempt)

include hElement hSeparator

theorem leads_onFork_lap_places (count : Nat) (reader : Reader) :
    Leads (onFork (lap element (due separator count))) reader
      (fun trial _ => ∀ lap, trial.1 = some lap → lap.start = reader.cursor.position ∧
        lap.stop = trial.2.position ∧ lap.InOrder (due separator count))
      (fun _ _ => True) := by
  apply leads_onFork.2
  apply (leads_lap hElement (forall_mem_due hSeparator count) _).mono
  · exact fun _ _ hPlaces => hPlaces
  · exact fun _ _ _ => trivial

/-- What moves a round that is made is its element or its separator. -/
theorem Made.moves_of_mem (hMade : Made element separator most count reader laps after) :
    ∀ lap ∈ laps, lap.Moves := by
  induction hMade with
  | enough => simp
  | stays => simp
  | @moves count reader _ _ _ lap laps _ _ hRun hMoves _ _ ih =>
    have hPlaces := (leads_onFork_lap_places hElement hSeparator count reader).of_ok hRun lap rfl
    exact List.forall_mem_cons.2 ⟨hPlaces.2.2.moves hMoves, ih⟩

/-- A repetition makes its rounds in this way, and their contents and elements are what it
returns. -/
theorem leads_rounds_made (most : Option Nat) (count allowed : Nat) (reader : Reader) :
    Leads (rounds element separator most count allowed) reader
      (fun made after => ∃ laps, Made element separator most count reader laps after ∧
        made = (laps.flatMap Lap.content, laps.map Lap.element))
      (fun _ _ => True) := by
  induction allowed generalizing count reader with
  | zero => trivial
  | succ allowed ih =>
    rw [rounds_succ_eq]
    split
    · next hEnough => exact ⟨[], .enough hEnough, rfl⟩
    · next hMay =>
      have hFewer := lt_of_not_enough hMay
      have hPlaces := leads_onFork_lap_places hElement hSeparator count reader
      change Leads (onFork (lap element (due separator count)) >>=
        goOn element separator most count allowed reader.cursor.position) reader _ _
      apply (hPlaces.and (.self _ reader)).bind
      · exact fun _ _ _ => trivial
      · rintro ⟨found, fork⟩ middle ⟨hPlaces, hRun⟩
        cases found with
        | none => exact ⟨[], .stays hFewer hRun (by simp), rfl⟩
        | some lap =>
          obtain ⟨hStart, hStop, hOrder⟩ := hPlaces lap rfl
          dsimp only at hStop
          rw [goOn]
          split
          · next hSame =>
            have hStays : ∀ other, some lap = some other → other.stop = other.start := by
              intro other hOther
              cases hOther
              rw [hStop, hSame, hStart]
            exact ⟨[], .stays hFewer hRun hStays, rfl⟩
          · next hMoved =>
            have hMoves : lap.start < lap.stop := by
              have := hOrder.start_le
              have := hOrder.le_stop
              omega
            apply (Leads.self (commit fork) middle).bind
            · exact fun _ _ _ => trivial
            · intro _ next hCommit
              apply (ih (count + 1) next).bind
              · exact fun _ _ _ => trivial
              · rintro _ after ⟨laps, hMade, rfl⟩
                exact ⟨lap :: laps, .moves hFewer hRun hMoves hCommit hMade, rfl⟩

end Advancing

end Making

section Unique

variable {element : Attempt} {separator : Option Attempt} {most : Option Nat} {reader : Reader}
  {count place stop stop' : Nat} {lap : Lap} {laps laps' : List Lap} {found found' : Option Lap}

theorem LapAlone.unique (hFirst : LapAlone element separator reader count place found)
    (hSecond : LapAlone element separator reader count place found') : found = found' := by
  obtain ⟨after, hFirst⟩ := hFirst
  obtain ⟨after', hSecond⟩ := hSecond
  rw [hFirst] at hSecond
  cases hSecond
  rfl

/-- Alone as well the places of a round follow on one another. -/
theorem LapAlone.inOrder (hElement : Advances element)
    (hSeparator : ∀ attempt ∈ separator, Advances attempt)
    (hAlone : LapAlone element separator reader count place (some lap)) :
    lap.InOrder (due separator count) := by
  obtain ⟨after, hRun⟩ := hAlone
  have hLap : Leads (lapFrom element separator count place) reader
      (fun found _ => ∀ lap, found = some lap → lap.InOrder (due separator count))
      (fun _ _ => True) := by
    simp only [lapFrom, leads_bind, leads_onFork, leads_position, leads_pure]
    apply Leads.intro
    · intro moved early _
      apply (leads_lap hElement (forall_mem_due hSeparator count) _).mono
      · exact fun found sooner hPlaces lap hLap => (hPlaces lap hLap).2.2
      · exact fun _ _ _ => trivial
    · exact fun _ _ _ => trivial
  exact hLap.of_ok hRun lap rfl

theorem length_cons_eq (count : Nat) (lap : Lap) (laps : List Lap) :
    count + (lap :: laps).length = count + 1 + laps.length := by
  rw [List.length_cons]
  omega

theorem Greedy.cons (hLap : LapAlone element separator reader count place (some lap))
    (hStart : lap.start = place) (hMoves : place < lap.stop)
    (hRest : Greedy element separator most reader (count + 1) lap.stop laps stop) :
    Greedy element separator most reader count place (lap :: laps) stop where
  made := .cons hLap hStart hMoves hRest.made
  le_most := by
    rw [length_cons_eq]
    exact hRest.le_most
  ends := by
    rw [length_cons_eq]
    exact hRest.ends

/-- A round that may be made and moves on is made, whatever it is that moves. -/
theorem Greedy.exists_cons (hGreedy : Greedy element separator most reader count place laps stop)
    (hFewer : ∀ bound ∈ most, count < bound)
    (hLap : LapAlone element separator reader count place (some lap)) (hMoves : place < lap.stop) :
    ∃ rest, laps = lap :: rest := by
  obtain ⟨hLaps, -, hEnds⟩ := hGreedy
  cases hLaps with
  | nil =>
    rcases hEnds with hEnough | ⟨found, hAlone, hStays⟩
    · exact absurd (hFewer _ hEnough) (Nat.lt_irrefl _)
    · obtain rfl := hAlone.unique hLap
      exact absurd (hStays lap rfl) (Nat.ne_of_gt hMoves)
  | @cons _ _ _ other rest hOther _ _ _ =>
    cases hOther.unique hLap
    exact ⟨rest, rfl⟩

/-- Where no round is made, none is made in any case. -/
theorem Greedy.eq_nil (hNone : Greedy element separator most reader count place [] stop)
    (hGreedy : Greedy element separator most reader count place laps stop') : laps = [] := by
  obtain ⟨hLaps, hMost, -⟩ := hGreedy
  cases hLaps with
  | nil => rfl
  | @cons _ _ _ lap rest hLap _ hMoves _ =>
    have hFewer : ∀ bound ∈ most, count < bound := by
      intro bound hBound
      have hLess := hMost bound hBound
      rw [length_cons_eq] at hLess
      omega
    obtain ⟨rest, hRest⟩ := hNone.exists_cons hFewer hLap hMoves
    cases hRest

theorem Greedy.of_cons
    (hGreedy : Greedy element separator most reader count place (lap :: laps) stop) :
    LapAlone element separator reader count place (some lap) ∧
      Greedy element separator most reader (count + 1) lap.stop laps stop := by
  obtain ⟨hLaps, hMost, hEnds⟩ := hGreedy
  rw [length_cons_eq] at hMost hEnds
  cases hLaps with
  | cons hLap _ _ hRest => exact ⟨hLap, hRest, hMost, hEnds⟩

/-- There is only one way to make as many rounds as possible. -/
theorem Greedy.unique (hFirst : Greedy element separator most reader count place laps stop)
    (hSecond : Greedy element separator most reader count place laps' stop') :
    laps' = laps ∧ stop' = stop := by
  induction laps generalizing count place laps' with
  | nil =>
    obtain rfl := hFirst.eq_nil hSecond
    cases hFirst.made
    cases hSecond.made
    exact ⟨rfl, rfl⟩
  | cons lap rest ih =>
    cases laps' with
    | nil => cases hSecond.eq_nil hFirst
    | cons lap' rest' =>
      obtain ⟨hLap, hRest⟩ := hFirst.of_cons
      obtain ⟨hLap', hRest'⟩ := hSecond.of_cons
      cases hLap.unique hLap'
      obtain ⟨rfl, rfl⟩ := ih hRest hRest'
      exact ⟨rfl, rfl⟩

/-- So it is after other rounds. -/
theorem Greedy.exists_append {front : List Lap}
    (hGreedy : Greedy element separator most reader count place laps stop)
    (hFront : Laps element separator reader count place front stop')
    (hFewer : ∀ bound ∈ most, count + front.length < bound)
    (hLap : LapAlone element separator reader (count + front.length) stop' (some lap))
    (hMoves : stop' < lap.stop) : ∃ rest, laps = front ++ lap :: rest := by
  induction hFront generalizing laps with
  | nil count place => exact hGreedy.exists_cons hFewer hLap hMoves
  | @cons count place stop' first front hFirst _ hOnward _ ih =>
    rw [length_cons_eq] at hFewer hLap
    have hMay : ∀ bound ∈ most, count < bound := by
      intro bound hBound
      have hLess := hFewer bound hBound
      omega
    obtain ⟨others, rfl⟩ := hGreedy.exists_cons hMay hFirst hOnward
    obtain ⟨rest, rfl⟩ := ih hGreedy.of_cons.2 hFewer hLap hMoves
    exact ⟨rest, rfl⟩

theorem Laps.exists_alone (hLaps : Laps element separator reader count place laps stop)
    (hMem : lap ∈ laps) :
    ∃ count, LapAlone element separator reader count lap.start (some lap) ∧
      lap.start < lap.stop := by
  induction hLaps with
  | nil => cases hMem
  | @cons count place stop first rest hLap hStart hMoves _ ih =>
    subst hStart
    rcases List.mem_cons.1 hMem with rfl | hMem
    · exact ⟨count, hLap, hMoves⟩
    · exact ih hMem

/-- To make as many rounds as possible is to make progress. -/
theorem Greedy.progress (hElement : Advances element)
    (hSeparator : ∀ attempt ∈ separator, Advances attempt)
    (hGreedy : Greedy element separator most reader 0 place laps stop) :
    Progress element separator most reader place laps stop where
  moves lap hMem := by
    obtain ⟨count, hAlone, hMoves⟩ := hGreedy.made.exists_alone hMem
    exact (hAlone.inOrder hElement hSeparator).moves hMoves
  made front stop' lap hFront hFewer hAlone hMoves := by
    rw [← Nat.zero_add front.length] at hFewer hAlone
    exact hGreedy.exists_append hFront hFewer hAlone hMoves
  stays hMay lap hAlone := by
    rw [← Nat.zero_add laps.length] at hMay hAlone
    obtain ⟨found, hFound, hStays⟩ := hGreedy.ends.resolve_left hMay
    exact hStays lap (hFound.unique hAlone)

theorem places_cons (most : Option Nat) (count : Nat) (lap : Lap) (laps : List Lap) (stop : Nat) :
    places most count (lap :: laps) stop = lap.start :: places most (count + 1) laps stop := by
  rw [places, places, length_cons_eq, List.map_cons, List.cons_append]

end Unique

end Attempt

end StreamMatch
