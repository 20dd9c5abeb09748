import Mathlib
import StreamMatch.Proofs.Independence
import StreamMatch.Proofs.Retrying

/-!
The choice of the longest match. All alternatives are tried, each on a fork of its own and with
nothing to do with the others, and only then one of the results is selected
(`Attempt.longest_eq_select`). So it is known of every choice which results it had and which of them
won (`Attempt.Chosen`), and the order of the alternatives decides no more than which of several
longest matches is taken (`Library.longest_chooses`).
-/

namespace StreamMatch

namespace Attempt

open Reading

/-- What an attempt on a fork comes to: a match or none, and where the fork ended. -/
abbrev Trial := Option Match × Cursor

/-- Run alone on a fork of the cursor at hand, the attempt comes to this. -/
def Alone (reader : Reader) (attempt : Attempt) (trial : Trial) : Prop :=
  ∃ after, onFork attempt reader = .ok trial after

/-- The match with the most content, with its fork: the one found so far, or the first of the
trials with more than all before. -/
def select (found : Option (Match × Cursor)) : List Trial → Option (Match × Cursor)
  | [] => found
  | (none, _) :: rest => select found rest
  | (some m, fork) :: rest =>
    if found.all fun (current, _) => current.length < m.length then select (some (m, fork)) rest
    else select found rest

/-- The match is among those of the trials, and if it is one of several it is the first. -/
def Wins (trials : List Trial) (m : Match) (fork : Cursor) : Prop :=
  ∃ front rest, trials = front ++ (some m, fork) :: rest ∧
    (∀ trial ∈ front, ∀ other, trial.1 = some other → other.length < m.length) ∧
    ∀ trial ∈ rest, ∀ other, trial.1 = some other → other.length ≤ m.length

/-- All other matches among those of the trials have less content. -/
def WinsAlone (trials : List Trial) (m : Match) (fork : Cursor) : Prop :=
  ∃ front rest, trials = front ++ (some m, fork) :: rest ∧
    ∀ trial ∈ front ++ rest, ∀ other, trial.1 = some other → other.length < m.length

section Selection

variable {trials : List Trial} {found : Option (Match × Cursor)} {m other : Match}
  {fork held : Cursor}

theorem Wins.mem (hWins : Wins trials m fork) : (some m, fork) ∈ trials := by
  obtain ⟨front, rest, rfl, -⟩ := hWins
  simp

/-- No match among those of the trials has more content than the one that wins. -/
theorem Wins.length_le (hWins : Wins trials m fork) (hOther : (some other, held) ∈ trials) :
    other.length ≤ m.length := by
  obtain ⟨front, rest, rfl, hFront, hRest⟩ := hWins
  rcases List.mem_append.1 hOther with hMem | hMem
  · exact Nat.le_of_lt (hFront _ hMem other rfl)
  · rcases List.mem_cons.1 hMem with hSame | hMem
    · cases hSame
      exact Nat.le_refl _
    · exact hRest _ hMem other rfl

/-- Nothing but that one trial has as much content. -/
theorem WinsAlone.eq_of_length_le (hWins : WinsAlone trials m fork)
    (hOther : (some other, held) ∈ trials) (hLength : m.length ≤ other.length) :
    other = m ∧ held = fork := by
  obtain ⟨front, rest, rfl, hLess⟩ := hWins
  have hPlace : (some other, held) = (some m, fork) ∨ (some other, held) ∈ front ++ rest := by
    simp only [List.mem_append, List.mem_cons] at hOther ⊢
    tauto
  rcases hPlace with hSame | hMem
  · cases hSame
    exact ⟨rfl, rfl⟩
  · have := hLess _ hMem other rfl
    omega

/-- What is selected wins, unless it was found before and nothing has more. -/
theorem select_eq_some (hSelect : select found trials = some (m, fork)) :
    (found = some (m, fork) ∧
        ∀ trial ∈ trials, ∀ other, trial.1 = some other → other.length ≤ m.length) ∨
      Wins trials m fork ∧
        ∀ current held, found = some (current, held) → current.length < m.length := by
  fun_induction select found trials with
  | case1 found => exact .inl ⟨hSelect, by simp⟩
  | case2 found failed rest ih =>
    rcases ih hSelect with ⟨hFound, hRest⟩ | ⟨⟨front, last, rfl, hFront, hLast⟩, hLess⟩
    · exact .inl ⟨hFound, by simpa using hRest⟩
    · exact .inr ⟨⟨(none, failed) :: front, last, rfl, by simpa using hFront, hLast⟩, hLess⟩
  | case3 found better fork' rest hMore ih =>
    rcases ih hSelect with ⟨hBetter, hRest⟩ | ⟨⟨front, last, rfl, hFront, hLast⟩, hLess⟩
    · cases hBetter
      have hBefore : ∀ current held, found = some (current, held) → current.length < m.length := by
        intro current held hFound
        simpa [hFound] using hMore
      exact .inr ⟨⟨[], rest, rfl, by simp, hRest⟩, hBefore⟩
    · have hBetter := hLess better fork' rfl
      have hBefore : ∀ current held, found = some (current, held) → current.length < m.length := by
        intro current held hFound
        exact Nat.lt_trans (by simpa [hFound] using hMore) hBetter
      refine .inr ⟨⟨(some better, fork') :: front, last, rfl, ?_, hLast⟩, hBefore⟩
      exact List.forall_mem_cons.2 ⟨by simpa using hBetter, hFront⟩
  | case4 found worse fork' rest hMore ih =>
    cases found with
    | none => simp at hMore
    | some best =>
      obtain ⟨current, held⟩ := best
      have hWorse : worse.length ≤ current.length := by simpa using hMore
      rcases ih hSelect with ⟨hFound, hRest⟩ | ⟨⟨front, last, rfl, hFront, hLast⟩, hLess⟩
      · cases hFound
        exact .inl ⟨rfl, List.forall_mem_cons.2 ⟨by simpa using hWorse, hRest⟩⟩
      · have hBest := hLess current held rfl
        refine .inr ⟨⟨(some worse, fork') :: front, last, rfl, ?_, hLast⟩, hLess⟩
        have hWorse : worse.length < m.length := Nat.lt_of_le_of_lt hWorse hBest
        exact List.forall_mem_cons.2 ⟨by simpa using hWorse, hFront⟩

/-- Nothing is selected where nothing is found and no trial has a match. -/
theorem select_eq_none_iff :
    select found trials = none ↔ found = none ∧ ∀ trial ∈ trials, trial.1 = none := by
  fun_induction select found trials with
  | case1 found => simp
  | case2 found failed rest ih => simp [ih]
  | case3 found better fork rest hMore ih => simp [ih]
  | case4 found worse fork rest hMore ih =>
    cases found with
    | none => simp at hMore
    | some best => simp [ih]

end Selection

section Equations

variable {alternatives : List Attempt}

/-- It makes no difference to try all alternatives first. -/
theorem best_eq_select (found : Option (Match × Cursor)) (alternatives : List Attempt) :
    best found alternatives = select found <$> alternatives.mapM onFork := by
  induction alternatives generalizing found with
  | nil => rfl
  | cons alternative rest ih =>
    rw [best, List.mapM_cons, map_bind]
    congr 1
    funext trial
    obtain ⟨result, fork⟩ := trial
    cases result with
    | none => simp [ih, select]
    | some m =>
      simp only [ih, select, map_bind, map_pure]
      split <;> simp [*]

theorem longest_eq_select (alternatives : List Attempt) :
    longest alternatives = do
      match select none (← alternatives.mapM onFork) with
      | none => return none
      | some (m, fork) =>
        commit fork
        return some m := by
  rw [longest, best_eq_select]
  exact bind_map_left _ _ _

end Equations

/-- What a choice comes to that tried the alternatives with these results, which left the reader
`last`. -/
structure Chosen (alternatives : List Attempt) (reader : Reader) (trials : List Trial)
    (last : Reader) (found : Option Match) (after : Reader) : Prop where
  /-- All alternatives are tried, once and in this order. -/
  tried : alternatives.mapM onFork reader = .ok trials last
  /-- Each of them comes to what it comes to alone. -/
  alone : List.Forall₂ (Alone reader) alternatives trials
  none_iff : found = none ↔ ∀ trial ∈ trials, trial.1 = none
  /-- Without a match nothing is left to do. -/
  after_eq : found = none → after = last ∧ after.cursor = reader.cursor
  /-- The fork of the match that wins is committed. -/
  wins : ∀ m, found = some m → ∃ fork, Wins trials m fork ∧ commit fork last = .ok () after ∧
    after.cursor = { reader.cursor with position := fork.position }

section Runs

variable {handed : Prop} {alternatives : List Attempt} {base : Window} {less more need : Nat}
  {early late last reader : Reader} {trials : List Trial}

theorem exists_of_forall₂ {related : Attempt → Trial → Prop} {attempt : Attempt}
    (hAll : List.Forall₂ related alternatives trials) (hMem : attempt ∈ alternatives) :
    ∃ trial, related attempt trial := by
  induction hAll with
  | nil => cases hMem
  | cons hFirst _ ih =>
    rcases List.mem_cons.1 hMem with rfl | hMem
    · exact ⟨_, hFirst⟩
    · exact ih hMem

/-- Run alone the attempt comes to this, and no failure surfaces. -/
def AloneUndisturbed (handed : Prop) (reader : Reader) (attempt : Attempt) (trial : Trial) : Prop :=
  ∃ after, onFork attempt reader = .ok trial after ∧ Undisturbed handed reader after

theorem AloneUndisturbed.alone {attempt : Attempt} {trial : Trial}
    (hAlone : AloneUndisturbed handed reader attempt trial) : Alone reader attempt trial := by
  obtain ⟨after, hRun, -⟩ := hAlone
  exact ⟨after, hRun⟩

theorem addsNoFailure_trials
    (hAlternatives : ∀ alternative ∈ alternatives, Foreseeable handed alternative) :
    AddsNoFailure (alternatives.mapM onFork) := by
  induction alternatives with
  | nil => exact .pure []
  | cons alternative rest ih =>
    obtain ⟨hFirst, hOthers⟩ := List.forall_mem_cons.1 hAlternatives
    rw [List.mapM_cons]
    exact hFirst.addsNoFailure.onFork.bind fun trial => (ih hOthers).bind fun trials => .pure _

/-- No alternative makes a difference to those that are tried after it. -/
theorem leads_trials
    (hAlternatives : ∀ alternative ∈ alternatives, Foreseeable handed alternative)
    (hPlaced : Placed base less early.cursor.fork) (hEarly : Reached base less early)
    (hLate : Reached base more late) (hMore : less ≤ more) (hCursor : late.cursor = early.cursor) :
    LeadsUndisturbed handed (alternatives.mapM onFork) late
      (fun trials after => after.cursor = early.cursor ∧
        (∃ need, more ≤ need ∧ Reached base need after ∧
          ∀ trial ∈ trials, Onward base early.cursor.fork need trial.2) ∧
        List.Forall₂ (AloneUndisturbed handed early) alternatives trials)
      (fun halt _ => ∃ alternative ∈ alternatives, ∃ sooner,
        onFork alternative early = .error halt sooner) := by
  induction alternatives generalizing late more with
  | nil => exact .of_leads ⟨hCursor, ⟨more, Nat.le_refl _, hLate, by simp⟩, .nil⟩
  | cons alternative rest ih =>
    obtain ⟨hFirst, hOthers⟩ := List.forall_mem_cons.1 hAlternatives
    have hRest := addsNoFailure_trials hOthers
    rw [List.mapM_cons]
    apply (hFirst.leads_onFork_again hEarly hLate hMore hCursor hPlaced).bind
      hFirst.addsNoFailure.onFork (fun trial => hRest.bind fun trials => .pure _)
    · intro halt after hHalt
      exact ⟨alternative, List.mem_cons_self, hHalt⟩
    · intro trial middle hMiddle
      obtain ⟨hSame, ⟨need, hNeed, hReached, hOnward⟩, hSooner⟩ := hMiddle
      have hTrials := ih hOthers hReached (Nat.le_trans hMore hNeed) (hSame.trans hCursor)
      apply hTrials.bind hRest (fun trials => .pure _)
      · intro halt after hHalt
        obtain ⟨other, hMem, hHalt⟩ := hHalt
        exact ⟨other, List.mem_cons_of_mem alternative hMem, hHalt⟩
      · intro trials after hAfter
        obtain ⟨hCursor, ⟨last, hLast, hReached, hTrials⟩, hAlone⟩ := hAfter
        have hTrial := hOnward.mono hLast
        exact .of_leads ⟨hCursor, ⟨last, Nat.le_trans hNeed hLast, hReached,
          List.forall_mem_cons.2 ⟨hTrial, hTrials⟩⟩, .cons hSooner hAlone⟩

/-- Alternatives that do well alone do so in whatever order they are tried. -/
theorem leads_trials_later
    (hAlternatives : ∀ alternative ∈ alternatives, Foreseeable handed alternative)
    (hPlaced : Placed base less early.cursor.fork) (hEarly : Reached base less early)
    (hLate : Reached base more late) (hMore : less ≤ more) (hCursor : late.cursor = early.cursor)
    (hAlone : ∀ alternative ∈ alternatives, ∃ trial, AloneUndisturbed handed early alternative trial) :
    Leads (alternatives.mapM onFork) late
      (fun trials after => after.cursor = early.cursor ∧
        (∃ need, more ≤ need ∧ Reached base need after ∧
          ∀ trial ∈ trials, Onward base early.cursor.fork need trial.2) ∧
        List.Forall₂ (Alone early) alternatives trials)
      (fun _ _ => False) := by
  induction alternatives generalizing late more with
  | nil => exact ⟨hCursor, ⟨more, Nat.le_refl _, hLate, by simp⟩, .nil⟩
  | cons alternative rest ih =>
    obtain ⟨hFirst, hOthers⟩ := List.forall_mem_cons.1 hAlternatives
    obtain ⟨⟨trial, sooner, hSooner, hStill⟩, hRest⟩ := List.forall_mem_cons.1 hAlone
    rw [List.mapM_cons]
    apply (hFirst.leads_onFork_later hEarly hLate hMore hCursor hPlaced hSooner hStill).bind
    · exact fun _ _ hNever => hNever
    · rintro _ middle ⟨rfl, hSame, need, hNeed, hReached, hOnward⟩
      apply (ih hOthers hReached (Nat.le_trans hMore hNeed) (hSame.trans hCursor) hRest).bind
      · exact fun _ _ hNever => hNever
      · rintro trials after ⟨hCursor, ⟨last, hLast, hReached, hTrials⟩, hAlone⟩
        have hTrial := hOnward.mono hLast
        exact ⟨hCursor, ⟨last, Nat.le_trans hNeed hLast, hReached,
          List.forall_mem_cons.2 ⟨hTrial, hTrials⟩⟩, .cons ⟨sooner, hSooner⟩ hAlone⟩

/-- What is left to do after the trials. -/
def settle (trials : List Trial) : Attempt :=
  match select none trials with
  | none => return none
  | some (m, fork) => do
    commit fork
    return some m

/-- The match that wins is committed. -/
theorem leads_settle (hInside : reader.Inside)
    (hTried : alternatives.mapM onFork reader = .ok trials last)
    (hCursor : last.cursor = reader.cursor) (hReached : Reached reader.window need last)
    (hOnward : ∀ trial ∈ trials, Onward reader.window reader.cursor.fork need trial.2)
    (hAlone : List.Forall₂ (Alone reader) alternatives trials) :
    Leads (settle trials) last (fun found after => Chosen alternatives reader trials last found after)
      (fun _ _ => False) := by
  unfold settle
  cases hSelect : select none trials with
  | none =>
    have hNone := (select_eq_none_iff.1 hSelect).2
    exact ⟨hTried, hAlone, by simpa using hNone, fun _ => ⟨rfl, hCursor⟩, by simp⟩
  | some best =>
    obtain ⟨m, fork⟩ := best
    have hWins : Wins trials m fork := by
      rcases select_eq_some hSelect with hFound | hWins
      · cases hFound.1
      · exact hWins.1
    have hStart : reader.window.start ≤ last.cursor.position := by
      rw [hCursor]
      exact hInside.retains
    have hFork : Onward reader.window last.cursor.fork need fork := by
      rw [hCursor]
      exact hOnward _ hWins.mem
    obtain ⟨count, -, hCommit⟩ := exists_commit_eq hReached hStart hFork
    have hSome : ¬ ∀ trial ∈ trials, trial.1 = none := by
      intro hNone
      cases hNone _ hWins.mem
    unfold Leads
    simp only [bind, EStateM.bind, hCommit]
    refine ⟨hTried, hAlone, ?_, ?_, ?_⟩
    · simpa using hSome
    · intro hNone
      cases hNone
    · intro other hOther
      cases hOther
      exact ⟨fork, hWins, hCommit, by rw [hCursor]⟩

theorem addsNoFailure_settle (trials : List Trial) : AddsNoFailure (settle trials) := by
  unfold settle
  split
  · exact .pure none
  · next m fork _ => exact (steady_commit fork).addsNoFailure.bind fun _ => .pure _

variable (hAlternatives : ∀ alternative ∈ alternatives, Foreseeable handed alternative)
  (hInside : reader.Inside)

include hAlternatives hInside

/-- A choice comes to what the trials of the alternatives come to, each alone, and it halts only
where one of these does. -/
theorem leads_longest :
    LeadsUndisturbed handed (longest alternatives) reader
      (fun found after => (∃ trials last, Chosen alternatives reader trials last found after) ∧
        ∀ alternative ∈ alternatives, ∃ trial, AloneUndisturbed handed reader alternative trial)
      (fun halt _ => ∃ alternative ∈ alternatives, ∃ sooner,
        onFork alternative reader = .error halt sooner) := by
  have hTrials := leads_trials hAlternatives hInside.placed_fork (reached_self reader)
    (reached_self reader) (Nat.le_refl _) rfl
  rw [longest_eq_select]
  apply (hTrials.and (.of_leads (.self _ reader))).bind (addsNoFailure_trials hAlternatives)
    addsNoFailure_settle
  · exact fun _ _ hHalts => hHalts.1
  · rintro trials last ⟨⟨hCursor, ⟨need, -, hReached, hOnward⟩, hAlone⟩, hTried⟩
    have hAll : ∀ alternative ∈ alternatives,
        ∃ trial, AloneUndisturbed handed reader alternative trial :=
      fun _ => exists_of_forall₂ hAlone
    have hSettle := leads_settle hInside hTried hCursor hReached hOnward
      (hAlone.imp fun _ _ => AloneUndisturbed.alone)
    apply LeadsUndisturbed.of_leads
    apply hSettle.mono
    · exact fun _ _ hChosen => ⟨⟨trials, last, hChosen⟩, hAll⟩
    · exact fun _ _ hNever => hNever.elim

/-- Where all alternatives do well alone, there is a choice. -/
theorem leads_longest_later
    (hAlone : ∀ alternative ∈ alternatives, ∃ trial, AloneUndisturbed handed reader alternative trial) :
    Leads (longest alternatives) reader
      (fun found after => ∃ trials last, Chosen alternatives reader trials last found after)
      (fun _ _ => False) := by
  have hTrials := leads_trials_later hAlternatives hInside.placed_fork (reached_self reader)
    (reached_self reader) (Nat.le_refl _) rfl hAlone
  rw [longest_eq_select]
  apply (hTrials.and (.self _ reader)).bind
  · exact fun _ _ hNever => hNever.1
  · rintro trials last ⟨⟨hCursor, ⟨need, -, hReached, hOnward⟩, hAlone⟩, hTried⟩
    apply (leads_settle hInside hTried hCursor hReached hOnward hAlone).mono
    · exact fun _ _ hChosen => ⟨trials, last, hChosen⟩
    · exact fun _ _ hNever => hNever

end Runs

namespace Chosen

variable {alternatives others : List Attempt} {reader last last' after after' : Reader}
  {trials trials' : List Trial} {found found' : Option Match} {m : Match} {fork : Cursor}

theorem mem_trials_iff (hChosen : Chosen alternatives reader trials last found after)
    (trial : Trial) :
    trial ∈ trials ↔ ∃ alternative ∈ alternatives, Alone reader alternative trial := by
  have hAlone := hChosen.alone
  clear hChosen
  induction hAlone with
  | nil => simp
  | cons hFirst _ ih =>
    obtain ⟨sooner, hRun⟩ := hFirst
    simp [ih, Alone, hRun, eq_comm]

theorem exists_alone (hChosen : Chosen alternatives reader trials last found after)
    {alternative : Attempt} (hMem : alternative ∈ alternatives) :
    ∃ trial, Alone reader alternative trial :=
  exists_of_forall₂ hChosen.alone hMem

section Reordered

variable (hChosen : Chosen alternatives reader trials last found after)
  (hOther : Chosen others reader trials' last' found' after')
  (hSame : ∀ attempt, attempt ∈ others ↔ attempt ∈ alternatives)

include hChosen hOther hSame

/-- What the trials come to does not depend on the order of the alternatives. -/
theorem mem_iff_mem (trial : Trial) : trial ∈ trials' ↔ trial ∈ trials := by
  rw [hChosen.mem_trials_iff, hOther.mem_trials_iff]
  simp only [hSame]

theorem eq_none_iff_eq_none : found' = none ↔ found = none := by
  rw [hChosen.none_iff, hOther.none_iff]
  simp only [hChosen.mem_iff_mem hOther hSame]

theorem map_length_eq : found'.map Match.length = found.map Match.length := by
  have hMem := hChosen.mem_iff_mem hOther hSame
  have hNone := hChosen.eq_none_iff_eq_none hOther hSame
  cases found with
  | none => rw [hNone.2 rfl]
  | some m =>
    cases found' with
    | none => cases hNone.1 rfl
    | some m' =>
      obtain ⟨fork, hWins, -⟩ := hChosen.wins m rfl
      obtain ⟨fork', hWins', -⟩ := hOther.wins m' rfl
      have hLess := hWins.length_le ((hMem _).1 hWins'.mem)
      have hMore := hWins'.length_le ((hMem _).2 hWins.mem)
      exact congrArg some (Nat.le_antisymm hLess hMore)

/-- A match that has more content than all others is chosen in whatever order. -/
theorem eq_of_winsAlone (hFound : found = some m) (hAlone : WinsAlone trials m fork) :
    found' = found ∧ after'.cursor = after.cursor := by
  have hMem := hChosen.mem_iff_mem hOther hSame
  obtain ⟨held, hWins, -, hCursor⟩ := hChosen.wins m hFound
  obtain ⟨-, rfl⟩ := hAlone.eq_of_length_le hWins.mem (Nat.le_refl _)
  cases found' with
  | none =>
    rw [(hChosen.eq_none_iff_eq_none hOther hSame).1 rfl] at hFound
    cases hFound
  | some m' =>
    obtain ⟨fork', hWins', -, hCursor'⟩ := hOther.wins m' rfl
    have hMore := hWins'.length_le ((hMem _).2 hWins.mem)
    obtain ⟨rfl, rfl⟩ := hAlone.eq_of_length_le ((hMem _).1 hWins'.mem) hMore
    exact ⟨hFound.symm, hCursor'.trans hCursor.symm⟩

end Reordered

end Chosen

end Attempt

namespace Library

open Reading

/-- The choice of the longest match, where the cursor lies in the window, as long as no failure of
the source surfaces in a script that goes on after it. Every alternative is tried once, in the order
of the list, and comes to what it comes to alone on a fork of the cursor. The match with the most
content is the result, and of several such the first; the cursor is then where the fork of that
alternative ended. There is no match, and the cursor stays, just if no alternative matches. In
another order the alternatives have a match of the same length, and the same match if only one of
them has so much content. A choice halts only where an alternative alone does. -/
theorem longest_chooses (library : Library) (depth : Nat) (ms : List Matcher) {reader : Reader}
    (hInside : reader.Inside) :
    let attempts (ms : List Matcher) := ms.map (·.attempt (library.call depth))
    LeadsUndisturbed library.Propagates ((Matcher.longest ms).attempt (library.call depth)) reader
      (fun found after => ∃ trials last,
        Attempt.Chosen (attempts ms) reader trials last found after ∧
        ∀ others, others.Perm ms → ∃ found' after' trials' last',
          (Matcher.longest others).attempt (library.call depth) reader = .ok found' after' ∧
          Attempt.Chosen (attempts others) reader trials' last' found' after' ∧
          found'.map Match.length = found.map Match.length ∧
          ∀ m fork, found = some m → Attempt.WinsAlone trials m fork →
            found' = found ∧ after'.cursor = after.cursor)
      (fun halt _ => ∃ m ∈ ms, ∃ sooner,
        onFork (m.attempt (library.call depth)) reader = .error halt sooner) := by
  intro attempts
  have hAttempts (ms : List Matcher) :
      ∀ attempt ∈ attempts ms, Foreseeable library.Propagates attempt :=
    List.forall_mem_map.2 fun m _ => Matcher.foreseeable_attempt (foreseeable_call id depth) m
  have hLongest (ms : List Matcher) : (Matcher.longest ms).attempt (library.call depth) =
      Attempt.longest (attempts ms) := by
    rw [Matcher.attempt, Matcher.attempts_eq_map]
  rw [hLongest]
  apply (Attempt.leads_longest (hAttempts ms) hInside).mono
  · rintro found after ⟨⟨trials, last, hChosen⟩, hAlone⟩
    refine ⟨trials, last, hChosen, fun others hPerm => ?_⟩
    have hSame (attempt : Attempt) : attempt ∈ attempts others ↔ attempt ∈ attempts ms :=
      (hPerm.map _).mem_iff
    have hOther := Attempt.leads_longest_later (hAttempts others) hInside
      fun attempt hMem => hAlone attempt ((hSame attempt).1 hMem)
    rw [hLongest]
    cases hRun : Attempt.longest (attempts others) reader with
    | ok found' after' =>
      obtain ⟨trials', last', hOther⟩ := hOther.of_ok hRun
      exact ⟨found', after', trials', last', rfl, hOther, hChosen.map_length_eq hOther hSame,
        fun m fork => hChosen.eq_of_winsAlone hOther hSame⟩
    | error halt after' => exact (hOther.of_error hRun).elim
  · intro halt after hHalts
    obtain ⟨attempt, hMem, hHalts⟩ := hHalts
    obtain ⟨m, hMatcher, rfl⟩ := List.mem_map.1 hMem
    exact ⟨m, hMatcher, hHalts⟩

/-- The script consumes two bytes and has no content, the insertion has content and consumes
nothing, and the literal that comes before it has as much. -/
theorem longest_chooses_literal :
    let reader : Reader := {
      window := .ofSource ⟨[.data [97, 98], .failure .interrupted "", .data [99]]⟩
      cursor := { position := 0 } }
    let ms : List Matcher := [.rule "two", .primitive (.literal .absent [97, 98, 99]), .stray 1,
      .insert .literal [120, 121, 122]]
    let attempts (ms : List Matcher) := ms.map (·.attempt (handing.call 1))
    Leads ((Matcher.longest ms).attempt (handing.call 1)) reader
      (fun found after =>
        (found.map (·.content), after.cursor.position) = (some [97, 98, 99], 3) ∧
        ∃ trials last, Attempt.Chosen (attempts ms) reader trials last found after ∧
          ∀ others, others.Perm ms → ∃ found' after' trials' last',
            (Matcher.longest others).attempt (handing.call 1) reader = .ok found' after' ∧
            Attempt.Chosen (attempts others) reader trials' last' found' after' ∧
            found'.map Match.length = found.map Match.length ∧
            ∀ m fork, found = some m → Attempt.WinsAlone trials m fork →
              found' = found ∧ after'.cursor = after.cursor)
      (fun _ _ => False) := by
  intro reader ms attempts
  have hInside : reader.Inside := ⟨Nat.le_refl _, Nat.zero_le _⟩
  have hRun : Leads ((Matcher.longest ms).attempt (handing.call 1)) reader
      (fun found after => (found.map (·.content), after.cursor.position) = (some [97, 98, 99], 3))
      (fun _ _ => False) := by
    unfold Leads
    cbv
  have hChooses := longest_chooses handing 1 ms hInside
  apply (Leads.and hRun hChooses).mono
  · exact fun _ _ hFound => ⟨hFound.1, hFound.2 (.inl propagates_handing)⟩
  · exact fun _ _ hHalts => hHalts.1

/-- An alternative that goes on after a failure of the source leaves others what they would not have
had alone. The literal, which is tried after it, matches, and alone it fails with the source. -/
theorem not_forall_longest_chooses :
    ¬ ∀ (library : Library) (depth : Nat) (ms : List Matcher) (reader : Reader), reader.Inside →
      Leads ((Matcher.longest ms).attempt (library.call depth)) reader
        (fun found after => ∃ trials last,
          Attempt.Chosen (ms.map (·.attempt (library.call depth))) reader trials last found after)
        (fun _ _ => True) := by
  intro hChooses
  let literal : Matcher := .primitive (.literal .absent [97])
  let reader : Reader := {
    window := .ofSource ⟨[.failure .brokenPipe "broken", .data [97]]⟩
    cursor := { position := 0 } }
  have hLongest : (Matcher.longest [.rule "gulp", literal]).attempt (heedless.call 1) =
      Attempt.longest [gulp.run (·.attempt (heedless.call 0)) Script.noCursors,
        literal.attempt (heedless.call 1)] :=
    rfl
  simp only [gulp, Script.run] at hLongest
  have hRun : Leads ((Matcher.longest [.rule "gulp", literal]).attempt (heedless.call 1)) reader
      (fun _ _ => True) fun _ _ => False := by
    rw [hLongest]
    unfold Leads
    cbv
  have hAlone : Leads (onFork (literal.attempt (heedless.call 1))) reader (fun _ _ => False)
      fun _ _ => True := by
    unfold Leads
    cbv
  have hInside : reader.Inside := ⟨Nat.le_refl _, Nat.le_refl _⟩
  have hChoice := hChooses heedless 1 [.rule "gulp", literal] reader hInside
  obtain ⟨_, _, -, trials, last, hChosen⟩ | ⟨_, _, hNever, -⟩ := (hRun.and hChoice).ends
  · obtain ⟨trial, after, hTrial⟩ := hChosen.exists_alone
      (List.mem_cons_of_mem _ (List.mem_cons_self (a := literal.attempt (heedless.call 1))))
    exact hAlone.of_ok hTrial
  · exact hNever

end Library

end StreamMatch
