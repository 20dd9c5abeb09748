import Mathlib
import StreamMatch.Proofs.Choices
import StreamMatch.Proofs.Rollback
import StreamMatch.Proofs.Uniformity

/-!
Choices within choices. The alternatives of an inner choice are tried one generation deeper than
those of the outer one, with a fork and a commit in between. That makes no difference, as long as
they are uniform and steady: an inner choice can be replaced by its alternatives
(`Library.choices_regroup`).
-/

namespace StreamMatch

namespace Attempt

open Reading Readers

section Selection

/-- Of two matches, with their forks, the one with more content, or else the first. -/
def better (found other : Option (Match × Cursor)) : Option (Match × Cursor) :=
  match other with
  | none => found
  | some best => if found.all (·.1.length < best.1.length) then some best else found

theorem better_none (found : Option (Match × Cursor)) : better found none = found :=
  rfl

theorem none_better (other : Option (Match × Cursor)) : better none other = other := by
  cases other <;> rfl

theorem better_some (current best : Match × Cursor) :
    better (some current) (some best) =
      some (if current.1.length < best.1.length then best else current) := by
  simp only [better, Option.all_some, decide_eq_true_eq]
  split <;> rfl

theorem better_assoc (found other last : Option (Match × Cursor)) :
    better (better found other) last = better found (better other last) := by
  cases found with
  | none => rw [none_better, none_better]
  | some first =>
    cases other with
    | none => rw [better_none, none_better]
    | some second =>
      cases last with
      | none => rw [better_none, better_none]
      | some third =>
        simp only [better_some, Option.some.injEq]
        split_ifs <;> first | rfl | omega

theorem select_cons_none (found : Option (Match × Cursor)) (fork : Cursor) (trials : List Trial) :
    select found ((none, fork) :: trials) = select found trials :=
  rfl

theorem select_cons_some (found : Option (Match × Cursor)) (m : Match) (fork : Cursor)
    (trials : List Trial) :
    select found ((some m, fork) :: trials) = select (better found (some (m, fork))) trials := by
  rw [select, better]
  split <;> rfl

theorem select_eq_better (found : Option (Match × Cursor)) (trials : List Trial) :
    select found trials = better found (select none trials) := by
  induction trials generalizing found with
  | nil => rfl
  | cons trial rest ih =>
    obtain ⟨result, fork⟩ := trial
    cases result with
    | none => exact ih found
    | some m =>
      rw [select_cons_some, select_cons_some, ih, ih (better none _), ← better_assoc, none_better]

theorem select_append (found : Option (Match × Cursor)) (trials others : List Trial) :
    select found (trials ++ others) = select (select found trials) others := by
  fun_induction select found trials with
  | case1 found => rfl
  | case2 found failed rest ih => exact ih
  | case3 found better fork rest hMore ih => rw [List.cons_append, select, if_pos hMore, ih]
  | case4 found worse fork rest hMore ih => rw [List.cons_append, select, if_neg hMore, ih]

/-- What is selected is among the trials. -/
theorem mem_of_select {trials : List Trial} {m : Match} {fork : Cursor}
    (hSelect : select none trials = some (m, fork)) : (some m, fork) ∈ trials := by
  rcases select_eq_some hSelect with hFound | hWins
  · cases hFound.1
  · exact hWins.1.mem

end Selection

section Nesting

variable {attempt : Attempt} {attempts : List Attempt} {reader : Reader} {readers : Readers}

/-- A fork of the cursor, wherever it went. -/
def IsFork (cursor fork : Cursor) : Prop :=
  fork.depth = cursor.depth + 1 ∧ fork.traced = cursor.traced

/-- The trial that is made one generation deeper. -/
def deeper (trial : Trial) : Trial :=
  (trial.1, trial.2.fork)

/-- A fork of a fork is committed to the fork, which is then where the fork itself would be. -/
theorem commit_lowered {fork : Cursor} (hFork : IsFork reader.cursor fork) :
    commit fork.fork reader.lowered = .ok () { reader with cursor := fork } := by
  obtain ⟨hDepth, hTraced⟩ := hFork
  obtain ⟨position, depth, traced⟩ := fork
  dsimp only at hDepth hTraced
  subst hDepth hTraced
  simp only [commit_eq, Reader.lowered, Cursor.fork]
  rw [if_pos trivial, if_pos (Nat.succ_ne_zero _)]

/-- An attempt is tried alike on a fork, and on a fork of that. -/
theorem runs_trial (hUniform : Uniform attempt) (hSteady : Steady attempt)
    (hSecond : readers.2 = readers.1.lowered) :
    Coincide (fun _ => False) (onFork attempt) (onFork attempt) readers
      (fun trial other after => other = deeper trial ∧ IsFork readers.1.cursor trial.2 ∧
        after.2 = after.1.lowered ∧ after.1.cursor = readers.1.cursor)
      (fun _ after => after.2 = after.1.lowered ∧ after.1.cursor = readers.1.cursor) := by
  have hRestore {after : Readers} : (readers.restore after).1.cursor = readers.1.cursor := rfl
  have hForks : Tiered readers.fork := by
    refine ⟨?_, Nat.succ_ne_zero _⟩
    rw [Readers.fork, hSecond]
    rfl
  have hRestored {after : Readers} (hAfter : Tiered after) :
      (readers.restore after).2 = (readers.restore after).1.lowered := by
    rw [Readers.restore, hSecond, hAfter.second_eq]
    rfl
  have hKeeps := (hSteady readers.fork.1).mono (fun _ _ h => h) fun _ _ _ => trivial
  apply Coincide.onFork
  apply ((hUniform _ hForks).and_leads hKeeps).mono
  · intro found other after hAfter
    obtain ⟨hKeeps, rfl, hAfter⟩ := hAfter
    have hCursor := congrArg Reader.cursor hAfter.second_eq
    exact ⟨congrArg (Prod.mk found) hCursor, ⟨hKeeps.depth_eq, hKeeps.traced_eq⟩,
      hRestored hAfter, hRestore⟩
  · exact fun _ _ hAfter => ⟨hRestored hAfter, hRestore⟩

theorem runs_trials (readers : Readers)
    (hAttempts : ∀ attempt ∈ attempts, Uniform attempt ∧ Steady attempt)
    (hSecond : readers.2 = readers.1.lowered) :
    Coincide (fun _ => False) (attempts.mapM onFork) (attempts.mapM onFork) readers
      (fun trials others after => others = trials.map deeper ∧
        (∀ trial ∈ trials, IsFork readers.1.cursor trial.2) ∧
        after.2 = after.1.lowered ∧ after.1.cursor = readers.1.cursor)
      (fun _ after => after.2 = after.1.lowered ∧ after.1.cursor = readers.1.cursor) := by
  induction attempts generalizing readers with
  | nil => exact .pure ⟨rfl, by simp, hSecond, rfl⟩
  | cons attempt rest ih =>
    obtain ⟨⟨hUniform, hSteady⟩, hRest⟩ := List.forall_mem_cons.1 hAttempts
    rw [List.mapM_cons]
    apply (runs_trial hUniform hSteady hSecond).bind
    intro trial other middle hMiddle
    obtain ⟨rfl, hFork, hMiddle, hCursor⟩ := hMiddle
    have hThen := ih middle hRest hMiddle
    rw [hCursor] at hThen
    apply hThen.bind
    intro trials others after hAfter
    obtain ⟨rfl, hForks, hAfter⟩ := hAfter
    exact .pure ⟨rfl, List.forall_mem_cons.2 ⟨hFork, hForks⟩, hAfter⟩

theorem select_map_deeper (found : Option (Match × Cursor)) (trials : List Trial) :
    select (found.map fun best => (best.1, best.2.fork)) (trials.map deeper) =
      (select found trials).map fun best => (best.1, best.2.fork) := by
  fun_induction select found trials with
  | case1 found => rfl
  | case2 found failed rest ih => exact ih
  | case3 found better fork rest hMore ih =>
    rw [List.map_cons, deeper, select, if_pos, ← ih]
    · rfl
    · cases found <;> simp_all
  | case4 found worse fork rest hMore ih =>
    rw [List.map_cons, deeper, select, if_neg, ih]
    cases found <;> simp_all

/-- What the trials of a choice come to, as one trial. Where none of them matches, the fork is where
it was. -/
def summary (fork : Cursor) (trials : List Trial) : Trial :=
  match select none trials with
  | none => (none, fork)
  | some (m, fork) => (some m, fork)

/-- A choice on a fork is what the trials of its alternatives come to. -/
theorem onFork_longest (hAttempts : ∀ attempt ∈ attempts, Uniform attempt ∧ Steady attempt) :
    onFork (longest attempts) = do
      let fork := (← get).cursor.fork
      return summary fork (← attempts.mapM onFork) := by
  funext reader
  rw [get_bind_apply]
  have hRuns := runs_trials (reader, reader.lowered) hAttempts rfl
  cases hRuns with
  | @returns trials others left right hFirst hSecond h =>
    obtain ⟨hOthers, hForks, hRight, hCursor⟩ := h
    dsimp only [Reader.lowered] at hFirst hSecond hForks hCursor hRight
    subst hOthers hRight
    have hSelect := select_map_deeper none trials
    rw [Option.map_none] at hSelect
    simp only [onFork, longest_eq_select, summary, bind, EStateM.bind, hFirst, hSecond, hSelect]
    cases hBest : select none trials with
    | none =>
      rw [← hCursor]
      rfl
    | some best =>
      have hFork : IsFork left.cursor best.2 := by
        rw [hCursor]
        exact hForks _ (mem_of_select hBest)
      have hCommit := commit_lowered hFork
      dsimp only [Reader.lowered] at hCommit
      simp only [Option.map_some, EStateM.bind, hCommit]
      rw [← hCursor]
      rfl
  | @halts halt left right hFirst hSecond h =>
    obtain ⟨hRight, hCursor⟩ := h
    dsimp only [Reader.lowered] at hFirst hSecond hCursor hRight
    subst hRight
    simp only [onFork, longest_eq_select, bind, EStateM.bind, hFirst, hSecond]
    rw [← hCursor]
  | excuses hFirst hExcused => exact hExcused.elim

end Nesting

section Grouping

variable {attempt : Attempt} {attempts : List Attempt}

/-- Among other trials, those of a choice can be replaced by what they come to. -/
theorem select_summary (front trials rest : List Trial) (fork : Cursor) :
    select none (front ++ summary fork trials :: rest) = select none (front ++ trials ++ rest) := by
  rw [select_append, select_append, select_append, select_eq_better (select none front) trials,
    summary]
  cases select none trials with
  | none => rw [select_cons_none, better_none]
  | some best => rw [select_cons_some]

theorem longest_regroup (hAttempts : ∀ attempt ∈ attempts, Uniform attempt ∧ Steady attempt)
    (front rest : List Attempt) :
    longest (front ++ longest attempts :: rest) = longest (front ++ attempts ++ rest) := by
  rw [longest_eq_select (front ++ _ :: rest), longest_eq_select (front ++ attempts ++ rest)]
  simp only [List.mapM_append, List.mapM_cons, onFork_longest hAttempts, bind_assoc, pure_bind,
    select_summary]
  rfl

theorem keep_apply (attempt : Attempt) (reader : Reader) :
    keep attempt reader =
      match attempt reader.lowered with
      | .ok none after => .ok none { after with cursor := reader.cursor }
      | .ok (some m) after =>
        (do commit after.cursor; return some m : Attempt) { after with cursor := reader.cursor }
      | .error halt after => .error halt { after with cursor := reader.cursor } := by
  simp only [keep, onFork, Reader.lowered, bind, EStateM.bind]
  cases attempt { reader with cursor := reader.cursor.fork } with
  | error halt after => rfl
  | ok found after => cases found <;> rfl

/-- To keep what is read only on a match makes no difference to a choice of the longest. -/
theorem keep_longest (hAttempts : ∀ attempt ∈ attempts, Uniform attempt ∧ Steady attempt) :
    keep (longest attempts) = longest attempts := by
  rw [keep, onFork_longest hAttempts, longest_eq_select]
  funext reader
  simp only [bind_assoc, pure_bind]
  rw [get_bind_apply]
  refine congrFun (congrArg (attempts.mapM onFork >>= ·) (funext fun trials => ?_)) reader
  rw [summary]
  cases select none trials <;> rfl

/-- A choice of one. -/
theorem longest_singleton (attempt : Attempt) : longest [attempt] = keep attempt := by
  rw [longest_eq_select, keep]
  simp only [List.mapM_cons, List.mapM_nil, bind_assoc, pure_bind]
  congr 1
  funext trial
  obtain ⟨result, fork⟩ := trial
  cases result <;> rfl

theorem keep_keep (hUniform : Uniform attempt) (hSteady : Steady attempt) :
    attempt.keep.keep = attempt.keep := by
  rw [← longest_singleton attempt]
  apply keep_longest
  simp [hUniform, hSteady]

/-- The first attempt, or the second where that does not match. -/
def orElse (attempt other : Attempt) : Attempt := do
  match ← attempt with
  | some m => return some m
  | none => other

theorem orElse_assoc (attempt other last : Attempt) :
    orElse (orElse attempt other) last = orElse attempt (orElse other last) := by
  rw [orElse, orElse, orElse, bind_assoc]
  congr 1
  funext found
  cases found <;> simp [orElse]

theorem first_cons (attempt : Attempt) (rest : List Attempt) :
    first (attempt :: rest) = orElse attempt.keep (first rest) :=
  rfl

theorem first_append (attempts others : List Attempt) :
    first (attempts ++ others) = orElse (first attempts) (first others) := by
  induction attempts with
  | nil => simp [first, orElse]
  | cons attempt rest ih => rw [List.cons_append, first_cons, first_cons, ih, orElse_assoc]

/-- Where an attempt that does not match rolls back, the second is made at the same place. -/
theorem keep_orElse (hRollsBack : RollsBack attempt) (other : Attempt) :
    keep (orElse attempt other) = orElse attempt.keep other.keep := by
  funext reader
  simp only [orElse, keep_apply, bind, EStateM.bind]
  cases hRun : attempt reader.lowered with
  | error halt after => rfl
  | ok found after =>
    cases found with
    | none =>
      have hAfter : Reader.lowered { after with cursor := reader.cursor } = after := by
        obtain ⟨hCursor, -⟩ := (hRollsBack reader.lowered).of_ok hRun rfl
        simp only [Reader.lowered] at hCursor ⊢
        rw [← hCursor]
      dsimp only
      rw [keep_apply other, hAfter]
      rfl
    | some m =>
      simp only [pure, EStateM.pure]
      cases commit after.cursor { after with cursor := reader.cursor } <;> rfl

/-- To keep what is read only on a match makes no difference to a choice of the first. -/
theorem keep_first (hAttempts : ∀ attempt ∈ attempts, Uniform attempt ∧ Steady attempt) :
    keep (first attempts) = first attempts := by
  induction attempts with
  | nil => rfl
  | cons attempt rest ih =>
    obtain ⟨⟨hUniform, hSteady⟩, hRest⟩ := List.forall_mem_cons.1 hAttempts
    rw [first_cons, keep_orElse (rollsBack_keep hSteady), keep_keep hUniform hSteady, ih hRest]

theorem first_regroup (hAttempts : ∀ attempt ∈ attempts, Uniform attempt ∧ Steady attempt)
    (front rest : List Attempt) :
    first (front ++ first attempts :: rest) = first (front ++ attempts ++ rest) := by
  rw [first_append, first_cons, keep_first hAttempts, first_append, first_append, orElse_assoc]

end Grouping

end Attempt

namespace Library

open Reading

/-- The alternatives of an inner choice can take its place among those of the outer one, in a choice
of the first match as in one of the longest. What comes of it is the same in all respects: the
result, the cursor, the window with what is left of the source, and the reports. -/
theorem choices_regroup {library : Library} (hLibrary : library.Uniform) (depth : Nat)
    (front inner rest : List Matcher) :
    let attempt (m : Matcher) := m.attempt (library.call depth)
    attempt (.first (front ++ .first inner :: rest)) = attempt (.first (front ++ inner ++ rest)) ∧
      attempt (.longest (front ++ .longest inner :: rest)) =
        attempt (.longest (front ++ inner ++ rest)) := by
  intro attempt
  have hInner : ∀ alternative ∈ inner.map attempt,
      Reading.Uniform alternative ∧ Steady alternative := by
    intro alternative hMem
    obtain ⟨m, -, rfl⟩ := List.mem_map.1 hMem
    exact ⟨Matcher.uniform_attempt (uniform_call hLibrary depth) m,
      Matcher.steady_attempt (library.steady_call depth) m⟩
  have hFirst (ms : List Matcher) : attempt (.first ms) = Attempt.first (ms.map attempt) := by
    simp only [attempt, Matcher.attempt, Matcher.attempts_eq_map]
  have hLongest (ms : List Matcher) : attempt (.longest ms) = Attempt.longest (ms.map attempt) := by
    simp only [attempt, Matcher.attempt, Matcher.attempts_eq_map]
  constructor
  · simp only [hFirst, List.map_append, List.map_cons]
    exact Attempt.first_regroup hInner _ _
  · simp only [hLongest, List.map_append, List.map_cons]
    exact Attempt.longest_regroup hInner _ _

/-- A script that matches without content wherever its cursor is not a root. -/
def rootless : Library where
  scripts := [("below", .ask .given .inspect fun
    | .error fault => .fail fault
    | .ok cursor => .finish (if cursor.depth = 0 then none else some (.empty cursor.position)))]

theorem uniform_rootless : rootless.Uniform := by
  intro name script hScript
  simp only [rootless, List.lookup_cons, List.lookup_nil] at hScript
  split at hScript
  · cases hScript
    constructor
    · intro (cursor : Cursor) other hOther
      obtain ⟨rfl, hDeep⟩ : other = cursor.fork ∧ cursor.depth ≠ 0 := hOther
      have hFork : cursor.fork.depth ≠ 0 := Nat.succ_ne_zero _
      change Script.finish (if cursor.fork.depth = 0 then none else some (.empty cursor.position)) =
        Script.finish (if cursor.depth = 0 then none else some (.empty cursor.position))
      rw [if_neg hDeep, if_neg hFork]
    · intro outcome
      cases outcome <;> trivial
  · cases hScript

/-- The inner choice has two matches of the same length, and the outer one has another before it. -/
theorem choices_regroup_rootless :
    let reader : Reader := {
      window := .ofSource ⟨[.data [97, 98], .failure .interrupted "", .data [99]]⟩
      cursor := { position := 0 } }
    let literal (bytes : List UInt8) := Matcher.primitive (.literal .absent bytes)
    let front := [.rule "below", literal [97]]
    let inner := [literal [97, 98], .insert .literal [120, 121], .rule "below"]
    let rest := [literal [99]]
    let attempt (m : Matcher) := m.attempt (rootless.call 1)
    (attempt (.first (front ++ .first inner :: rest)) = attempt (.first (front ++ inner ++ rest)) ∧
      attempt (.longest (front ++ .longest inner :: rest)) =
        attempt (.longest (front ++ inner ++ rest))) ∧
      Leads ((Matcher.longest (front ++ .longest inner :: rest)).attempt (rootless.call 1)) reader
        (fun found after => (found.map (·.content), after.cursor.position) = (some [97, 98], 2))
        (fun _ _ => False) := by
  intro reader literal front inner rest attempt
  refine ⟨choices_regroup uniform_rootless 1 front inner rest, ?_⟩
  unfold Leads
  cbv

/-- A script that matches just one generation below the root. -/
def sounding : Library where
  scripts := [("shallow", .ask .given .inspect fun
    | .error fault => .fail fault
    | .ok cursor => .finish (if cursor.depth = 1 then some (.empty cursor.position) else none))]

/-- A script that asks how deep its cursor is can tell a choice from the same choice within
another. -/
theorem first_regroup_fails_sounding :
    (Matcher.first [.first [.rule "shallow"]]).attempt (sounding.call 1) ≠
      (Matcher.first [.rule "shallow"]).attempt (sounding.call 1) := by
  intro hSame
  let reader : Reader := { window := .ofSource ⟨[]⟩, cursor := { position := 0 } }
  have hNested : Leads ((Matcher.first [.first [.rule "shallow"]]).attempt (sounding.call 1)) reader
      (fun found _ => found.isSome = false) (fun _ _ => False) := by
    unfold Leads
    cbv
  have hPlain : Leads ((Matcher.first [.rule "shallow"]).attempt (sounding.call 1)) reader
      (fun found _ => found.isSome = true) (fun _ _ => False) := by
    unfold Leads
    cbv
  rw [hSame] at hNested
  cases hRun : (Matcher.first [.rule "shallow"]).attempt (sounding.call 1) reader with
  | ok found after => cases (hNested.of_ok hRun).symm.trans (hPlain.of_ok hRun)
  | error halt after => exact hPlain.of_error hRun

end Library

end StreamMatch
