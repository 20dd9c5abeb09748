import StreamMatch.Matcher.Lemmas

/-!
Rules by which a claim is shown of all matchers at once. Such a claim says from which states an
action may be run and to which states the run may lead (`Judgement`). A claim that goes along with
reading, with forking and with the commit of a fork (`Conduct`) holds of every matcher as soon as
it holds of repetitions and of what the names of rules stand for (`Conduct.kept_attempt`): this is
where the ways to combine attempts are gone through, and no claim of the kind has to do so again. It
holds of repetitions too if it does not rule out that their rounds are used up (`Calculus`).
-/

namespace StreamMatch

/-- A kind of claim about the runs of actions. -/
structure Judgement where
  /-- What the claim has to know of a reader. -/
  State : Type
  /-- Run from this state, the action returns with the one or halts with the other. -/
  Runs {α : Type} (action : Reading α) (state : State) (returned : α → State → Prop)
    (halted : Halt → State → Prop) : Prop
  /-- Actions are run from such states only. -/
  Sound : State → Prop
  /-- A run that begins in the first state may return in the second. -/
  Leaves : State → State → Prop
  /-- A run that begins in the first state may be halted in the second. -/
  Stops : State → Halt → State → Prop
  /-- The fork may be committed to the cursor at hand. -/
  Committable : State → Cursor → Prop

namespace Judgement

variable {α : Type} (J : Judgement)

/-- From wherever it may be run, the action leads to where a run may lead. -/
def Kept (action : Reading α) : Prop :=
  ∀ state, J.Sound state → J.Runs action state (fun _ => J.Leaves state) (J.Stops state)

/-- A later state in which all forks that could be committed still can. -/
structure Awaits (before after : J.State) : Prop where
  leaves : J.Leaves before after
  committable : ∀ fork, J.Committable before fork → J.Committable after fork

end Judgement

/-- A kind of claim that goes along with all that matchers are made of, but for the count of the
rounds of a repetition. -/
structure Conduct extends Judgement where
  sound {before after : State} : Leaves before after → Sound after
  refl {state : State} : Sound state → Leaves state state
  trans {first second third : State} : Leaves first second → Leaves second third →
    Leaves first third
  stops {first second third : State} {halt : Halt} : Leaves first second →
    Stops second halt third → Stops first halt third
  pure {α : Type} {value : α} {state : State} {returned : α → State → Prop}
    {halted : Halt → State → Prop} : returned value state →
    Runs (Pure.pure value) state returned halted
  mono {α : Type} {action : Reading α} {state : State} {returned returned' : α → State → Prop}
    {halted halted' : Halt → State → Prop} : Runs action state returned halted →
    (∀ value after, returned value after → returned' value after) →
    (∀ halt after, halted halt after → halted' halt after) → Runs action state returned' halted'
  bind {α β : Type} {action : Reading α} {next : α → Reading β} {state : State}
    {returned : α → State → Prop} {returned' : β → State → Prop} {halted : Halt → State → Prop} :
    Runs action state returned halted →
    (∀ value after, returned value after → Runs (next value) after returned' halted) →
    Runs (action >>= next) state returned' halted
  invalidUtf8 {α : Type} (place : Nat) :
    toJudgement.Kept (throw (.fault (.invalidUtf8 place)) : Reading α)
  position : toJudgement.Kept Reading.position
  peek (count : Nat) : toJudgement.Kept (Reading.peek count)
  peekChars (count : Nat) : toJudgement.Kept (Reading.peekChars count)
  read (count : Nat) : toJudgement.Kept (Reading.read count)
  isAtEnd : toJudgement.Kept Reading.isAtEnd
  report (report : Report) {state : State} : Sound state →
    Runs (Reading.report report) state (fun _ => toJudgement.Awaits state) (Stops state)
  onFork {α : Type} {action : Reading α} {state : State} : toJudgement.Kept action → Sound state →
    Runs (Reading.onFork action) state
      (fun result after => toJudgement.Awaits state after ∧ Committable after result.2)
      (Stops state)
  guarded (primitive : Primitive) (offset : Nat) {state : State} :
    toJudgement.Kept primitive.scan → Sound state →
    Runs (primitive.guarded offset) state
      (fun result after => toJudgement.Awaits state after ∧ Committable after result.2)
      (Stops state)
  commit {fork : Cursor} {state : State} : Committable state fork → Sound state →
    Runs (Reading.commit fork) state (fun _ => Leaves state) (Stops state)

/-- A kind of claim that goes along with all that matchers are made of. -/
structure Calculus extends Conduct where
  exhausted {α : Type} : toJudgement.Kept (throw .exhausted : Reading α)

namespace Conduct

variable {α β : Type} (C : Conduct)

section Actions

variable {action : Reading α} {next : α → Reading β} {first second : C.State}

/-- What has led to a state may go on from there. -/
theorem runs_of_kept (hAction : C.Kept action) (hLeaves : C.Leaves first second) :
    C.Runs action second (fun _ => C.Leaves first) (C.Stops first) :=
  C.mono (hAction second (C.sound hLeaves)) (fun _ _ => C.trans hLeaves)
    (fun _ _ => C.stops hLeaves)

theorem kept_pure (value : α) : C.Kept (Pure.pure value : Reading α) :=
  fun _ hSound => C.pure (C.refl hSound)

theorem kept_bind (hAction : C.Kept action) (hNext : ∀ value, C.Kept (next value)) :
    C.Kept (action >>= next) := by
  intro state hSound
  apply C.bind (hAction state hSound)
  intro value after hLeaves
  exact C.runs_of_kept (hNext value) hLeaves

theorem kept_advance (count : Nat) : C.Kept (Reading.advance count) :=
  C.kept_bind (C.read count) fun _ => C.kept_pure _

/-- The commit of a fork that is at hand, with what comes after it. -/
theorem runs_commit {fork : Cursor} {next : Reading β} (hNext : C.Kept next)
    (hFork : C.Committable second fork) (hLeaves : C.Leaves first second) :
    C.Runs (do Reading.commit fork; next) second (fun _ => C.Leaves first) (C.Stops first) := by
  apply C.bind
  · apply C.mono (C.commit hFork (C.sound hLeaves))
    · exact fun _ _ => C.trans hLeaves
    · exact fun _ _ => C.stops hLeaves
  · exact fun _ _ => C.runs_of_kept hNext

/-- A run on a fork, where what comes after it may commit the fork. -/
theorem kept_onFork_bind {next : α × Cursor → Reading β} (hAction : C.Kept action)
    (hNext : ∀ result (first second : C.State), C.Leaves first second →
      C.Committable second result.2 →
      C.Runs (next result) second (fun _ => C.Leaves first) (C.Stops first)) :
    C.Kept (Reading.onFork action >>= next) := by
  intro state hSound
  apply C.bind (C.onFork hAction hSound)
  intro result after hAfter
  exact hNext result state after hAfter.1.leaves hAfter.2

end Actions

section Attempts

variable {attempt element : Attempt} {separator : Option Attempt} {attempts : List Attempt}

theorem kept_keep (hAttempt : C.Kept attempt) : C.Kept attempt.keep := by
  apply C.kept_onFork_bind hAttempt
  rintro ⟨found, fork⟩ first second hLeaves hFork
  cases found with
  | none => exact C.pure hLeaves
  | some m => exact C.runs_commit (C.kept_pure _) hFork hLeaves

theorem kept_inTurn (hAttempts : ∀ attempt ∈ attempts, C.Kept attempt) :
    C.Kept (Attempt.inTurn attempts) := by
  induction attempts with
  | nil => exact C.kept_pure _
  | cons step rest ih =>
    have hRest := ih fun attempt hMem => hAttempts attempt (List.mem_cons_of_mem _ hMem)
    apply C.kept_bind (hAttempts step List.mem_cons_self)
    intro found
    cases found with
    | none => exact C.kept_pure none
    | some m =>
      apply C.kept_bind hRest
      intro found
      cases found with
      | none => exact C.kept_pure none
      | some more => exact C.kept_pure _

theorem kept_seq (tag : Tag) (hAttempts : ∀ attempt ∈ attempts, C.Kept attempt) :
    C.Kept (Attempt.seq tag attempts) := by
  apply C.kept_bind C.position
  intro offset
  apply C.kept_bind (C.kept_inTurn hAttempts)
  intro found
  cases found with
  | none => exact C.kept_pure none
  | some submatches => exact C.kept_pure _

theorem kept_seqNamed (tag : Tag) {steps : List (String × Attempt)}
    (hSteps : ∀ attempt ∈ steps.map (·.2), C.Kept attempt) :
    C.Kept (Attempt.seqNamed tag steps) := by
  apply C.kept_bind C.position
  intro offset
  apply C.kept_bind (C.kept_inTurn hSteps)
  intro found
  cases found with
  | none => exact C.kept_pure none
  | some submatches => exact C.kept_pure _

theorem kept_first (hAttempts : ∀ attempt ∈ attempts, C.Kept attempt) :
    C.Kept (Attempt.first attempts) := by
  induction attempts with
  | nil => exact C.kept_pure _
  | cons alternative rest ih =>
    apply C.kept_bind (C.kept_keep (hAttempts alternative List.mem_cons_self))
    intro found
    cases found with
    | some m => exact C.kept_pure _
    | none => exact ih fun attempt hMem => hAttempts attempt (List.mem_cons_of_mem _ hMem)

/-- The fork of the best match so far can be committed as long as it is held. -/
theorem runs_best (hAttempts : ∀ attempt ∈ attempts, C.Kept attempt)
    {found : Option (Match × Cursor)} {state : C.State} (hSound : C.Sound state)
    (hFound : ∀ m held, found = some (m, held) → C.Committable state held) :
    C.Runs (Attempt.best found attempts) state
      (fun result after => C.Leaves state after ∧
        ∀ m held, result = some (m, held) → C.Committable after held)
      (C.Stops state) := by
  induction attempts generalizing found state with
  | nil => exact C.pure ⟨C.refl hSound, hFound⟩
  | cons alternative rest ih =>
    apply C.bind (C.onFork (hAttempts alternative List.mem_cons_self) hSound)
    rintro ⟨result, fork⟩ after ⟨hAfter, hFork⟩
    have hRest {found : Option (Match × Cursor)}
        (hFound : ∀ m held, found = some (m, held) → C.Committable after held) :
        C.Runs (Attempt.best found rest) after
          (fun result last => C.Leaves state last ∧
            ∀ m held, result = some (m, held) → C.Committable last held)
          (C.Stops state) := by
      apply C.mono (ih (fun attempt hMem => hAttempts attempt (List.mem_cons_of_mem _ hMem))
        (C.sound hAfter.leaves) hFound)
      · exact fun _ _ h => ⟨C.trans hAfter.leaves h.1, h.2⟩
      · exact fun _ _ => C.stops hAfter.leaves
    have hHeld : ∀ m held, found = some (m, held) → C.Committable after held :=
      fun m held hSome => hAfter.committable held (hFound m held hSome)
    cases result with
    | none => exact hRest hHeld
    | some m =>
      dsimp only
      split
      · apply hRest
        intro _ _ hSome
        cases hSome
        exact hFork
      · exact hRest hHeld

theorem kept_longest (hAttempts : ∀ attempt ∈ attempts, C.Kept attempt) :
    C.Kept (Attempt.longest attempts) := by
  intro state hSound
  have hNone : ∀ m held, (none : Option (Match × Cursor)) = some (m, held) →
      C.Committable state held := by
    simp
  apply C.bind (C.runs_best hAttempts hSound hNone)
  rintro found after ⟨hLeaves, hFound⟩
  cases found with
  | none => exact C.pure hLeaves
  | some found =>
    obtain ⟨m, fork⟩ := found
    exact C.runs_commit (C.kept_pure _) (hFound m fork rfl) hLeaves

theorem kept_round (hElement : C.Kept element)
    (hSeparator : ∀ attempt ∈ separator, C.Kept attempt) :
    C.Kept (Attempt.round element separator) := by
  cases separator with
  | none =>
    apply C.kept_bind hElement
    intro found
    cases found with
    | none => exact C.kept_pure none
    | some m => exact C.kept_pure _
  | some separator =>
    apply C.kept_bind (hSeparator separator rfl)
    intro found
    cases found with
    | none => exact C.kept_pure none
    | some gap =>
      apply C.kept_bind hElement
      intro found
      cases found with
      | none => exact C.kept_pure none
      | some m => exact C.kept_pure _

/-- The separator is due in every round but the first. -/
theorem kept_round_at (count : Nat) (hElement : C.Kept element)
    (hSeparator : ∀ attempt ∈ separator, C.Kept attempt) :
    C.Kept (Attempt.round element (if count = 0 then none else separator)) := by
  apply C.kept_round hElement
  split
  · simp
  · exact hSeparator

theorem kept_optional (hAttempt : C.Kept attempt) : C.Kept (Attempt.optional attempt) := by
  apply C.kept_bind C.position
  intro offset
  apply C.kept_bind (C.kept_keep hAttempt)
  intro found
  cases found with
  | none => exact C.kept_pure _
  | some m => exact C.kept_pure _

theorem kept_lookahead (tag : Tag) (wanted : Bool) (hAttempt : C.Kept attempt) :
    C.Kept (Attempt.lookahead tag wanted attempt) := by
  apply C.kept_onFork_bind hAttempt
  rintro ⟨found, fork⟩ first second hLeaves -
  dsimp only
  split
  · exact C.runs_of_kept (C.kept_bind C.position fun _ => C.kept_pure _) hLeaves
  · exact C.pure hLeaves

theorem kept_endOfInput (tag : Tag) : C.Kept (Attempt.endOfInput tag) := by
  apply C.kept_bind C.isAtEnd
  intro atEnd
  split
  · exact C.kept_bind C.position fun _ => C.kept_pure _
  · exact C.kept_pure none

theorem kept_skip (tag : Tag) (count : Nat) : C.Kept (Attempt.skip tag count) :=
  C.kept_bind C.position fun _ => C.kept_bind (C.kept_advance count) fun _ => C.kept_pure _

theorem kept_insert (tag : Tag) (bytes : List UInt8) : C.Kept (Attempt.insert tag bytes) :=
  C.kept_bind C.position fun _ => C.kept_pure _

theorem kept_stray (count : Nat) : C.Kept (Attempt.stray count) :=
  C.kept_bind (C.kept_advance count) fun _ => C.kept_pure none

theorem kept_refuse : C.Kept Attempt.refuse :=
  C.kept_bind C.position C.invalidUtf8

end Attempts

section Primitives

theorem kept_takeBytes (run : ByteRun) (count : Nat) : C.Kept (UnitRun.takeBytes run count) := by
  fun_induction UnitRun.takeBytes run count with
  | case1 count hCount want ih =>
    apply C.kept_bind (C.peek _)
    intro bytes
    apply C.kept_bind (C.kept_advance _)
    intro _
    split
    · exact C.kept_pure _
    · next hAll => exact C.kept_bind (ih bytes hAll) fun _ => C.kept_pure _
  | case2 count hCount => exact C.kept_pure _

theorem kept_takeChars (run : CharRun) (allowed : Nat) :
    C.Kept (UnitRun.takeChars run allowed) := by
  induction allowed with
  | zero => exact C.kept_pure _
  | succ allowed ih =>
    apply C.kept_bind (C.peekChars 1)
    intro next
    cases next.chars with
    | nil => exact C.kept_pure _
    | cons c more =>
      dsimp only
      split
      · exact C.kept_bind (C.read _) fun _ => C.kept_bind ih fun _ => C.kept_pure _
      · exact C.kept_pure _

theorem kept_scan (primitive : Primitive) : C.Kept primitive.scan := by
  cases primitive with
  | bytes run => exact C.kept_bind (C.kept_takeBytes run 0) fun _ => C.kept_pure _
  | chars run => exact C.kept_bind (C.kept_takeChars run run.most) fun _ => C.kept_pure _
  | literal tag text =>
    apply C.kept_bind (C.peek text.length)
    intro bytes
    split
    · exact C.kept_pure none
    · exact C.kept_bind (C.kept_advance text.length) fun _ => C.kept_pure _
  | pattern p =>
    apply C.kept_bind (C.peek p.window)
    intro bytes
    split
    · exact C.kept_pure none
    · exact C.kept_bind (C.kept_advance _) fun _ => C.kept_pure _

theorem kept_primitive (primitive : Primitive) : C.Kept primitive.attempt := by
  apply C.kept_bind C.position
  intro offset state hSound
  apply C.bind (C.report _ hSound)
  intro _ reported hReported
  have hGuarded : C.Runs (primitive.guarded offset) reported
      (fun result after => C.Leaves state after ∧ C.Committable after result.2)
      (C.Stops state) := by
    apply C.mono (C.guarded primitive offset (C.kept_scan primitive) (C.sound hReported.leaves))
    · exact fun _ _ h => ⟨C.trans hReported.leaves h.1.leaves, h.2⟩
    · exact fun _ _ => C.stops hReported.leaves
  apply C.bind hGuarded
  rintro ⟨found, fork⟩ after ⟨hLeaves, hFork⟩
  cases found with
  | none => exact C.pure hLeaves
  | some content =>
    have hReport (report : Report) : C.Runs (Reading.report report) after
        (fun _ last => C.Leaves state last ∧ C.Committable last fork) (C.Stops state) := by
      apply C.mono (C.report report (C.sound hLeaves))
      · exact fun _ _ h => ⟨C.trans hLeaves h.leaves, h.committable fork hFork⟩
      · exact fun _ _ => C.stops hLeaves
    apply C.bind (hReport _)
    exact fun _ last hLast => C.runs_commit (C.kept_pure _) hLast.2 hLast.1

end Primitives

/-- The claim holds of a matcher if it holds of what the names of rules stand for. How a repetition
finds out how many rounds are allowed is left to the claim. -/
theorem kept_attempt
    (hMany : ∀ tag least most {element : Attempt} {separator : Option Attempt}, C.Kept element →
      (∀ attempt ∈ separator, C.Kept attempt) →
      C.Kept (Attempt.many tag least most element separator))
    {call : String → Attempt} (hCall : ∀ name, C.Kept (call name)) (m : Matcher) :
    C.Kept (m.attempt call) := by
  induction m with
  | primitive p => exact C.kept_primitive p
  | seq tag steps ih =>
    rw [Matcher.attempt, Matcher.attempts_eq_map]
    exact C.kept_seq tag (List.forall_mem_map.2 ih)
  | named tag steps ih =>
    rw [Matcher.attempt, Matcher.namedAttempts_eq_map]
    apply C.kept_seqNamed tag
    rw [List.map_map]
    exact List.forall_mem_map.2 ih
  | first ms ih =>
    rw [Matcher.attempt, Matcher.attempts_eq_map]
    exact C.kept_first (List.forall_mem_map.2 ih)
  | longest ms ih =>
    rw [Matcher.attempt, Matcher.attempts_eq_map]
    exact C.kept_longest (List.forall_mem_map.2 ih)
  | many tag least most element separator hElement hSeparator =>
    rw [Matcher.attempt, Matcher.attempt?_eq_map]
    apply hMany tag least most hElement
    intro _ hAttempt
    obtain ⟨m, hMem, rfl⟩ := Option.map_eq_some_iff.1 hAttempt
    exact hSeparator m hMem
  | optional inner ih => exact C.kept_optional ih
  | keep inner ih => exact C.kept_keep ih
  | rule name => exact hCall name
  | lookahead tag wanted inner ih => exact C.kept_lookahead tag wanted ih
  | endOfInput tag => exact C.kept_endOfInput tag
  | skip tag count => exact C.kept_skip tag count
  | insert tag bytes => exact C.kept_insert tag bytes
  | stray count => exact C.kept_stray count
  | refuse => exact C.kept_refuse

end Conduct

namespace Calculus

variable (C : Calculus) {element : Attempt} {separator : Option Attempt}

theorem kept_rounds (most : Option Nat) (count allowed : Nat) (hElement : C.Kept element)
    (hSeparator : ∀ attempt ∈ separator, C.Kept attempt) :
    C.Kept (Attempt.rounds element separator most count allowed) := by
  induction allowed generalizing count with
  | zero => exact C.exhausted
  | succ allowed ih =>
    rw [Attempt.rounds]
    split
    · exact C.kept_pure _
    · apply C.kept_bind C.position
      intro before
      apply C.kept_onFork_bind (C.kept_round_at count hElement hSeparator)
      rintro ⟨found, fork⟩ first second hLeaves hFork
      cases found with
      | none => exact C.pure hLeaves
      | some made =>
        obtain ⟨consumed, m⟩ := made
        dsimp only
        split
        · exact C.pure hLeaves
        · have hRest := C.kept_bind (ih (count + 1)) fun result =>
            C.kept_pure (consumed ++ result.1, m :: result.2)
          exact C.runs_commit hRest hFork hLeaves

theorem kept_many (hGet : C.Kept (get : Reading Reader)) (tag : Tag) (least : Nat)
    (most : Option Nat) (hElement : C.Kept element)
    (hSeparator : ∀ attempt ∈ separator, C.Kept attempt) :
    C.Kept (Attempt.many tag least most element separator) := by
  apply C.kept_bind C.position
  intro offset
  apply C.kept_bind hGet
  intro reader
  apply C.kept_onFork_bind (C.kept_rounds most 0 _ hElement hSeparator)
  rintro ⟨⟨content, elements⟩, fork⟩ first second hLeaves hFork
  dsimp only
  split
  · exact C.pure hLeaves
  · exact C.runs_commit (C.kept_pure _) hFork hLeaves

end Calculus

end StreamMatch
