import StreamMatch.Proofs.Calculus
import StreamMatch.Proofs.StreamDeterminedReads

/-!
Every matcher is determined by the stream if the names of rules stand for what is
(`Matcher.foreseeable_attempt`). How many rounds a repetition is allowed depends on how much the
source has left, but since the stream bounds their number, this makes no difference
(`Attempt.agrees_manyWithin`).
-/

namespace StreamMatch

namespace Primitive

open Reading

/-- But for the report of a fault, a guarded scan is a scan on a fork. -/
theorem leads_guarded_reports (primitive : Primitive) (offset : Nat) (reader : Reader) :
    Leads (onFork primitive.scan) reader
      (fun result after => primitive.guarded offset reader = .ok result after)
      fun halt after => ∃ reports,
        primitive.guarded offset reader = .error halt { after with reports } := by
  apply Leads.intro
  · intro result after hRun
    simp only [guarded, hRun]
  · intro halt after hRun
    cases halt with
    | fault fault =>
      have hReport := leads_report ⟨.failed, .primitive primitive, offset, some (.failed fault)⟩ after
      unfold Leads at hReport
      split at hReport
      · next reported hReported =>
        obtain ⟨reports, rfl⟩ := hReport
        exact ⟨reports, by simp only [guarded, hRun, report, hReported]⟩
      · exact hReport.elim
    | misplaced => exact ⟨after.reports, by simp only [guarded, hRun]⟩
    | exhausted => exact ⟨after.reports, by simp only [guarded, hRun]⟩

end Primitive

namespace Reading

/-- A cursor over windows like `base` that are filled so far. -/
structure Spot where
  base : Window
  want : Nat
  cursor : Cursor

/-- A later spot: as many bytes are read or more, and the cursor is further on, or where it was. -/
structure Spot.Reaches (first second : Spot) : Prop where
  base_eq : second.base = first.base
  want_le : first.want ≤ second.want
  onward : Onward first.base first.cursor second.want second.cursor
  placed : Placed second.base second.want second.cursor

namespace Spot.Reaches

variable {first second third : Spot} {base : Window} {want need : Nat} {cursor last fork : Cursor}

theorem trans (hFirst : first.Reaches second) (hSecond : second.Reaches third) :
    first.Reaches third := by
  have hOnward := hSecond.onward
  rw [hFirst.base_eq] at hOnward
  exact ⟨hSecond.base_eq.trans hFirst.base_eq, Nat.le_trans hFirst.want_le hSecond.want_le,
    hFirst.onward.trans hOnward, hSecond.placed⟩

theorem of_onward (hPlaced : Placed base want cursor) (hNeed : want ≤ need)
    (hOnward : Onward base cursor need last) : Reaches ⟨base, want, cursor⟩ ⟨base, need, last⟩ :=
  ⟨rfl, hNeed, hOnward, hOnward.placed hPlaced⟩

end Spot.Reaches

section Calculus

variable (handed : Prop)

/-- A run that has begun here is at no spot any more, since a failure has surfaced that was not handed
on. -/
def Lost (state : Option Spot) (before after : Reader) : Prop :=
  state = none ∨ after.failuresAhead < before.failuresAhead ∧ ¬ handed

/-- That courses are laid down, as a kind of claim. Of a run that is at no spot any more nothing is
claimed but that it puts no failure in line. -/
def foreseeing : Judgement where
  State := Option Spot
  Runs action state returned halted :=
    (∀ reader, (∀ spot ∈ state, Scene spot.base spot.want spot.cursor reader) →
      Leads action reader
        (fun value after => after.failuresAhead ≤ reader.failuresAhead ∧
          (Lost handed state reader after → returned value none))
        (fun halt after => after.failuresAhead ≤ reader.failuresAhead ∧
          (Lost handed state reader after → halted halt none))) ∧
    ∀ spot ∈ state, Foretold handed spot.base action spot.want spot.cursor
      (fun value need last => returned value (some ⟨spot.base, need, last⟩))
      (fun halt need last => halted halt (some ⟨spot.base, need, last⟩))
  Sound state := ∀ spot ∈ state, Placed spot.base spot.want spot.cursor
  Leaves before after := ∀ second ∈ after, ∃ first ∈ before, first.Reaches second
  Stops before halt after :=
    ∀ second ∈ after, (handed → ¬ halt.IsIo) ∧ ∃ first ∈ before, first.Reaches second
  Committable state fork := ∀ spot ∈ state, Onward spot.base spot.cursor.fork spot.want fork

variable {handed} {α β : Type} {base : Window} {want : Nat} {cursor : Cursor}

/-- An action that never puts a failure in line, and is foretold where it is at a spot. -/
theorem runs_foreseeing {action : Reading α} {state : Option Spot}
    {returned : α → Option Spot → Prop} {halted : Halt → Option Spot → Prop}
    (hAdds : AddsNoFailure action) (hReturned : ∀ value, returned value none)
    (hHalted : ∀ halt, halted halt none)
    (hAction : ∀ spot ∈ state, Foretold handed spot.base action spot.want spot.cursor
      (fun value need last => returned value (some ⟨spot.base, need, last⟩))
      (fun halt need last => halted halt (some ⟨spot.base, need, last⟩))) :
    (foreseeing handed).Runs action state returned halted := by
  refine ⟨fun reader _ => ?_, hAction⟩
  apply (hAdds reader).mono
  · exact fun value _ hLess => ⟨hLess, fun _ => hReturned value⟩
  · exact fun halt _ hLess => ⟨hLess, fun _ => hHalted halt⟩

theorem kept_foreseeing {action : Reading α} :
    (foreseeing handed).Kept action ↔ Foreseeable handed action := by
  constructor
  · intro hAction
    have hLost := (hAction none (by simp [foreseeing])).1
    refine ⟨fun reader => ?_, fun {base want cursor} hPlaced => ?_⟩
    · apply (hLost reader (by simp)).mono
      · exact fun _ _ hAfter => hAfter.1
      · exact fun _ _ hAfter => hAfter.1
    · have hSound : (foreseeing handed).Sound (some ⟨base, want, cursor⟩) := by
        rintro spot ⟨⟩
        exact hPlaced
      apply ((hAction _ hSound).2 _ rfl).mono
      · rintro value need last - hLeaves
        obtain ⟨first, ⟨⟩, hReaches⟩ := hLeaves _ rfl
        exact hReaches.onward
      · rintro halt need last - hStops
        obtain ⟨hHalt, first, ⟨⟩, hReaches⟩ := hStops _ rfl
        exact ⟨hHalt, hReaches.onward⟩
  · intro hAction state hSound
    apply runs_foreseeing hAction.addsNoFailure
    · simp [foreseeing]
    · simp [foreseeing]
    · intro spot hSpot
      have hPlaced := hSound spot hSpot
      apply (hAction.foretold hPlaced).mono
      · rintro value need last hNeed hOnward second ⟨⟩
        exact ⟨spot, hSpot, .of_onward hPlaced hNeed hOnward⟩
      · rintro halt need last hNeed hHalts second ⟨⟩
        exact ⟨hHalts.1, spot, hSpot, .of_onward hPlaced hNeed hHalts.2⟩

section Bind

variable {action : Reading α} {next : α → Reading β} {state : Option Spot}
  {returned : α → Option Spot → Prop} {returned' : β → Option Spot → Prop}
  {halted : Halt → Option Spot → Prop} {reader middle : Reader} {value : α}
  (hAction : (foreseeing handed).Runs action state returned halted)

include hAction

/-- A run that returns is at a spot then, or has been lost. -/
theorem exists_later (hScene : ∀ spot ∈ state, Scene spot.base spot.want spot.cursor reader)
    (hRun : action reader = .ok value middle) :
    ∃ later, returned value later ∧
      (∀ spot ∈ later, Scene spot.base spot.want spot.cursor middle) ∧
      (later ≠ none → state ≠ none ∧ Undisturbed handed reader middle) := by
  have hLost := ((hAction.1 reader hScene).of_ok hRun).2
  cases state with
  | none => exact ⟨none, hLost (.inl rfl), by simp, by simp⟩
  | some spot =>
    by_cases hStill : Undisturbed handed reader middle
    · obtain ⟨need, -, hReturned, hMiddle⟩ :=
        ((hAction.2 spot rfl).leads (hScene spot rfl)).of_ok hRun hStill
      refine ⟨_, hReturned, ?_, fun _ => ⟨by simp, hStill⟩⟩
      rintro _ ⟨⟩
      exact hMiddle
    · obtain ⟨hNot, hLess⟩ := not_or.1 hStill
      exact ⟨none, hLost (.inr ⟨Nat.lt_of_not_le hLess, hNot⟩), by simp, by simp⟩

variable (hNext : ∀ value after, returned value after →
  (foreseeing handed).Runs (next value) after returned' halted)

include hNext

theorem leads_bind_foreseeing
    (hScene : ∀ spot ∈ state, Scene spot.base spot.want spot.cursor reader)
    (hRun : action reader = .ok value middle) :
    Leads (next value) middle
      (fun result after => after.failuresAhead ≤ middle.failuresAhead ∧
        (Lost handed state reader after → returned' result none))
      (fun halt after => after.failuresAhead ≤ middle.failuresAhead ∧
        (Lost handed state reader after → halted halt none)) := by
  obtain ⟨later, hReturned, hMiddle, hFound⟩ := exists_later hAction hScene hRun
  have hLost {after : Reader} (hLost : Lost handed state reader after) :
      Lost handed later middle after := by
    by_cases hNone : later = none
    · exact .inl hNone
    · obtain ⟨hSpot, hStill⟩ := hFound hNone
      obtain ⟨hLess, hNot⟩ := hLost.resolve_left hSpot
      exact .inr ⟨Nat.lt_of_lt_of_le hLess (hStill.resolve_left hNot), hNot⟩
  apply ((hNext value later hReturned).1 middle hMiddle).mono
  · exact fun _ _ hAfter => ⟨hAfter.1, fun h => hAfter.2 (hLost h)⟩
  · exact fun _ _ hAfter => ⟨hAfter.1, fun h => hAfter.2 (hLost h)⟩

theorem runs_foreseeing_bind :
    (foreseeing handed).Runs (action >>= next) state returned' halted := by
  refine ⟨fun reader hScene => ?_, fun spot hSpot => ?_⟩
  · apply leads_bind.2
    apply Leads.intro
    · intro value middle hRun
      have hLess := ((hAction.1 reader hScene).of_ok hRun).1
      apply (leads_bind_foreseeing hAction hNext hScene hRun).mono
      · exact fun _ _ hAfter => ⟨Nat.le_trans hAfter.1 hLess, hAfter.2⟩
      · exact fun _ _ hAfter => ⟨Nat.le_trans hAfter.1 hLess, hAfter.2⟩
    · exact fun halt after hRun => (hAction.1 reader hScene).of_error hRun
  · apply (hAction.2 spot hSpot).bind
    · exact fun _ _ _ _ hHalts => hHalts
    · intro _ reader hReader
      have hScene : ∀ spot ∈ state, Scene spot.base spot.want spot.cursor reader := by
        intro other hOther
        cases hOther.symm.trans hSpot
        exact hReader
      apply Leads.intro
      · intro value middle hRun
        apply (leads_bind_foreseeing hAction hNext hScene hRun).mono
        · exact fun _ _ hAfter => hAfter.1
        · exact fun _ _ hAfter => hAfter.1
      · exact fun _ _ _ => trivial
    · exact fun value need last _ hReturned => (hNext value _ hReturned).2 _ rfl

end Bind

/-- With more bytes read and the cursor where it was, all forks that could be committed still can. -/
theorem awaits_of_need {need : Nat} (hPlaced : Placed base want cursor) (hNeed : want ≤ need) :
    (foreseeing handed).Awaits (some ⟨base, want, cursor⟩) (some ⟨base, need, cursor⟩) where
  leaves := by
    rintro second ⟨⟩
    exact ⟨_, rfl, .of_onward hPlaced hNeed (hPlaced.mono hNeed).onward⟩
  committable fork hFork := by
    rintro spot ⟨⟩
    exact (hFork ⟨base, want, cursor⟩ rfl).mono hNeed

theorem awaits_none (state : Option Spot) : (foreseeing handed).Awaits state none where
  leaves := by simp [foreseeing]
  committable := by simp [foreseeing]

/-- An action that leaves the cursor where it is, with a fork that can be committed. -/
theorem runs_foreseeing_of_awaits {action : Reading (α × Cursor)} {state : Option Spot}
    (hSound : (foreseeing handed).Sound state) (hAdds : AddsNoFailure action)
    (hAction : ∀ {base want cursor}, Placed base want cursor →
      Foretold handed base action want cursor
        (fun result need last => last = cursor ∧ Onward base cursor.fork need result.2)
        (fun halt need last => last = cursor ∧ Stopped handed base cursor halt need last)) :
    (foreseeing handed).Runs action state
      (fun result after => (foreseeing handed).Awaits state after ∧
        (foreseeing handed).Committable after result.2)
      ((foreseeing handed).Stops state) := by
  apply runs_foreseeing hAdds
  · exact fun _ => ⟨awaits_none state, by simp [foreseeing]⟩
  · simp [foreseeing]
  · intro spot hSpot
    obtain rfl := Option.mem_def.1 hSpot
    have hPlaced := hSound spot rfl
    apply (hAction hPlaced).mono
    · rintro result need last hNeed ⟨rfl, hFork⟩
      refine ⟨awaits_of_need hPlaced hNeed, ?_⟩
      rintro _ ⟨⟩
      exact hFork
    · rintro halt need last hNeed ⟨rfl, hHalt, hOnward⟩ second ⟨⟩
      exact ⟨hHalt, spot, rfl, .of_onward hPlaced hNeed hOnward⟩

/-- That courses are laid down goes along with all that matchers are made of. -/
def foresight (handed : Prop) : Calculus where
  toJudgement := foreseeing handed
  sound hLeaves spot hSpot := by
    obtain ⟨_, -, hReaches⟩ := hLeaves spot hSpot
    exact hReaches.placed
  refl hSound spot hSpot :=
    ⟨spot, hSpot, .of_onward (hSound spot hSpot) (Nat.le_refl _) (hSound spot hSpot).onward⟩
  trans hFirst hSecond third hThird := by
    obtain ⟨second, hMem, hLater⟩ := hSecond third hThird
    obtain ⟨first, hFirst, hReaches⟩ := hFirst second hMem
    exact ⟨first, hFirst, hReaches.trans hLater⟩
  stops hLeaves hStops third hThird := by
    obtain ⟨hHalt, second, hMem, hLater⟩ := hStops third hThird
    obtain ⟨first, hFirst, hReaches⟩ := hLeaves second hMem
    exact ⟨hHalt, first, hFirst, hReaches.trans hLater⟩
  pure {α value state returned halted} hReturned := by
    refine ⟨fun reader _ => ⟨Nat.le_refl _, ?_⟩, fun spot hSpot => ?_⟩
    · rintro (rfl | hLess)
      · exact hReturned
      · exact absurd hLess.1 (Nat.lt_irrefl _)
    · obtain rfl := Option.mem_def.1 hSpot
      exact .pure hReturned
  mono hAction hReturned hHalted := by
    refine ⟨fun reader hScene => ?_, fun spot hSpot => ?_⟩
    · apply (hAction.1 reader hScene).mono
      · exact fun value _ hAfter => ⟨hAfter.1, fun hLost => hReturned value none (hAfter.2 hLost)⟩
      · exact fun halt _ hAfter => ⟨hAfter.1, fun hLost => hHalted halt none (hAfter.2 hLost)⟩
    · apply (hAction.2 spot hSpot).mono
      · exact fun value _ _ _ => hReturned value _
      · exact fun halt _ _ _ => hHalted halt _
  bind := runs_foreseeing_bind
  exhausted := kept_foreseeing.2 (.throw fun _ => not_isIo_exhausted)
  invalidUtf8 place := kept_foreseeing.2 (.throw fun _ => not_isIo_invalidUtf8 place)
  position := kept_foreseeing.2 foreseeable_position
  peek count := kept_foreseeing.2 (foreseeable_peek count).of_handed
  peekChars count := kept_foreseeing.2 (foreseeable_peekChars count).of_handed
  read count := kept_foreseeing.2 (foreseeable_read count).of_handed
  isAtEnd := kept_foreseeing.2 foreseeable_isAtEnd.of_handed
  report report state hSound := by
    apply runs_foreseeing (steady_report report).addsNoFailure
    · exact fun _ => awaits_none state
    · simp [foreseeing]
    · intro spot hSpot
      obtain rfl := Option.mem_def.1 hSpot
      apply (foretold_report report).mono
      · rintro - need last hNeed ⟨rfl, rfl⟩
        exact awaits_of_need (hSound spot rfl) hNeed
      · exact fun _ _ _ _ hNever => hNever.elim
  onFork hAction hSound :=
    runs_foreseeing_of_awaits hSound (kept_foreseeing.1 hAction).addsNoFailure.onFork
      fun hPlaced => (kept_foreseeing.1 hAction).onFork hPlaced
  guarded primitive offset state hScan hSound :=
    runs_foreseeing_of_awaits hSound (primitive.steady_guarded primitive.steady_scan offset).addsNoFailure
      fun hPlaced =>
        ((kept_foreseeing.1 hScan).onFork hPlaced).of_reports (primitive.leads_guarded_reports offset)
  commit {fork state} hFork hSound := by
    apply runs_foreseeing (steady_commit fork).addsNoFailure
    · simp [foreseeing]
    · simp [foreseeing]
    · intro spot hSpot
      have hPlaced := hSound spot hSpot
      apply (foretold_commit_onward hPlaced (hFork spot hSpot)).mono
      · rintro - need last hNeed hOnward second ⟨⟩
        exact ⟨spot, hSpot, .of_onward hPlaced hNeed hOnward⟩
      · exact fun _ _ _ _ hNever => hNever.elim

end Calculus

end Reading

open Reading

namespace Attempt

/-- The rounds after one that has matched, which is committed first. -/
def roundsAfter (element : Attempt) (separator : Option Attempt) (most : Option Nat)
    (count allowed : Nat) (made : List UInt8 × Match) (fork : Cursor) :
    Reading (List UInt8 × List Match) := do
  commit fork
  let (content, elements) ← rounds element separator most (count + 1) allowed
  return (made.1 ++ content, made.2 :: elements)

variable {handed : Prop} {base : Window} {want : Nat} {cursor : Cursor} {element : Attempt}
  {separator : Option Attempt} (most : Option Nat) (hElement : Foreseeable handed element)
  (hSeparator : ∀ attempt ∈ separator, Foreseeable handed attempt)

include hElement hSeparator

theorem foreseeable_round_at (count : Nat) :
    Foreseeable handed (round element (if count = 0 then none else separator)) :=
  kept_foreseeing.1 ((foresight handed).kept_round_at count (kept_foreseeing.2 hElement)
    fun attempt hMem => kept_foreseeing.2 (hSeparator attempt hMem))

theorem foreseeable_rounds (count allowed : Nat) :
    Foreseeable handed (rounds element separator most count allowed) :=
  kept_foreseeing.1 ((foresight handed).kept_rounds most count allowed (kept_foreseeing.2 hElement)
    fun attempt hMem => kept_foreseeing.2 (hSeparator attempt hMem))

theorem addsNoFailure_roundsAfter (count allowed : Nat) (made : List UInt8 × Match) (fork : Cursor) :
    AddsNoFailure (roundsAfter element separator most count allowed made fork) :=
  (steady_commit fork).addsNoFailure.bind fun _ =>
    (foreseeable_rounds most hElement hSeparator (count + 1) allowed).addsNoFailure.bind
      fun _ => .pure _

/-- A round that moves the cursor can be followed by any number of rounds that is enough from where
it has stopped. -/
theorem agrees_roundsAfter {first second need : Nat} (count : Nat) (made : List UInt8 × Match)
    {fork : Cursor} {reader : Reader} (hPlaced : Placed base need cursor)
    (hScene : Scene base need cursor reader) (hFork : Onward base cursor.fork need fork)
    (hRounds : ∀ {need : Nat} {later : Reader},
      Placed base need { cursor with position := fork.position } →
        Scene base need { cursor with position := fork.position } later →
        Agrees handed (rounds element separator most (count + 1) first)
          (rounds element separator most (count + 1) second) later) :
    Agrees handed (roundsAfter element separator most count first made fork)
      (roundsAfter element separator most count second made fork) reader := by
  have hAdds := (foreseeable_rounds most hElement hSeparator (count + 1) first).addsNoFailure
  apply (Agrees.refl (commit fork) reader).bind (steady_commit fork).addsNoFailure
  · exact fun _ => hAdds.bind fun _ => .pure _
  · intro _ later hCommit hStill
    obtain ⟨last, -, ⟨rfl, -, hLater⟩, hThere⟩ :=
      ((foretold_commit fork hPlaced.deep).leads hScene).of_ok hCommit hStill
    rw [hLater] at hThere
    have hMoved : Placed base last { cursor with position := fork.position } :=
      ⟨hPlaced.deep, Nat.le_trans hPlaced.start_le hFork.position_le, hFork.le_reach⟩
    exact (hRounds hMoved hThere).bind hAdds (fun _ => .pure _) fun _ _ _ _ => .refl _ _

/-- Every round but the last takes a byte, and so it makes no difference how many more rounds are
allowed than there are bytes ahead of the cursor. -/
theorem agrees_rounds {first second : Nat} (count : Nat) {reader : Reader}
    (hPlaced : Placed base want cursor) (hScene : Scene base want cursor reader)
    (hFirst : base.start + base.ahead.length < cursor.position + first)
    (hSecond : base.start + base.ahead.length < cursor.position + second) :
    Agrees handed (rounds element separator most count first)
      (rounds element separator most count second) reader := by
  have hEnd {want : Nat} {cursor : Cursor} (hPlaced : Placed base want cursor) :
      cursor.position ≤ base.start + base.ahead.length :=
    Nat.le_trans hPlaced.le_reach (Nat.add_le_add_left (Nat.min_le_right _ _) _)
  induction first generalizing second count reader want cursor with
  | zero =>
    have := hEnd hPlaced
    omega
  | succ first ih =>
    cases second with
    | zero =>
      have := hEnd hPlaced
      omega
    | succ second =>
      rw [rounds, rounds]
      split
      · exact .refl _ reader
      · have hRound := foreseeable_round_at hElement hSeparator count
        apply Agrees.position_bind
        apply (Agrees.refl _ reader).bind hRound.addsNoFailure.onFork
        · rintro ⟨_ | made, fork⟩
          · exact .pure _
          · dsimp only
            split
            · exact .pure _
            · exact addsNoFailure_roundsAfter most hElement hSeparator count first made fork
        · rintro ⟨_ | made, fork⟩ middle hRun hStill
          · exact .refl _ middle
          · dsimp only
            split
            · exact .refl _ middle
            · next hMoved =>
              obtain ⟨need, hNeed, ⟨hCursor, hFork⟩, hAfter⟩ :=
                ((hRound.onFork hPlaced).leads hScene).of_ok hRun hStill
              have hMore : cursor.position < fork.position :=
                Nat.lt_of_le_of_ne hFork.position_le (hScene.cursor_eq ▸ Ne.symm hMoved)
              rw [hCursor] at hAfter
              apply agrees_roundsAfter most hElement hSeparator count made (hPlaced.mono hNeed)
                hAfter hFork
              intro need later hMoved hThere
              apply ih (count + 1) hMoved hThere
              · dsimp only
                omega
              · dsimp only
                omega

/-- A repetition with so many rounds allowed. -/
def manyWithin (tag : Tag) (least : Nat) (most : Option Nat) (element : Attempt)
    (separator : Option Attempt) (allowed : Nat) : Attempt := do
  let offset ← position
  let result ← onFork (rounds element separator most 0 allowed)
  if result.1.2.length < least then return none
  commit result.2
  return some (.composite tag offset result.1.1 result.1.2)

omit hElement hSeparator in
theorem many_eq_manyWithin (tag : Tag) (least : Nat) (reader : Reader) :
    many tag least most element separator reader =
      manyWithin tag least most element separator (reader.remaining + 1) reader :=
  rfl

theorem foreseeable_manyWithin (tag : Tag) (least allowed : Nat) :
    Foreseeable handed (manyWithin tag least most element separator allowed) := by
  have hRounds := kept_foreseeing.2 (foreseeable_rounds most hElement hSeparator 0 allowed)
  apply kept_foreseeing.1
  apply (foresight handed).kept_bind (foresight handed).position
  intro offset
  apply (foresight handed).kept_onFork_bind hRounds
  rintro ⟨⟨content, elements⟩, fork⟩ first second hLeaves hFork
  dsimp only
  split
  · exact (foresight handed).pure hLeaves
  · exact (foresight handed).runs_commit ((foresight handed).kept_pure _) hFork hLeaves

/-- How many rounds are allowed makes no difference as long as there are enough. -/
theorem agrees_manyWithin (tag : Tag) (least : Nat) {first second : Nat} {reader : Reader}
    (hPlaced : Placed base want cursor) (hScene : Scene base want cursor reader)
    (hFirst : base.start + base.ahead.length < cursor.position + first)
    (hSecond : base.start + base.ahead.length < cursor.position + second) :
    Agrees handed (manyWithin tag least most element separator first)
      (manyWithin tag least most element separator second) reader := by
  have hRounds (allowed : Nat) : AddsNoFailure (rounds element separator most 0 allowed) :=
    (foreseeable_rounds most hElement hSeparator 0 allowed).addsNoFailure
  have hRest (offset : Nat) (result : (List UInt8 × List Match) × Cursor) :
      AddsNoFailure (do
        if result.1.2.length < least then return none
        commit result.2
        return some (Match.composite tag offset result.1.1 result.1.2)) := by
    split
    · exact .pure none
    · exact (steady_commit result.2).addsNoFailure.bind fun _ => .pure _
  apply (Agrees.refl position reader).bind steady_position.addsNoFailure
  · exact fun offset => (hRounds first).onFork.bind (hRest offset)
  · rintro _ _ ⟨⟩ -
    have hFork : Scene base want cursor.fork { reader with cursor := reader.cursor.fork } :=
      ⟨hScene.alike, hScene.filled, congrArg Cursor.fork hScene.cursor_eq⟩
    have hAgrees := agrees_rounds most hElement hSeparator 0 hPlaced.fork hFork hFirst hSecond
    exact hAgrees.onFork.bind (hRounds first).onFork (hRest _) fun _ _ _ _ => .refl _ _

theorem addsNoFailure_many (tag : Tag) (least : Nat) :
    AddsNoFailure (many tag least most element separator) := by
  intro reader
  apply Leads.congr _ (many_eq_manyWithin most tag least reader)
  exact (foreseeable_manyWithin most hElement hSeparator tag least _).addsNoFailure reader

/-- The source has no fewer reads left than it has bytes, so that the rounds allowed are enough. -/
theorem foreseeable_many (tag : Tag) (least : Nat) :
    Foreseeable handed (many tag least most element separator) := by
  refine ⟨addsNoFailure_many most hElement hSeparator tag least, fun {base want cursor} hPlaced => ?_⟩
  have hEnough : base.start + base.ahead.length <
      cursor.position + (base.start + base.ahead.length + 1) := by omega
  have hAllowed {reader : Reader} (hScene : Scene base want cursor reader) :
      base.start + base.ahead.length < cursor.position + (reader.remaining + 1) := by
    have hEnd := reader.end_lt_remaining
    rwa [hScene.alike.start_eq, hScene.alike.ahead_eq, hScene.cursor_eq] at hEnd
  apply ((foreseeable_manyWithin most hElement hSeparator tag least _).foretold hPlaced).of_agrees
  · intro reader hScene
    unfold Agrees
    rw [many_eq_manyWithin]
    exact agrees_manyWithin most hElement hSeparator tag least hPlaced hScene hEnough
      (hAllowed hScene)
  · intro reader hScene
    apply Leads.congr _ (many_eq_manyWithin most tag least reader)
    exact agrees_manyWithin most hElement hSeparator tag least hPlaced hScene (hAllowed hScene)
      hEnough

end Attempt

/-- A matcher is foreseeable if what the names of rules stand for is. -/
theorem Matcher.foreseeable_attempt {handed : Prop} {call : String → Attempt}
    (hCall : ∀ name, Foreseeable handed (call name)) (m : Matcher) :
    Foreseeable handed (m.attempt call) := by
  apply kept_foreseeing.1
  apply (foresight handed).kept_attempt
  · intro tag least most element separator hElement hSeparator
    exact kept_foreseeing.2 (Attempt.foreseeable_many most (kept_foreseeing.1 hElement)
      (fun attempt hMem => kept_foreseeing.1 (hSeparator attempt hMem)) tag least)
  · exact fun name => kept_foreseeing.2 (hCall name)

end StreamMatch
