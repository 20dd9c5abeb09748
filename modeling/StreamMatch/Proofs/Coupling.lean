import Mathlib
import StreamMatch.Proofs.Boundaries
import StreamMatch.Proofs.Coincidence
import StreamMatch.Proofs.Observation
import StreamMatch.Proofs.PrimitiveSubstitution

/-!
Rules by which two runs of a matcher are compared. They begin at two readers that have something in
common, and in a row of steps they go the same way (`Comparison`). How far a matcher looks ahead is
counted along the way (`Matcher.reach`), so that two readers need not have more in common than what
it can see. A comparison that goes along with reading, with forking and with the commit of a fork
(`Coupling`) holds of all matchers as soon as it holds of what their primitives and the names of
rules stand for (`Coupling.within_attemptOf`). Where reports may be made on both sides
(`Correspondence`), it holds of the primitives (`Correspondence.within_attempt`).
-/

namespace StreamMatch

namespace Window

theorem leads_peek_length (offset count : Nat) (window : Window) :
    Leads (peek offset count) window (fun bytes _ => bytes.length ≤ count) (fun _ _ => True) := by
  apply (leads_peek offset count window).mono
  · rintro bytes _ ⟨-, rfl, -⟩
    exact List.length_take_le _ _
  · exact fun _ _ _ => trivial

theorem leads_segment_width (offset : Nat) (window : Window) :
    Leads (segment offset) window
      (fun found _ => ∀ c width, found = some (.char c width) → width ≤ 4) (fun _ _ => True) := by
  apply (leads_segment offset window).mono
  · rintro found _ ⟨-, rfl, -⟩ c width hFound
    cases hAhead : window.ahead.drop offset with
    | nil =>
      rw [hAhead] at hFound
      cases hFound
    | cons lead rest =>
      rw [hAhead] at hFound
      obtain ⟨rfl, -⟩ := Utf8.Segment.of_eq_char (Option.some.inj hFound)
      exact Utf8.leadWidth_le lead
  · exact fun _ _ _ => trivial

/-- A character takes four bytes at most. -/
theorem leads_decode_length (offset count : Nat) (window : Window) :
    Leads (decode offset count) window (fun decoded _ => decoded.length ≤ 4 * count)
      (fun _ _ => True) := by
  induction count generalizing offset window with
  | zero => exact Nat.le_refl _
  | succ count ih =>
    have hCons (next width : Nat) (c : Char) (hWidth : width ≤ 4) (middle : Window) :
        Leads (do return (← decode next count).cons c width : Windowed Decoded) middle
          (fun decoded _ => decoded.length ≤ 4 * (count + 1)) (fun _ _ => True) := by
      apply (ih next middle).bind (fun _ _ h => h)
      intro rest after hRest
      simp only [leads_pure, Decoded.cons]
      omega
    apply (leads_segment_width offset window).bind (fun _ _ h => h)
    intro found middle hWidth
    cases found with
    | none => exact Nat.zero_le _
    | some segment =>
      cases segment with
      | char c width => exact hCons _ width c (hWidth c width rfl) middle
      | malformed =>
        apply (leads_tolerate offset middle).bind (fun _ _ _ => trivial)
        exact fun _ after _ => hCons _ 1 _ (by decide) after
      | truncated =>
        apply (leads_tolerate offset middle).bind (fun _ _ _ => trivial)
        intro _ after _
        simp only [leads_pure, Decoded.cons, Decoded.nil]
        omega

end Window

namespace Reading

theorem leads_peek_length (count : Nat) (reader : Reader) :
    Leads (peek count) reader (fun bytes _ => bytes.length ≤ count) (fun _ _ => True) := by
  simp only [peek, Window.peekAt, leads_bind, leads_position, leads_onWindow]
  apply (Window.leads_relative _ _).mono
  · exact fun distance window _ => Window.leads_peek_length distance count window
  · exact fun _ _ _ => trivial

theorem leads_peekChars_length (count : Nat) (reader : Reader) :
    Leads (peekChars count) reader (fun decoded _ => decoded.length ≤ 4 * count)
      (fun _ _ => True) := by
  simp only [peekChars, Window.decodeAt, leads_bind, leads_position, leads_onWindow]
  apply (Window.leads_relative _ _).mono
  · exact fun distance window _ => Window.leads_decode_length distance count window
  · exact fun _ _ _ => trivial

end Reading

/-- The stream ends where not one byte is found. -/
theorem Window.isEndAt_eq (offset : Nat) :
    isEndAt offset = do return (← peekAt offset 1).isEmpty := by
  have hEmpty (window : Window) (distance : Nat) :
      (window.slice distance 1).isEmpty = decide (window.length ≤ distance) := by
    rw [slice_eq_take_drop, Bool.eq_iff_iff, List.isEmpty_iff, List.take_eq_nil_iff,
      List.drop_eq_nil_iff, length_retained]
    simp
  funext window
  simp only [isEndAt, peekAt, peek, bind, EStateM.bind]
  cases relative offset window with
  | error fault after => rfl
  | ok distance after =>
    dsimp only
    cases fill (distance + 1) after with
    | error fault last => rfl
    | ok _ last => exact congrArg (EStateM.Result.ok · last) (hEmpty last distance).symm

theorem Reading.isAtEnd_eq : isAtEnd = do return (← peek 1).isEmpty := by
  funext reader
  have hWindow : onWindow (Window.isEndAt reader.cursor.position) reader =
      (do return (← onWindow (Window.peekAt reader.cursor.position 1)).isEmpty) reader := by
    simp only [Window.isEndAt_eq, onWindow, bind, EStateM.bind]
    cases Window.peekAt reader.cursor.position 1 reader.window <;> rfl
  exact hWindow

/-- A kind of claim about two runs side by side. -/
structure Comparison where
  /-- The runs begin at such readers only. -/
  Sound : Readers → Prop
  /-- So many bytes from the cursors on may be looked at. -/
  Room : Readers → ℕ∞ → Prop
  /-- Runs that begin at the first readers may return at the second, at most so many bytes
  further. -/
  Leaves : ℕ∞ → Readers → Readers → Prop
  /-- Runs that begin at the first readers may both be halted at the second. -/
  Stops : Readers → Halt → Readers → Prop
  /-- The forks may be committed to the cursors at hand, which takes these so far at most. -/
  Committable : ℕ∞ → Readers → Cursor → Cursor → Prop
  /-- So many rounds of a repetition may be allowed on either side. -/
  Allows : Readers → Nat → Nat → Prop
  /-- A problem of the first run that is no matter of the second. -/
  Excused : Halt → Prop

namespace Comparison

variable {α : Type} (C : Comparison)

/-- The actions go the same way if they are run where they have room. -/
def Within (reach : ℕ∞) (first second : Reading α) : Prop :=
  ∀ readers, C.Sound readers → C.Room readers reach →
    Coincide C.Excused first second readers
      (fun value other after => value = other ∧ C.Leaves reach readers after) (C.Stops readers)

/-- Later readers, with the cursors where they were, at which all forks that could be committed
still can. -/
structure Awaits (before after : Readers) : Prop where
  leaves : C.Leaves 0 before after
  committable : ∀ reach fork other, C.Committable reach before fork other →
    C.Committable reach after fork other

end Comparison

/-- A kind of claim about two runs that goes along with all that matchers are made of. -/
structure Coupling extends Comparison where
  sound {reach : ℕ∞} {before after : Readers} : Leaves reach before after → Sound after
  refl {readers : Readers} : Sound readers → Leaves 0 readers readers
  trans {reach more : ℕ∞} {first second third : Readers} : Leaves reach first second →
    Leaves more second third → Leaves (reach + more) first third
  leaves_mono {reach more : ℕ∞} {before after : Readers} : Leaves reach before after →
    reach ≤ more → Leaves more before after
  stops {reach : ℕ∞} {first second third : Readers} {halt : Halt} : Leaves reach first second →
    Stops second halt third → Stops first halt third
  room_mono {reach more : ℕ∞} {readers : Readers} : Room readers more → reach ≤ more →
    Room readers reach
  room_after {reach more : ℕ∞} {before after : Readers} : Leaves reach before after →
    Room before (reach + more) → Room after more
  /-- Rules may go too deep where nothing is known of how far they look. -/
  exhausted {readers : Readers} : Sound readers → Room readers ⊤ →
    Stops readers .exhausted readers
  invalidUtf8 {readers : Readers} (place : Nat) : Sound readers →
    Stops readers (.fault (.invalidUtf8 place)) readers
  position_eq {readers : Readers} : Sound readers →
    readers.1.cursor.position = readers.2.cursor.position
  peek (count : Nat) {readers : Readers} : Sound readers → Room readers count →
    Coincide Excused (Reading.peek count) (Reading.peek count) readers
      (fun bytes other after => bytes = other ∧ Leaves 0 readers after) (Stops readers)
  peekChar {readers : Readers} : Sound readers → Room readers 4 →
    Coincide Excused (Reading.peekChars 1) (Reading.peekChars 1) readers
      (fun decoded other after => decoded = other ∧ Leaves 0 readers after) (Stops readers)
  read (count : Nat) : toComparison.Within count (Reading.read count) (Reading.read count)
  fork {readers : Readers} : Sound readers → Sound readers.fork
  room_fork {reach : ℕ∞} {readers : Readers} : Room readers reach → Room readers.fork reach
  restore {reach : ℕ∞} {readers after : Readers} : Sound readers →
    Leaves reach readers.fork after → toComparison.Awaits readers (readers.restore after) ∧
      Committable reach (readers.restore after) after.1.cursor after.2.cursor
  stops_restore {readers after : Readers} {halt : Halt} : Sound readers →
    Stops readers.fork halt after → Stops readers halt (readers.restore after)
  committable_position_eq {reach : ℕ∞} {readers : Readers} {fork other : Cursor} :
    Committable reach readers fork other → fork.position = other.position
  commit {reach : ℕ∞} {readers : Readers} {fork other : Cursor} :
    Committable reach readers fork other → Sound readers →
    Coincide Excused (Reading.commit fork) (Reading.commit other) readers
      (fun _ _ after => Leaves reach readers after ∧ after.1.cursor.position = fork.position)
      (Stops readers)
  allows {readers : Readers} : Sound readers →
    Allows readers (readers.1.remaining + 1) (readers.2.remaining + 1)
  allows_fork {readers : Readers} {allowed other : Nat} : Allows readers allowed other →
    Allows readers.fork allowed other
  /-- Rounds are left on both sides or on neither. -/
  allows_zero {readers : Readers} {allowed other : Nat} : Sound readers →
    Allows readers allowed other → (allowed = 0 ↔ other = 0)
  /-- Rounds may be spent while the cursors still move. -/
  spent {readers : Readers} : Sound readers → Allows readers 0 0 → Stops readers .exhausted readers
  /-- A round that moves the cursor may be followed by the rounds that are left. -/
  allows_after {reach : ℕ∞} {before after : Readers} {allowed other : Nat} :
    Allows before (allowed + 1) (other + 1) → Leaves reach before after →
    after.1.cursor.position ≠ before.1.cursor.position → Allows after allowed other

/-- A kind of claim that goes along with reports as well, if they are made of the same on both
sides. -/
structure Correspondence extends Coupling where
  reported (report : Report) {readers : Readers} : Sound readers →
    toComparison.Awaits readers (readers.reported report)
  stops_reported (report : Report) {readers after : Readers} {halt : Halt} : Sound readers →
    Stops readers.fork halt after → Stops readers halt ((readers.restore after).reported report)

/-- The same number of rounds is left on both sides. -/
theorem Coupling.eq_zero_iff_of_eq {allowed other : Nat} (hSame : other = allowed) :
    allowed = 0 ↔ other = 0 := by
  rw [hSame]

/-- How many bytes from the cursor on a primitive can look at. -/
def Primitive.reach : Primitive → Nat
  | .bytes run => run.most
  | .chars run => 4 * run.most
  | .literal _ text => text.length
  | .pattern p => p.window

namespace Matcher

mutual

/-- How many bytes from the cursor on a matcher can look at. Nothing is known of a rule, nor of a
repetition without a bound of something that looks ahead. -/
noncomputable def reach : Matcher → ℕ∞
  | .primitive p => p.reach
  | .seq _ steps => (reaches steps).sum
  | .named _ steps => (namedReaches steps).sum
  | .first alternatives => (reaches alternatives).foldr max 0
  | .longest alternatives => (reaches alternatives).foldr max 0
  | .many _ _ most element separator =>
    (most.elim ⊤ fun bound => (bound : ℕ∞)) * (reach? separator + reach element)
  | .optional inner => reach inner
  | .keep inner => reach inner
  | .rule _ => ⊤
  | .lookahead _ _ inner => reach inner
  | .endOfInput _ => 1
  | .skip _ count => count
  | .insert _ _ => 0
  | .stray count => count
  | .refuse => 0

/-- How many bytes several matchers can look at, each by itself. -/
noncomputable def reaches : List Matcher → List ℕ∞
  | [] => []
  | m :: rest => reach m :: reaches rest

/-- How many bytes labelled matchers can look at, each by itself. -/
noncomputable def namedReaches : List (String × Matcher) → List ℕ∞
  | [] => []
  | (_, m) :: rest => reach m :: namedReaches rest

/-- How many bytes a matcher can look at, if there is one. -/
noncomputable def reach? : Option Matcher → ℕ∞
  | none => 0
  | some m => reach m

end

theorem reaches_eq_map (ms : List Matcher) : reaches ms = ms.map reach := by
  induction ms with
  | nil => rfl
  | cons m rest ih => rw [reaches, ih, List.map_cons]

theorem namedReaches_eq_map (steps : List (String × Matcher)) :
    namedReaches steps = steps.map fun step => step.2.reach := by
  induction steps with
  | nil => rfl
  | cons step rest ih => rw [namedReaches, ih, List.map_cons]

end Matcher

/-- How many rounds of a repetition are left after so many. -/
def roundsLeft (most : Option Nat) (count : Nat) : ℕ∞ :=
  most.elim ⊤ fun bound => ((bound - count : Nat) : ℕ∞)

theorem roundsLeft_eq {most : Option Nat} {count : Nat} (hCount : ¬ most.any (· ≤ count)) :
    roundsLeft most count = roundsLeft most (count + 1) + 1 := by
  cases most with
  | none => rfl
  | some bound =>
    have hLess : count < bound := by simpa using hCount
    have hBound : bound - count = bound - (count + 1) + 1 := by omega
    simp only [roundsLeft, Option.elim_some, hBound]
    rfl

namespace Coupling

open Reading

variable {α β ι : Type} (C : Coupling)

section Actions

variable {reach more : ℕ∞} {first second : Reading α} {next next' : α → Reading β}
  {readers middle : Readers}

theorem within_mono (hAction : C.Within reach first second) (hReach : reach ≤ more) :
    C.Within more first second := by
  intro readers hSound hRoom
  apply (hAction readers hSound (C.room_mono hRoom hReach)).imp
  exact fun _ _ _ h => ⟨h.1, C.leaves_mono h.2 hReach⟩

theorem within_pure (value : α) : C.Within 0 (Pure.pure value : Reading α) (Pure.pure value) :=
  fun _ hSound _ => .pure ⟨rfl, C.refl hSound⟩

/-- What has led to these readers may go on from there. -/
theorem runs_of_within (hAction : C.Within more first second) (hLeaves : C.Leaves reach readers middle)
    (hRoom : C.Room readers (reach + more)) :
    Coincide C.Excused first second middle
      (fun value other after => value = other ∧ C.Leaves (reach + more) readers after)
      (C.Stops readers) := by
  apply (hAction middle (C.sound hLeaves) (C.room_after hLeaves hRoom)).mono
  · exact fun _ _ _ h => ⟨h.1, C.trans hLeaves h.2⟩
  · exact fun _ _ h => C.stops hLeaves h

theorem within_bind (hAction : C.Within reach first second)
    (hNext : ∀ value, C.Within more (next value) (next' value)) :
    C.Within (reach + more) (first >>= next) (second >>= next') := by
  intro readers hSound hRoom
  apply (hAction readers hSound (C.room_mono hRoom le_self_add)).bind
  rintro value _ middle ⟨rfl, hLeaves⟩
  exact C.runs_of_within (hNext value) hLeaves hRoom

/-- What follows may look at nothing. -/
theorem within_bind_zero (hAction : C.Within reach first second)
    (hNext : ∀ value, C.Within 0 (next value) (next' value)) :
    C.Within reach (first >>= next) (second >>= next') := by
  have hBoth := C.within_bind hAction hNext
  rwa [add_zero] at hBoth

theorem within_map {next : α → β} (hAction : C.Within reach first second) :
    C.Within reach (do return next (← first)) (do return next (← second)) :=
  C.within_bind_zero hAction fun value => C.within_pure (next value)

/-- The cursors are at the same position. -/
theorem runs_position_bind {next next' : Nat → Reading β} {returned : β → β → Readers → Prop}
    {halted : Halt → Readers → Prop} (hSound : C.Sound readers)
    (hNext : Coincide C.Excused (next readers.1.cursor.position)
      (next' readers.1.cursor.position) readers returned halted) :
    Coincide C.Excused (position >>= next) (position >>= next') readers returned halted := by
  rw [C.position_eq hSound] at hNext
  exact hNext.congr (congrArg (next · readers.1) (C.position_eq hSound)) rfl

theorem within_position_bind {next next' : Nat → Reading β}
    (hNext : ∀ place, C.Within reach (next place) (next' place)) :
    C.Within reach (position >>= next) (position >>= next') :=
  fun readers hSound hRoom => C.runs_position_bind hSound (hNext _ readers hSound hRoom)

theorem within_peek (count : Nat) :
    C.Within count (Reading.peek count) (Reading.peek count) := by
  intro readers hSound hRoom
  apply (C.peek count hSound hRoom).imp
  exact fun _ _ _ h => ⟨h.1, C.leaves_mono h.2 zero_le⟩

theorem within_advance (count : Nat) : C.Within count (advance count) (advance count) :=
  C.within_map (C.read count)

theorem within_exhausted : C.Within ⊤ (throw .exhausted : Reading α) (throw .exhausted) :=
  fun _ hSound hRoom => .throw (C.exhausted hSound hRoom)

theorem within_invalidUtf8 (place : Nat) :
    C.Within reach (throw (.fault (.invalidUtf8 place)) : Reading α)
      (throw (.fault (.invalidUtf8 place))) :=
  fun _ hSound _ => .throw (C.invalidUtf8 place hSound)

/-- Runs on forks leave the cursors at hand where they are. -/
theorem runs_onFork (hSound : C.Sound readers)
    (hRuns : Coincide C.Excused first second readers.fork
      (fun value other after => value = other ∧ C.Leaves reach readers.fork after)
      (C.Stops readers.fork)) :
    Coincide C.Excused (onFork first) (onFork second) readers
      (fun result other after => result.1 = other.1 ∧ C.Awaits readers after ∧
        C.Committable reach after result.2 other.2)
      (C.Stops readers) := by
  apply Coincide.onFork
  apply hRuns.mono
  · rintro value _ after ⟨rfl, hLeaves⟩
    exact ⟨rfl, C.restore hSound hLeaves⟩
  · exact fun _ _ => C.stops_restore hSound

theorem runs_onFork_of_within (hAction : C.Within reach first second) (hSound : C.Sound readers)
    (hRoom : C.Room readers reach) :
    Coincide C.Excused (onFork first) (onFork second) readers
      (fun result other after => result.1 = other.1 ∧ C.Awaits readers after ∧
        C.Committable reach after result.2 other.2)
      (C.Stops readers) :=
  C.runs_onFork hSound (hAction readers.fork (C.fork hSound) (C.room_fork hRoom))

/-- The commit of forks that are at hand, with the same value returned after it. -/
theorem runs_commit {fork other : Cursor} (value : β) {returned : β → β → Readers → Prop}
    (hFork : C.Committable reach middle fork other) (hLeaves : C.Leaves 0 readers middle)
    (hReturned : ∀ after, C.Leaves reach readers after → returned value value after) :
    Coincide C.Excused (do Reading.commit fork; return value)
      (do Reading.commit other; return value) middle returned (C.Stops readers) := by
  have hCommit := C.commit hFork (C.sound hLeaves)
  apply (hCommit.mono (fun _ _ _ h => h) fun _ _ => C.stops hLeaves).bind
  rintro - - after ⟨hAfter, -⟩
  have hBoth := C.trans hLeaves hAfter
  rw [zero_add] at hBoth
  exact .pure (hReturned after hBoth)

end Actions

section Attempts

variable {reach : ℕ∞} {first second : Attempt} {f g : ι → Attempt} {indices : List ι}

/-- An attempt that does not match leaves the cursor where it was. -/
theorem runs_keep (hAttempt : C.Within reach first second) {readers : Readers}
    (hSound : C.Sound readers) (hRoom : C.Room readers reach) :
    Coincide C.Excused first.keep second.keep readers
      (fun result other after => result = other ∧ C.Leaves reach readers after ∧
        (result = none → C.Leaves 0 readers after))
      (C.Stops readers) := by
  apply (C.runs_onFork_of_within hAttempt hSound hRoom).bind
  rintro ⟨found, fork⟩ ⟨-, other⟩ middle ⟨rfl, hAwaits, hFork⟩
  cases found with
  | none =>
    exact .pure ⟨rfl, C.leaves_mono hAwaits.leaves zero_le, fun _ => hAwaits.leaves⟩
  | some m =>
    exact C.runs_commit (some m) hFork hAwaits.leaves fun _ hAfter => ⟨rfl, hAfter, by simp⟩

theorem within_keep (hAttempt : C.Within reach first second) :
    C.Within reach first.keep second.keep := by
  intro readers hSound hRoom
  apply (C.runs_keep hAttempt hSound hRoom).imp
  exact fun _ _ _ h => ⟨h.1, h.2.1⟩

theorem within_inTurn {reaches : ι → ℕ∞}
    (hSteps : ∀ i ∈ indices, C.Within (reaches i) (f i) (g i)) :
    C.Within (indices.map reaches).sum (Attempt.inTurn (indices.map f))
      (Attempt.inTurn (indices.map g)) := by
  induction indices with
  | nil => exact C.within_pure _
  | cons i rest ih =>
    have hRest := ih fun i hMem => hSteps i (List.mem_cons_of_mem _ hMem)
    apply C.within_bind (hSteps i List.mem_cons_self)
    intro found
    cases found with
    | none => exact C.within_mono (C.within_pure none) zero_le
    | some m =>
      apply C.within_bind_zero hRest
      intro found
      cases found with
      | none => exact C.within_pure none
      | some more => exact C.within_pure _

theorem within_seq (tag : Tag) {reaches : ι → ℕ∞}
    (hSteps : ∀ i ∈ indices, C.Within (reaches i) (f i) (g i)) :
    C.Within (indices.map reaches).sum (Attempt.seq tag (indices.map f))
      (Attempt.seq tag (indices.map g)) := by
  apply C.within_position_bind
  intro offset
  apply C.within_bind_zero (C.within_inTurn hSteps)
  intro found
  cases found with
  | none => exact C.within_pure none
  | some submatches => exact C.within_pure _

theorem within_seqNamed (tag : Tag) (label : ι → String) {reaches : ι → ℕ∞}
    (hSteps : ∀ i ∈ indices, C.Within (reaches i) (f i) (g i)) :
    C.Within (indices.map reaches).sum
      (Attempt.seqNamed tag (indices.map fun i => (label i, f i)))
      (Attempt.seqNamed tag (indices.map fun i => (label i, g i))) := by
  unfold Attempt.seqNamed
  simp only [List.map_map, Function.comp_def]
  apply C.within_position_bind
  intro offset
  apply C.within_bind_zero (C.within_inTurn hSteps)
  intro found
  cases found with
  | none => exact C.within_pure none
  | some submatches => exact C.within_pure _

theorem within_first (hAlternatives : ∀ i ∈ indices, C.Within reach (f i) (g i)) :
    C.Within reach (Attempt.first (indices.map f)) (Attempt.first (indices.map g)) := by
  induction indices with
  | nil => exact C.within_mono (C.within_pure none) zero_le
  | cons i rest ih =>
    have hRest := ih fun i hMem => hAlternatives i (List.mem_cons_of_mem _ hMem)
    intro readers hSound hRoom
    apply (C.runs_keep (hAlternatives i List.mem_cons_self) hSound hRoom).bind
    rintro found _ middle ⟨rfl, hLeaves, hNone⟩
    cases found with
    | some m => exact .pure ⟨rfl, hLeaves⟩
    | none =>
      have hThen := C.runs_of_within hRest (hNone rfl) ((zero_add reach).symm ▸ hRoom)
      rwa [zero_add] at hThen

/-- The same match has been found on both sides, and its forks can be committed, or none has been
found on either. -/
inductive Finds (reach : ℕ∞) (readers : Readers) :
    (found other : Option (Match × Cursor)) → Prop where
  | none : Finds reach readers none none
  | some {m : Match} {fork other : Cursor} (hFork : C.Committable reach readers fork other) :
    Finds reach readers (some (m, fork)) (some (m, other))

theorem Finds.awaits {C : Coupling} {readers after : Readers} {found other : Option (Match × Cursor)}
    (hFinds : C.Finds reach readers found other) (hAwaits : C.Awaits readers after) :
    C.Finds reach after found other := by
  cases hFinds with
  | none => exact .none
  | some hFork => exact .some (hAwaits.committable _ _ _ hFork)

/-- The matches found are the same, and so one that is found next is better than both or neither. -/
theorem Finds.all_eq {C : Coupling} {readers : Readers} {found other : Option (Match × Cursor)}
    (hFinds : C.Finds reach readers found other) {holds : Match × Cursor → Bool}
    (hHolds : ∀ m fork fork', holds (m, fork) = holds (m, fork')) :
    found.all holds = other.all holds := by
  cases hFinds with
  | none => rfl
  | some _ => exact hHolds _ _ _

theorem runs_best (hAlternatives : ∀ i ∈ indices, C.Within reach (f i) (g i)) {readers : Readers}
    (hSound : C.Sound readers) (hRoom : C.Room readers reach)
    {found other : Option (Match × Cursor)} (hFinds : C.Finds reach readers found other) :
    Coincide C.Excused (Attempt.best found (indices.map f)) (Attempt.best other (indices.map g))
      readers
      (fun result other after => C.Leaves 0 readers after ∧ C.Finds reach after result other)
      (C.Stops readers) := by
  induction indices generalizing readers found other with
  | nil => exact .pure ⟨C.refl hSound, hFinds⟩
  | cons i rest ih =>
    apply (C.runs_onFork_of_within (hAlternatives i List.mem_cons_self) hSound hRoom).bind
    rintro ⟨result, fork⟩ ⟨-, fork'⟩ middle ⟨rfl, hAwaits, hFork⟩
    have hThen {found other : Option (Match × Cursor)} (hFinds : C.Finds reach middle found other) :
        Coincide C.Excused (Attempt.best found (rest.map f)) (Attempt.best other (rest.map g)) middle
          (fun result other after => C.Leaves 0 readers after ∧ C.Finds reach after result other)
          (C.Stops readers) := by
      have hRoom := C.room_after hAwaits.leaves ((zero_add reach).symm ▸ hRoom)
      apply (ih (fun i hMem => hAlternatives i (List.mem_cons_of_mem _ hMem))
        (C.sound hAwaits.leaves) hRoom hFinds).mono
      · rintro result other after ⟨hLeaves, hFinds⟩
        have hBoth := C.trans hAwaits.leaves hLeaves
        rw [zero_add] at hBoth
        exact ⟨hBoth, hFinds⟩
      · exact fun _ _ => C.stops hAwaits.leaves
    have hHeld := hFinds.awaits hAwaits
    cases result with
    | none => exact hThen hHeld
    | some m =>
      dsimp only
      rw [hFinds.all_eq]
      · split
        · exact hThen (.some hFork)
        · exact hThen hHeld
      · exact fun _ _ _ => rfl

theorem within_longest (hAlternatives : ∀ i ∈ indices, C.Within reach (f i) (g i)) :
    C.Within reach (Attempt.longest (indices.map f)) (Attempt.longest (indices.map g)) := by
  intro readers hSound hRoom
  apply (C.runs_best hAlternatives hSound hRoom .none).bind
  rintro found other middle ⟨hLeaves, hFinds⟩
  cases hFinds with
  | none => exact .pure ⟨rfl, C.leaves_mono hLeaves zero_le⟩
  | @some m fork other hFork =>
    exact C.runs_commit (some m) hFork hLeaves fun _ hAfter => ⟨rfl, hAfter⟩

section Repetition

variable {more : ℕ∞} {separator : Option ι} (hElement : C.Within reach first second)
  (hSeparator : ∀ i ∈ separator, C.Within more (f i) (g i))

include hElement hSeparator

theorem within_round :
    C.Within (more + reach) (Attempt.round first (separator.map f))
      (Attempt.round second (separator.map g)) := by
  cases separator with
  | none =>
    refine C.within_mono (C.within_bind_zero hElement fun found => ?_) le_add_self
    cases found with
    | none => exact C.within_pure none
    | some m => exact C.within_pure _
  | some i =>
    apply C.within_bind (hSeparator i rfl)
    intro found
    cases found with
    | none => exact C.within_mono (C.within_pure none) zero_le
    | some gap =>
      apply C.within_bind_zero hElement
      intro found
      cases found with
      | none => exact C.within_pure none
      | some m => exact C.within_pure _

/-- The separator is due in every round but the first. -/
theorem within_round_at (count : Nat) :
    C.Within (more + reach) (Attempt.round first (if count = 0 then none else separator.map f))
      (Attempt.round second (if count = 0 then none else separator.map g)) := by
  split
  · have hNone : ∀ i ∈ (none : Option ι), C.Within more (f i) (g i) := by
      simp
    exact C.within_round hElement hNone
  · exact C.within_round hElement hSeparator

/-- A round looks no further than its element and its separator do, the last one included, and so
the rounds that are left bound how far all of them look. -/
theorem runs_rounds (most : Option Nat) {count allowed other : Nat} {readers : Readers}
    (hSound : C.Sound readers) (hRoom : C.Room readers (roundsLeft most count * (more + reach)))
    (hAllows : C.Allows readers allowed other) :
    Coincide C.Excused (Attempt.rounds first (separator.map f) most count allowed)
      (Attempt.rounds second (separator.map g) most count other) readers
      (fun result other after => result = other ∧
        C.Leaves (roundsLeft most count * (more + reach)) readers after)
      (C.Stops readers) := by
  induction allowed generalizing count other readers with
  | zero =>
    obtain rfl := (C.allows_zero hSound hAllows).1 rfl
    exact .throw (C.spent hSound hAllows)
  | succ allowed ih =>
    obtain ⟨other, rfl⟩ : ∃ left, other = left + 1 :=
      Nat.exists_eq_succ_of_ne_zero fun hZero =>
        absurd ((C.allows_zero hSound hAllows).2 hZero) (Nat.succ_ne_zero allowed)
    have hEnds {middle : Readers} (hLeaves : C.Leaves 0 readers middle) :
        Coincide C.Excused (Pure.pure ([], []) : Reading (List UInt8 × List Match))
          (Pure.pure ([], [])) middle
          (fun result other after => result = other ∧
            C.Leaves (roundsLeft most count * (more + reach)) readers after)
          (C.Stops readers) :=
      .pure ⟨rfl, C.leaves_mono hLeaves zero_le⟩
    rw [Attempt.rounds, Attempt.rounds]
    split
    · exact hEnds (C.refl hSound)
    · next hCount =>
      have hLeft := roundsLeft_eq hCount
      have hReach : roundsLeft most count * (more + reach) =
          (more + reach) + roundsLeft most (count + 1) * (more + reach) := by
        rw [hLeft, add_mul, one_mul, add_comm]
      rw [hReach] at hRoom
      apply C.runs_position_bind hSound
      apply (C.runs_onFork_of_within (C.within_round_at hElement hSeparator count) hSound
        (C.room_mono hRoom le_self_add)).bind
      rintro ⟨found, fork⟩ ⟨-, fork'⟩ middle ⟨rfl, hAwaits, hFork⟩
      cases found with
      | none => exact hEnds hAwaits.leaves
      | some made =>
        have hSame := C.committable_position_eq hFork
        dsimp only
        rw [← hSame]
        split
        · exact hEnds hAwaits.leaves
        · next hMoved =>
          have hCommit := C.commit hFork (C.sound hAwaits.leaves)
          apply (hCommit.mono (fun _ _ _ h => h) fun _ _ => C.stops hAwaits.leaves).bind
          rintro - - after ⟨hAfter, hPlace⟩
          have hRound := C.trans hAwaits.leaves hAfter
          rw [zero_add] at hRound
          have hRest := ih (C.sound hRound) (C.room_after hRound hRoom)
            (C.allows_after hAllows hRound (hPlace.symm ▸ hMoved))
          apply (hRest.mono (fun _ _ _ h => h) fun _ _ => C.stops hRound).bind
          rintro result _ last ⟨rfl, hLast⟩
          exact .pure ⟨rfl, hReach.symm ▸ C.trans hRound hLast⟩

theorem within_many (tag : Tag) (least : Nat) (most : Option Nat) :
    C.Within (roundsLeft most 0 * (more + reach))
      (Attempt.many tag least most first (separator.map f))
      (Attempt.many tag least most second (separator.map g)) := by
  apply C.within_position_bind
  intro offset readers hSound hRoom
  have hRounds := C.runs_rounds hElement hSeparator most (C.fork hSound) (C.room_fork hRoom)
    (C.allows_fork (C.allows hSound))
  refine Coincide.congr ((C.runs_onFork hSound hRounds).bind ?_) rfl rfl
  rintro ⟨⟨content, elements⟩, fork⟩ ⟨-, other⟩ middle ⟨rfl, hAwaits, hFork⟩
  dsimp only
  split
  · exact .pure ⟨rfl, C.leaves_mono hAwaits.leaves zero_le⟩
  · exact C.runs_commit _ hFork hAwaits.leaves fun _ hAfter => ⟨rfl, hAfter⟩

end Repetition

theorem within_optional (hAttempt : C.Within reach first second) :
    C.Within reach (Attempt.optional first) (Attempt.optional second) := by
  apply C.within_position_bind
  intro offset
  apply C.within_bind_zero (C.within_keep hAttempt)
  intro found
  cases found with
  | none => exact C.within_pure _
  | some m => exact C.within_pure _

theorem within_lookahead (tag : Tag) (wanted : Bool) (hAttempt : C.Within reach first second) :
    C.Within reach (Attempt.lookahead tag wanted first) (Attempt.lookahead tag wanted second) := by
  intro readers hSound hRoom
  apply (C.runs_onFork_of_within hAttempt hSound hRoom).bind
  rintro ⟨found, fork⟩ ⟨-, other⟩ middle ⟨rfl, hAwaits, -⟩
  dsimp only
  split
  · apply C.runs_position_bind (C.sound hAwaits.leaves)
    exact .pure ⟨rfl, C.leaves_mono hAwaits.leaves zero_le⟩
  · exact .pure ⟨rfl, C.leaves_mono hAwaits.leaves zero_le⟩

theorem within_endOfInput (tag : Tag) :
    C.Within 1 (Attempt.endOfInput tag) (Attempt.endOfInput tag) := by
  unfold Attempt.endOfInput
  rw [isAtEnd_eq]
  apply C.within_bind_zero (C.within_map (C.within_peek 1))
  intro atEnd
  split
  · exact C.within_position_bind fun _ => C.within_pure _
  · exact C.within_pure none

theorem within_skip (tag : Tag) (count : Nat) :
    C.Within count (Attempt.skip tag count) (Attempt.skip tag count) :=
  C.within_position_bind fun _ => C.within_map (C.within_advance count)

theorem within_insert (tag : Tag) (bytes : List UInt8) :
    C.Within 0 (Attempt.insert tag bytes) (Attempt.insert tag bytes) :=
  C.within_position_bind fun _ => C.within_pure _

theorem within_stray (count : Nat) :
    C.Within count (Attempt.stray count) (Attempt.stray count) :=
  C.within_map (C.within_advance count)

theorem within_refuse : C.Within 0 Attempt.refuse Attempt.refuse :=
  C.within_position_bind C.within_invalidUtf8

end Attempts

section Primitives

variable {readers : Readers}

theorem awaits_trans {first second third : Readers} (hFirst : C.Awaits first second)
    (hSecond : C.Awaits second third) : C.Awaits first third := by
  have hLeaves := C.trans hFirst.leaves hSecond.leaves
  rw [zero_add] at hLeaves
  exact ⟨hLeaves, fun reach fork other hFork =>
    hSecond.committable reach fork other (hFirst.committable reach fork other hFork)⟩

/-- What comes after a peek can still look at all that there was room for before. -/
theorem within_peek_bind {reach : ℕ∞} {count : Nat} {next next' : List UInt8 → Reading α}
    (hCount : count ≤ reach)
    (hNext : ∀ bytes : List UInt8, bytes.length ≤ count → C.Within reach (next bytes) (next' bytes)) :
    C.Within reach (Reading.peek count >>= next) (Reading.peek count >>= next') := by
  intro readers hSound hRoom
  have hPeek := C.peek count hSound (C.room_mono hRoom hCount)
  apply (hPeek.and_leads (leads_peek_length count readers.1)).bind
  rintro bytes _ middle ⟨hLength, rfl, hLeaves⟩
  have hThen := C.runs_of_within (hNext bytes hLength) hLeaves ((zero_add reach).symm ▸ hRoom)
  rwa [zero_add] at hThen

theorem within_peekChar_bind {reach : ℕ∞} {next next' : Decoded → Reading α} (hReach : 4 ≤ reach)
    (hNext : ∀ decoded : Decoded, decoded.length ≤ 4 →
      C.Within reach (next decoded) (next' decoded)) :
    C.Within reach (peekChars 1 >>= next) (peekChars 1 >>= next') := by
  intro readers hSound hRoom
  have hPeek := C.peekChar hSound (C.room_mono hRoom hReach)
  apply (hPeek.and_leads (leads_peekChars_length 1 readers.1)).bind
  rintro decoded _ middle ⟨hLength, rfl, hLeaves⟩
  have hThen := C.runs_of_within (hNext decoded hLength) hLeaves ((zero_add reach).symm ▸ hRoom)
  rwa [zero_add] at hThen

/-- Chunk by chunk, no more bytes are looked at than there may be in all. -/
theorem within_takeBytes (run : ByteRun) (count : Nat) :
    C.Within (run.most - count : Nat) (UnitRun.takeBytes run count)
      (UnitRun.takeBytes run count) := by
  fun_induction UnitRun.takeBytes run count with
  | case1 count hCount want ih =>
    have hWant : want ≤ run.most - count := Nat.min_le_left _ _
    apply C.within_peek_bind (Nat.cast_le.2 hWant)
    intro bytes hLength
    have hAccepted := (List.takeWhile_prefix run.accepts (l := bytes)).length_le
    have hReach : ((bytes.takeWhile run.accepts).length : ℕ∞) +
        (run.most - (count + (bytes.takeWhile run.accepts).length) : Nat) ≤
          (run.most - count : Nat) := by
      norm_cast
      omega
    refine C.within_mono (C.within_bind (C.within_advance _) fun _ => ?_) hReach
    split
    · exact C.within_mono (C.within_pure _) zero_le
    · next hAll => exact C.within_map (ih bytes hAll)
  | case2 count hCount => exact C.within_mono (C.within_pure _) zero_le

theorem within_takeChars (run : CharRun) (allowed : Nat) :
    C.Within (4 * allowed : Nat) (UnitRun.takeChars run allowed)
      (UnitRun.takeChars run allowed) := by
  induction allowed with
  | zero => exact C.within_mono (C.within_pure _) zero_le
  | succ allowed ih =>
    apply C.within_peekChar_bind (by norm_cast; omega)
    intro next hLength
    have hReach : (next.length : ℕ∞) + (4 * allowed : Nat) ≤ (4 * (allowed + 1) : Nat) := by
      norm_cast
      omega
    cases next.chars with
    | nil => exact C.within_mono (C.within_pure _) zero_le
    | cons c rest =>
      dsimp only
      split
      · exact C.within_mono (C.within_bind (C.read _) fun _ => C.within_map ih) hReach
      · exact C.within_mono (C.within_pure _) zero_le

theorem within_scan (primitive : Primitive) :
    C.Within primitive.reach primitive.scan primitive.scan := by
  cases primitive with
  | bytes run => exact C.within_map (C.within_takeBytes run 0)
  | chars run => exact C.within_map (C.within_takeChars run run.most)
  | literal tag text =>
    apply C.within_peek_bind le_rfl
    intro bytes hLength
    split
    · exact C.within_mono (C.within_pure none) zero_le
    · exact C.within_map (C.within_advance text.length)
  | pattern p =>
    apply C.within_peek_bind le_rfl
    intro bytes hLength
    cases hMatch : p.matchLength? bytes with
    | none => exact C.within_mono (C.within_pure none) zero_le
    | some length =>
      have hMatched := Pattern.le_length_of_matchLength? hMatch
      exact C.within_mono (C.within_map (C.within_advance length))
        (Nat.cast_le.2 (Nat.le_trans hMatched hLength))

end Primitives

/-- Two runs of a matcher go the same way if those of its primitives and of the rules do, wherever
they are looked into, and the readers have in common what the matcher can look at. -/
theorem within_attemptOf {leaf leaf' : Primitive → Attempt} {call call' : String → Attempt}
    (hLeaf : ∀ p : Primitive, C.Within p.reach (leaf p) (leaf' p))
    (hCall : ∀ name, C.Within ⊤ (call name) (call' name)) (m : Matcher) :
    C.Within m.reach (m.attemptOf leaf call) (m.attemptOf leaf' call') := by
  have hFirst {ms : List Matcher}
      (ih : ∀ m ∈ ms, C.Within m.reach (m.attemptOf leaf call) (m.attemptOf leaf' call')) :
      ∀ m ∈ ms, C.Within ((Matcher.reaches ms).foldr max 0) (m.attemptOf leaf call)
        (m.attemptOf leaf' call') := by
    intro m hMem
    rw [Matcher.reaches_eq_map]
    exact C.within_mono (ih m hMem)
      (List.le_max_of_le' 0 (List.mem_map_of_mem hMem) (le_refl m.reach))
  induction m with
  | primitive p => exact hLeaf p
  | seq tag steps ih =>
    rw [Matcher.attemptOf, Matcher.attemptOf, Matcher.attemptsOf_eq_map,
      Matcher.attemptsOf_eq_map, Matcher.reach, Matcher.reaches_eq_map]
    exact C.within_seq tag ih
  | named tag steps ih =>
    rw [Matcher.attemptOf, Matcher.attemptOf, Matcher.namedAttemptsOf_eq_map,
      Matcher.namedAttemptsOf_eq_map, Matcher.reach, Matcher.namedReaches_eq_map]
    exact C.within_seqNamed tag Prod.fst ih
  | first ms ih =>
    rw [Matcher.attemptOf, Matcher.attemptOf, Matcher.attemptsOf_eq_map,
      Matcher.attemptsOf_eq_map]
    exact C.within_first (hFirst ih)
  | longest ms ih =>
    rw [Matcher.attemptOf, Matcher.attemptOf, Matcher.attemptsOf_eq_map,
      Matcher.attemptsOf_eq_map]
    exact C.within_longest (hFirst ih)
  | many tag least most element separator hElement hSeparator =>
    rw [Matcher.attemptOf, Matcher.attemptOf, Matcher.attemptOf?_eq_map,
      Matcher.attemptOf?_eq_map]
    apply C.within_many hElement
    intro m hMem
    rw [Option.mem_def.1 hMem]
    exact hSeparator m hMem
  | optional inner ih => exact C.within_optional ih
  | keep inner ih => exact C.within_keep ih
  | rule name => exact hCall name
  | lookahead tag wanted inner ih => exact C.within_lookahead tag wanted ih
  | endOfInput tag => exact C.within_endOfInput tag
  | skip tag count => exact C.within_skip tag count
  | insert tag bytes => exact C.within_insert tag bytes
  | stray count => exact C.within_stray count
  | refuse => exact C.within_refuse

/-- Rules that may go equally deep go the same way, wherever they are looked into. -/
theorem within_callOf {leaf leaf' : Primitive → Attempt}
    (hLeaf : ∀ p : Primitive, C.Within p.reach (leaf p) (leaf' p)) (grammar : Grammar)
    (depth : Nat) (name : String) :
    C.Within ⊤ (grammar.callOf leaf depth name) (grammar.callOf leaf' depth name) := by
  induction depth generalizing name with
  | zero => exact C.within_exhausted
  | succ depth ih =>
    rw [Grammar.callOf, Grammar.callOf]
    split
    · exact C.within_mono (C.within_pure none) le_top
    · exact C.within_mono (C.within_attemptOf hLeaf ih _) le_top

end Coupling

namespace Correspondence

open Reading

variable (C : Correspondence) {readers : Readers}

/-- A scan on forks leaves the cursors at hand where they are. -/
theorem runs_guarded (primitive : Primitive) (offset : Nat) (hSound : C.Sound readers)
    (hRoom : C.Room readers primitive.reach) :
    Coincide C.Excused (primitive.guarded offset) (primitive.guarded offset) readers
      (fun result other after => result.1 = other.1 ∧ C.Awaits readers after ∧
        C.Committable primitive.reach after result.2 other.2)
      (C.Stops readers) := by
  apply Coincide.guarded
  apply Coincide.onFork
  apply (C.within_scan primitive readers.fork (C.fork hSound) (C.room_fork hRoom)).mono
  · rintro value _ after ⟨rfl, hLeaves⟩
    exact ⟨rfl, C.restore hSound hLeaves⟩
  · intro halt after hStops
    cases halt with
    | fault fault => exact C.stops_reported _ hSound hStops
    | misplaced => exact C.stops_restore hSound hStops
    | exhausted => exact C.stops_restore hSound hStops

theorem within_primitive (primitive : Primitive) :
    C.Within primitive.reach primitive.attempt primitive.attempt := by
  apply C.within_position_bind
  intro offset readers hSound hRoom
  have hReport (report : Report) {first second : Readers} (hAwaits : C.Awaits first second) :
      Coincide C.Excused (Reading.report report) (Reading.report report) second
        (fun _ _ after => C.Awaits first after) (C.Stops readers) :=
    .report (C.awaits_trans hAwaits (C.reported report (C.sound hAwaits.leaves)))
  have hHere : C.Awaits readers readers := ⟨C.refl hSound, fun _ _ _ h => h⟩
  apply (hReport _ hHere).bind
  rintro - - before hBefore
  have hRoom := C.room_after hBefore.leaves ((zero_add (primitive.reach : ℕ∞)).symm ▸ hRoom)
  apply ((C.runs_guarded primitive offset (C.sound hBefore.leaves) hRoom).mono
    (fun _ _ _ h => h) fun _ _ => C.stops hBefore.leaves).bind
  rintro ⟨found, fork⟩ ⟨-, other⟩ after ⟨rfl, hAwaits, hFork⟩
  have hAfter := C.awaits_trans hBefore hAwaits
  cases found with
  | none => exact .pure ⟨rfl, C.leaves_mono hAfter.leaves zero_le⟩
  | some content =>
    apply (hReport _ ⟨C.refl (C.sound hAfter.leaves), fun _ _ _ h => h⟩).bind
    rintro - - last hLast
    have hLeaves := (C.awaits_trans hAfter hLast).leaves
    exact C.runs_commit _ (hLast.committable _ _ _ hFork) hLeaves fun _ hDone => ⟨rfl, hDone⟩

theorem within_attempt {call call' : String → Attempt}
    (hCall : ∀ name, C.Within ⊤ (call name) (call' name)) (m : Matcher) :
    C.Within m.reach (m.attempt call) (m.attempt call') := by
  rw [← m.attemptOf_attempt, ← m.attemptOf_attempt]
  exact C.within_attemptOf C.within_primitive hCall m

theorem within_call (grammar : Grammar) (depth : Nat) (name : String) :
    C.Within ⊤ (grammar.call depth name) (grammar.call depth name) := by
  rw [← grammar.callOf_attempt]
  exact C.within_callOf C.within_primitive grammar depth name

end Correspondence

end StreamMatch
