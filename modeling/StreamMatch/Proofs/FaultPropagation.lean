import Mathlib
import StreamMatch.Proofs.Coupling
import StreamMatch.Proofs.Events
import StreamMatch.Proofs.Retrying

/-!
Faults are neither swallowed nor made up (`Grammar.faults_surface`). As soon as a failure of the
source surfaces, a run is over, with this failure as its fault; and where none does, its fault, if
it has one, is no failure of the source (`Reading.Candid`). The same goes for the faults of what a
matcher is made of: what would have come after such a fault makes no difference, since nothing does
(`Reading.Falters`).
-/

namespace StreamMatch

namespace Window

variable {before after : Window} {events : List Event}

/-- A read takes the failure that surfaces from those in line, if there is one. -/
theorem Step.failures_eq {event : Event} (hStep : Step before event after) :
    (Quiet [event] → before.source.failures = after.source.failures) ∧
      ∀ kind message, kind ≠ .interrupted → event = .read (.failed kind message) →
        before.source.failures = (kind, message) :: after.source.failures := by
  cases hStep with
  | discard count width =>
    rw [(before.rest_discard count width).2.1]
    exact ⟨fun _ => rfl, by simp⟩
  | @read delivery rest hOpen hRead =>
    rw [source_receive]
    cases delivery with
    | bytes bytes => exact ⟨fun _ => (Source.failures_of_read_bytes hRead).symm, by simp⟩
    | failed kind message =>
      refine ⟨fun hQuiet => ?_, ?_⟩
      · obtain rfl : kind = .interrupted :=
          Decidable.not_not.1 (hQuiet (.failed kind message) (List.mem_singleton_self _))
        exact (Source.failures_of_read_interrupted hRead).symm
      · rintro _ _ hKind ⟨⟩
        exact Source.failures_of_read_failed hKind hRead

/-- As long as no failure has surfaced, all of them are still in line. -/
theorem Passes.failures_of_quiet (hPasses : before.Passes events after) (hQuiet : Quiet events) :
    before.source.failures = after.source.failures := by
  induction hPasses with
  | refl => rfl
  | snoc hPrior hLast ih =>
    have hBoth := hLast.failures_eq.1 fun delivery hMem =>
      hQuiet delivery (List.mem_append_right _ hMem)
    rw [← hBoth]
    exact ih fun delivery hMem => hQuiet delivery (List.mem_append_left _ hMem)

/-- The failure that has surfaced is the first of those that were in line. -/
theorem Passes.failures_of_failsWith {kind : IoKind} {message : String}
    (hPasses : before.Passes events after) (hFails : FailsWith kind message events) :
    before.source.failures = (kind, message) :: after.source.failures := by
  obtain ⟨hKind, front, hFront, rfl⟩ := hFails
  generalize hEvents : front ++ [Event.read (.failed kind message)] = events at hPasses
  cases hPasses with
  | refl => simp at hEvents
  | snoc hPrior hLast =>
    obtain ⟨rfl, hSame⟩ := List.append_inj' hEvents rfl
    obtain rfl := List.singleton_inj.1 hSame
    rw [hPrior.failures_of_quiet hFront]
    exact hLast.failures_eq.2 kind message hKind rfl

end Window

namespace Reading

open Window

variable {α β : Type}

/-- The window has got from here to there, and then a run was halted. -/
def Ends (before : Window) : (halt : Halt) → (after : Window) → Prop
  | .fault fault, after => before.Meets fault after
  | _, after => before.Proceeds after

theorem Ends.after {first second third : Window} {halt : Halt} (hFirst : first.Proceeds second)
    (hSecond : Ends second halt third) : Ends first halt third := by
  cases halt with
  | fault fault => exact hFirst.meets hSecond
  | misplaced => exact hFirst.trans hSecond
  | exhausted => exact hFirst.trans hSecond

theorem ends_of_not_isIo (window : Window) {halt : Halt} (hHalt : ¬ halt.IsIo) :
    Ends window halt window := by
  cases halt with
  | fault fault =>
    apply window.meets_of_ne
    rintro kind message rfl
    exact hHalt ⟨kind, message, rfl⟩
  | misplaced => exact .refl window
  | exhausted => exact .refl window

/-- The failure of the source for which a run is halted is the only one that has surfaced. -/
theorem Ends.exists_passes {before after : Window} {halt : Halt} (hEnds : Ends before halt after) :
    ∃ events, before.Passes events after ∧
      (Window.Quiet events ∧ ¬ halt.IsIo ∨
        ∃ kind message, FailsWith kind message events ∧ halt = .fault (.io kind message)) := by
  cases halt with
  | fault fault =>
    obtain ⟨events, hPasses, hTells⟩ := hEnds
    refine ⟨events, hPasses, ?_⟩
    cases fault with
    | io kind message => exact .inr ⟨kind, message, hTells, rfl⟩
    | invalidUtf8 offset => exact .inl ⟨hTells, by simp [Halt.IsIo]⟩
    | reclaimed offset start => exact .inl ⟨hTells, by simp [Halt.IsIo]⟩
  | misplaced =>
    obtain ⟨events, hPasses, hQuiet⟩ := hEnds
    exact ⟨events, hPasses, .inl ⟨hQuiet, by simp [Halt.IsIo]⟩⟩
  | exhausted =>
    obtain ⟨events, hPasses, hQuiet⟩ := hEnds
    exact ⟨events, hPasses, .inl ⟨hQuiet, not_isIo_exhausted⟩⟩

/-- The action is over as soon as a failure of the source surfaces, with that failure as its fault,
and it raises no failure of the source of its own. -/
def Candid (action : Reading α) : Prop :=
  ∀ reader, Leads action reader (fun _ after => reader.window.Proceeds after.window)
    (fun halt after => Ends reader.window halt after.window)

namespace Candid

variable {action : Reading α} {next : α → Reading β}

/-- Where the window stays as it is, nothing has happened. -/
theorem of_still (hAction : ∀ reader, Leads action reader
    (fun _ after => after.window = reader.window)
    (fun halt after => after.window = reader.window ∧ ¬ halt.IsIo)) : Candid action := by
  intro reader
  apply (hAction reader).mono
  · rintro _ after hWindow
    exact hWindow ▸ .refl reader.window
  · rintro halt after ⟨hWindow, hOther⟩
    exact hWindow ▸ ends_of_not_isIo reader.window hOther

theorem pure (value : α) : Candid (Pure.pure value : Reading α) :=
  .of_still fun _ => rfl

theorem throw {halt : Halt} (hHalt : ¬ halt.IsIo) :
    Candid (MonadExcept.throw halt : Reading α) :=
  .of_still fun _ => ⟨rfl, hHalt⟩

theorem bind (hAction : Candid action) (hNext : ∀ value, Candid (next value)) :
    Candid (action >>= next) := by
  intro reader
  apply (hAction reader).bind (fun _ _ h => h)
  intro value middle hProceeds
  apply (hNext value middle).mono
  · exact fun _ _ => hProceeds.trans
  · exact fun _ _ => .after hProceeds

theorem onWindow {action : Windowed α} (hLooks : Looks action) :
    Candid (Reading.onWindow action) := by
  intro reader
  apply leads_onWindow.2
  apply (hLooks reader.window).mono
  · exact fun _ _ h => h.2
  · exact fun _ _ h => h.2

theorem onFork (hAction : Candid action) : Candid (Reading.onFork action) := by
  intro reader
  apply leads_onFork.2
  exact (hAction { reader with cursor := reader.cursor.fork }).mono (fun _ _ h => h) fun _ _ h => h

end Candid

theorem candid_position : Candid position :=
  .of_still fun _ => rfl

theorem candid_get : Candid (get : Reading Reader) :=
  .of_still fun _ => rfl

theorem candid_moveTo (place : Nat) : Candid (moveTo place) :=
  .of_still fun _ => rfl

theorem candid_peek (count : Nat) : Candid (peek count) :=
  candid_position.bind fun _ => .onWindow (looks_peekAt _ _)

theorem candid_peekChars (count : Nat) : Candid (peekChars count) :=
  candid_position.bind fun _ => .onWindow (looks_decodeAt _ _)

theorem candid_read (count : Nat) : Candid (read count) :=
  (candid_peek count).bind fun _ => candid_position.bind fun _ =>
    (candid_moveTo _).bind fun _ => .pure _

theorem candid_readChars (count : Nat) : Candid (readChars count) :=
  (candid_peekChars count).bind fun _ => candid_position.bind fun _ =>
    (candid_moveTo _).bind fun _ => .pure _

theorem candid_advance (count : Nat) : Candid (advance count) :=
  (candid_read count).bind fun _ => .pure _

theorem candid_isAtEnd : Candid isAtEnd :=
  candid_position.bind fun _ => .onWindow (looks_isEndAt _)

theorem candid_location : Candid location :=
  candid_position.bind fun _ => .onWindow (looks_locationAt _)

theorem candid_report (report : Report) : Candid (Reading.report report) := by
  apply Candid.of_still
  intro reader
  apply (leads_report report reader).mono
  · rintro - _ ⟨reports, rfl⟩
    rfl
  · exact fun _ _ h => h.elim

theorem candid_commit (fork : Cursor) : Candid (commit fork) := by
  intro reader
  apply (leads_commit fork reader).mono
  · rintro - _ ⟨-, ⟨-, -, rfl⟩ | ⟨-, rfl⟩⟩
    · exact proceeds_discard _ _
    · exact .refl _
  · rintro halt _ ⟨rfl, ⟨-, rfl⟩ | ⟨-, -, -, rfl⟩⟩
    · exact .refl _
    · exact meets_of_ne _ (by simp)

theorem candid_reclaim : Candid reclaim := by
  intro reader
  apply (leads_reclaim reader).mono
  · rintro - _ (⟨-, -, rfl⟩ | ⟨-, rfl⟩)
    · exact proceeds_discard _ _
    · exact .refl _
  · rintro halt _ ⟨rfl, -, -, rfl⟩
    exact meets_of_ne _ (by simp)

theorem candid_guarded {primitive : Primitive} (hScan : Candid primitive.scan) (offset : Nat) :
    Candid (primitive.guarded offset) := by
  intro reader
  apply (primitive.leads_guarded offset reader).2
  apply (hScan.onFork reader).mono (fun _ _ h => h)
  intro halt middle hEnds
  cases halt with
  | fault fault =>
    apply (leads_report _ middle).mono
    · rintro - _ ⟨reports, rfl⟩
      exact hEnds
    · exact fun _ _ h => h.elim
  | misplaced => exact hEnds
  | exhausted => exact hEnds

/-- Candour as a kind of claim. Any fork may be committed, wherever the cursor is. -/
def disclosing : Judgement where
  State := Reader
  Runs := Leads
  Sound _ := True
  Leaves before after := before.window.Proceeds after.window
  Stops before halt after := Ends before.window halt after.window
  Committable _ _ := True

theorem kept_disclosing {action : Reading α} : disclosing.Kept action ↔ Candid action :=
  ⟨fun hAction reader => hAction reader trivial, fun hAction reader _ => hAction reader⟩

theorem Candid.awaits {action : Reading α} (hAction : Candid action) (reader : Reader) :
    disclosing.Runs action reader (fun _ after => disclosing.Awaits reader after)
      (disclosing.Stops reader) :=
  (hAction reader).mono (fun _ _ h => ⟨h, fun _ _ => trivial⟩) fun _ _ h => h

/-- Candour goes along with all that matchers are made of. -/
def candour : Calculus where
  toJudgement := disclosing
  sound _ := trivial
  refl {reader} _ := .refl reader.window
  trans := .trans
  stops := .after
  pure hReturned := hReturned
  mono := Leads.mono
  bind hAction hNext := Leads.bind hAction (fun _ _ h => h) hNext
  exhausted := kept_disclosing.2 (.throw not_isIo_exhausted)
  invalidUtf8 place := kept_disclosing.2 (.throw (not_isIo_invalidUtf8 place))
  position := kept_disclosing.2 candid_position
  peek count := kept_disclosing.2 (candid_peek count)
  peekChars count := kept_disclosing.2 (candid_peekChars count)
  read count := kept_disclosing.2 (candid_read count)
  isAtEnd := kept_disclosing.2 candid_isAtEnd
  report report reader _ := (candid_report report).awaits reader
  onFork hAction _ := ((kept_disclosing.1 hAction).onFork.awaits _).mono
    (fun _ _ h => ⟨h, trivial⟩) fun _ _ h => h
  guarded _ offset _ hScan _ := ((candid_guarded (kept_disclosing.1 hScan) offset).awaits _).mono
    (fun _ _ h => ⟨h, trivial⟩) fun _ _ h => h
  commit {fork reader} _ _ := candid_commit fork reader

end Reading

open Reading

/-- A matcher is candid if what the names of rules stand for is. -/
theorem Matcher.candid_attempt {call : String → Attempt} (hCall : ∀ name, Candid (call name))
    (m : Matcher) : Candid (m.attempt call) := by
  apply kept_disclosing.1
  apply candour.kept_attempt
  · intro tag least most element separator
    exact candour.kept_many (kept_disclosing.2 candid_get) tag least most
  · exact fun name => kept_disclosing.2 (hCall name)

namespace Grammar

theorem candid_call (grammar : Grammar) (depth : Nat) (name : String) :
    Candid (grammar.call depth name) := by
  induction depth generalizing name with
  | zero => exact .throw not_isIo_exhausted
  | succ depth ih =>
    rw [call]
    split
    · exact .pure none
    · exact Matcher.candid_attempt ih _

theorem candid_attempt (grammar : Grammar) (m : Matcher) : Candid (grammar.attempt m) :=
  candid_get.bind fun _ => m.candid_attempt (grammar.candid_call _)

theorem candid_parse (grammar : Grammar) (m : Matcher) : Candid (grammar.parse m) :=
  kept_disclosing.1 (candour.kept_keep (kept_disclosing.2 (grammar.candid_attempt m)))

end Grammar

namespace Reading

variable {α : Type}

/-- The second action is the first one, but for what it does where the first is stopped by this
fault. -/
def Falters (fault : Fault) (first second : Reading α) : Prop :=
  ∀ reader, second reader = first reader ∨ ∃ after, first reader = .error (.fault fault) after

/-- Two runs that are one and the same, or the first of which is stopped by this fault. -/
def oneness (fault : Fault) : Comparison where
  Sound readers := readers.2 = readers.1
  Room _ _ := True
  Leaves _ _ after := after.2 = after.1
  Stops _ _ after := after.2 = after.1
  Committable _ _ fork other := other = fork
  Allows _ allowed other := other = allowed
  Excused halt := halt = .fault fault

section

variable {fault : Fault} {reach : ℕ∞} {first second : Reading α}

theorem within_oneness :
    (oneness fault).Within reach first second ↔ Falters fault first second := by
  constructor
  · intro hWithin reader
    cases hWithin (reader, reader) rfl trivial with
    | @returns _ _ left right hFirst hSecond hEnd =>
      obtain ⟨rfl, hAfter⟩ := hEnd
      change right = left at hAfter
      rw [hAfter] at hSecond
      exact .inl (hSecond.trans hFirst.symm)
    | @halts _ left right hFirst hSecond hAfter =>
      change right = left at hAfter
      rw [hAfter] at hSecond
      exact .inl (hSecond.trans hFirst.symm)
    | excuses hFirst hExcused =>
      obtain rfl := hExcused
      exact .inr ⟨_, hFirst⟩
  · intro hFalters readers hSame _
    obtain ⟨reader, other⟩ := readers
    change other = reader at hSame
    obtain rfl := hSame
    obtain hSame | ⟨after, hFault⟩ := hFalters other
    · cases hRun : first other with
      | ok value after => exact .returns hRun (hSame.trans hRun) ⟨rfl, rfl⟩
      | error halt after => exact .halts hRun (hSame.trans hRun) rfl
    · exact .excuses hFault rfl

theorem within_oneness_self (reach : ℕ∞) (action : Reading α) :
    (oneness fault).Within reach action action :=
  within_oneness.2 fun _ => .inl rfl

end

/-- What comes after a fault goes along with nothing that matchers are made of, since it is not
run. -/
def faltering (fault : Fault) : Correspondence where
  toComparison := oneness fault
  sound hLeaves := hLeaves
  refl hSound := hSound
  trans _ hSecond := hSecond
  leaves_mono hLeaves _ := hLeaves
  stops _ hStops := hStops
  room_mono _ _ := trivial
  room_after _ _ := trivial
  exhausted hSound _ := hSound
  invalidUtf8 _ hSound := hSound
  position_eq hSound := congrArg (·.cursor.position) hSound.symm
  peek count readers hSound _ := within_oneness_self 0 (Reading.peek count) readers hSound trivial
  peekChar {readers} hSound _ := within_oneness_self 0 (Reading.peekChars 1) readers hSound trivial
  read count := within_oneness_self count (Reading.read count)
  reported report readers hSound := ⟨congrArg (Reader.reported · report) hSound, fun _ _ _ h => h⟩
  fork {readers} hSound := by
    change readers.fork.2 = readers.fork.1
    rw [Readers.fork, hSound]
  room_fork _ := trivial
  restore hSound hAfter :=
    ⟨⟨Readers.restore_eq hSound hAfter, fun _ _ _ h => h⟩, congrArg Reader.cursor hAfter⟩
  stops_restore hSound hAfter := Readers.restore_eq hSound hAfter
  stops_reported report _ _ _ hSound hAfter :=
    congrArg (Reader.reported · report) (Readers.restore_eq hSound hAfter)
  committable_position_eq hSame := congrArg Cursor.position hSame.symm
  commit {reach readers fork other} hSame hSound := by
    obtain ⟨reader, second⟩ := readers
    change second = reader at hSound
    obtain rfl := hSound
    obtain rfl := hSame
    apply Coincide.refl
    apply (leads_commit other second).mono
    · rintro - _ ⟨-, ⟨-, -, rfl⟩ | ⟨-, rfl⟩⟩ <;> exact ⟨rfl, rfl⟩
    · exact fun _ _ _ => rfl
  allows hSound := congrArg (fun reader : Reader => reader.remaining + 1) hSound
  allows_fork hSame := hSame
  allows_zero _ hSame := Coupling.eq_zero_iff_of_eq hSame
  spent hSound _ := hSound
  allows_after hSame _ _ := Nat.succ.inj hSame

end Reading

/-- What comes after a fault in what the names of rules stand for makes no difference. -/
theorem Matcher.falters_attempt {fault : Fault} {call call' : String → Attempt}
    (hCall : ∀ name, Falters fault (call name) (call' name)) (m : Matcher) :
    Falters fault (m.attempt call) (m.attempt call') :=
  within_oneness.1
    ((faltering fault).within_attempt (fun name => within_oneness.2 (hCall name)) m)

namespace Attempt

theorem falters_keep {fault : Fault} {first second : Attempt} (hAttempt : Falters fault first second) :
    Falters fault first.keep second.keep := by
  have hWithin : (oneness fault).Within 0 first second := within_oneness.2 hAttempt
  exact within_oneness.1 ((faltering fault).within_keep hWithin)

end Attempt

namespace Grammar

open Window

/-- Faults are neither swallowed nor made up. Whatever the matcher, the cursor and the source: in an
attempt or a parse no failure of the source surfaces, and then its outcome is no such failure; or
one does, and then it is the only one, nothing is read after it, and it is the outcome.

Nor is a fault swallowed that is met further inside. Let what the rules stand for do anything else
instead, such as not to match, wherever one of them meets this fault: if that makes a difference to
what is made of the rules, this is stopped by the fault. -/
theorem faults_surface (grammar : Grammar) (m : Matcher) (reader : Reader) :
    (∀ action ∈ [grammar.attempt m, grammar.parse m], ∃ outcome after events,
        Comes action reader outcome after ∧ reader.window.Passes events after.window ∧
          (Window.Quiet events ∧ reader.window.source.failures = after.window.source.failures ∧
              (∀ kind message, outcome ≠ .error (.fault (.io kind message))) ∨
            ∃ kind message, FailsWith kind message events ∧
              reader.window.source.failures = (kind, message) :: after.window.source.failures ∧
              outcome = .error (.fault (.io kind message)))) ∧
      ∀ fault call call', (∀ name, Falters fault (call name) (call' name)) →
        ∀ m : Matcher, Falters fault (m.attempt call) (m.attempt call') ∧
          Falters fault (m.attempt call).keep (m.attempt call').keep := by
  refine ⟨fun action hAction => ?_, fun fault call call' hCall m => ?_⟩
  · have hCandid : Candid action := by
      rcases List.mem_pair.1 hAction with rfl | rfl
      · exact grammar.candid_attempt m
      · exact grammar.candid_parse m
    obtain ⟨outcome, after, hRun⟩ := exists_comes action reader
    cases outcome with
    | ok found =>
      obtain ⟨events, hPasses, hQuiet⟩ := (hCandid reader).of_ok hRun
      exact ⟨.ok found, after, events, hRun, hPasses,
        .inl ⟨hQuiet, hPasses.failures_of_quiet hQuiet, by simp⟩⟩
    | error halt =>
      obtain ⟨events, hPasses, hEnd⟩ := ((hCandid reader).of_error hRun).exists_passes
      refine ⟨.error halt, after, events, hRun, hPasses, ?_⟩
      obtain ⟨hQuiet, hOther⟩ | ⟨kind, message, hFails, rfl⟩ := hEnd
      · refine .inl ⟨hQuiet, hPasses.failures_of_quiet hQuiet, ?_⟩
        intro kind message hSame
        exact hOther ⟨kind, message, Except.error.inj hSame⟩
      · exact .inr ⟨kind, message, hFails, hPasses.failures_of_failsWith hFails, rfl⟩
  · have hAttempt := m.falters_attempt hCall
    exact ⟨hAttempt, Attempt.falters_keep hAttempt⟩

/-- Alternatives, of which the first stands for a list of letters that may be missing. -/
def forgiving : Matcher :=
  .first [.optional (.many .absent 0 none (.primitive (.literal .absent [97]))
    (some (.lookahead .absent false (.rule "comma")))), .insert .absent []]

/-- The source fails where the rule would find that there is no comma. -/
def breaking : Reader where
  window := .ofSource ⟨[.data [97], .failure .brokenPipe "broken", .data [97]]⟩
  cursor := { position := 0 }

/-- The failure is neither the end of the list nor a missing one, and where the rule has met a fault
it makes no difference that it could as well not match. -/
theorem faults_surface_breaking :
    let commas : Grammar := { rules := [("comma", .primitive (.literal .absent [44]))] }
    Leads (commas.parse forgiving) breaking (fun _ _ => False)
        (fun halt _ => halt = .fault (.io .brokenPipe "broken")) ∧
      (∃ outcome after events,
        Comes (commas.parse forgiving) breaking outcome after ∧
          breaking.window.Passes events after.window ∧
          (Window.Quiet events ∧ breaking.window.source.failures = after.window.source.failures ∧
              (∀ kind message, outcome ≠ .error (.fault (.io kind message))) ∨
            ∃ kind message, FailsWith kind message events ∧
              breaking.window.source.failures = (kind, message) :: after.window.source.failures ∧
              outcome = .error (.fault (.io kind message)))) ∧
      Falters (.invalidUtf8 0)
        (forgiving.attempt fun _ => throw (.fault (.invalidUtf8 0))).keep
        (forgiving.attempt fun _ => return none).keep := by
  intro commas
  obtain ⟨hSurface, hFalters⟩ := faults_surface commas forgiving breaking
  have hCall (name : String) : Falters (.invalidUtf8 0)
      (throw (.fault (.invalidUtf8 0)) : Attempt) (return none) :=
    fun reader => .inr ⟨reader, rfl⟩
  refine ⟨?_, hSurface _ (List.mem_cons_of_mem _ (List.mem_singleton_self _)),
    (hFalters _ _ _ hCall forgiving).2⟩
  unfold Leads
  cbv

end Grammar

end StreamMatch
