import Mathlib
import StreamMatch.Proofs.AttemptReports
import StreamMatch.Proofs.Ledger

/-!
Tracing is for the reader of the reports alone. A session that is traced goes as it goes without that
(`Session.shadows_step`), cursors are traced if they come from traced ones, and what is reported is
what follows from the notes of all attempts (`Session.step_reports`).
-/

namespace StreamMatch

open Reading

def Cursor.unmarked (cursor : Cursor) : Cursor :=
  { cursor with traced := false }

namespace Session

/-- The session as it is if no cursor is traced. -/
def unmarked (session : Session) : Session :=
  { session with cursors := session.cursors.map (Prod.map id Cursor.unmarked) }

/-- Which cursors there are, and whether they are traced. -/
def marks (session : Session) (name : String) : Option Bool :=
  (session.cursor? name).map Cursor.traced

/-- The session after commands for the cursors of these names. -/
def after (grammar : Grammar) (session : Session) (steps : List (String × Command)) : Session :=
  steps.foldl (fun session step => (session.step grammar step.1 step.2).session) session

theorem after_cons (grammar : Grammar) (session : Session) (next : String × Command)
    (rest : List (String × Command)) :
    session.after grammar (next :: rest) =
      (session.step grammar next.1 next.2).session.after grammar rest :=
  rfl

end Session

namespace Command

/-- The command if nothing is to be traced. -/
def unmarked : Command → Command
  | .newRoot name _ => .newRoot name false
  | command => command

/-- Which cursors there are after a command for the cursor of that name, and whether they are traced.
A mark is passed on to forks and copies, and to nothing else. -/
def mark (marks : String → Option Bool) (name : String) (command : Command) :
    String → Option Bool :=
  match marks name with
  | none => marks
  | some traced =>
    match command with
    | .fork fresh => Function.update marks fresh (some traced)
    | .copy fresh => Function.update marks fresh (some traced)
    | .newRoot fresh asked => Function.update marks fresh (some asked)
    | .commit _ => Function.update marks name none
    | .abandon => Function.update marks name none
    | _ => marks

/-- What is attempted, with a note of each attempt of a primitive on the way. -/
def noted? (grammar : Grammar) : Command → Option Attempt
  | .parse m => some (grammar.parseOf Primitive.noted m)
  | .attempt m => some (grammar.attemptOf Primitive.noted m)
  | _ => none

end Command

/-- The answer, but for whether a cursor is traced. -/
def Answer.unmarked : Answer → Answer
  | .cursor found => .cursor found.unmarked
  | answer => answer

/-- The turn as it is if nothing is traced. -/
def Turn.unmarked (turn : Turn) : Turn where
  answer := turn.answer.map Answer.unmarked
  subject := turn.subject
  session := turn.session.unmarked

/-- The turn goes as the other one, in which nothing is traced. -/
structure Turn.Shadows (turn plain : Turn) (marks : String → Option Bool) (quiet : Prop) : Prop where
  unmarked_eq : turn.unmarked = plain
  marks_eq : turn.session.marks = marks
  reports_eq : quiet → turn.reports = #[]

/-- The second run makes no reports, nor does the first if it has nothing to report. -/
def unreported (quiet : Prop) : Bookkeeping where
  Kept first second := (quiet → first = #[]) ∧ second = #[]
  Stopped _ _ first second := (quiet → first = #[]) ∧ second = #[]
  stopped hKept := hKept
  stopped_of_fork hStopped := hStopped

/-- Reports are made at the traced cursor only. -/
def Correspondence.unreported (quiet : Prop) (hLoud : ¬ quiet) (traced : Bool) : Correspondence where
  toCoupling := (StreamMatch.unreported quiet).coupling (traced, false)
  reported report readers hSound := by
    have hReported : (StreamMatch.unreported quiet).Sound (traced, false) (readers.reported report) :=
      ⟨hSound.abreast.reported report, fun hQuiet => absurd hQuiet hLoud, by
        have hTraced : readers.2.cursor.traced = false := hSound.abreast.traced_eq'
        simpa [Readers.reported, Reader.reported, hTraced] using hSound.kept.2⟩
    exact ⟨⟨hReported, rfl⟩, fun _ _ _ h => h⟩
  stops_reported report readers after halt hSound hHalted := by
    have hAbreast := hSound.abreast.restore hHalted.abreast
    have hTraced : readers.2.cursor.traced = false := hSound.abreast.traced_eq'
    refine ⟨hAbreast.reported report, fun hQuiet => absurd hQuiet hLoud, ?_⟩
    simpa [Readers.reported, Readers.restore, Reader.reported, hTraced] using hHalted.stopped.2

namespace Session

variable {session : Session} {name : String} {cursor : Cursor}

@[simp]
theorem cursor?_unmarked (session : Session) (name : String) :
    session.unmarked.cursor? name = (session.cursor? name).map Cursor.unmarked := by
  simp only [cursor?, unmarked]
  induction session.cursors with
  | nil => rfl
  | cons entry rest ih =>
    obtain ⟨key, cursor⟩ := entry
    simp only [List.map_cons, Prod.map_apply, id_eq, lookup_cons_eq_ite, ih]
    split <;> rfl

@[simp]
theorem unmarked_remove (session : Session) (name : String) :
    (session.remove name).unmarked = session.unmarked.remove name := by
  simp only [unmarked, remove, List.filter_map]
  rfl

@[simp]
theorem unmarked_insert (session : Session) (name : String) (cursor : Cursor) :
    (session.insert name cursor).unmarked = session.unmarked.insert name cursor.unmarked := by
  have hRemove := congrArg Session.cursors (session.unmarked_remove name)
  simp only [unmarked, insert, remove] at hRemove ⊢
  rw [List.map_cons, hRemove]
  rfl

theorem marks_insert (session : Session) (name : String) (cursor : Cursor) :
    (session.insert name cursor).marks = Function.update session.marks name (some cursor.traced) := by
  funext other
  simp only [marks, cursor?_insert, Function.update_apply]
  split <;> rfl

theorem marks_remove (session : Session) (name : String) :
    (session.remove name).marks = Function.update session.marks name none := by
  funext other
  simp only [marks, cursor?_remove, Function.update_apply]
  split <;> rfl

/-- An action that leaves the mark of its cursor leaves all marks. -/
theorem marks_insert_of_traced_eq (hCursor : session.marks name = some cursor.traced)
    {after : Cursor} (hTraced : after.traced = cursor.traced) (window : Window) :
    (Session.insert { session with window } name after).marks = session.marks := by
  rw [marks_insert, hTraced, ← hCursor]
  exact Function.update_eq_self name session.marks

end Session

namespace Readers.Abreast

variable {traced : Bool} {after : Readers}

theorem unmarked_eq (hAbreast : Abreast (traced, false) after) :
    after.1.cursor.unmarked = after.2.cursor := by
  change _ = Cursor.mk after.2.cursor.position after.2.cursor.depth after.2.cursor.traced
  rw [hAbreast.position_eq, hAbreast.depth_eq, hAbreast.traced_eq']
  rfl

theorem cursor_eq (hAbreast : Abreast (traced, traced) after) :
    after.2.cursor = after.1.cursor := by
  change Cursor.mk after.2.cursor.position after.2.cursor.depth after.2.cursor.traced = _
  have hTraced : after.2.cursor.traced = after.1.cursor.traced :=
    hAbreast.traced_eq'.trans hAbreast.traced_eq.symm
  rw [hAbreast.position_eq, hAbreast.depth_eq, hTraced]

end Readers.Abreast

namespace Session

open Readers

variable {session : Session} {name : String} {cursor : Cursor} {quiet : Prop}

theorem marks_of_cursor? (hCursor : session.cursor? name = some cursor) :
    session.marks name = some cursor.traced := by
  rw [marks, hCursor, Option.map_some]

/-- The readers at a cursor, as it is and if it is not traced. -/
def abreast (session : Session) (cursor : Cursor) : Readers :=
  ({ window := session.window, cursor }, { window := session.window, cursor := cursor.unmarked })

theorem sound_abreast (session : Session) (cursor : Cursor) (quiet : Prop) :
    (unreported quiet).Sound (cursor.traced, false) (session.abreast cursor) :=
  ⟨⟨rfl, rfl, rfl, rfl, rfl⟩, fun _ => rfl, rfl⟩

theorem shadows_unknown (session : Session) (quiet : Prop) :
    session.unknown.Shadows session.unmarked.unknown session.marks quiet :=
  ⟨rfl, rfl, fun _ => rfl⟩

theorem shadows_add (session : Session) (fresh : String) (cursor : Cursor) (quiet : Prop) :
    (session.add fresh cursor).Shadows (session.unmarked.add fresh cursor.unmarked)
      (Function.update session.marks fresh (some cursor.traced)) quiet where
  unmarked_eq := by
    simp only [Turn.unmarked, add, unmarked_insert]
    rfl
  marks_eq := session.marks_insert fresh cursor
  reports_eq _ := rfl

theorem run_of_ok (session : Session) {α : Type} {action : Reading α} {value : α} {after : Reader}
    (hRun : action { window := session.window, cursor } = .ok value after) (answer : α → Answer) :
    session.run name cursor action answer =
      { answer := .ok (answer value), subject := some name, reports := after.reports
        session := Session.insert { session with window := after.window } name after.cursor } := by
  simp only [run, hRun]

theorem run_of_error (session : Session) {α : Type} {action : Reading α} {halt : Halt} {after : Reader}
    (hRun : action { window := session.window, cursor } = .error halt after) (answer : α → Answer) :
    session.run name cursor action answer =
      { answer := .error (.halted halt), subject := some name, reports := after.reports
        session := Session.insert { session with window := after.window } name after.cursor } := by
  simp only [run, hRun]

/-- A turn in which an action is run that goes the same way whether its cursor is traced or not. -/
theorem shadows_run {α : Type} {action action' : Reading α} {answer : α → Answer}
    (hCursor : session.cursor? name = some cursor)
    (hRuns : Coincide (fun _ => False) action action' (session.abreast cursor)
      (fun value other after => (answer value).unmarked = answer other ∧
        (unreported quiet).Sound (cursor.traced, false) after)
      (fun _ after => Abreast (cursor.traced, false) after ∧
        (quiet → after.1.reports = #[]) ∧ after.2.reports = #[])) :
    (session.run name cursor action answer).Shadows
      (session.unmarked.run name cursor.unmarked action' answer) session.marks quiet := by
  have hSession {after : Readers} (hAbreast : Abreast (cursor.traced, false) after) :
      (Session.insert { session with window := after.1.window } name after.1.cursor).unmarked =
        Session.insert { session.unmarked with window := after.2.window } name
          after.2.cursor := by
    rw [unmarked_insert, hAbreast.unmarked_eq, hAbreast.window_eq]
    rfl
  have hMarks := marks_of_cursor? hCursor
  cases hRuns with
  | @returns value other left right hFirst hSecond hReturned =>
    obtain ⟨hAnswer, hAbreast, hQuiet, (hReports : right.reports = #[])⟩ := hReturned
    rw [session.run_of_ok hFirst, session.unmarked.run_of_ok hSecond]
    refine ⟨?_, marks_insert_of_traced_eq hMarks hAbreast.traced_eq _, hQuiet⟩
    simp only [Turn.unmarked, Except.map, hAnswer, hSession hAbreast, hReports]
  | @halts halt left right hFirst hSecond hHalted =>
    obtain ⟨hAbreast, hQuiet, (hReports : right.reports = #[])⟩ := hHalted
    rw [session.run_of_error hFirst, session.unmarked.run_of_error hSecond]
    refine ⟨?_, marks_insert_of_traced_eq hMarks hAbreast.traced_eq _, hQuiet⟩
    simp only [Turn.unmarked, Except.map, hSession hAbreast, hReports]
  | excuses _ hExcused => exact hExcused.elim

/-- A turn in which an action is run that makes no reports. -/
theorem shadows_run_of_sound {α : Type} {action action' : Reading α} {answer : α → Answer}
    (hCursor : session.cursor? name = some cursor)
    (hRuns : Coincide (fun _ => False) action action' (session.abreast cursor)
      (fun value other after => (answer value).unmarked = answer other ∧
        (unreported quiet).Sound (cursor.traced, false) after)
      ((unreported quiet).Halted (cursor.traced, false) (session.abreast cursor))) :
    (session.run name cursor action answer).Shadows
      (session.unmarked.run name cursor.unmarked action' answer) session.marks quiet :=
  shadows_run hCursor (hRuns.mono (fun _ _ _ h => h) fun _ _ h => ⟨h.abreast, h.stopped⟩)

theorem shadows_commit (session : Session) {into : String} {parent : Cursor}
    (hParent : session.cursor? into = some parent) (fork : Cursor) (quiet : Prop) :
    (session.run into parent (commit fork) fun _ => .nothing).Shadows
      (session.unmarked.run into parent.unmarked (commit fork.unmarked) fun _ => .nothing)
      session.marks quiet := by
  have hSound := session.sound_abreast parent quiet
  apply shadows_run_of_sound hParent
  exact (hSound.runs_commit rfl rfl).mono (fun _ _ _ h => ⟨rfl, h.1.1⟩) fun halt _ hSame =>
    hSame ▸ hSound.halted halt

theorem shadows_reclaim (hCursor : session.cursor? name = some cursor) (quiet : Prop) :
    (session.run name cursor reclaim fun _ => .nothing).Shadows
      (session.unmarked.run name cursor.unmarked reclaim fun _ => .nothing) session.marks quiet := by
  have hSound := session.sound_abreast cursor quiet
  apply shadows_run_of_sound hCursor
  have hRuns : Coincide (fun _ => False)
      (do if cursor.isRoot then onWindow (Window.discardTo cursor.position))
      (do if cursor.isRoot then onWindow (Window.discardTo cursor.position))
      (session.abreast cursor)
      (fun _ _ after => Answer.nothing.unmarked = .nothing ∧
        (unreported quiet).Sound (cursor.traced, false) after)
      ((unreported quiet).Halted (cursor.traced, false) (session.abreast cursor)) := by
    split
    · exact (hSound.runs_onWindow _).imp fun _ _ _ h => ⟨rfl, h.2.1⟩
    · exact .pure ⟨rfl, hSound⟩
  exact hRuns.congr rfl rfl

theorem shadows_locate (hCursor : session.cursor? name = some cursor) (place : Nat)
    (quiet : Prop) :
    (session.run name cursor
      (return (← location, ← onWindow (Window.locationAt place)))
      fun locations => .locations locations.1 locations.2).Shadows
      (session.unmarked.run name cursor.unmarked
        (return (← location, ← onWindow (Window.locationAt place)))
        fun locations => .locations locations.1 locations.2) session.marks quiet := by
  have hSound := session.sound_abreast cursor quiet
  apply shadows_run_of_sound hCursor
  apply (hSound.runs_at Window.locationAt).bind
  rintro first _ middle ⟨rfl, hMiddle, hSame, -⟩
  apply ((hMiddle.runs_onWindow (Window.locationAt place)).mono (fun _ _ _ h => h) ?_).bind
  · rintro second _ after ⟨rfl, hAfter, -⟩
    exact .pure ⟨rfl, hAfter⟩
  · exact fun halt after hHalted => ⟨hHalted.abreast, hHalted.stopped⟩

/-- A matcher makes its reports at the traced cursor only. -/
theorem within_attempt_unreported (grammar : Grammar) (m : Matcher) (hLoud : ¬ quiet)
    (traced : Bool) :
    ((unreported quiet).coupling (traced, false)).Within m.reach (grammar.attempt m)
      (grammar.attempt m) := by
  rw [← grammar.attemptOf_attempt]
  exact (unreported quiet).within_attemptOf _
    (Correspondence.unreported quiet hLoud traced).within_primitive grammar m

theorem shadows_attempt (hCursor : session.cursor? name = some cursor) (grammar : Grammar)
    (m : Matcher) (hLoud : ¬ quiet) :
    (session.run name cursor (grammar.attempt m) .result).Shadows
      (session.unmarked.run name cursor.unmarked (grammar.attempt m) .result) session.marks
      quiet := by
  have hSound := session.sound_abreast cursor quiet
  apply shadows_run_of_sound hCursor
  apply (within_attempt_unreported grammar m hLoud cursor.traced _ hSound trivial).imp
  rintro result _ after ⟨rfl, hAfter, -⟩
  exact ⟨rfl, hAfter⟩

theorem shadows_parse (hCursor : session.cursor? name = some cursor) (grammar : Grammar)
    (m : Matcher) (hLoud : ¬ quiet) :
    (session.run name cursor (grammar.parse m) .result).Shadows
      (session.unmarked.run name cursor.unmarked (grammar.parse m) .result) session.marks
      quiet := by
  have hSound := session.sound_abreast cursor quiet
  have hAttempt := within_attempt_unreported grammar m hLoud cursor.traced
  apply shadows_run hCursor
  apply (Bookkeeping.runs_keep _ _ hAttempt hSound).imp
  rintro result _ after ⟨rfl, hAfter⟩
  exact ⟨rfl, hAfter⟩

/-- A turn goes the same way whether the cursors are traced or not. -/
theorem shadows_perform (grammar : Grammar) (hCursor : session.cursor? name = some cursor)
    (command : Command) :
    (session.perform grammar name cursor command).Shadows
      (session.unmarked.perform grammar name cursor.unmarked command.unmarked)
      (command.mark session.marks name) (command.noted? grammar = none) := by
  have hSound := session.sound_abreast cursor (command.noted? grammar = none)
  rw [Command.mark, marks_of_cursor? hCursor]
  cases command with
  | fork fresh => exact session.shadows_add fresh cursor.fork _
  | copy fresh => exact session.shadows_add fresh cursor _
  | newRoot fresh traced =>
    exact session.shadows_add fresh { position := session.window.start, traced } _
  | commit into =>
    rw [← session.marks_remove name]
    simp only [perform, Command.unmarked, ← unmarked_remove, cursor?_unmarked]
    cases hParent : (session.remove name).cursor? into with
    | none => exact (session.remove name).shadows_unknown _
    | some parent => exact (session.remove name).shadows_commit hParent cursor _
  | abandon =>
    rw [← session.marks_remove name]
    exact ⟨congrArg (Turn.mk _ _ _) (session.unmarked_remove name), rfl, fun _ => rfl⟩
  | reclaim => exact shadows_reclaim hCursor _
  | peek count =>
    apply shadows_run_of_sound hCursor
    exact (hSound.runs_at (Window.peekAt · count)).imp fun _ _ _ h => ⟨congrArg _ h.1, h.2.1⟩
  | peekChars count =>
    apply shadows_run_of_sound hCursor
    exact (hSound.runs_at (Window.decodeAt · count)).imp fun _ _ _ h => ⟨congrArg _ h.1, h.2.1⟩
  | read count =>
    apply shadows_run_of_sound hCursor
    exact (hSound.runs_moving (Window.peekAt · count) List.length id).imp
      fun _ _ _ h => ⟨congrArg _ h.1, h.2.1⟩
  | readChars count =>
    apply shadows_run_of_sound hCursor
    exact (hSound.runs_moving (Window.decodeAt · count) Decoded.length Decoded.chars).imp
      fun _ _ _ h => ⟨congrArg _ h.1, h.2.1⟩
  | advance count =>
    apply shadows_run_of_sound hCursor
    apply (hSound.runs_moving (Window.peekAt · count) List.length id).bind
    rintro bytes _ after ⟨rfl, hAfter, -⟩
    exact .pure ⟨rfl, hAfter⟩
  | isAtEnd =>
    apply shadows_run_of_sound hCursor
    exact (hSound.runs_at Window.isEndAt).imp fun _ _ _ h => ⟨congrArg _ h.1, h.2.1⟩
  | inspect =>
    change (session.run name cursor (return cursor) .cursor).Shadows
      (session.unmarked.run name cursor.unmarked (return cursor.unmarked) .cursor) _ _
    apply shadows_run_of_sound hCursor
    exact .pure ⟨rfl, hSound⟩
  | locate other =>
    simp only [perform, Command.unmarked, cursor?_unmarked]
    cases session.cursor? other with
    | none => exact session.shadows_unknown _
    | some second => exact shadows_locate hCursor second.position _
  | parse m => exact shadows_parse hCursor grammar m (Option.some_ne_none _)
  | attempt m => exact shadows_attempt hCursor grammar m (Option.some_ne_none _)
  | discard count => exact ⟨rfl, rfl, fun _ => rfl⟩

theorem shadows_step (grammar : Grammar) (session : Session) (name : String) (command : Command) :
    (session.step grammar name command).Shadows
      (session.unmarked.step grammar name command.unmarked) (command.mark session.marks name)
      (command.noted? grammar = none) := by
  rw [step, step, cursor?_unmarked]
  cases hCursor : session.cursor? name with
  | none =>
    have hMarks : session.marks name = none := by rw [marks, hCursor, Option.map_none]
    rw [Command.mark, hMarks]
    exact session.shadows_unknown _
  | some cursor => exact shadows_perform grammar hCursor command

/-- What holds of one turn holds of all of them, one after the other. -/
theorem unmarked_after (grammar : Grammar) (session : Session) (steps : List (String × Command)) :
    (session.after grammar steps).unmarked =
      session.unmarked.after grammar (steps.map (Prod.map id Command.unmarked)) := by
  induction steps generalizing session with
  | nil => rfl
  | cons next rest ih =>
    have hStep := (session.shadows_step grammar next.1 next.2).unmarked_eq
    rw [after_cons, ih, List.map_cons, after_cons]
    exact congrArg (Session.after grammar · _) (congrArg Turn.session hStep)

theorem marks_after (grammar : Grammar) (session : Session) (steps : List (String × Command)) :
    (session.after grammar steps).marks =
      steps.foldl (fun marks step => step.2.mark marks step.1) session.marks := by
  induction steps generalizing session with
  | nil => rfl
  | cons next rest ih =>
    have hStep := (session.shadows_step grammar next.1 next.2).marks_eq
    rw [after_cons, ih, List.foldl_cons, hStep]

/-- A turn with a matcher is the turn with notes of the attempts on the way, but for the reports,
which follow from these. -/
theorem run_eq_noted {first second : Attempt} (answer : Option Match → Answer)
    (hRuns : Coincide (fun _ => False) first second
      ({ window := session.window, cursor }, { window := session.window, cursor })
      (fun result other after => result = other ∧ Abreast (cursor.traced, cursor.traced) after ∧
        after.1.reports.toList = shown cursor.traced after.2.reports)
      (fun _ after => Abreast (cursor.traced, cursor.traced) after ∧
        after.1.reports.toList = shown cursor.traced after.2.reports)) :
    session.run name cursor first answer =
      { session.run name cursor second answer with
        reports := (shown cursor.traced (session.run name cursor second answer).reports).toArray } := by
  cases hRuns with
  | @returns result other left right hFirst hSecond hReturned =>
    obtain ⟨rfl, hAbreast, hShown⟩ := hReturned
    have hWindow : right.window = left.window := hAbreast.window_eq
    have hPlace : right.cursor = left.cursor := hAbreast.cursor_eq
    rw [session.run_of_ok hFirst, session.run_of_ok hSecond]
    simp only [hWindow, hPlace, ← hShown, Array.toArray_toList]
  | @halts halt left right hFirst hSecond hHalted =>
    obtain ⟨hAbreast, hShown⟩ := hHalted
    have hWindow : right.window = left.window := hAbreast.window_eq
    have hPlace : right.cursor = left.cursor := hAbreast.cursor_eq
    rw [session.run_of_error hFirst, session.run_of_error hSecond]
    simp only [hWindow, hPlace, ← hShown, Array.toArray_toList]
  | excuses _ hExcused => exact hExcused.elim

theorem perform_eq_noted (grammar : Grammar) (session : Session) (name : String) (cursor : Cursor)
    {command : Command} {action : Attempt} (hNoted : command.noted? grammar = some action) :
    session.perform grammar name cursor command =
      { session.run name cursor action .result with
        reports := (shown cursor.traced (session.run name cursor action .result).reports).toArray } := by
  have hSound := Reader.recording_sound { window := session.window, cursor }
  cases command with
  | parse m =>
    obtain rfl := Option.some.inj hNoted
    apply run_eq_noted
    have hAttempt := grammar.within_attempt_noted m cursor.traced #[]
    apply (Bookkeeping.runs_keep _ _ hAttempt hSound).mono
    · rintro result _ after ⟨rfl, hAbreast, hShown, -⟩
      exact ⟨rfl, hAbreast, hShown⟩
    · rintro halt after ⟨hAbreast, hShown, -⟩
      exact ⟨hAbreast, hShown⟩
  | attempt m =>
    obtain rfl := Option.some.inj hNoted
    apply run_eq_noted
    apply (grammar.within_attempt_noted m cursor.traced #[] _ hSound trivial).mono
    · rintro result _ after ⟨rfl, ⟨hAbreast, hShown, -⟩, -⟩
      exact ⟨rfl, hAbreast, hShown⟩
    · rintro halt after ⟨hAbreast, hShown, -⟩
      exact ⟨hAbreast, hShown⟩
  | _ => cases hNoted

/-- A command without a matcher has nothing to report, and of a matcher is reported what follows from
the notes of it. -/
theorem step_reports (grammar : Grammar) (session : Session) (name : String) (command : Command) :
    match session.cursor? name, command.noted? grammar with
    | some cursor, some action =>
      session.step grammar name command = { session.run name cursor action .result with
        reports :=
          (shown cursor.traced (session.run name cursor action .result).reports).toArray }
    | _, _ => (session.step grammar name command).reports = #[] := by
  have hQuiet := (session.shadows_step grammar name command).reports_eq
  cases hCursor : session.cursor? name with
  | none =>
    rw [step, hCursor]
    rfl
  | some cursor =>
    cases hNoted : command.noted? grammar with
    | none => exact hQuiet hNoted
    | some action =>
      rw [step, hCursor]
      exact perform_eq_noted grammar session name cursor hNoted

theorem marks_start (config : Config) (source : Source) (root : String) (traced : Bool) :
    (start config source root traced).marks =
      Function.update (fun _ => none) root (some traced) := by
  funext name
  simp only [marks, cursor?, start, lookup_cons_eq_ite, Function.update_apply]
  split <;> rfl

/-- Tracing is for the reader of the reports alone. After any commands, a turn of a session with a
traced root goes as the same turn of the session in which no cursor is traced, answer, cursors,
window and source included. Which cursors are traced follows from the commands: forks and copies of
traced ones are, and a new root only if that is asked for. What is reported in a turn is what follows
from the notes of all attempts of primitives in the order in which they were made, if its cursor is
traced, and nothing otherwise. -/
theorem tracing_observational (grammar : Grammar) (config : Config) (source : Source)
    (root : String) (steps : List (String × Command)) (name : String) (command : Command) :
    let session := (start config source root true).after grammar steps
    let plain := (start config source root false).after grammar
      (steps.map (Prod.map id Command.unmarked))
    let turn := session.step grammar name command
    turn.unmarked = plain.step grammar name command.unmarked ∧
      turn.session.marks =
        (steps ++ [(name, command)]).foldl (fun marks step => step.2.mark marks step.1)
          (Function.update (fun _ => none) root (some true)) ∧
      match session.cursor? name, command.noted? grammar with
      | some cursor, some action =>
        turn = { session.run name cursor action .result with
          reports :=
            (shown cursor.traced (session.run name cursor action .result).reports).toArray }
      | _, _ => turn.reports = #[] := by
  intro session plain turn
  have hStep := session.shadows_step grammar name command
  refine ⟨?_, ?_, session.step_reports grammar name command⟩
  · have hPlain : session.unmarked = plain := unmarked_after grammar _ steps
    rw [← hPlain]
    exact hStep.unmarked_eq
  · have hMarks : session.marks = _ := marks_after grammar _ steps
    rw [List.foldl_append, ← marks_start config source, ← hMarks]
    exact hStep.marks_eq

end Session

end StreamMatch
