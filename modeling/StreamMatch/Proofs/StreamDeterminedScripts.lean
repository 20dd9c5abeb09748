import StreamMatch.Proofs.Closures
import StreamMatch.Proofs.StreamDeterminedMatchers

/-!
Scripts are determined by the stream (`Library.foreseeable_call`), as long as no failure of the
source surfaces in a run, or the scripts hand such a failure on (`Script.Propagates`). A script that
goes on after a failure can tell how much of the stream has been delivered before it.
-/

namespace StreamMatch

open Reading

theorem Request.foreseeable_action {handed : Prop} {evaluate : Matcher → Attempt}
    (hEvaluate : ∀ m, Foreseeable handed (evaluate m)) (request : Request) :
    Foreseeable handed (request.action evaluate) := by
  cases request with
  | peek count => exact (foreseeable_peek count).of_handed
  | peekChars count => exact (foreseeable_peekChars count).of_handed
  | read count => exact (foreseeable_read count).of_handed
  | readChars count => exact (foreseeable_readChars count).of_handed
  | advance count => exact (foreseeable_advance count).of_handed
  | isAtEnd => exact foreseeable_isAtEnd.of_handed
  | location => exact foreseeable_location.of_handed
  | reclaim =>
    refine ⟨steady_reclaim.addsNoFailure, fun {base want cursor} hPlaced => ?_⟩
    refine .of_returns () (fun reader hScene => ⟨reader.reports, ?_⟩) hPlaced.onward
    obtain ⟨-, -, rfl⟩ := hScene
    have hReclaim := leads_reclaim reader
    unfold Leads at hReclaim
    split at hReclaim
    · next after hRun =>
      obtain ⟨hRoot, -⟩ | ⟨-, rfl⟩ := hReclaim
      · exact absurd hRoot hPlaced.deep
      · exact hRun
    · exact absurd hReclaim.2.1 hPlaced.deep
  | inspect =>
    refine ⟨(steady_get.bind fun _ => .pure _).addsNoFailure, fun {base want cursor} hPlaced => ?_⟩
    refine .of_returns cursor (fun reader hScene => ⟨reader.reports, ?_⟩) hPlaced.onward
    rw [← hScene.cursor_eq]
    rfl
  | offset =>
    refine ⟨(steady_get.bind fun _ => steady_get.bind fun _ => .pure _).addsNoFailure,
      fun {base want cursor} hPlaced => ?_⟩
    refine .of_returns (cursor.position - base.start) (fun reader hScene => ⟨reader.reports, ?_⟩)
      hPlaced.onward
    rw [← hScene.cursor_eq, ← hScene.alike.start_eq]
    rfl
  | attempt m => exact hEvaluate m
  | parse m =>
    exact kept_foreseeing.1 ((foresight handed).kept_keep (kept_foreseeing.2 (hEvaluate m)))

namespace Script

/-- A script that hands on every failure of the source, and raises none of its own. One that went on
after a failure would take another course there than it takes when it is run again. -/
def Propagates {made : Nat} : Script made → Prop
  | finish _ => True
  | fail fault => ¬ (Halt.fault fault).IsIo
  | fork _ next => next.Propagates
  | copy _ next => next.Propagates
  | commit _ _ next =>
    (∀ kind message, next (.error (.io kind message)) = .fail (.io kind message)) ∧
      ∀ outcome, (∀ kind message, outcome ≠ .error (.io kind message)) → (next outcome).Propagates
  | ask _ _ next =>
    (∀ kind message, next (.error (.io kind message)) = .fail (.io kind message)) ∧
      ∀ outcome, (∀ kind message, outcome ≠ .error (.io kind message)) → (next outcome).Propagates

variable {made : Nat} {α β : Type} {base : Window} {want : Nat} {cursor : Cursor}

/-- An action at the cursor of a handle is an action with that cursor at hand. -/
theorem enact_eq (action : Reading α) (cursors : Vector Cursor made) (handle : Handle made)
    (reader : Reader) :
    enact cursors handle action reader =
      match action { reader with cursor := place cursors reader.cursor handle } with
      | .ok value after =>
        let (given, cursors) := replace cursors reader.cursor after.cursor handle
        .ok (.ok value, cursors) { after with cursor := given }
      | .error (.fault fault) after =>
        let (given, cursors) := replace cursors reader.cursor after.cursor handle
        .ok (.error fault, cursors) { after with cursor := given }
      | .error halt after =>
        let (given, _) := replace cursors reader.cursor after.cursor handle
        .error halt { after with cursor := given } := by
  cases handle with
  | given =>
    simp only [enact, caught, place, bind, EStateM.bind]
    cases action reader with
    | ok value after => rfl
    | error halt after => cases halt <;> rfl
  | own index =>
    simp only [enact, caught, elsewhere, place, bind, EStateM.bind]
    cases action { reader with cursor := cursors[index] } with
    | ok value after => rfl
    | error halt after => cases halt <;> rfl

/-- The window is left as the action leaves it. -/
theorem leads_enact_window {action : Reading α} {cursors : Vector Cursor made} {handle : Handle made}
    {reader : Reader} (property : Window → Prop)
    (hAction : Leads action { reader with cursor := place cursors reader.cursor handle }
      (fun _ after => property after.window) (fun _ after => property after.window)) :
    Leads (enact cursors handle action) reader (fun _ after => property after.window)
      (fun _ after => property after.window) := by
  apply leads_enact_iff.2
  apply hAction.mono
  · exact fun _ _ hAfter => hAfter
  · intro halt after hAfter
    cases halt <;> exact hAfter

theorem addsNoFailure_enact {action : Reading α} (hAction : AddsNoFailure action)
    (cursors : Vector Cursor made) (handle : Handle made) :
    AddsNoFailure (enact cursors handle action) := fun reader =>
  leads_enact_window (fun window => window.source.failures.length ≤ reader.failuresAhead) (hAction _)

theorem addsNoFailure_cursorAt (cursors : Vector Cursor made) (handle : Handle made) :
    AddsNoFailure (cursorAt cursors handle) := by
  cases handle with
  | given => exact (steady_get.bind fun _ => .pure _).addsNoFailure
  | own index => exact .pure _

theorem addsNoFailure_run {evaluate : Matcher → Attempt}
    (hRequest : ∀ request : Request, AddsNoFailure (request.action evaluate))
    (script : Script made) (cursors : Vector Cursor made) :
    AddsNoFailure (script.run evaluate cursors) := by
  induction script with
  | finish result => exact .pure result
  | fail fault => exact .throw (.fault fault)
  | fork source next ih => exact (addsNoFailure_cursorAt cursors source).bind fun _ => ih _
  | copy source next ih => exact (addsNoFailure_cursorAt cursors source).bind fun _ => ih _
  | commit child into next ih =>
    exact (addsNoFailure_enact (steady_commit _).addsNoFailure cursors into).bind
      fun result => ih result.1 result.2
  | ask cursor request next ih =>
    exact (addsNoFailure_enact (hRequest request) cursors cursor).bind
      fun result => ih result.1 result.2

/-- If the action fails with the source, so does what goes on after it: it does not take the failure
back, and where failures are handed on, it hands it on. -/
theorem fails_enact_bind {handed : Prop} {action : Reading α} {cursors : Vector Cursor made}
    {handle : Handle made} {next : Except Fault α × Vector Cursor made → Reading β}
    {reader : Reader} {kind : IoKind} {message : String} {window : Window}
    (hFails : Fails handed action { reader with cursor := place cursors reader.cursor handle }
      (.io kind message) window)
    (hIo : handed → ∀ cursors, next (.error (.io kind message), cursors) =
      throw (.fault (.io kind message)))
    (hNext : ∀ result, AddsNoFailure (next result)) :
    Fails handed (enact cursors handle action >>= next) reader (.io kind message) window := by
  by_cases hHanded : handed
  · obtain ⟨last, reports, hRun⟩ := hFails.exists_eq hHanded
    have hBoth : (enact cursors handle action >>= next) reader = .error (.fault (.io kind message))
        { window, cursor := (replace cursors reader.cursor last handle).1, reports } := by
      simp only [Bind.bind, EStateM.bind, enact_eq, hRun, hIo hHanded]
      rfl
    exact .halts hBoth ⟨(hFails.of_error hRun).1, fun _ => ⟨rfl, rfl⟩⟩
  · have hEnact : Leads (enact cursors handle action) reader
        (fun _ after => after.failuresAhead < reader.failuresAhead)
        (fun _ after => after.failuresAhead < reader.failuresAhead) := by
      apply leads_enact_window fun window =>
        window.source.failures.length < reader.failuresAhead
      apply hFails.mono
      · exact fun _ _ hReturns => hReturns.1
      · exact fun _ _ hHalts => hHalts.1
    have hEnact : Fails handed (enact cursors handle action) reader (.io kind message) window := by
      apply hEnact.mono
      · exact fun _ _ hLess => ⟨hLess, hHanded⟩
      · exact fun _ _ hLess => ⟨hLess, fun h => absurd h hHanded⟩
    exact hEnact.bind fun _ => AddsNoFailure.after hNext _ reader

/-- A cursor that the script has, beginning from the cursor `origin`: it is placed, and not before
that one. -/
structure Held (base : Window) (origin : Cursor) (want : Nat) (cursor : Cursor) : Prop extends
    Placed base want cursor where
  position_le : origin.position ≤ cursor.position

theorem Held.mono {origin : Cursor} {need : Nat} (hHeld : Held base origin want cursor)
    (hNeed : want ≤ need) : Held base origin need cursor :=
  ⟨hHeld.toPlaced.mono hNeed, hHeld.position_le⟩

theorem Held.onward {origin last : Cursor} {need : Nat} (hHeld : Held base origin want cursor)
    (hOnward : Onward base cursor need last) : Held base origin need last :=
  ⟨hOnward.placed hHeld.toPlaced, Nat.le_trans hHeld.position_le hOnward.position_le⟩

/-- All cursors that a script has: those that it made, and the one given, which is as deep as it
was. -/
structure Holds (base : Window) (origin : Cursor) (want : Nat) (cursors : Vector Cursor made)
    (given : Cursor) : Prop where
  held : Held base origin want given
  depth_eq : given.depth = origin.depth
  own : Each (Held base origin want) cursors

namespace Holds

variable {origin given : Cursor} {cursors : Vector Cursor made} {need : Nat}

theorem onward (hHolds : Holds base origin want cursors given) : Onward base origin want given :=
  ⟨hHolds.held.position_le, hHolds.held.le_reach, hHolds.depth_eq⟩

theorem mono (hHolds : Holds base origin want cursors given) (hNeed : want ≤ need) :
    Holds base origin need cursors given :=
  ⟨hHolds.held.mono hNeed, hHolds.depth_eq, fun index => (hHolds.own index).mono hNeed⟩

theorem place (hHolds : Holds base origin want cursors given) (handle : Handle made) :
    Held base origin want (Script.place cursors given handle) := by
  cases handle with
  | given => exact hHolds.held
  | own index => exact hHolds.own index

theorem push (hHolds : Holds base origin want cursors given) (hCursor : Held base origin want cursor) :
    Holds base origin want (cursors.push cursor) given :=
  ⟨hHolds.held, hHolds.depth_eq, hHolds.own.push hCursor⟩

theorem replace (hHolds : Holds base origin want cursors given) (handle : Handle made)
    (hCursor : Held base origin want cursor)
    (hDepth : cursor.depth = (Script.place cursors given handle).depth) :
    Holds base origin want (Script.replace cursors given cursor handle).2
      (Script.replace cursors given cursor handle).1 := by
  cases handle with
  | given => exact ⟨hCursor, hDepth.trans hHolds.depth_eq, hHolds.own⟩
  | own index => exact ⟨hHolds.held, hHolds.depth_eq, hHolds.own.set hCursor index⟩

end Holds

theorem foretold_cursorAt {handed : Prop} (cursors : Vector Cursor made) (handle : Handle made) :
    Foretold handed base (cursorAt cursors handle) want cursor
      (fun found need last => found = place cursors cursor handle ∧ need = want ∧ last = cursor)
      (fun _ _ _ => False) := by
  refine .of_returns _ (fun reader hScene => ⟨reader.reports, ?_⟩) ⟨rfl, rfl, rfl⟩
  rw [← hScene.cursor_eq]
  cases handle <;> rfl

section Step

variable {handed : Prop} {origin given : Cursor} {cursors : Vector Cursor made}
  {handle : Handle made} {action : Reading α}
  {next : Except Fault α → Vector Cursor made → Attempt} {course : Course α}
  (hIo : handed → ∀ kind message cursors,
    next (.error (.io kind message)) cursors = throw (.fault (.io kind message)))
  (hRest : ∀ outcome cursors, AddsNoFailure (next outcome cursors))
  (hTakes : Takes handed base action want (place cursors given handle) course)

include hIo hRest hTakes

/-- Where the demand of an action fails, so does the script that goes on after the action. -/
theorem leads_fill_enact {reader : Reader} (hScene : Scene base want given reader) :
    Leads (Window.fill course.need) reader.window
      (fun _ window => ∃ reports,
        action { reader with cursor := place cursors reader.cursor handle } =
          course.finish window reports)
      (Fails handed (enact cursors handle action >>= fun result => next result.1 result.2)
        reader) := by
  obtain ⟨hAlike, hFilled, rfl⟩ := hScene
  have hRun := hTakes { reader with cursor := place cursors reader.cursor handle }
    ⟨hAlike, hFilled, rfl⟩
  apply (hRun.and (Window.leads_fill_draws course.need reader.window)).mono
  · exact fun _ _ hRuns => hRuns.1
  · rintro _ window ⟨hFails, -, kind, message, rfl⟩
    exact fails_enact_bind hFails (fun hHanded cursors => hIo hHanded kind message cursors)
      fun result => hRest result.1 result.2

/-- Whether the action returns or its fault is handed over, the script goes on. -/
theorem foretold_enact_bind (hNeed : want ≤ course.need) (outcome : Except Fault α)
    (hHanded : ∀ {reader window reports}, reader.cursor = given →
      action { reader with cursor := place cursors reader.cursor handle } =
        course.finish window reports →
      enact cursors handle action reader =
        .ok (outcome, (replace cursors given course.cursor handle).2)
          { window, cursor := (replace cursors given course.cursor handle).1, reports })
    (hNext : Foretold handed base (next outcome (replace cursors given course.cursor handle).2)
      course.need (replace cursors given course.cursor handle).1 (fun _ => Onward base origin)
      (Stopped handed base origin)) :
    Foretold handed base (enact cursors handle action >>= fun result => next result.1 result.2)
      want given (fun _ => Onward base origin) (Stopped handed base origin) := by
  apply Foretold.after_returns hNeed
  · intro reader hScene
    apply (leads_fill_enact hIo hRest hTakes hScene).mono
    · exact fun _ _ ⟨reports, hRun⟩ => ⟨reports, hHanded hScene.cursor_eq hRun⟩
    · exact fun _ _ h => h
  · exact hNext

/-- Any other halt puts an end to the script. -/
theorem foretold_enact_halts (hNeed : want ≤ course.need) {halt : Halt}
    (hCourse : course.outcome = .error halt) (hHalt : ∀ fault, halt ≠ .fault fault)
    (hHolds : Holds base origin course.need (replace cursors given course.cursor handle).2
      (replace cursors given course.cursor handle).1) :
    Foretold handed base (enact cursors handle action >>= fun result => next result.1 result.2)
      want given (fun _ => Onward base origin) (Stopped handed base origin) := by
  refine ⟨⟨.error halt, course.need, _⟩, hNeed, fun reader hScene => ?_, ?_, hHolds.onward⟩
  · apply (leads_fill_enact hIo hRest hTakes hScene).mono
    · rintro - window ⟨reports, hRun⟩
      refine ⟨reports, ?_⟩
      rw [Course.finish, hCourse, hScene.cursor_eq] at hRun
      simp only [Bind.bind, EStateM.bind, enact_eq, hScene.cursor_eq, hRun, Course.finish]
    · exact fun _ _ h => h
  · rintro - ⟨kind, message, hIo⟩
    exact hHalt _ hIo

end Step

/-- One request or one commit of a script, with all that comes after it. -/
theorem foretold_step {handed : Prop} {origin given : Cursor} {cursors : Vector Cursor made}
    (handle : Handle made) (action : Reading α)
    (next : Except Fault α → Vector Cursor made → Attempt)
    (hHolds : Holds base origin want cursors given)
    (hAction : Foretold handed base action want (place cursors given handle)
      (fun _ need last => Held base origin need last ∧
        last.depth = (place cursors given handle).depth)
      (fun halt need last => (handed → ¬ halt.IsIo) ∧ Held base origin need last ∧
        last.depth = (place cursors given handle).depth))
    (hIo : handed → ∀ kind message cursors,
      next (.error (.io kind message)) cursors = throw (.fault (.io kind message)))
    (hRest : ∀ outcome cursors, AddsNoFailure (next outcome cursors))
    (hNext : ∀ outcome, (handed → ∀ kind message, outcome ≠ .error (.io kind message)) →
      ∀ need cursors given, Holds base origin need cursors given →
        Foretold handed base (next outcome cursors) need given (fun _ => Onward base origin)
          (Stopped handed base origin)) :
    Foretold handed base
      (do let (outcome, cursors) ← enact cursors handle action; next outcome cursors) want
      given (fun _ => Onward base origin) (Stopped handed base origin) := by
  obtain ⟨⟨course, need, last⟩, hNeed, hTakes, hEnd⟩ := hAction
  have hAfter (hLast : Held base origin need last ∧
      last.depth = (place cursors given handle).depth) :
      Holds base origin need (replace cursors given last handle).2
        (replace cursors given last handle).1 :=
    (hHolds.mono hNeed).replace handle hLast.1 hLast.2
  cases course with
  | ok value =>
    apply foretold_enact_bind hIo hRest hTakes hNeed (.ok value)
    · intro reader window reports hCursor hRun
      rw [enact_eq, hRun, hCursor]
      rfl
    · exact hNext (.ok value) (by simp) need _ _ (hAfter hEnd)
  | error halt =>
    cases halt with
    | fault fault =>
      apply foretold_enact_bind hIo hRest hTakes hNeed (.error fault)
      · intro reader window reports hCursor hRun
        rw [enact_eq, hRun, hCursor]
        rfl
      · apply hNext (.error fault) _ need _ _ (hAfter hEnd.2)
        rintro hHanded kind message ⟨⟩
        exact hEnd.1 hHanded ⟨kind, message, rfl⟩
    | misplaced => exact foretold_enact_halts hIo hRest hTakes hNeed rfl (by simp) (hAfter hEnd.2)
    | exhausted => exact foretold_enact_halts hIo hRest hTakes hNeed rfl (by simp) (hAfter hEnd.2)

/-- A script takes a course that is laid down if the matchers that it runs do. -/
theorem foretold_run {handed : Prop} {evaluate : Matcher → Attempt}
    (hEvaluate : ∀ m, Foreseeable handed (evaluate m))
    {origin given : Cursor} {cursors : Vector Cursor made} (script : Script made)
    (hScript : handed → script.Propagates) (hHolds : Holds base origin want cursors given) :
    Foretold handed base (script.run evaluate cursors) want given (fun _ => Onward base origin)
      (Stopped handed base origin) := by
  have hRest {made : Nat} (script : Script made) (cursors : Vector Cursor made) :
      AddsNoFailure (script.run evaluate cursors) :=
    addsNoFailure_run (fun request => (request.foreseeable_action hEvaluate).addsNoFailure) script
      cursors
  induction script generalizing want given with
  | finish result => exact .pure hHolds.onward
  | fail fault => exact .throw ⟨hScript, hHolds.onward⟩
  | fork source next ih =>
    apply (foretold_cursorAt cursors source).bind
    · exact fun _ _ _ _ h => h.elim
    · exact fun _ reader _ => AddsNoFailure.after (fun _ => hRest next _) _ reader
    · rintro cursor need last - ⟨rfl, rfl, rfl⟩
      have hSource := hHolds.place source
      exact ih hScript (hHolds.push ⟨hSource.toPlaced.fork, hSource.position_le⟩)
  | copy source next ih =>
    apply (foretold_cursorAt cursors source).bind
    · exact fun _ _ _ _ h => h.elim
    · exact fun _ reader _ => AddsNoFailure.after (fun _ => hRest next _) _ reader
    · rintro cursor need last - ⟨rfl, rfl, rfl⟩
      exact ih hScript (hHolds.push (hHolds.place source))
  | commit child into next ih =>
    have hInto := hHolds.place into
    have hChild := hHolds.own child
    apply foretold_step into (Reading.commit cursors[child])
      (fun outcome cursors => (next outcome).run evaluate cursors) hHolds
    · apply (foretold_commit cursors[child] hInto.deep).mono
      · rintro - need last - ⟨rfl, -, rfl⟩
        exact ⟨⟨⟨hInto.deep, hChild.start_le, hChild.le_reach⟩, hChild.position_le⟩, rfl⟩
      · rintro halt need last - ⟨rfl, -, rfl, rfl⟩
        refine ⟨?_, hInto, rfl⟩
        rintro - ⟨kind, message, hIo⟩
        cases hIo
    · intro hHanded kind message cursors
      rw [(hScript hHanded).1 kind message]
      rfl
    · exact fun outcome => hRest (next outcome)
    · exact fun outcome hOther _ _ _ h =>
        ih outcome (fun hHanded => (hScript hHanded).2 outcome (hOther hHanded)) h
  | ask cursor request next ih =>
    have hCursor := hHolds.place cursor
    apply foretold_step cursor (request.action evaluate)
      (fun outcome cursors => (next outcome).run evaluate cursors) hHolds
    · apply ((request.foreseeable_action hEvaluate).foretold hCursor.toPlaced).mono
      · exact fun _ _ _ _ h => ⟨hCursor.onward h, h.depth_eq⟩
      · exact fun _ _ _ _ h => ⟨h.1, hCursor.onward h.2, h.2.depth_eq⟩
    · intro hHanded kind message cursors
      rw [(hScript hHanded).1 kind message]
      rfl
    · exact fun outcome => hRest (next outcome)
    · exact fun outcome hOther _ _ _ h =>
        ih outcome (fun hHanded => (hScript hHanded).2 outcome (hOther hHanded)) h

end Script

namespace Library

/-- No script goes on after a failure of the source. -/
def Propagates (library : Library) : Prop :=
  ∀ name script, library.scripts.lookup name = some script → script.Propagates

theorem foreseeable_call {library : Library} {handed : Prop} (hLibrary : handed → library.Propagates)
    (depth : Nat) (name : String) : Foreseeable handed (library.call depth name) := by
  induction depth generalizing name with
  | zero => exact .throw fun _ => not_isIo_exhausted
  | succ depth ih =>
    rw [call]
    split
    · exact Matcher.foreseeable_attempt ih _
    · next script hRule hScript =>
      have hEvaluate := Matcher.foreseeable_attempt ih
      refine ⟨?_, fun {base want cursor} hPlaced => ?_⟩
      · exact Script.addsNoFailure_run
          (fun request => (request.foreseeable_action hEvaluate).addsNoFailure) script _
      · apply Script.foretold_run hEvaluate script fun hHanded => hLibrary hHanded name script hScript
        exact ⟨⟨hPlaced, Nat.le_refl _⟩, rfl, Script.each_noCursors⟩
    · exact .pure none

end Library

end StreamMatch
