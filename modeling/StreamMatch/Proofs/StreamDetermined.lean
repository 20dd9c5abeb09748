import StreamMatch.Proofs.Filling
import StreamMatch.Proofs.Steadiness

/-!
Runs that are determined by the stream. What a run on a fork comes to, and how many bytes it needs
for it, does not depend on how the source delivers them (`Reading.Foretold`): from all windows over
the same stream it does the same as one demand for that many bytes would do, and if the source fails
before there are so many, that failure is all that comes of it.
-/

namespace StreamMatch

/-- The run was stopped by a failure of the source. -/
def Halt.IsIo (halt : Halt) : Prop :=
  ∃ kind message, halt = .fault (.io kind message)

/-- How many failures of the source there are in line to surface. -/
def Reader.failuresAhead (reader : Reader) : Nat :=
  reader.window.source.failures.length

/-- How a run goes: what comes of it, how many bytes it needs from the start of the window on, and
the cursor that it leaves. -/
structure Course (α : Type) where
  outcome : Except Halt α
  need : Nat
  cursor : Cursor

namespace Course

variable {α : Type}

/-- The end of the run, over this window. -/
def finish (course : Course α) (window : Window) (reports : Array Report) :
    EStateM.Result Halt Reader α :=
  match course.outcome with
  | .ok value => .ok value { window, cursor := course.cursor, reports }
  | .error halt => .error halt { window, cursor := course.cursor, reports }

end Course

namespace Reading

open Window

variable {α β : Type} {base : Window} {want : Nat} {cursor : Cursor}

/-- However it ends, the action puts no failure in line. -/
def AddsNoFailure (action : Reading α) : Prop :=
  ∀ reader, Leads action reader (fun _ after => after.failuresAhead ≤ reader.failuresAhead)
    (fun _ after => after.failuresAhead ≤ reader.failuresAhead)

/-- Whatever the action returns, what comes next puts no failure in line. -/
def AddsNoFailureAfter (action : Reading α) (next : α → Reading β) (reader : Reader) : Prop :=
  Leads action reader
    (fun value middle => Leads (next value) middle
      (fun _ after => after.failuresAhead ≤ middle.failuresAhead)
      (fun _ after => after.failuresAhead ≤ middle.failuresAhead))
    (fun _ _ => True)

theorem Steady.addsNoFailure {action : Reading α} (hAction : Steady action) :
    AddsNoFailure action := by
  intro reader
  apply (hAction reader).mono
  · exact fun _ _ hKeeps => hKeeps.failures.length_le
  · exact fun _ _ hKeeps => hKeeps.failures.length_le

namespace AddsNoFailure

variable {action : Reading α} {next : α → Reading β}

theorem after (hNext : ∀ value, AddsNoFailure (next value)) (action : Reading α) (reader : Reader) :
    AddsNoFailureAfter action next reader :=
  .intro (fun value middle _ => hNext value middle) (fun _ _ _ => trivial)

theorem pure (value : α) : AddsNoFailure (Pure.pure value : Reading α) :=
  fun _ => Nat.le_refl _

theorem throw (halt : Halt) : AddsNoFailure (MonadExcept.throw halt : Reading α) :=
  fun _ => Nat.le_refl _

theorem bind (hAction : AddsNoFailure action) (hNext : ∀ value, AddsNoFailure (next value)) :
    AddsNoFailure (action >>= next) := by
  intro reader
  apply (hAction reader).bind
  · exact fun _ _ hLess => hLess
  · intro value middle hMiddle
    apply (hNext value middle).mono
    · exact fun _ _ hLess => Nat.le_trans hLess hMiddle
    · exact fun _ _ hLess => Nat.le_trans hLess hMiddle

theorem onFork (hAction : AddsNoFailure action) : AddsNoFailure (onFork action) :=
  fun reader => leads_onFork.2 (hAction { reader with cursor := reader.cursor.fork })

end AddsNoFailure

/-- A reader at this cursor, over a window like `base` that is filled so far. -/
structure Scene (base : Window) (want : Nat) (cursor : Cursor) (reader : Reader) : Prop where
  alike : base.Alike reader.window
  filled : reader.window.Filled want
  cursor_eq : reader.cursor = cursor

/-- No failure has surfaced in between, unless failures are `handed` on. -/
def Undisturbed (handed : Prop) (before after : Reader) : Prop :=
  handed ∨ before.failuresAhead ≤ after.failuresAhead

/-- What is undisturbed as a whole is so in both parts. -/
theorem Undisturbed.split {handed : Prop} {first middle last : Reader}
    (hStill : Undisturbed handed first last) (hBefore : middle.failuresAhead ≤ first.failuresAhead)
    (hAfter : last.failuresAhead ≤ middle.failuresAhead) :
    Undisturbed handed first middle ∧ Undisturbed handed middle last :=
  ⟨hStill.imp_right (Nat.le_trans · hAfter), hStill.imp_right (Nat.le_trans hBefore)⟩

/-- What the run comes to as long as no failure surfaces. -/
def LeadsUndisturbed (handed : Prop) (action : Reading α) (reader : Reader)
    (returned : α → Reader → Prop) (halted : Halt → Reader → Prop) : Prop :=
  Leads action reader (fun value after => Undisturbed handed reader after → returned value after)
    (fun halt after => Undisturbed handed reader after → halted halt after)

namespace LeadsUndisturbed

variable {handed : Prop} {action : Reading α} {next : α → Reading β} {reader : Reader}
  {returned returned' : α → Reader → Prop} {halted halted' : Halt → Reader → Prop}

theorem of_leads (hLeads : Leads action reader returned halted) :
    LeadsUndisturbed handed action reader returned halted :=
  hLeads.mono (fun _ _ hReturned _ => hReturned) (fun _ _ hHalted _ => hHalted)

theorem mono (hLeads : LeadsUndisturbed handed action reader returned halted)
    (hReturned : ∀ value after, returned value after → returned' value after)
    (hHalted : ∀ halt after, halted halt after → halted' halt after) :
    LeadsUndisturbed handed action reader returned' halted' :=
  Leads.mono hLeads (fun value after hAfter hStill => hReturned value after (hAfter hStill))
    (fun halt after hAfter hStill => hHalted halt after (hAfter hStill))

theorem and (hFirst : LeadsUndisturbed handed action reader returned halted)
    (hSecond : LeadsUndisturbed handed action reader returned' halted') :
    LeadsUndisturbed handed action reader
      (fun value after => returned value after ∧ returned' value after)
      (fun halt after => halted halt after ∧ halted' halt after) :=
  (Leads.and hFirst hSecond).mono
    (fun _ _ hBoth hStill => ⟨hBoth.1 hStill, hBoth.2 hStill⟩)
    (fun _ _ hBoth hStill => ⟨hBoth.1 hStill, hBoth.2 hStill⟩)

/-- What comes after an action must not put failures in line, which could make up for one that has
surfaced before. -/
theorem bind {returned' : β → Reader → Prop} (hAdds : AddsNoFailure action)
    (hRest : ∀ value, AddsNoFailure (next value))
    (hFirst : LeadsUndisturbed handed action reader returned halted)
    (hHalted : ∀ halt after, halted halt after → halted' halt after)
    (hNext : ∀ value middle, returned value middle →
      LeadsUndisturbed handed (next value) middle returned' halted') :
    LeadsUndisturbed handed (action >>= next) reader returned' halted' := by
  apply leads_bind.2
  apply (Leads.and (hAdds reader) hFirst).mono
  · rintro value middle ⟨hBefore, hMiddle⟩
    apply Leads.intro
    · intro result after hRun hStill
      obtain ⟨hFirst, hLast⟩ := hStill.split hBefore ((hRest value middle).of_ok hRun)
      exact (hNext value middle (hMiddle hFirst)).of_ok hRun hLast
    · intro halt after hRun hStill
      obtain ⟨hFirst, hLast⟩ := hStill.split hBefore ((hRest value middle).of_error hRun)
      exact (hNext value middle (hMiddle hFirst)).of_error hRun hLast
  · exact fun halt after hAfter hStill => hHalted halt after (hAfter.2 hStill)

theorem onFork (hLeads : LeadsUndisturbed handed action { reader with cursor := reader.cursor.fork }
      returned halted) :
    LeadsUndisturbed handed (onFork action) reader
      (fun result after => ∃ last, returned result.1 last ∧ result.2 = last.cursor ∧
        after = { last with cursor := reader.cursor })
      (fun halt _ => ∃ last, halted halt last) := by
  apply leads_onFork.2
  apply Leads.mono hLeads
  · exact fun value last hLast hStill => ⟨last, hLast hStill, rfl, rfl⟩
  · exact fun halt last hLast hStill => ⟨last, hLast hStill⟩

end LeadsUndisturbed

/-- As long as no failure surfaces, the second action comes to what the first one comes to. -/
def Agrees (handed : Prop) (first second : Reading α) (reader : Reader) : Prop :=
  LeadsUndisturbed handed first reader (fun value after => second reader = .ok value after)
    (fun halt after => second reader = .error halt after)

/-- A failure surfaces in the run. If failures are `handed` on, the run is stopped by it as a demand
was, with the window as it was then. -/
def Fails (handed : Prop) (action : Reading α) (reader : Reader) (fault : Fault) (window : Window) :
    Prop :=
  Leads action reader
    (fun _ after => after.failuresAhead < reader.failuresAhead ∧ ¬ handed)
    (fun halt after => after.failuresAhead < reader.failuresAhead ∧
      (handed → halt = .fault fault ∧ after.window = window))

/-- At every such reader the action does what one demand does, and then ends as the course says. Where
the demand fails, so does the action. -/
def Takes (handed : Prop) (base : Window) (action : Reading α) (want : Nat) (cursor : Cursor)
    (course : Course α) : Prop :=
  ∀ reader, Scene base want cursor reader →
    Leads (fill course.need) reader.window
      (fun _ window => ∃ reports, action reader = course.finish window reports)
      (Fails handed action reader)

/-- The action has a course that ends like this. -/
def Foretold (handed : Prop) (base : Window) (action : Reading α) (want : Nat) (cursor : Cursor)
    (returned : α → Nat → Cursor → Prop) (halted : Halt → Nat → Cursor → Prop) : Prop :=
  ∃ course : Course α, want ≤ course.need ∧ Takes handed base action want cursor course ∧
    match course.outcome with
    | .ok value => returned value course.need course.cursor
    | .error halt => halted halt course.need course.cursor

namespace Agrees

variable {handed : Prop} {first second : Reading α} {next next' : α → Reading β} {reader : Reader}

theorem refl (action : Reading α) (reader : Reader) : Agrees handed action action reader :=
  .of_leads (.self action reader)

theorem onFork (hAgrees : Agrees handed first second { reader with cursor := reader.cursor.fork }) :
    Agrees handed (onFork first) (onFork second) reader := by
  apply leads_onFork.2
  apply Leads.mono hAgrees
  · intro value after hAfter hStill
    simp only [Reading.onFork, hAfter hStill]
  · intro halt after hAfter hStill
    simp only [Reading.onFork, hAfter hStill]

/-- Where the cursor is can be said at once. -/
theorem position_bind {next next' : Nat → Reading α}
    (hNext : Agrees handed (next reader.cursor.position) (next' reader.cursor.position) reader) :
    Agrees handed (position >>= next) (position >>= next') reader :=
  hNext

theorem bind (hFirst : Agrees handed first second reader) (hAdds : AddsNoFailure first)
    (hRest : ∀ value, AddsNoFailure (next value))
    (hNext : ∀ value middle, first reader = .ok value middle → Undisturbed handed reader middle →
      Agrees handed (next value) (next' value) middle) :
    Agrees handed (first >>= next) (second >>= next') reader := by
  have hBoth : LeadsUndisturbed handed first reader
      (fun value middle => second reader = .ok value middle ∧
        Agrees handed (next value) (next' value) middle)
      (fun halt after => second reader = .error halt after) :=
    .intro (fun value middle hRun hStill =>
        ⟨hFirst.of_ok hRun hStill, hNext value middle hRun hStill⟩)
      (fun _ _ hRun hStill => hFirst.of_error hRun hStill)
  apply hBoth.bind hAdds hRest
  · intro halt after hSecond
    simp only [Bind.bind, EStateM.bind, hSecond]
  · rintro value middle ⟨hSecond, hNext⟩
    simp only [Bind.bind, EStateM.bind, hSecond]
    exact hNext

end Agrees

section Failures

variable {handed : Prop} {action : Reading α} {next : α → Reading β} {reader : Reader}
  {fault : Fault} {window : Window}

/-- An action that is stopped as the demand is. -/
theorem fails_of_error {need : Nat} {last : Cursor} {reports : Array Report}
    (hFill : fill need reader.window = .error fault window)
    (hRun : action reader = .error (.fault fault) { window, cursor := last, reports }) :
    Fails handed action reader fault window :=
  .halts hRun ⟨length_failures_lt_of_fill hFill, fun _ => ⟨rfl, rfl⟩⟩

/-- Where failures are handed on, the action is stopped as the demand is. -/
theorem Fails.exists_eq (hFails : Fails handed action reader fault window) (hHanded : handed) :
    ∃ last reports, action reader = .error (.fault fault) { window, cursor := last, reports } := by
  cases hRun : action reader with
  | ok value after => exact absurd hHanded (hFails.of_ok hRun).2
  | error halt after =>
    obtain ⟨rfl, rfl⟩ := (hFails.of_error hRun).2 hHanded
    exact ⟨after.cursor, after.reports, rfl⟩

/-- Nothing has failed if no failure has surfaced. -/
theorem Fails.leads_disturbed (hFails : Fails handed action reader fault window) :
    LeadsUndisturbed handed action reader (fun _ _ => False)
      (fun halt after => handed ∧ halt = .fault fault ∧ after.window = window) := by
  apply hFails.mono
  · rintro value after ⟨hLess, hNot⟩ (hHanded | hMore)
    · exact hNot hHanded
    · exact absurd hLess (Nat.not_lt.2 hMore)
  · rintro halt after ⟨hLess, hStops⟩ (hHanded | hMore)
    · exact ⟨hHanded, hStops hHanded⟩
    · exact absurd hLess (Nat.not_lt.2 hMore)

/-- What comes after a failure that was not handed on puts none in line. -/
theorem Fails.bind (hFails : Fails handed action reader fault window)
    (hRest : ¬ handed → AddsNoFailureAfter action next reader) :
    Fails handed (action >>= next) reader fault window := by
  apply leads_bind.2
  apply Leads.intro
  · intro value middle hRun
    obtain ⟨hLess, hNot⟩ := hFails.of_ok hRun
    apply ((hRest hNot).of_ok hRun).mono
    · exact fun _ after hMore => ⟨Nat.lt_of_le_of_lt hMore hLess, hNot⟩
    · exact fun _ after hMore => ⟨Nat.lt_of_le_of_lt hMore hLess, fun h => absurd h hNot⟩
  · exact fun halt after hRun => hFails.of_error hRun

/-- A run that takes its course leaves as many failures in line as there were. -/
theorem failuresAhead_of_finish {need : Nat} (hFill : fill need reader.window = .ok () window)
    (last : Cursor) (reports : Array Report) :
    Reader.failuresAhead { window, cursor := last, reports } = reader.failuresAhead :=
  congrArg List.length (failures_of_fill hFill)

end Failures

namespace Foretold

variable {handed : Prop} {action : Reading α} {next : α → Reading β}
  {returned returned' : α → Nat → Cursor → Prop} {halted halted' : Halt → Nat → Cursor → Prop}

theorem mono (hAction : Foretold handed base action want cursor returned halted)
    (hReturned : ∀ value need last, want ≤ need → returned value need last →
      returned' value need last)
    (hHalted : ∀ halt need last, want ≤ need → halted halt need last → halted' halt need last) :
    Foretold handed base action want cursor returned' halted' := by
  obtain ⟨⟨outcome, need, last⟩, hNeed, hTakes, hEnd⟩ := hAction
  refine ⟨⟨outcome, need, last⟩, hNeed, hTakes, ?_⟩
  cases outcome with
  | ok value => exact hReturned value need last hNeed hEnd
  | error halt => exact hHalted halt need last hNeed hEnd

/-- An action that hands failures on has its course in any case. -/
theorem of_handed (hAction : Foretold True base action want cursor returned halted) :
    Foretold handed base action want cursor returned halted := by
  obtain ⟨course, hNeed, hTakes, hEnd⟩ := hAction
  refine ⟨course, hNeed, fun reader hScene => ?_, hEnd⟩
  apply (hTakes reader hScene).mono
  · exact fun _ _ hRun => hRun
  · intro fault window hFails
    apply hFails.mono
    · exact fun _ _ hReturns => absurd trivial hReturns.2
    · exact fun _ _ hHalts => ⟨hHalts.1, fun _ => hHalts.2 trivial⟩

/-- Only what the action does at such readers matters. -/
theorem congr {action' : Reading α}
    (hAction : Foretold handed base action want cursor returned halted)
    (hSame : ∀ reader, Scene base want cursor reader → action' reader = action reader) :
    Foretold handed base action' want cursor returned halted := by
  obtain ⟨course, hNeed, hTakes, hEnd⟩ := hAction
  refine ⟨course, hNeed, fun reader hScene => ?_, hEnd⟩
  apply (hTakes reader hScene).mono
  · exact fun _ _ ⟨reports, hRun⟩ => ⟨reports, (hSame reader hScene).trans hRun⟩
  · exact fun _ _ hFails => Leads.congr hFails (hSame reader hScene)

/-- Only what the action does as long as no failure surfaces matters. -/
theorem of_agrees {action' : Reading α}
    (hAction : Foretold handed base action want cursor returned halted)
    (hSame : ∀ reader, Scene base want cursor reader → Agrees handed action action' reader)
    (hBack : ∀ reader, Scene base want cursor reader → Agrees handed action' action reader) :
    Foretold handed base action' want cursor returned halted := by
  obtain ⟨⟨outcome, need, last⟩, hNeed, hTakes, hEnd⟩ := hAction
  refine ⟨⟨outcome, need, last⟩, hNeed, fun reader hScene => ?_, hEnd⟩
  apply Leads.intro
  · intro _ window hFill
    obtain ⟨reports, hRun⟩ := (hTakes reader hScene).of_ok hFill
    have hStill (reports : Array Report) :
        Undisturbed handed reader { window, cursor := last, reports } :=
      .inr (Nat.le_of_eq (failuresAhead_of_finish hFill last reports).symm)
    refine ⟨reports, ?_⟩
    cases outcome with
    | ok value => exact (hSame reader hScene).of_ok hRun (hStill reports)
    | error halt => exact (hSame reader hScene).of_error hRun (hStill reports)
  · intro fault window hFill
    have hAction := (hTakes reader hScene).of_error hFill
    by_cases hHanded : handed
    · obtain ⟨stopped, reports, hRun⟩ := hAction.exists_eq hHanded
      exact fails_of_error hFill ((hSame reader hScene).of_error hRun (.inl hHanded))
    · -- If no failure surfaced, it would be the same run, and in that one surfaces.
      apply Leads.mono (hBack reader hScene)
      · intro value after hAfter
        refine ⟨Nat.lt_of_not_le fun hMore => ?_, hHanded⟩
        exact Nat.not_lt.2 hMore (hAction.of_ok (hAfter (.inr hMore))).1
      · intro halt after hAfter
        refine ⟨Nat.lt_of_not_le fun hMore => ?_, fun h => absurd h hHanded⟩
        exact Nat.not_lt.2 hMore (hAction.of_error (hAfter (.inr hMore))).1

/-- An action that does the same but for the reports that it makes when it halts. -/
theorem of_reports {action' : Reading α}
    (hAction : Foretold handed base action want cursor returned halted)
    (hSame : ∀ reader, Leads action reader (fun value after => action' reader = .ok value after)
      fun halt after => ∃ reports, action' reader = .error halt { after with reports }) :
    Foretold handed base action' want cursor returned halted := by
  obtain ⟨⟨outcome, need, last⟩, hNeed, hTakes, hEnd⟩ := hAction
  refine ⟨⟨outcome, need, last⟩, hNeed, ?_, hEnd⟩
  intro reader hScene
  apply (hTakes reader hScene).mono
  · rintro - window ⟨reports, hRun⟩
    cases outcome with
    | ok value => exact ⟨reports, (hSame reader).of_ok hRun⟩
    | error halt => exact (hSame reader).of_error hRun
  · intro fault window hFails
    cases hRun : action reader with
    | ok value after => exact .returns ((hSame reader).of_ok hRun) (hFails.of_ok hRun)
    | error halt after =>
      obtain ⟨reports, hRun'⟩ := (hSame reader).of_error hRun
      have hEnd := hFails.of_error hRun
      exact .halts hRun' hEnd

/-- An action that needs no more than there is. -/
theorem of_returns (value : α) {last : Cursor}
    (hRun : ∀ reader, Scene base want cursor reader →
      ∃ reports, action reader = .ok value { reader with cursor := last, reports })
    (hReturned : returned value want last) :
    Foretold handed base action want cursor returned halted := by
  refine ⟨⟨.ok value, want, last⟩, Nat.le_refl _, ?_, hReturned⟩
  intro reader hScene
  unfold Leads
  rw [fill_of_filled hScene.filled]
  exact hRun reader hScene

theorem of_halts {halt : Halt} {last : Cursor}
    (hRun : ∀ reader, Scene base want cursor reader →
      ∃ reports, action reader = .error halt { reader with cursor := last, reports })
    (hHalted : halted halt want last) :
    Foretold handed base action want cursor returned halted := by
  refine ⟨⟨.error halt, want, last⟩, Nat.le_refl _, ?_, hHalted⟩
  intro reader hScene
  unfold Leads
  rw [fill_of_filled hScene.filled]
  exact hRun reader hScene

theorem pure {value : α} (hReturned : returned value want cursor) :
    Foretold handed base (Pure.pure value) want cursor returned halted := by
  refine of_returns value (fun reader hScene => ⟨reader.reports, ?_⟩) hReturned
  rw [← hScene.cursor_eq]
  rfl

theorem throw {halt : Halt} (hHalted : halted halt want cursor) :
    Foretold handed base (MonadExcept.throw halt) want cursor returned halted := by
  refine of_halts (fun reader hScene => ⟨reader.reports, ?_⟩) hHalted
  rw [← hScene.cursor_eq]
  rfl

/-- What comes after an action that returns needs at least what the action needed. -/
theorem after_returns {first : Reading α} {value : α} {need : Nat} {last : Cursor}
    {returned : β → Nat → Cursor → Prop} (hNeed : want ≤ need)
    (hFirst : ∀ reader, Scene base want cursor reader →
      Leads (fill need) reader.window
        (fun _ window => ∃ reports, first reader = .ok value { window, cursor := last, reports })
        (Fails handed (first >>= next) reader))
    (hNext : Foretold handed base (next value) need last returned halted) :
    Foretold handed base (first >>= next) want cursor returned halted := by
  obtain ⟨course, hMore, hTakes, hEnd⟩ := hNext
  refine ⟨course, Nat.le_trans hNeed hMore, ?_, hEnd⟩
  intro reader hScene
  -- The demand of the first action makes no difference before that of both.
  rw [leads_fill_fill hMore]
  apply Leads.intro
  · intro _ middle hFill
    obtain ⟨reports, hRun⟩ := (hFirst reader hScene).of_ok hFill
    obtain ⟨hDraws, hFilled⟩ := (leads_fill_draws need reader.window).of_ok hFill
    have hMiddle : Scene base need last { window := middle, cursor := last, reports } :=
      ⟨hScene.alike.of_draws hDraws, hFilled, rfl⟩
    have hBoth : (first >>= next) reader =
        next value { window := middle, cursor := last, reports } := by
      simp only [Bind.bind, EStateM.bind, hRun]
    have hSame := failuresAhead_of_finish hFill last reports
    apply (hTakes _ hMiddle).mono
    · rintro - window ⟨reports, hRun⟩
      exact ⟨reports, hBoth.trans hRun⟩
    · intro fault window hFails
      unfold Fails Leads at hFails ⊢
      rw [hBoth, ← hSame]
      exact hFails
  · exact fun fault window hFill => (hFirst reader hScene).of_error hFill

/-- Two actions in a row need what the one of them needs that needs more. Where failures are not
handed on, what comes after one must put none in line. -/
theorem bind {returned' : β → Nat → Cursor → Prop}
    (hAction : Foretold handed base action want cursor returned halted)
    (hHalted : ∀ halt need last, want ≤ need → halted halt need last → halted' halt need last)
    (hRest : ¬ handed → ∀ reader, Scene base want cursor reader →
      AddsNoFailureAfter action next reader)
    (hNext : ∀ value need last, want ≤ need → returned value need last →
      Foretold handed base (next value) need last returned' halted') :
    Foretold handed base (action >>= next) want cursor returned' halted' := by
  obtain ⟨⟨outcome, need, last⟩, hNeed, hTakes, hEnd⟩ := hAction
  cases outcome with
  | error halt =>
    refine ⟨⟨.error halt, need, last⟩, hNeed, ?_, hHalted halt need last hNeed hEnd⟩
    intro reader hScene
    apply (hTakes reader hScene).mono
    · rintro - window ⟨reports, hRun⟩
      exact ⟨reports, by simp [Bind.bind, EStateM.bind, hRun, Course.finish]⟩
    · exact fun _ _ hFails => hFails.bind fun hNot => hRest hNot reader hScene
  | ok value =>
    refine after_returns hNeed ?_ (hNext value need last hNeed hEnd)
    intro reader hScene
    apply (hTakes reader hScene).mono
    · exact fun _ _ hRun => hRun
    · exact fun _ _ hFails => hFails.bind fun hNot => hRest hNot reader hScene

/-- Where failures are handed on, nothing comes after one. -/
theorem bind_handed {returned' : β → Nat → Cursor → Prop}
    (hAction : Foretold True base action want cursor returned halted)
    (hHalted : ∀ halt need last, want ≤ need → halted halt need last → halted' halt need last)
    (hNext : ∀ value need last, want ≤ need → returned value need last →
      Foretold True base (next value) need last returned' halted') :
    Foretold True base (action >>= next) want cursor returned' halted' :=
  hAction.bind hHalted (fun hNot => absurd trivial hNot) hNext

/-- What is foretold comes true, unless the source fails. -/
theorem leads (hAction : Foretold handed base action want cursor returned halted) {reader : Reader}
    (hScene : Scene base want cursor reader) :
    LeadsUndisturbed handed action reader
      (fun value after => ∃ need, want ≤ need ∧ returned value need after.cursor ∧
        Scene base need after.cursor after)
      (fun halt after => base.Alike after.window ∧
        (handed ∧ halt.IsIo ∨ ∃ need, want ≤ need ∧ halted halt need after.cursor)) := by
  obtain ⟨⟨outcome, need, last⟩, hNeed, hTakes, hEnd⟩ := hAction
  cases hFill : fill need reader.window with
  | ok _ window =>
    obtain ⟨reports, hRun⟩ := (hTakes reader hScene).of_ok hFill
    obtain ⟨hDraws, hFilled⟩ := (leads_fill_draws need reader.window).of_ok hFill
    have hAlike := hScene.alike.of_draws hDraws
    cases outcome with
    | ok value => exact .returns hRun fun _ => ⟨need, hNeed, hEnd, hAlike, hFilled, rfl⟩
    | error halt => exact .halts hRun fun _ => ⟨hAlike, .inr ⟨need, hNeed, hEnd⟩⟩
  | error fault window =>
    obtain ⟨hDraws, kind, message, rfl⟩ := (leads_fill_draws need reader.window).of_error hFill
    apply ((hTakes reader hScene).of_error hFill).leads_disturbed.mono
    · exact fun _ _ hNot => hNot.elim
    · rintro halt after ⟨hHanded, rfl, rfl⟩
      exact ⟨hScene.alike.of_draws hDraws, .inl ⟨hHanded, kind, message, rfl⟩⟩

end Foretold

end Reading

end StreamMatch
