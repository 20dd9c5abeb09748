import StreamMatch.Matcher.Scan
import StreamMatch.Proofs.Run

/-!
Two runs side by side. They coincide if both return or both halt with the same problem
(`Coincide`), and a claim that they do is taken apart along the actions, as a claim about one run
is. A problem of the first run may be excused: then nothing is said of the second.
-/

namespace StreamMatch

variable {ε σ α β : Type}

/-- The runs of two actions, each from its own state, both return or both halt with the same
problem. What holds of the two results, and of the two states in which they end, is `returned` or
`halted`. -/
inductive Coincide (excused : ε → Prop) (first second : EStateM ε σ α) (before : σ × σ)
    (returned : α → α → σ × σ → Prop) (halted : ε → σ × σ → Prop) : Prop where
  | returns {value other : α} {left right : σ} (hFirst : first before.1 = .ok value left)
      (hSecond : second before.2 = .ok other right) (hReturned : returned value other (left, right))
  | halts {problem : ε} {left right : σ} (hFirst : first before.1 = .error problem left)
      (hSecond : second before.2 = .error problem right) (hHalted : halted problem (left, right))
  | excuses {problem : ε} {left : σ} (hFirst : first before.1 = .error problem left)
      (hExcused : excused problem)

namespace Coincide

variable {excused : ε → Prop} {first second : EStateM ε σ α} {before : σ × σ}
  {returned returned' : α → α → σ × σ → Prop} {halted halted' : ε → σ × σ → Prop}

theorem pure {value other : α} (hReturned : returned value other before) :
    Coincide excused (Pure.pure value) (Pure.pure other) before returned halted :=
  .returns rfl rfl hReturned

theorem throw {problem : ε} (hHalted : halted problem before) :
    Coincide excused (MonadExcept.throw problem) (MonadExcept.throw problem) before returned
      halted :=
  .halts rfl rfl hHalted

theorem mono (hRuns : Coincide excused first second before returned halted)
    (hReturned : ∀ value other after, returned value other after → returned' value other after)
    (hHalted : ∀ problem after, halted problem after → halted' problem after) :
    Coincide excused first second before returned' halted' := by
  cases hRuns with
  | returns hFirst hSecond h => exact .returns hFirst hSecond (hReturned _ _ _ h)
  | halts hFirst hSecond h => exact .halts hFirst hSecond (hHalted _ _ h)
  | excuses hFirst hExcused => exact .excuses hFirst hExcused

theorem imp (hRuns : Coincide excused first second before returned halted)
    (hReturned : ∀ value other after, returned value other after → returned' value other after) :
    Coincide excused first second before returned' halted :=
  hRuns.mono hReturned fun _ _ hHalted => hHalted

/-- Only what the runs come to matters. -/
theorem congr {first' second' : EStateM ε σ α} {before' : σ × σ}
    (hRuns : Coincide excused first second before returned halted)
    (hFirst : first' before'.1 = first before.1) (hSecond : second' before'.2 = second before.2) :
    Coincide excused first' second' before' returned halted := by
  cases hRuns with
  | returns hRun hOther h => exact .returns (hFirst.trans hRun) (hSecond.trans hOther) h
  | halts hRun hOther h => exact .halts (hFirst.trans hRun) (hSecond.trans hOther) h
  | excuses hRun hExcused => exact .excuses (hFirst.trans hRun) hExcused

/-- Two actions in a row on each side. -/
theorem bind {next next' : α → EStateM ε σ β} {returned' : β → β → σ × σ → Prop}
    (hRuns : Coincide excused first second before returned halted)
    (hNext : ∀ value other after, returned value other after →
      Coincide excused (next value) (next' other) after returned' halted) :
    Coincide excused (first >>= next) (second >>= next') before returned' halted := by
  have hBind {action : EStateM ε σ α} {next : α → EStateM ε σ β} {state after : σ} {value : α}
      (hRun : action state = .ok value after) : (action >>= next) state = next value after := by
    simp only [Bind.bind, EStateM.bind, hRun]
  have hStop {action : EStateM ε σ α} {next : α → EStateM ε σ β} {state after : σ} {problem : ε}
      (hRun : action state = .error problem after) :
      (action >>= next) state = .error problem after := by
    simp only [Bind.bind, EStateM.bind, hRun]
  cases hRuns with
  | @returns value other left right hFirst hSecond h =>
    cases hNext value other _ h with
    | returns hThen hOther h =>
      exact .returns ((hBind hFirst).trans hThen) ((hBind hSecond).trans hOther) h
    | halts hThen hOther h =>
      exact .halts ((hBind hFirst).trans hThen) ((hBind hSecond).trans hOther) h
    | excuses hThen hExcused => exact .excuses ((hBind hFirst).trans hThen) hExcused
  | halts hFirst hSecond h => exact .halts (hStop hFirst) (hStop hSecond) h
  | excuses hFirst hExcused => exact .excuses (hStop hFirst) hExcused

/-- What is known of the first run by itself holds of what it returns. -/
theorem and_leads {found : α → σ → Prop}
    (hRuns : Coincide excused first second before returned halted)
    (hFirst : Leads first before.1 found fun _ _ => True) :
    Coincide excused first second before
      (fun value other after => found value after.1 ∧ returned value other after) halted := by
  cases hRuns with
  | returns hRun hOther h => exact .returns hRun hOther ⟨hFirst.of_ok hRun, h⟩
  | halts hRun hOther h => exact .halts hRun hOther h
  | excuses hRun hExcused => exact .excuses hRun hExcused

/-- An action coincides with itself. -/
theorem refl {action : EStateM ε σ α} {state : σ}
    (hRun : Leads action state (fun value after => returned value value (after, after))
      fun problem after => halted problem (after, after)) :
    Coincide excused action action (state, state) returned halted := by
  cases hAction : action state with
  | ok value after => exact .returns hAction hAction (hRun.of_ok hAction)
  | error problem after => exact .halts hAction hAction (hRun.of_error hAction)

/-- Two runs that both return coincide. -/
theorem of_leads {found found' : α → σ → Prop}
    (hFirst : Leads first before.1 found fun _ _ => False)
    (hSecond : Leads second before.2 found' fun _ _ => False)
    (hReturned : ∀ value other left right, found value left → found' other right →
      returned value other (left, right)) :
    Coincide excused first second before returned halted := by
  cases hRun : first before.1 with
  | error problem left => exact (hFirst.of_error hRun).elim
  | ok value left =>
    cases hOther : second before.2 with
    | error problem right => exact (hSecond.of_error hOther).elim
    | ok other right =>
      exact .returns hRun hOther
        (hReturned value other left right (hFirst.of_ok hRun) (hSecond.of_ok hOther))

/-- Two runs coincide if the second does what the first asks of it. -/
theorem of_nested
    (hRuns : Leads first before.1
      (fun value left => Leads second before.2
        (fun other right => returned value other (left, right)) fun _ _ => False)
      fun problem left => Leads second before.2 (fun _ _ => False)
        fun other right => other = problem ∧ halted problem (left, right)) :
    Coincide excused first second before returned halted := by
  cases hRun : first before.1 with
  | ok value left =>
    have hThen := hRuns.of_ok hRun
    cases hOther : second before.2 with
    | ok other right => exact .returns hRun hOther (hThen.of_ok hOther)
    | error problem right => exact (hThen.of_error hOther).elim
  | error problem left =>
    have hThen := hRuns.of_error hRun
    cases hOther : second before.2 with
    | ok other right => exact (hThen.of_ok hOther).elim
    | error other right =>
      obtain ⟨rfl, hHalted⟩ := hThen.of_error hOther
      exact .halts hRun hOther hHalted

end Coincide

/-- The reader after this report, which is made if it is traced. -/
def Reader.reported (reader : Reader) (report : Report) : Reader :=
  { reader with
    reports := if reader.cursor.traced then reader.reports.push report else reader.reports }

theorem Reading.report_eq (report : Report) (reader : Reader) :
    Reading.report report reader = .ok () (reader.reported report) := by
  change EStateM.Result.ok () (if reader.cursor.traced then _ else reader) = _
  unfold Reader.reported
  split <;> rfl

/-- Two readers side by side. -/
abbrev Readers := Reader × Reader

namespace Readers

/-- Their windows. -/
abbrev windows (readers : Readers) : Window × Window :=
  (readers.1.window, readers.2.window)

/-- Both at a fork of their cursors. -/
def fork (readers : Readers) : Readers :=
  ({ readers.1 with cursor := readers.1.cursor.fork },
    { readers.2 with cursor := readers.2.cursor.fork })

/-- Both with their cursors back where these were. -/
def restore (before after : Readers) : Readers :=
  ({ after.1 with cursor := before.1.cursor }, { after.2 with cursor := before.2.cursor })

theorem restore_eq {readers after : Readers} (hSame : readers.2 = readers.1)
    (hAfter : after.2 = after.1) : (readers.restore after).2 = (readers.restore after).1 := by
  rw [restore, hSame, hAfter]

/-- Both over other windows. -/
def onWindows (readers : Readers) (windows : Window × Window) : Readers :=
  ({ readers.1 with window := windows.1 }, { readers.2 with window := windows.2 })

/-- Both after this report, which is made by those that are traced. -/
def reported (readers : Readers) (report : Report) : Readers :=
  (readers.1.reported report, readers.2.reported report)

end Readers

namespace Coincide

open Reading

variable {excused : Halt → Prop} {readers : Readers} {halted : Halt → Readers → Prop}

theorem onFork {first second : Reading α} {returned : α × Cursor → α × Cursor → Readers → Prop}
    (hRuns : Coincide excused first second readers.fork
      (fun value other after =>
        returned (value, after.1.cursor) (other, after.2.cursor) (readers.restore after))
      (fun halt after => halted halt (readers.restore after))) :
    Coincide excused (onFork first) (onFork second) readers returned halted := by
  cases hRuns with
  | returns hFirst hSecond h =>
    dsimp only [Readers.fork] at hFirst hSecond
    refine .returns ?_ ?_ h
    · simp only [Reading.onFork, hFirst]
    · simp only [Reading.onFork, hSecond]
  | halts hFirst hSecond h =>
    dsimp only [Readers.fork] at hFirst hSecond
    refine .halts ?_ ?_ h
    · simp only [Reading.onFork, hFirst]
    · simp only [Reading.onFork, hSecond]
  | @excuses problem left hFirst hExcused =>
    dsimp only [Readers.fork] at hFirst
    have hFork : Reading.onFork first readers.1 =
        .error problem { left with cursor := readers.1.cursor } := by
      simp only [Reading.onFork, hFirst]
    exact .excuses hFork hExcused

theorem onWindow {first second : Windowed α} {returned : α → α → Readers → Prop}
    (hRuns : Coincide (fun fault => excused (.fault fault)) first second readers.windows
      (fun value other windows => returned value other (readers.onWindows windows))
      (fun fault windows => halted (.fault fault) (readers.onWindows windows))) :
    Coincide excused (onWindow first) (onWindow second) readers returned halted := by
  cases hRuns with
  | returns hFirst hSecond h =>
    dsimp only at hFirst hSecond
    refine .returns ?_ ?_ h
    · simp only [Reading.onWindow, hFirst]
    · simp only [Reading.onWindow, hSecond]
  | halts hFirst hSecond h =>
    dsimp only at hFirst hSecond
    refine .halts ?_ ?_ h
    · simp only [Reading.onWindow, hFirst]
    · simp only [Reading.onWindow, hSecond]
  | @excuses fault left hFirst hExcused =>
    dsimp only at hFirst
    have hWindow : Reading.onWindow first readers.1 =
        .error (.fault fault) { readers.1 with window := left } := by
      simp only [Reading.onWindow, hFirst]
    exact .excuses hWindow hExcused

theorem report {report : Report} {returned : Unit → Unit → Readers → Prop}
    (hReturned : returned () () (readers.reported report)) :
    Coincide excused (Reading.report report) (Reading.report report) readers returned halted :=
  .returns (Reading.report_eq _ _) (Reading.report_eq _ _) hReturned

/-- The scan of a primitive on a fork. If it meets a fault, that is reported. -/
theorem guarded {primitive : Primitive} {offset : Nat}
    {returned : Option (List UInt8) × Cursor → Option (List UInt8) × Cursor → Readers → Prop}
    (hRuns : Coincide excused (Reading.onFork primitive.scan) (Reading.onFork primitive.scan)
      readers returned fun halt (after : Readers) =>
        match halt with
        | .fault fault =>
          halted halt
            (after.reported ⟨.failed, .primitive primitive, offset, some (.failed fault)⟩)
        | halt => halted halt after) :
    Coincide excused (primitive.guarded offset) (primitive.guarded offset) readers returned
      halted := by
  cases hRuns with
  | returns hFirst hSecond h =>
    refine .returns ?_ ?_ h
    · simp only [Primitive.guarded, hFirst]
    · simp only [Primitive.guarded, hSecond]
  | @halts problem left right hFirst hSecond h =>
    cases problem with
    | fault fault =>
      refine .halts ?_ ?_ h
      · simp only [Primitive.guarded, hFirst, Primitive.report, Reading.report_eq]
      · simp only [Primitive.guarded, hSecond, Primitive.report, Reading.report_eq]
    | misplaced =>
      refine .halts ?_ ?_ h
      · simp only [Primitive.guarded, hFirst]
      · simp only [Primitive.guarded, hSecond]
    | exhausted =>
      refine .halts ?_ ?_ h
      · simp only [Primitive.guarded, hFirst]
      · simp only [Primitive.guarded, hSecond]
  | @excuses problem left hFirst hExcused =>
    have hGuarded : ∃ after, primitive.guarded offset readers.1 = .error problem after := by
      cases problem with
      | fault fault =>
        refine ⟨left.reported ⟨.failed, .primitive primitive, offset, some (.failed fault)⟩, ?_⟩
        simp only [Primitive.guarded, hFirst, Primitive.report, Reading.report_eq]
      | misplaced => exact ⟨left, by simp only [Primitive.guarded, hFirst]⟩
      | exhausted => exact ⟨left, by simp only [Primitive.guarded, hFirst]⟩
    obtain ⟨after, hGuarded⟩ := hGuarded
    exact .excuses hGuarded hExcused

end Coincide

end StreamMatch
