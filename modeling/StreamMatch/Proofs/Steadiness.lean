import StreamMatch.Proofs.Calculus
import StreamMatch.Proofs.Observation

/-!
What no action at a cursor changes, however it ends. The window stays over its stream, and as long
as the cursor is not a root, nothing is discarded and nothing is lost (`Reader.Keeps`): only a
commit to a root discards, and what runs on a fork can reach no root. This goes along with all that
matchers are made of (`Reading.steadiness`), so that every matcher is steady
(`Matcher.steady_attempt`), whatever its rules are.
-/

namespace StreamMatch

/-- What an action that was given the reader `before` leaves as it was. -/
structure Reader.Keeps (before after : Reader) : Prop where
  depth_eq : after.cursor.depth = before.cursor.depth
  traced_eq : after.cursor.traced = before.cursor.traced
  config_eq : after.window.config = before.window.config
  failures : after.window.source.failures <:+ before.window.source.failures
  lies_over : ∀ stream, before.window.Over stream → after.window.Over stream
  continues : before.cursor.depth ≠ 0 → before.window.Continues after.window

namespace Reader.Keeps

variable {first second third : Reader}

theorem refl (reader : Reader) : Keeps reader reader :=
  ⟨rfl, rfl, rfl, List.suffix_refl _, fun _ => id, fun _ => .refl _⟩

theorem trans (hFirst : Keeps first second) (hSecond : Keeps second third) : Keeps first third where
  depth_eq := hSecond.depth_eq.trans hFirst.depth_eq
  traced_eq := hSecond.traced_eq.trans hFirst.traced_eq
  config_eq := hSecond.config_eq.trans hFirst.config_eq
  failures := hSecond.failures.trans hFirst.failures
  lies_over stream := hSecond.lies_over stream ∘ hFirst.lies_over stream
  continues hDepth :=
    (hFirst.continues hDepth).trans (hSecond.continues (hFirst.depth_eq ▸ hDepth))

/-- A source stays calm. -/
theorem calm (hKeeps : Keeps first second) (hCalm : first.window.source.Calm) :
    second.window.source.Calm := by
  have hNone := hKeeps.failures
  rw [(Source.calm_iff _).1 hCalm] at hNone
  exact (Source.calm_iff _).2 (List.suffix_nil.1 hNone)

/-- Reading on in the window, with the cursor moved or not, and with other reports. -/
theorem of_continues {reader : Reader} {window : Window}
    (hWindow : reader.window.Continues window) (position : Nat) (reports : Array Report) :
    Keeps reader { window, cursor := { reader.cursor with position }, reports } :=
  ⟨rfl, rfl, hWindow.config_eq, hWindow.failures, fun _ => hWindow.lies_over, fun _ => hWindow⟩

/-- A root may discard what it likes. -/
theorem of_discard {reader : Reader} (hRoot : reader.cursor.depth = 0) (count position : Nat) :
    Keeps reader { reader with
      window := reader.window.discard count
      cursor := { reader.cursor with position } } := by
  obtain ⟨hConfig, hSource, -⟩ := reader.window.rest_discard count
  refine ⟨rfl, rfl, hConfig, ?_, fun _ hOver => hOver.discard count,
    fun hDeep => absurd hRoot hDeep⟩
  exact hSource ▸ List.suffix_refl _

/-- What is kept at another cursor is kept at the one at hand, if the other is no root either. -/
theorem of_deeper {reader after : Reader} {cursor : Cursor}
    (hDeep : reader.cursor.depth ≠ 0 → cursor.depth ≠ 0)
    (hOther : Keeps { reader with cursor } after) :
    Keeps reader { after with cursor := reader.cursor } :=
  ⟨rfl, rfl, hOther.config_eq, hOther.failures, hOther.lies_over, fun h => hOther.continues (hDeep h)⟩

/-- What is kept on a fork is kept at the cursor that was forked, wherever that stands after. -/
theorem of_fork {reader after : Reader}
    (hFork : Keeps { reader with cursor := reader.cursor.fork } after) :
    Keeps reader { after with cursor := reader.cursor } :=
  of_deeper (fun _ => Nat.succ_ne_zero _) hFork

end Reader.Keeps

namespace Window

theorem leads_discardTo (offset : Nat) (window : Window) :
    Leads (discardTo offset) window
      (fun _ after => window.start ≤ offset ∧ after = window.discard (offset - window.start))
      (fun fault after => after = window ∧ offset < window.start ∧
        fault = .reclaimed offset window.start) := by
  refine (leads_relative offset window).bind (fun _ _ h => h) ?_
  rintro distance _ ⟨rfl, hStart, rfl⟩
  exact ⟨hStart, rfl⟩

end Window

namespace Reading

variable {α β : Type}

/-- All that a commit can do. It discards only at a root, and only if the fork is not before the
window; a commit that halts changes nothing. -/
theorem leads_commit (fork : Cursor) (reader : Reader) :
    Leads (commit fork) reader
      (fun _ after => fork.depth = reader.cursor.depth + 1 ∧
        (reader.cursor.depth = 0 ∧ reader.window.start ≤ fork.position ∧
            after = { reader with
              window := reader.window.discard (fork.position - reader.window.start)
              cursor := { reader.cursor with position := fork.position } } ∨
          reader.cursor.depth ≠ 0 ∧
            after = { reader with cursor := { reader.cursor with position := fork.position } }))
      (fun halt after => after = reader ∧
        (fork.depth ≠ reader.cursor.depth + 1 ∧ halt = .misplaced ∨
          fork.depth = reader.cursor.depth + 1 ∧ reader.cursor.depth = 0 ∧
            fork.position < reader.window.start ∧
            halt = .fault (.reclaimed fork.position reader.window.start))) := by
  simp only [commit, leads_bind, leads_get]
  split
  · next hDepth => exact ⟨rfl, .inl ⟨hDepth, rfl⟩⟩
  · next hDepth =>
    have hDepth : fork.depth = reader.cursor.depth + 1 := Decidable.not_not.1 hDepth
    split
    · next hRoot =>
      have hRoot : reader.cursor.depth = 0 := by simpa [Cursor.isRoot] using hRoot
      simp only [leads_bind, leads_onWindow, leads_moveTo]
      refine (Window.leads_discardTo fork.position reader.window).mono ?_ ?_
      · rintro - window ⟨hStart, rfl⟩
        exact ⟨hDepth, .inl ⟨hRoot, hStart, rfl⟩⟩
      · rintro fault window ⟨rfl, hStale, rfl⟩
        exact ⟨rfl, .inr ⟨hDepth, hRoot, hStale, rfl⟩⟩
    · next hRoot =>
      have hRoot : reader.cursor.depth ≠ 0 := by simpa [Cursor.isRoot] using hRoot
      exact ⟨hDepth, .inr ⟨hRoot, rfl⟩⟩

/-- What a commit comes to, case by case. -/
theorem commit_eq (fork : Cursor) (reader : Reader) :
    commit fork reader =
      if fork.depth = reader.cursor.depth + 1 then
        if reader.cursor.depth ≠ 0 then
          .ok () { reader with cursor := { reader.cursor with position := fork.position } }
        else if reader.window.start ≤ fork.position then
          .ok () { reader with
            window := reader.window.discard (fork.position - reader.window.start)
            cursor := { reader.cursor with position := fork.position } }
        else .error (.fault (.reclaimed fork.position reader.window.start)) reader
      else .error .misplaced reader := by
  have hCommit := leads_commit fork reader
  unfold Leads at hCommit
  split at hCommit
  · next after hRun =>
    obtain ⟨hDepth, ⟨hRoot, hStart, rfl⟩ | ⟨hDeep, rfl⟩⟩ := hCommit
    · simp [hRun, hDepth, hRoot, hStart]
    · simp [hRun, hDepth, hDeep]
  · next halt after hRun =>
    obtain ⟨rfl, ⟨hDepth, rfl⟩ | ⟨hDepth, hRoot, hStale, rfl⟩⟩ := hCommit
    · simp [hRun, hDepth]
    · simp [hRun, hDepth, hRoot, Nat.not_le.2 hStale]

/-- All that reclaiming can do. -/
theorem leads_reclaim (reader : Reader) :
    Leads reclaim reader
      (fun _ after =>
        reader.cursor.depth = 0 ∧ reader.window.start ≤ reader.cursor.position ∧
            after = { reader with
              window := reader.window.discard (reader.cursor.position - reader.window.start) } ∨
          reader.cursor.depth ≠ 0 ∧ after = reader)
      (fun halt after => after = reader ∧ reader.cursor.depth = 0 ∧
        reader.cursor.position < reader.window.start ∧
        halt = .fault (.reclaimed reader.cursor.position reader.window.start)) := by
  simp only [reclaim, leads_bind, leads_get]
  split
  · next hRoot =>
    have hRoot : reader.cursor.depth = 0 := by simpa [Cursor.isRoot] using hRoot
    rw [leads_onWindow]
    refine (Window.leads_discardTo reader.cursor.position reader.window).mono ?_ ?_
    · rintro - window ⟨hStart, rfl⟩
      exact .inl ⟨hRoot, hStart, rfl⟩
    · rintro fault window ⟨rfl, hStale, rfl⟩
      exact ⟨rfl, hRoot, hStale, rfl⟩
  · next hRoot =>
    have hRoot : reader.cursor.depth ≠ 0 := by simpa [Cursor.isRoot] using hRoot
    exact .inr ⟨hRoot, rfl⟩

/-- Whatever comes of an action on a fork, the cursor at hand is as it was before. -/
@[simp]
theorem leads_onFork {action : Reading α} {reader : Reader}
    {returned : α × Cursor → Reader → Prop} {halted : Halt → Reader → Prop} :
    Leads (onFork action) reader returned halted ↔
      Leads action { reader with cursor := reader.cursor.fork }
        (fun value after =>
          returned (value, after.cursor) { after with cursor := reader.cursor })
        (fun halt after => halted halt { after with cursor := reader.cursor }) := by
  simp only [Leads, onFork]
  cases action { reader with cursor := reader.cursor.fork } <;> rfl

/-- However it ends, the action keeps what a reader keeps. -/
def Steady (action : Reading α) : Prop :=
  ∀ reader, Leads action reader (fun _ after => reader.Keeps after)
    (fun _ after => reader.Keeps after)

namespace Steady

variable {action : Reading α} {next : α → Reading β}

theorem pure (value : α) : Steady (Pure.pure value : Reading α) :=
  fun reader => .refl reader

theorem throw (halt : Halt) : Steady (MonadExcept.throw halt : Reading α) :=
  fun reader => .refl reader

theorem bind (hAction : Steady action) (hNext : ∀ value, Steady (next value)) :
    Steady (action >>= next) := by
  intro reader
  refine (hAction reader).bind (fun _ _ h => h) fun value middle hMiddle => ?_
  exact (hNext value middle).mono (fun _ _ h => hMiddle.trans h) (fun _ _ h => hMiddle.trans h)

end Steady

theorem Observes.steady {action : Reading α} {look : Look α} (hObserves : Observes action look) :
    Steady action := by
  intro reader
  obtain ⟨stream, hOver⟩ := reader.window.exists_over
  refine (hObserves reader stream hOver).mono ?_ ?_
  · rintro value _ ⟨window, moved, rfl, hWindow, -⟩
    exact .of_continues hWindow _ _
  · rintro halt _ ⟨window, fault, rfl, rfl, hWindow, -⟩
    exact .of_continues hWindow _ _

theorem steady_commit (fork : Cursor) : Steady (commit fork) := by
  intro reader
  refine (leads_commit fork reader).mono ?_ ?_
  · rintro - after ⟨-, ⟨hRoot, -, rfl⟩ | ⟨hDeep, rfl⟩⟩
    · exact .of_discard hRoot _ _
    · exact .of_continues (.refl _) _ _
  · rintro halt after ⟨rfl, -⟩
    exact .refl _

theorem steady_onFork {action : Reading α} (hAction : Steady action) : Steady (onFork action) := by
  intro reader
  refine leads_onFork.2 ((hAction _).mono ?_ ?_)
  · exact fun _ _ h => .of_fork h
  · exact fun _ _ h => .of_fork h

theorem steady_position : Steady position :=
  fun reader => .refl reader

theorem steady_get : Steady (get : Reading Reader) :=
  fun reader => .refl reader

/-- A report changes nothing but the reports. -/
theorem leads_report (report : Report) (reader : Reader) :
    Leads (Reading.report report) reader (fun _ after => ∃ reports, after = { reader with reports })
      (fun _ _ => False) := by
  simp only [Reading.report, leads_modify]
  split
  · exact ⟨_, rfl⟩
  · exact ⟨_, rfl⟩

theorem steady_report (report : Report) : Steady (Reading.report report) := by
  intro reader
  refine (leads_report report reader).mono ?_ (fun _ _ h => h.elim)
  rintro - _ ⟨reports, rfl⟩
  exact .of_continues (.refl _) _ _

end Reading

namespace Primitive

open Reading

/-- A scan runs on a fork, and its fault is reported at the cursor at hand. -/
theorem leads_guarded (primitive : Primitive) (offset : Nat) (reader : Reader)
    {returned : Option (List UInt8) × Cursor → Reader → Prop} {halted : Halt → Reader → Prop} :
    Leads (primitive.guarded offset) reader returned halted ↔
      Leads (onFork primitive.scan) reader returned fun halt after =>
        match halt with
        | .fault fault =>
          Leads (primitive.report .failed offset (some (.failed fault))) after
            (fun _ after => halted (.fault fault) after) halted
        | halt => halted halt after := by
  simp only [Leads, guarded]
  cases onFork primitive.scan reader with
  | ok result after => rfl
  | error halt after =>
    cases halt with
    | fault fault =>
      dsimp only
      cases primitive.report .failed offset (some (.failed fault)) after <;> rfl
    | misplaced => rfl
    | exhausted => rfl

theorem steady_guarded {primitive : Primitive} (hScan : Steady primitive.scan) (offset : Nat) :
    Steady (primitive.guarded offset) := by
  intro reader
  refine (leads_guarded primitive offset reader).2 ?_
  refine (steady_onFork hScan reader).mono (fun _ _ h => h) ?_
  intro halt middle hMiddle
  cases halt with
  | fault fault =>
    have hReport := steady_report ⟨.failed, .primitive primitive, offset, some (.failed fault)⟩
    exact (hReport middle).mono (fun _ _ h => hMiddle.trans h) (fun _ _ h => hMiddle.trans h)
  | misplaced => exact hMiddle
  | exhausted => exact hMiddle

end Primitive

namespace Reading

variable {α : Type}

/-- Steadiness as a kind of claim. Any fork may be committed, wherever the cursor is. -/
def steadying : Judgement where
  State := Reader
  Runs := Leads
  Sound _ := True
  Leaves := Reader.Keeps
  Stops before _ after := before.Keeps after
  Committable _ _ := True

theorem kept_steadying {action : Reading α} : steadying.Kept action ↔ Steady action :=
  ⟨fun hAction reader => hAction reader trivial, fun hAction reader _ => hAction reader⟩

theorem Steady.awaits {action : Reading α} (hAction : Steady action) (reader : Reader) :
    steadying.Runs action reader (fun _ after => steadying.Awaits reader after)
      (steadying.Stops reader) :=
  (hAction reader).mono (fun _ _ h => ⟨h, fun _ _ => trivial⟩) (fun _ _ h => h)

/-- Steadiness goes along with all that matchers are made of. -/
def steadiness : Calculus where
  toJudgement := steadying
  sound _ := trivial
  refl {reader} _ := .refl reader
  trans := .trans
  stops := .trans
  pure hReturned := hReturned
  mono := Leads.mono
  bind hAction hNext := Leads.bind hAction (fun _ _ h => h) hNext
  exhausted := kept_steadying.2 (.throw _)
  invalidUtf8 _ := kept_steadying.2 (.throw _)
  position := kept_steadying.2 steady_position
  peek count := kept_steadying.2 (observes_peek count).steady
  peekChars count := kept_steadying.2 (observes_peekChars count).steady
  read count := kept_steadying.2 (observes_read count).steady
  isAtEnd := kept_steadying.2 observes_isAtEnd.steady
  report report reader _ := (steady_report report).awaits reader
  onFork hAction _ := ((steady_onFork (kept_steadying.1 hAction)).awaits _).mono
    (fun _ _ h => ⟨h, trivial⟩) (fun _ _ h => h)
  guarded _ offset _ hScan _ :=
    ((Primitive.steady_guarded (kept_steadying.1 hScan) offset).awaits _).mono
      (fun _ _ h => ⟨h, trivial⟩) (fun _ _ h => h)
  commit {fork reader} _ _ := steady_commit fork reader

end Reading

open Reading

theorem Primitive.steady_scan (primitive : Primitive) : Steady primitive.scan :=
  kept_steadying.1 (steadiness.kept_scan primitive)

theorem Primitive.steady_attempt (primitive : Primitive) : Steady primitive.attempt :=
  kept_steadying.1 (steadiness.kept_primitive primitive)

namespace Attempt

variable {attempt element : Attempt} {separator : Option Attempt} {attempts : List Attempt}

theorem steady_keep (hAttempt : Steady attempt) : Steady attempt.keep :=
  kept_steadying.1 (steadiness.kept_keep (kept_steadying.2 hAttempt))

theorem steady_longest (hAttempts : ∀ attempt ∈ attempts, Steady attempt) :
    Steady (longest attempts) :=
  kept_steadying.1 (steadiness.kept_longest fun attempt hMem =>
    kept_steadying.2 (hAttempts attempt hMem))

theorem steady_rounds (most : Option Nat) (count allowed : Nat) (hElement : Steady element)
    (hSeparator : ∀ attempt ∈ separator, Steady attempt) :
    Steady (rounds element separator most count allowed) :=
  kept_steadying.1 (steadiness.kept_rounds most count allowed (kept_steadying.2 hElement)
    fun attempt hMem => kept_steadying.2 (hSeparator attempt hMem))

theorem steady_many (tag : Tag) (least : Nat) (most : Option Nat) (hElement : Steady element)
    (hSeparator : ∀ attempt ∈ separator, Steady attempt) :
    Steady (many tag least most element separator) :=
  kept_steadying.1 (steadiness.kept_many (kept_steadying.2 steady_get) tag least most
    (kept_steadying.2 hElement) fun attempt hMem => kept_steadying.2 (hSeparator attempt hMem))

theorem steady_lookahead (tag : Tag) (wanted : Bool) (hAttempt : Steady attempt) :
    Steady (lookahead tag wanted attempt) :=
  kept_steadying.1 (steadiness.kept_lookahead tag wanted (kept_steadying.2 hAttempt))

theorem steady_endOfInput (tag : Tag) : Steady (endOfInput tag) :=
  kept_steadying.1 (steadiness.kept_endOfInput tag)

theorem steady_skip (tag : Tag) (count : Nat) : Steady (skip tag count) :=
  kept_steadying.1 (steadiness.kept_skip tag count)

theorem steady_insert (tag : Tag) (bytes : List UInt8) : Steady (insert tag bytes) :=
  kept_steadying.1 (steadiness.kept_insert tag bytes)

theorem steady_stray (count : Nat) : Steady (stray count) :=
  kept_steadying.1 (steadiness.kept_stray count)

theorem steady_refuse : Steady refuse :=
  kept_steadying.1 steadiness.kept_refuse

end Attempt

/-- A matcher is steady if what the names of rules stand for is. -/
theorem Matcher.steady_attempt {call : String → Attempt} (hCall : ∀ name, Steady (call name))
    (m : Matcher) : Steady (m.attempt call) := by
  apply kept_steadying.1
  apply steadiness.kept_attempt
  · intro tag least most element separator
    exact steadiness.kept_many (kept_steadying.2 steady_get) tag least most
  · exact fun name => kept_steadying.2 (hCall name)

namespace Grammar

theorem steady_call (grammar : Grammar) (depth : Nat) (name : String) :
    Steady (grammar.call depth name) := by
  induction depth generalizing name with
  | zero => exact .throw _
  | succ depth ih =>
    rw [call]
    split
    · exact .pure none
    · exact Matcher.steady_attempt ih _

theorem steady_attempt (grammar : Grammar) (m : Matcher) : Steady (grammar.attempt m) :=
  steady_get.bind fun _ => m.steady_attempt (grammar.steady_call _)

end Grammar

end StreamMatch
