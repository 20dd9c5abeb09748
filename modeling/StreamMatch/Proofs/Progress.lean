import StreamMatch.Proofs.Closures
import StreamMatch.Proofs.Passes

/-!
Every run ends. No matcher moves its cursor backwards, or past what has been delivered
(`Reader.Proceeds`), and so a repetition, which stops at the first round that does not move, makes
no more rounds than the stream has bytes left (`Attempt.exists_passes_rounds`). This needs no more
than that the element and the separator end and move forwards, which a repetition does as well, so
that repetitions can be nested to any depth (`Matcher.proceeds_attempt`). A program that acts
through its cursor alone can do nothing else that would count against it than move the cursor
backwards (`Script.proceeds_run_iff`).
-/

namespace StreamMatch

namespace Reader

/-- The number of bytes from the cursor to the end of the stream. -/
def left (reader : Reader) : Nat :=
  reader.window.start + reader.window.ahead.length - reader.cursor.position

/-- The end of what the source has delivered so far. -/
def delivered (reader : Reader) : Nat :=
  reader.window.start + reader.window.length

/-- The cursor is not past what has been delivered. -/
def Within (reader : Reader) : Prop :=
  reader.cursor.position ≤ reader.delivered

/-- A later reader over the same stream, not past what has been delivered then. -/
structure Confines (before after : Reader) : Prop where
  within : after.Within
  delivered_le : before.delivered ≤ after.delivered
  lies_over : ∀ stream, before.window.Over stream → after.window.Over stream

/-- A later reader that is further on, or where it was. -/
structure Proceeds (before after : Reader) : Prop extends Confines before after where
  position_le : before.cursor.position ≤ after.cursor.position

theorem left_eq {reader : Reader} {stream : List UInt8} (hOver : reader.window.Over stream) :
    reader.left = stream.length - reader.cursor.position := by
  have hStart := hOver.start_le
  rw [left, ← hOver.drop_start, List.length_drop, Nat.add_sub_cancel' hStart]

theorem left_lt_remaining (reader : Reader) : reader.left < reader.remaining + 1 := by
  have hEnd := reader.end_lt_remaining
  rw [left]
  omega

namespace Confines

variable {first second third reader after : Reader}

theorem refl (hWithin : reader.Within) : Confines reader reader :=
  ⟨hWithin, Nat.le_refl _, fun _ => id⟩

theorem trans (hFirst : Confines first second) (hSecond : Confines second third) :
    Confines first third where
  within := hSecond.within
  delivered_le := Nat.le_trans hFirst.delivered_le hSecond.delivered_le
  lies_over stream := hSecond.lies_over stream ∘ hFirst.lies_over stream

/-- A cursor at a place that has been delivered may discard what it likes. -/
theorem discard {position : Nat} (hDelivered : position ≤ reader.delivered) (count : Nat) :
    Confines reader { reader with
      window := reader.window.discard count
      cursor := { reader.cursor with position } } := by
  have hSame : (reader.window.discard count).start + (reader.window.discard count).length =
      reader.delivered :=
    reader.window.start_add_length_discard count
  refine ⟨?_, Nat.le_of_eq hSame.symm, fun _ hOver => hOver.discard count⟩
  rw [Within, delivered, hSame]
  exact hDelivered

/-- What comes about at another cursor, seen from the one at hand. -/
theorem elsewhere {cursor : Cursor} (hWithin : reader.Within)
    (hOther : Confines { reader with cursor } after) :
    Confines reader { after with cursor := reader.cursor } :=
  ⟨Nat.le_trans hWithin hOther.delivered_le, hOther.delivered_le, hOther.lies_over⟩

end Confines

namespace Proceeds

variable {first second third reader after : Reader}

theorem refl (hWithin : reader.Within) : Proceeds reader reader :=
  ⟨.refl hWithin, Nat.le_refl _⟩

theorem trans (hFirst : Proceeds first second) (hSecond : Proceeds second third) :
    Proceeds first third :=
  ⟨hFirst.toConfines.trans hSecond.toConfines,
    Nat.le_trans hFirst.position_le hSecond.position_le⟩

/-- Reading on, up to what has been delivered then. -/
theorem further {window : Window} {moved : Nat} (hWithin : reader.Within)
    (hWindow : reader.window.Continues window)
    (hMoved : reader.cursor.position + moved ≤
      max reader.cursor.position (window.start + window.length)) :
    Proceeds reader (reader.further window moved) := by
  have hDelivered : reader.delivered ≤ window.start + window.length := by
    rw [delivered, hWindow.start_eq]
    exact Nat.add_le_add_left hWindow.length_le _
  refine ⟨⟨?_, hDelivered, fun _ => hWindow.lies_over⟩, Nat.le_add_right _ _⟩
  exact Nat.le_trans hMoved (Nat.max_le.2 ⟨Nat.le_trans hWithin hDelivered, Nat.le_refl _⟩)

/-- What comes about on a fork, seen from the cursor that was forked. -/
theorem restore (hWithin : reader.Within)
    (hFork : Proceeds { reader with cursor := reader.cursor.fork } after) :
    Proceeds reader { after with cursor := reader.cursor } :=
  ⟨hFork.toConfines.elsewhere hWithin, Nat.le_refl _⟩

/-- A cursor that has moved has less left to read. -/
theorem left_lt (hProceeds : Proceeds first second)
    (hMoved : first.cursor.position ≠ second.cursor.position) : second.left < first.left := by
  obtain ⟨stream, hOver⟩ := first.window.exists_over
  have hAfter := hProceeds.lies_over stream hOver
  have hPosition := hProceeds.position_le
  have hWithin : second.cursor.position ≤ stream.length :=
    Nat.le_trans hProceeds.within hAfter.delivered_le
  rw [left_eq hOver, left_eq hAfter]
  omega

end Proceeds

end Reader

namespace Reading

variable {α : Type}

/-- The action ends, with a result or with a fault, and does not move the cursor backwards or past
what has been delivered. -/
def Proceeds (action : Reading α) : Prop :=
  ∀ reader : Reader, reader.Within →
    Leads action reader (fun _ after => reader.Proceeds after)
      (fun halt after => halt ≠ .exhausted ∧ reader.Proceeds after)

/-- Proceeding as a kind of claim. A fork may be committed that has not been left behind and is not
past what has been delivered. -/
def proceeding : Judgement where
  State := Reader
  Runs := Leads
  Sound := Reader.Within
  Leaves := Reader.Proceeds
  Stops before halt after := halt ≠ .exhausted ∧ before.Proceeds after
  Committable reader fork :=
    reader.cursor.position ≤ fork.position ∧ fork.position ≤ reader.delivered

theorem Observes.proceeds {action : Reading α} {look : Look α} (hObserves : Observes action look) :
    Proceeds action := by
  intro reader hWithin
  obtain ⟨stream, hOver⟩ := reader.window.exists_over
  apply (hObserves reader stream hOver).mono
  · intro value after hAfter
    obtain ⟨window, moved, rfl, hWindow, -, -, hMoved⟩ := hAfter
    exact .further hWithin hWindow hMoved
  · intro halt after hAfter
    obtain ⟨window, fault, rfl, rfl, hWindow, -⟩ := hAfter
    exact ⟨by simp, .further hWithin hWindow (Nat.le_max_left _ _)⟩

/-- A commit takes the cursor to where the fork is. -/
theorem leads_commit_proceeds {fork : Cursor} {reader : Reader} (hWithin : reader.Within)
    (hPosition : reader.cursor.position ≤ fork.position)
    (hDelivered : fork.position ≤ reader.delivered) :
    Leads (commit fork) reader
      (fun _ after => reader.Proceeds after ∧ after.cursor.position = fork.position)
      (fun halt after => halt ≠ .exhausted ∧ reader.Proceeds after) := by
  apply (leads_commit fork reader).mono
  · intro _ after hAfter
    obtain ⟨-, ⟨-, -, rfl⟩ | ⟨-, rfl⟩⟩ := hAfter
    · exact ⟨⟨.discard hDelivered _, hPosition⟩, rfl⟩
    · exact ⟨⟨⟨hDelivered, Nat.le_refl _, fun _ => id⟩, hPosition⟩, rfl⟩
  · intro halt after hAfter
    obtain ⟨rfl, ⟨-, rfl⟩ | ⟨-, -, -, rfl⟩⟩ := hAfter
    · exact ⟨by simp, .refl hWithin⟩
    · exact ⟨by simp, .refl hWithin⟩

/-- A report moves nothing. -/
theorem leads_report_awaits (report : Report) {reader : Reader} (hWithin : reader.Within) :
    Leads (Reading.report report) reader (fun _ => proceeding.Awaits reader)
      (fun halt after => halt ≠ .exhausted ∧ reader.Proceeds after) := by
  apply (leads_report report reader).mono
  · intro _ after hAfter
    obtain ⟨reports, rfl⟩ := hAfter
    exact ⟨⟨⟨hWithin, Nat.le_refl _, fun _ => id⟩, Nat.le_refl _⟩, fun _ hFork => hFork⟩
  · exact fun _ _ hNever => hNever.elim

/-- What an action does on a fork can be committed then, and all that could be before. -/
theorem leads_onFork_proceeds {action : Reading α} {reader fork : Reader}
    (hFork : fork = { reader with cursor := reader.cursor.fork }) (hWithin : reader.Within)
    (hAction : Leads action fork (fun _ after => fork.Proceeds after)
      (fun halt after => halt ≠ .exhausted ∧ fork.Proceeds after)) :
    Leads (onFork action) reader
      (fun result after => proceeding.Awaits reader after ∧ proceeding.Committable after result.2)
      (fun halt after => halt ≠ .exhausted ∧ reader.Proceeds after) := by
  subst hFork
  apply leads_onFork.2
  apply hAction.mono
  · intro value after hAfter
    refine ⟨⟨hAfter.restore hWithin, ?_⟩, hAfter.position_le, hAfter.within⟩
    exact fun fork hFork => ⟨hFork.1, Nat.le_trans hFork.2 hAfter.delivered_le⟩
  · exact fun halt after hAfter => ⟨hAfter.1, hAfter.2.restore hWithin⟩

/-- The report of a fault in a scan moves nothing either. -/
theorem leads_guarded_proceeds {primitive : Primitive} (hScan : Proceeds primitive.scan)
    (offset : Nat) {reader : Reader} (hWithin : reader.Within) :
    Leads (primitive.guarded offset) reader
      (fun result after => proceeding.Awaits reader after ∧ proceeding.Committable after result.2)
      (fun halt after => halt ≠ .exhausted ∧ reader.Proceeds after) := by
  apply (primitive.leads_guarded offset reader).2
  apply (leads_onFork_proceeds rfl hWithin (hScan _ hWithin)).mono (fun _ _ h => h)
  intro halt middle hMiddle
  cases halt with
  | fault fault =>
    apply (leads_report_awaits _ hMiddle.2.within).mono
    · exact fun _ _ hReport => ⟨by simp, hMiddle.2.trans hReport.leaves⟩
    · exact fun _ _ hReport => ⟨hReport.1, hMiddle.2.trans hReport.2⟩
  | misplaced => exact hMiddle
  | exhausted => exact hMiddle

/-- Proceeding goes along with all that matchers are made of. That the rounds of a repetition are
not used up needs an argument of its own. -/
def progress : Conduct where
  toJudgement := proceeding
  sound hLeaves := hLeaves.within
  refl := .refl
  trans := .trans
  stops hLeaves hStops := ⟨hStops.1, hLeaves.trans hStops.2⟩
  pure hReturned := hReturned
  mono := Leads.mono
  bind hAction hNext := Leads.bind hAction (fun _ _ h => h) hNext
  invalidUtf8 _ _ hWithin := ⟨Halt.noConfusion, .refl hWithin⟩
  position _ hWithin := .refl hWithin
  peek count := (observes_peek count).proceeds
  peekChars count := (observes_peekChars count).proceeds
  read count := (observes_read count).proceeds
  isAtEnd := observes_isAtEnd.proceeds
  report report _ := leads_report_awaits report
  onFork hAction hWithin := leads_onFork_proceeds rfl hWithin (hAction _ hWithin)
  guarded _ offset _ hScan := leads_guarded_proceeds hScan offset
  commit hFork hWithin :=
    (leads_commit_proceeds hWithin hFork.1 hFork.2).mono (fun _ _ h => h.1) (fun _ _ h => h)

end Reading

namespace Attempt

open Reading

/-- Makes one round more of a repetition, behind the content and the elements of those before. -/
def roundsPass (element : Attempt) (separator : Option Attempt) (most : Option Nat)
    (made : List UInt8 × List Match) :
    Reading ((List UInt8 × List Match) ⊕ (List UInt8 × List Match)) := do
  if most.any (· ≤ made.2.length) then return .inr made
  let before ← position
  match ← onFork (round element (if made.2.length = 0 then none else separator)) with
  | (none, _) => return .inr made
  | (some (consumed, m), fork) =>
    if fork.position = before then return .inr made
    commit fork
    return .inl (made.1 ++ consumed, made.2 ++ [m])

section Rounds

variable {element : Attempt} {separator : Option Attempt} {most : Option Nat}

/-- Rounds that are allowed one pass more make that pass and go on, or end with it. -/
theorem rounds_succ (element : Attempt) (separator : Option Attempt) (most : Option Nat)
    (made : List UInt8 × List Match) (allowed : Nat) :
    (fun rest => (made.1 ++ rest.1, made.2 ++ rest.2)) <$>
        rounds element separator most made.2.length (allowed + 1) = do
      match ← roundsPass element separator most made with
      | .inl further =>
        (fun rest => (further.1 ++ rest.1, further.2 ++ rest.2)) <$>
          rounds element separator most further.2.length allowed
      | .inr result => return result := by
  rw [rounds, roundsPass]
  split
  · simp
  · simp only [map_bind, bind_assoc]
    congr 1
    funext before
    congr 1
    funext result
    obtain ⟨found, fork⟩ := result
    cases found with
    | none => simp
    | some found =>
      dsimp only
      split
      · simp
      · simp [List.append_assoc]

variable (hElement : Proceeds element) (hSeparator : ∀ attempt ∈ separator, Proceeds attempt)

include hElement hSeparator

/-- A round that does not end the repetition has moved the cursor, and leaves less to read. -/
theorem leads_roundsPass (most : Option Nat) (made : List UInt8 × List Match) {reader : Reader}
    (hWithin : reader.Within) :
    Leads (roundsPass element separator most made) reader
      (fun step after => reader.Proceeds after ∧
        ∀ further, step = .inl further → after.left < reader.left)
      (fun halt after => halt ≠ .exhausted ∧ reader.Proceeds after) := by
  have hRound := progress.kept_round_at made.2.length hElement hSeparator
  rw [roundsPass]
  split
  · simp [Reader.Proceeds.refl hWithin]
  · simp only [leads_bind, leads_position]
    apply (leads_onFork_proceeds rfl hWithin (hRound _ hWithin)).mono
    · intro result middle hMiddle
      obtain ⟨found, fork⟩ := result
      obtain ⟨hAwaits, hFork, hDelivered⟩ := hMiddle
      have hLeaves : reader.Proceeds middle := hAwaits.leaves
      cases found with
      | none => simp [hLeaves]
      | some found =>
        dsimp only
        split
        · simp [hLeaves]
        · next hMoved =>
          apply (leads_commit_proceeds hLeaves.within hFork hDelivered).bind
          · exact fun _ _ hHalted => ⟨hHalted.1, hLeaves.trans hHalted.2⟩
          · intro _ after hAfter
            obtain ⟨hAfter, hPosition⟩ := hAfter
            have hProceeds := hLeaves.trans hAfter
            refine ⟨hProceeds, fun _ _ => hProceeds.left_lt ?_⟩
            rw [hPosition]
            exact Ne.symm hMoved
    · exact fun _ _ hHalted => hHalted

/-- Rounds that are allowed more passes than there are bytes left are the loop. -/
theorem rounds_of_passes {made : List UInt8 × List Match} {reader : Reader} {passes : Nat}
    {run : EStateM.Result Halt Reader (List UInt8 × List Match)}
    (hPasses : LoopRuns (roundsPass element separator most) made reader passes run)
    (hWithin : reader.Within) {allowed : Nat} (hAllowed : reader.left < allowed) :
    ((fun rest => (made.1 ++ rest.1, made.2 ++ rest.2)) <$>
      rounds element separator most made.2.length allowed) reader = run := by
  -- The passes allowed are as many as the bytes left at each pass, and so they are never used up.
  induction hPasses generalizing allowed with
  | ends hPass =>
    obtain ⟨allowed, rfl⟩ := Nat.exists_eq_add_of_lt hAllowed
    rw [rounds_succ]
    simp only [bind, EStateM.bind, hPass]
    rfl
  | halts hPass =>
    obtain ⟨allowed, rfl⟩ := Nat.exists_eq_add_of_lt hAllowed
    rw [rounds_succ]
    simp only [bind, EStateM.bind, hPass]
  | @next made further before after passes run hPass hRest ih =>
    obtain ⟨hProceeds, hLess⟩ :=
      (leads_roundsPass hElement hSeparator most made hWithin).of_ok hPass
    obtain ⟨allowed, rfl⟩ := Nat.exists_eq_add_of_lt hAllowed
    have hLeft := hLess further rfl
    rw [rounds_succ]
    simp only [bind, EStateM.bind, hPass]
    exact ih hProceeds.within (by omega)

/-- Where a repetition gets to, it gets to by rounds that move forwards. -/
theorem proceeds_of_passes {made : List UInt8 × List Match} {reader : Reader} {passes : Nat}
    {run : EStateM.Result Halt Reader (List UInt8 × List Match)}
    (hPasses : LoopRuns (roundsPass element separator most) made reader passes run)
    (hWithin : reader.Within) :
    Leads (fun _ => run) reader (fun _ after => reader.Proceeds after)
      (fun halt after => halt ≠ .exhausted ∧ reader.Proceeds after) := by
  induction hPasses with
  | ends hPass => exact ((leads_roundsPass hElement hSeparator most _ hWithin).of_ok hPass).1
  | halts hPass => exact (leads_roundsPass hElement hSeparator most _ hWithin).of_error hPass
  | next hPass _ ih =>
    have hFirst := ((leads_roundsPass hElement hSeparator most _ hWithin).of_ok hPass).1
    exact (ih hFirst.within).mono (fun _ _ h => hFirst.trans h)
      (fun _ _ h => ⟨h.1, hFirst.trans h.2⟩)

/-- A repetition makes at most one round more than there are bytes left to read. -/
theorem exists_passes_rounds (most : Option Nat) {reader : Reader} (hWithin : reader.Within)
    {allowed : Nat} (hAllowed : reader.left < allowed) :
    ∃ passes, passes ≤ reader.left + 1 ∧
      LoopRuns (roundsPass element separator most) ([], []) reader passes
        (rounds element separator most 0 allowed reader) := by
  have hBody (made : List UInt8 × List Match) (before : Reader) (hBefore : before.Within) :
      Leads (roundsPass element separator most made) before
        (fun step after => ∀ further, step = .inl further →
          after.Within ∧ after.left < before.left)
        (fun _ _ => True) := by
    apply (leads_roundsPass hElement hSeparator most made hBefore).mono
    · exact fun _ _ hAfter further hStep => ⟨hAfter.1.within, hAfter.2 further hStep⟩
    · exact fun _ _ _ => trivial
  obtain ⟨passes, run, hBound, hPasses⟩ :
      ∃ passes run, passes ≤ reader.left + 1 ∧
        LoopRuns (roundsPass element separator most) ([], []) reader passes run :=
    exists_passes (fun _ => Reader.left) (fun _ => Reader.Within) hBody hWithin
  have hRounds : (id <$> rounds element separator most 0 allowed) reader = run :=
    rounds_of_passes hElement hSeparator hPasses hWithin hAllowed
  rw [id_map] at hRounds
  rw [hRounds]
  exact ⟨passes, hBound, hPasses⟩

/-- The rounds that a repetition allows for are never used up. -/
theorem proceeds_many (tag : Tag) (least : Nat) (most : Option Nat) :
    Proceeds (many tag least most element separator) := by
  intro reader hWithin
  have hRounds : Leads (onFork (rounds element separator most 0 (reader.remaining + 1))) reader
      (fun result after => proceeding.Awaits reader after ∧ proceeding.Committable after result.2)
      (fun halt after => halt ≠ .exhausted ∧ reader.Proceeds after) := by
    have hFork : Reader.Within { reader with cursor := reader.cursor.fork } := hWithin
    obtain ⟨passes, -, hPasses⟩ :=
      exists_passes_rounds hElement hSeparator most hFork reader.left_lt_remaining
    exact leads_onFork_proceeds rfl hWithin (proceeds_of_passes hElement hSeparator hPasses hFork)
  simp only [many, leads_bind, leads_position, leads_get]
  apply hRounds.mono
  · intro result middle hMiddle
    obtain ⟨⟨content, elements⟩, fork⟩ := result
    dsimp only
    split
    · exact hMiddle.1.leaves
    · exact progress.runs_commit (progress.kept_pure _) hMiddle.2 hMiddle.1.leaves
  · exact fun _ _ hHalted => hHalted

end Rounds

end Attempt

open Reading

/-- A matcher ends and moves forwards, if what the names of rules stand for does. -/
theorem Matcher.proceeds_attempt {call : String → Attempt} (hCall : ∀ name, Proceeds (call name))
    (m : Matcher) : Proceeds (m.attempt call) := by
  apply progress.kept_attempt
  · intro tag least most element separator hElement hSeparator
    exact Attempt.proceeds_many hElement hSeparator tag least most
  · exact hCall

namespace Reading

variable {α : Type}

/-- The action ends, over the same stream, with its cursor not past what has been delivered. -/
def Confined (action : Reading α) : Prop :=
  ∀ reader : Reader, reader.Within →
    Leads action reader (fun _ after => reader.Confines after)
      (fun halt after => halt ≠ .exhausted ∧ reader.Confines after)

theorem Proceeds.confined {action : Reading α} (hAction : Proceeds action) : Confined action :=
  fun reader hWithin => (hAction reader hWithin).mono (fun _ _ h => h.toConfines)
    (fun _ _ h => ⟨h.1, h.2.toConfines⟩)

theorem confined_commit {fork : Cursor} {reader : Reader} (hWithin : reader.Within)
    (hDelivered : fork.position ≤ reader.delivered) :
    Leads (commit fork) reader (fun _ after => reader.Confines after)
      (fun halt after => halt ≠ .exhausted ∧ reader.Confines after) := by
  apply (leads_commit fork reader).mono
  · intro _ after hAfter
    obtain ⟨-, ⟨-, -, rfl⟩ | ⟨-, rfl⟩⟩ := hAfter
    · exact .discard hDelivered _
    · exact ⟨hDelivered, Nat.le_refl _, fun _ => id⟩
  · intro halt after hAfter
    obtain ⟨rfl, ⟨-, rfl⟩ | ⟨-, -, -, rfl⟩⟩ := hAfter
    · exact ⟨by simp, .refl hWithin⟩
    · exact ⟨by simp, .refl hWithin⟩

theorem proceeds_reclaim : Proceeds reclaim := by
  intro reader hWithin
  apply (leads_reclaim reader).mono
  · intro _ after hAfter
    obtain ⟨-, -, rfl⟩ | ⟨-, rfl⟩ := hAfter
    · exact ⟨.discard hWithin _, Nat.le_refl _⟩
    · exact .refl hWithin
  · intro halt after hAfter
    obtain ⟨rfl, -, -, rfl⟩ := hAfter
    exact ⟨by simp, .refl hWithin⟩

theorem proceeds_location : Proceeds location := by
  intro reader hWithin
  simp only [location, Window.locationAt, leads_bind, leads_position, leads_onWindow, leads_get,
    leads_pure]
  apply (Window.leads_relative _ _).mono
  · intro distance _ hAfter
    obtain ⟨rfl, -⟩ := hAfter
    exact .refl hWithin
  · intro fault _ hAfter
    obtain ⟨rfl, -⟩ := hAfter
    exact ⟨by simp, .refl hWithin⟩

end Reading

theorem Request.proceeds_action {evaluate : Matcher → Attempt}
    (hEvaluate : ∀ m, Proceeds (evaluate m)) (request : Request) :
    Proceeds (request.action evaluate) := by
  cases request with
  | peek count => exact (observes_peek count).proceeds
  | peekChars count => exact (observes_peekChars count).proceeds
  | read count => exact (observes_read count).proceeds
  | readChars count => exact (observes_readChars count).proceeds
  | advance count => exact (observes_advance count).proceeds
  | isAtEnd => exact observes_isAtEnd.proceeds
  | location => exact proceeds_location
  | reclaim => exact proceeds_reclaim
  | inspect => exact fun _ hWithin => .refl hWithin
  | offset => exact fun _ hWithin => .refl hWithin
  | attempt m => exact hEvaluate m
  | parse m => exact progress.kept_keep (hEvaluate m)

namespace Script

variable {made : Nat} {cursors : Vector Cursor made}

/-- No cursor that a script has made is past what has been delivered. -/
def AllWithin {made : Nat} (cursors : Vector Cursor made) (reader : Reader) : Prop :=
  ∀ index : Fin made, (cursors.get index).position ≤ reader.delivered

theorem AllWithin.mono {reader after : Reader} (hCursors : AllWithin cursors reader)
    (hDelivered : reader.delivered ≤ after.delivered) : AllWithin cursors after :=
  fun index => Nat.le_trans (hCursors index) hDelivered

theorem AllWithin.push {reader : Reader} (hCursors : AllWithin cursors reader) {cursor : Cursor}
    (hCursor : cursor.position ≤ reader.delivered) : AllWithin (cursors.push cursor) reader := by
  have hEach : Each (·.position ≤ reader.delivered) cursors := hCursors
  exact hEach.push hCursor

theorem AllWithin.set {reader : Reader} (hCursors : AllWithin cursors reader) {cursor : Cursor}
    (hCursor : cursor.position ≤ reader.delivered) (index : Fin made) :
    AllWithin (cursors.set index cursor) reader := by
  have hEach : Each (·.position ≤ reader.delivered) cursors := hCursors
  exact hEach.set hCursor index

theorem AllWithin.place {reader : Reader} (hCursors : AllWithin cursors reader)
    (hWithin : reader.Within) (handle : Handle made) :
    (place cursors reader.cursor handle).position ≤ reader.delivered := by
  cases handle with
  | given => exact hWithin
  | own index => exact hCursors index

/-- What is done at the cursor of a handle leaves all cursors within what has been delivered. -/
theorem confined_enact {α : Type} {action : Reading α} (handle : Handle made) {reader : Reader}
    (hWithin : reader.Within) (hCursors : AllWithin cursors reader)
    (hAction : Leads action { reader with cursor := place cursors reader.cursor handle }
      (fun _ after =>
        Reader.Confines { reader with cursor := place cursors reader.cursor handle } after)
      (fun halt after => halt ≠ .exhausted ∧
        Reader.Confines { reader with cursor := place cursors reader.cursor handle } after)) :
    Leads (enact cursors handle action) reader
      (fun result after => reader.Confines after ∧ AllWithin result.2 after)
      (fun halt after => halt ≠ .exhausted ∧ reader.Confines after) := by
  have hBack {after : Reader}
      (hAfter : Reader.Confines { reader with cursor := place cursors reader.cursor handle }
        after) :
      reader.Confines { after with
          cursor := (replace cursors reader.cursor after.cursor handle).1 } ∧
        AllWithin (replace cursors reader.cursor after.cursor handle).2 after := by
    have hLater : AllWithin cursors after := hCursors.mono hAfter.delivered_le
    cases handle with
    | given => exact ⟨hAfter, hLater⟩
    | own index => exact ⟨hAfter.elsewhere hWithin, hLater.set hAfter.within index⟩
  apply leads_enact_iff.2
  apply hAction.mono
  · exact fun _ _ hAfter => hBack hAfter
  · intro halt after hHalted
    cases halt with
    | fault fault => exact hBack hHalted.2
    | misplaced => exact ⟨hHalted.1, (hBack hHalted.2).1⟩
    | exhausted => exact ⟨hHalted.1, (hBack hHalted.2).1⟩

/-- Whatever a script does, it ends, if the matchers that it runs do, and its cursor is not past
what has been delivered. -/
theorem confined_run {evaluate : Matcher → Attempt} (hEvaluate : ∀ m, Proceeds (evaluate m))
    (script : Script made) {reader : Reader} (hWithin : reader.Within)
    (hCursors : AllWithin cursors reader) :
    Leads (script.run evaluate cursors) reader (fun _ after => reader.Confines after)
      (fun halt after => halt ≠ .exhausted ∧ reader.Confines after) := by
  induction script generalizing reader with
  | finish result => exact .refl hWithin
  | fail fault => exact ⟨Halt.noConfusion, .refl hWithin⟩
  | fork source next ih =>
    apply (leads_cursorAt cursors source reader).bind (fun _ _ h => h.elim)
    intro cursor _ hCursor
    obtain ⟨rfl, rfl⟩ := hCursor
    exact ih hWithin (hCursors.push (hCursors.place hWithin source))
  | copy source next ih =>
    apply (leads_cursorAt cursors source reader).bind (fun _ _ h => h.elim)
    intro cursor _ hCursor
    obtain ⟨rfl, rfl⟩ := hCursor
    exact ih hWithin (hCursors.push (hCursors.place hWithin source))
  | commit child into next ih =>
    have hPlace : Reader.Within { reader with cursor := place cursors reader.cursor into } :=
      hCursors.place hWithin into
    have hCommit := confined_commit hPlace (hCursors child)
    apply (confined_enact into hWithin hCursors hCommit).bind (fun _ _ h => h)
    intro result middle hMiddle
    apply (ih result.1 hMiddle.1.within hMiddle.2).mono
    · exact fun _ _ hAfter => hMiddle.1.trans hAfter
    · exact fun _ _ hAfter => ⟨hAfter.1, hMiddle.1.trans hAfter.2⟩
  | ask cursor request next ih =>
    have hAction := (request.proceeds_action hEvaluate).confined
      { reader with cursor := place cursors reader.cursor cursor } (hCursors.place hWithin cursor)
    apply (confined_enact cursor hWithin hCursors hAction).bind (fun _ _ h => h)
    intro result middle hMiddle
    apply (ih result.1 hMiddle.1.within hMiddle.2).mono
    · exact fun _ _ hAfter => hMiddle.1.trans hAfter
    · exact fun _ _ hAfter => ⟨hAfter.1, hMiddle.1.trans hAfter.2⟩

/-- All that is asked of a script, so that it may be repeated, is that it never moves its cursor
backwards. -/
theorem proceeds_run_iff {evaluate : Matcher → Attempt} (hEvaluate : ∀ m, Proceeds (evaluate m))
    (script : Script 0) :
    Proceeds (script.run evaluate noCursors) ↔
      ∀ reader : Reader, reader.Within →
        Leads (script.run evaluate noCursors) reader
          (fun _ after => reader.cursor.position ≤ after.cursor.position)
          (fun _ after => reader.cursor.position ≤ after.cursor.position) := by
  constructor
  · intro hProceeds reader hWithin
    apply (hProceeds reader hWithin).mono
    · exact fun _ _ hAfter => hAfter.position_le
    · exact fun _ _ hAfter => hAfter.2.position_le
  · intro hForward reader hWithin
    have hNone : AllWithin noCursors reader := fun index => index.elim0
    apply ((hForward reader hWithin).and (confined_run hEvaluate script hWithin hNone)).mono
    · exact fun _ _ hAfter => ⟨hAfter.2, hAfter.1⟩
    · exact fun _ _ hAfter => ⟨hAfter.2.1, hAfter.2.2, hAfter.1⟩

end Script

namespace Matcher

/-- Repetition and scanning end on every stream. Given that what the names of rules stand for ends
and moves forwards, no matcher runs on for ever, and none moves its cursor backwards or past what
has been delivered. The rounds of a repetition of anything that ends and moves forwards, allowed to
go on for longer than there are bytes left, are a loop that goes through its body at most once more
than that. So are the scans for bytes and for code points, decoding goes through its loop at most
once more than there are bytes ahead, and filling the window at most once more than the source has
reads in line. -/
theorem loops_end {call : String → Attempt} (hCall : ∀ name, Proceeds (call name))
    {element : Attempt} {separator : Option Attempt} (hElement : Proceeds element)
    (hSeparator : ∀ attempt ∈ separator, Proceeds attempt) {reader : Reader}
    (hWithin : reader.Within) :
    (∀ m : Matcher, Proceeds (m.attempt call)) ∧
    (∀ most, ∀ allowed > reader.left, ∃ passes, passes ≤ reader.left + 1 ∧
      LoopRuns (Attempt.roundsPass element separator most) ([], []) reader passes
        (Attempt.rounds element separator most 0 allowed reader)) ∧
    (∀ run, ∃ passes, passes ≤ reader.left + 1 ∧
      LoopRuns (UnitRun.bytesPass run) [] reader passes (UnitRun.takeBytes run 0 reader)) ∧
    (∀ run, ∃ passes, passes ≤ reader.left + 1 ∧
      LoopRuns (UnitRun.charsPass run) (0, []) reader passes
        (UnitRun.takeChars run run.most reader)) ∧
    (∀ offset count, ∃ passes, passes ≤ reader.window.ahead.length - offset + 1 ∧
      LoopRuns (Window.decodePass offset count) .nil reader.window passes
        (Window.decode offset count reader.window)) ∧
    ∀ want, ∃ passes, passes ≤ reader.window.source.size + 1 ∧
      LoopRuns (Window.fillPass want) () reader.window passes (Window.fill want reader.window) := by
  obtain ⟨stream, hOver⟩ := reader.window.exists_over
  have hLeft := Reader.left_eq hOver
  refine ⟨proceeds_attempt hCall, fun most allowed hAllowed => ?_, fun run => ?_, fun run => ?_,
    fun offset count => ?_, fun want => ?_⟩
  · exact Attempt.exists_passes_rounds hElement hSeparator most hWithin hAllowed
  · rw [hLeft]
    exact UnitRun.exists_passes_takeBytes run hOver
  · rw [hLeft]
    exact UnitRun.exists_passes_takeChars run hOver
  · exact Window.exists_passes_decode offset count reader.window
  · exact Window.exists_passes_fill want reader.window

/-- Repetitions, each of an element that may be empty, one inside the other. -/
def nested : (depth : Nat) → Matcher
  | 0 => .optional (.primitive (.literal .absent [97]))
  | depth + 1 => .many .absent 0 none (.optional (nested depth)) none

/-- A root at the start of three bytes that are delivered in two pieces. -/
def threshold : Reader where
  window := .ofSource ⟨[.data [97, 97], .data [98]]⟩
  cursor := { position := 0 }

theorem loops_end_nested :
    Proceeds ((nested 3).attempt fun _ => return none) ∧
    ∃ passes, passes ≤ 4 ∧
      LoopRuns (Attempt.roundsPass ((nested 2).attempt fun _ => return none) none none) ([], [])
        threshold passes
        (Attempt.rounds ((nested 2).attempt fun _ => return none) none none 0 4 threshold) := by
  have hCall : ∀ name, Proceeds ((fun _ => return none : String → Attempt) name) :=
    fun _ => progress.kept_pure (none : Option Match)
  have hSeparator : ∀ attempt ∈ (none : Option Attempt), Proceeds attempt := by simp
  have hWithin : threshold.Within := Nat.zero_le _
  have hLeft : threshold.left = 3 := by decide
  have hEnds := loops_end hCall (proceeds_attempt hCall (nested 2)) hSeparator hWithin
  refine ⟨hEnds.1 (nested 3), ?_⟩
  have hRounds := hEnds.2.1 none 4 (by rw [hLeft]; decide)
  rwa [hLeft] at hRounds

end Matcher

end StreamMatch
