import Mathlib
import StreamMatch.Proofs.Bookkeeping
import StreamMatch.Proofs.Retrying
import StreamMatch.Proofs.Scanning

/-!
What is reported of attempts. A note is made of each attempt of a primitive, traced or not, if the
primitives of a matcher stand for `Primitive.noted`; from the notes of a run follow the reports that
are made of it if it is traced (`Report.lines`), and none are made otherwise.
-/

namespace StreamMatch

open Reading

/-- A run that has no room for a single unit. It matches wherever it is tried, and without looking
at the window. -/
def Primitive.takesNothing : Primitive → Bool
  | .bytes run => run.most == 0
  | .chars run => run.most == 0
  | .literal _ _ => false
  | .pattern _ => false

def Subject.takesNothing : Subject → Bool
  | .primitive p => p.takesNothing
  | .other _ _ _ => false

/-- What a report says of the end of an attempt. -/
def Outcome.of? : Except Halt (Option Match) → Option Outcome
  | .ok found => found.map .matched
  | .error (.fault fault) => some (.failed fault)
  | .error _ => none

namespace Report

/-- An attempt as a whole, in one report. -/
def note (p : Primitive) (offset : Nat) (outcome : Except Halt (Option Match)) : Report :=
  ⟨.tried, .primitive p, offset, Outcome.of? outcome⟩

/-- What is reported of an attempt of which this is the note: that it is made, and then its match or
its fault, if it comes to one. A run that takes nothing can only meet a fault after it has matched,
and then the match is all that is reported. -/
def lines (note : Report) : List Report :=
  { note with stage := .tried, outcome := none } ::
    match note.outcome with
    | none => []
    | some (.matched _) => [{ note with stage := .matched }]
    | some (.failed _) =>
      if note.subject.takesNothing then
        [{ note with
          stage := .matched
          outcome := some (.matched (.leaf note.subject.tag [] note.offset)) }]
      else [{ note with stage := .failed }]

end Report

/-- The reader after the reports on an attempt, which are made if it is traced. -/
def Reader.showing (reader : Reader) (note : Report) : Reader :=
  note.lines.foldl Reader.reported reader

/-- The reader after this note, which is made whether it is traced or not. -/
def Reader.noting (reader : Reader) (note : Report) : Reader :=
  { reader with reports := reader.reports.push note }

namespace Primitive

/-- Tries to match the primitive at the cursor, and makes no reports. -/
def quiet (p : Primitive) : Attempt := do
  let offset ← position
  match ← onFork p.scan with
  | (none, _) => return none
  | (some content, fork) =>
    commit fork
    return some (.leaf p.tag content offset)

/-- Tries to match the primitive at the cursor, and makes a note of it, traced or not. -/
def noted (p : Primitive) : Attempt := fun reader =>
  match p.quiet reader with
  | .ok found after => .ok found (after.noting (.note p reader.cursor.position (.ok found)))
  | .error halt after =>
    .error halt (after.noting (.note p reader.cursor.position (.error halt)))

end Primitive

namespace Reading

variable {α β : Type}

/-- The action makes no reports, and those that have been made are nothing to it. -/
def Silent (action : Reading α) : Prop :=
  ∀ reader report, action (reader.reported report) =
    match action reader with
    | .ok value after => .ok value (after.reported report)
    | .error halt after => .error halt (after.reported report)

/-- Reports that stay the same on either side. -/
def stillness (first second : Array Report) : Bookkeeping where
  Kept reports other := reports = first ∧ other = second
  Stopped _ _ reports other := reports = first ∧ other = second
  stopped hKept := hKept
  stopped_of_fork hStopped := hStopped

/-- Two readers with the same mark, where the reports have stayed the same on either side. -/
theorem eq_reported_of_still {reader first second : Reader} {report : Report}
    (hAbreast : Readers.Abreast (reader.cursor.traced, reader.cursor.traced) (first, second))
    (hStill : first.reports = reader.reports ∧ second.reports = (reader.reported report).reports) :
    second = first.reported report := by
  obtain ⟨window, ⟨position, depth, traced⟩, reports⟩ := second
  obtain ⟨hWindow, hPosition, hDepth, hTraced, hTraced'⟩ := hAbreast
  obtain ⟨hReports, hReports'⟩ := hStill
  simp only at hWindow hPosition hDepth hTraced hTraced' hReports'
  have hMark : traced = first.cursor.traced := hTraced'.trans hTraced.symm
  have hShown : (reader.reported report).reports = (first.reported report).reports := by
    simp only [Reader.reported, hReports, hTraced]
  rw [hWindow, hPosition, hDepth, hMark, hReports', hShown]
  rfl

/-- What goes the same way whatever has been reported is silent. -/
theorem silent_of_runs {action : Reading α}
    (hRuns : ∀ traced first second readers,
      (stillness first second).Sound (traced, traced) readers →
      Coincide (fun _ => False) action action readers
        (fun value other after => value = other ∧
          (stillness first second).Sound (traced, traced) after)
        ((stillness first second).Halted (traced, traced) readers)) : Silent action := by
  intro reader report
  have hSound : (stillness reader.reports (reader.reported report).reports).Sound
      (reader.cursor.traced, reader.cursor.traced) (reader, reader.reported report) :=
    ⟨⟨rfl, rfl, rfl, rfl, rfl⟩, rfl, rfl⟩
  cases hRuns _ _ _ _ hSound with
  | returns hFirst hSecond hReturned =>
    obtain ⟨rfl, hAbreast, hStill⟩ := hReturned
    rw [hFirst, hSecond, eq_reported_of_still hAbreast hStill]
  | halts hFirst hSecond hHalted =>
    obtain ⟨hAbreast, hStill⟩ := hHalted
    rw [hFirst, hSecond, eq_reported_of_still hAbreast hStill]
  | excuses _ hExcused => exact hExcused.elim

theorem silent_commit (fork : Cursor) : Silent (commit fork) := by
  apply silent_of_runs
  intro traced first second readers hSound
  exact (hSound.runs_commit rfl rfl).mono (fun _ _ _ h => ⟨rfl, h.1.1⟩) fun halt _ hSame =>
    hSame ▸ hSound.halted halt

theorem silent_onFork_scan (p : Primitive) : Silent (onFork p.scan) := by
  apply silent_of_runs
  intro traced first second readers hSound
  let C := (stillness first second).coupling (traced, traced)
  refine (C.runs_onFork_of_within (C.within_scan p) hSound trivial).imp ?_
  rintro ⟨found, position, depth, mark⟩ ⟨other, position', depth', mark'⟩ after
    ⟨rfl, hAwaits, hPosition, hDepth, hMark, hMark'⟩
  obtain rfl : position' = position := hPosition
  obtain rfl : depth' = depth := hDepth
  obtain rfl : mark' = mark := hMark'.trans hMark.symm
  exact ⟨rfl, hAwaits.leaves.1⟩

end Reading

namespace Primitive

/-- A look at the window fails before its start. -/
theorem leads_peek_start_le (count : Nat) (reader : Reader) :
    Leads (peek count) reader (fun _ _ => reader.window.start ≤ reader.cursor.position)
      (fun _ _ => True) := by
  obtain ⟨stream, hOver⟩ := reader.window.exists_over
  apply (observes_peek count reader stream hOver).mono
  · rintro bytes _ ⟨window, moved, -, -, hStart, -⟩
    exact hStart
  · exact fun _ _ _ => trivial

theorem leads_peekChars_start_le (count : Nat) (reader : Reader) :
    Leads (peekChars count) reader (fun _ _ => reader.window.start ≤ reader.cursor.position)
      (fun _ _ => True) := by
  obtain ⟨stream, hOver⟩ := reader.window.exists_over
  apply (observes_peekChars count reader stream hOver).mono
  · rintro decoded _ ⟨window, moved, -, -, hStart, -⟩
    exact hStart
  · exact fun _ _ _ => trivial

/-- What is known once the first of two actions has returned is known when both have. -/
theorem leads_bind_of_left {α β : Type} {first : Reading α} {next : α → Reading β} {reader : Reader}
    {known : Prop} (hFirst : Leads first reader (fun _ _ => known) fun _ _ => True) :
    Leads (first >>= next) reader (fun _ _ => known) fun _ _ => True :=
  hFirst.bind (fun _ _ h => h) fun _ _ hKnown =>
    .intro (fun _ _ _ => hKnown) fun _ _ _ => trivial

/-- A scan that does not fail has looked at the window, unless it takes nothing anyway. -/
theorem leads_scan_start_le (p : Primitive) (hTakes : p.takesNothing = false) (reader : Reader) :
    Leads p.scan reader (fun _ _ => reader.window.start ≤ reader.cursor.position)
      (fun _ _ => True) := by
  cases p with
  | bytes run =>
    have hMost : 0 < run.most := Nat.pos_of_ne_zero (by simpa [takesNothing] using hTakes)
    apply leads_bind_of_left
    rw [UnitRun.takeBytes, if_pos hMost]
    exact leads_bind_of_left (leads_peek_start_le _ reader)
  | chars run =>
    obtain ⟨most, hMost⟩ : ∃ most, run.most = most + 1 :=
      Nat.exists_eq_succ_of_ne_zero (by simpa [takesNothing] using hTakes)
    apply leads_bind_of_left
    rw [hMost]
    exact leads_bind_of_left (leads_peekChars_start_le 1 reader)
  | literal tag text => exact leads_bind_of_left (leads_peek_start_le _ reader)
  | pattern p => exact leads_bind_of_left (leads_peek_start_le _ reader)

/-- A run that takes nothing finds nothing anywhere. -/
theorem scan_eq_of_takesNothing {p : Primitive} (hTakes : p.takesNothing = true) (reader : Reader) :
    p.scan reader = .ok (some []) reader := by
  cases p with
  | bytes run =>
    have hMost : run.most = 0 := by simpa [takesNothing] using hTakes
    have hLeast : run.least = 0 := Nat.eq_zero_of_le_zero (hMost ▸ run.least_le_most)
    have hNone : UnitRun.takeBytes run 0 = pure [] := by
      rw [UnitRun.takeBytes, if_neg (by omega)]
    have hScan : run.scanBytes = pure (some []) := by
      rw [UnitRun.scanBytes, hNone, pure_bind, hLeast]
      rfl
    exact congrFun hScan reader
  | chars run =>
    have hMost : run.most = 0 := by simpa [takesNothing] using hTakes
    have hLeast : run.least = 0 := Nat.eq_zero_of_le_zero (hMost ▸ run.least_le_most)
    have hScan : run.scanChars = pure (some []) := by
      rw [UnitRun.scanChars, hMost, UnitRun.takeChars, pure_bind, hLeast]
      rfl
    exact congrFun hScan reader
  | literal tag text => simp [takesNothing] at hTakes
  | pattern p => simp [takesNothing] at hTakes

theorem onFork_scan_of_takesNothing {p : Primitive} (hTakes : p.takesNothing = true)
    (reader : Reader) : onFork p.scan reader = .ok (some [], reader.cursor.fork) reader := by
  simp only [onFork, scan_eq_of_takesNothing hTakes]

/-- A report that this primitive makes of an attempt. -/
def line (p : Primitive) (offset : Nat) (stage : Stage) (outcome : Option Outcome) : Report :=
  ⟨stage, .primitive p, offset, outcome⟩

theorem quiet_eq (p : Primitive) (reader : Reader) :
    p.quiet reader =
      match onFork p.scan reader with
      | .ok (none, _) after => .ok none after
      | .ok (some content, fork) after =>
        match commit fork after with
        | .ok _ last => .ok (some (.leaf p.tag content reader.cursor.position)) last
        | .error halt last => .error halt last
      | .error halt after => .error halt after := by
  have hQuiet : p.quiet reader = (do
      match ← onFork p.scan with
      | (none, _) => return none
      | (some content, fork) =>
        commit fork
        return some (.leaf p.tag content reader.cursor.position) : Attempt) reader := rfl
  rw [hQuiet]
  simp only [bind, EStateM.bind]
  cases onFork p.scan reader with
  | error halt after => rfl
  | ok result after =>
    obtain ⟨found, fork⟩ := result
    cases found with
    | none => rfl
    | some content =>
      simp only [EStateM.bind]
      cases commit fork after <;> rfl

/-- The reports on an attempt are those that were made before it has come to its end. -/
theorem attempt_eq (p : Primitive) (reader : Reader) :
    p.attempt reader =
      match onFork p.scan reader with
      | .ok (none, _) after => .ok none (after.reported (p.line reader.cursor.position .tried none))
      | .ok (some content, fork) after =>
        match commit fork after with
        | .ok _ last =>
          .ok (some (.leaf p.tag content reader.cursor.position))
            ((last.reported (p.line reader.cursor.position .tried none)).reported
              (p.line reader.cursor.position .matched
                (some (.matched (.leaf p.tag content reader.cursor.position)))))
        | .error halt last =>
          .error halt
            ((last.reported (p.line reader.cursor.position .tried none)).reported
              (p.line reader.cursor.position .matched
                (some (.matched (.leaf p.tag content reader.cursor.position)))))
      | .error (.fault fault) after =>
        .error (.fault fault)
          ((after.reported (p.line reader.cursor.position .tried none)).reported
            (p.line reader.cursor.position .failed (some (.failed fault))))
      | .error halt after =>
        .error halt (after.reported (p.line reader.cursor.position .tried none)) := by
  have hAttempt : p.attempt reader = (do
      match ← p.guarded reader.cursor.position with
      | (none, _) => return none
      | (some content, fork) =>
        p.report .matched reader.cursor.position
          (some (.matched (.leaf p.tag content reader.cursor.position)))
        commit fork
        return some (.leaf p.tag content reader.cursor.position) : Attempt)
      (reader.reported (p.line reader.cursor.position .tried none)) := by
    simp only [attempt, position, report, bind, EStateM.bind, Reading.report_eq]
    rfl
  rw [hAttempt]
  have hScan := silent_onFork_scan p reader (p.line reader.cursor.position .tried none)
  cases hRun : onFork p.scan reader with
  | error halt after =>
    rw [hRun] at hScan
    cases halt with
    | fault fault =>
      simp only [bind, EStateM.bind, guarded, hScan, report, Reading.report_eq]
      rfl
    | misplaced => simp only [bind, EStateM.bind, guarded, hScan]
    | exhausted => simp only [bind, EStateM.bind, guarded, hScan]
  | ok result after =>
    obtain ⟨found, fork⟩ := result
    rw [hRun] at hScan
    cases found with
    | none =>
      simp only [bind, EStateM.bind, guarded, hScan]
      rfl
    | some content =>
      have hCommit := silent_commit fork
        (after.reported (p.line reader.cursor.position .tried none))
        (p.line reader.cursor.position .matched
          (some (.matched (.leaf p.tag content reader.cursor.position))))
      rw [silent_commit fork after] at hCommit
      simp only [bind, EStateM.bind, guarded, hScan, report]
      rw [Reading.report_eq]
      simp only [line] at hCommit ⊢
      rw [hCommit]
      cases commit fork after <;> rfl

/-- A scan that has looked at the window leaves a fork that can be committed. -/
theorem leads_onFork_scan {p : Primitive} (hTakes : p.takesNothing = false) (reader : Reader) :
    Leads (onFork p.scan) reader
      (fun result after => after.reports = reader.reports ∧
        result.2.depth = after.cursor.depth + 1 ∧ after.window.start ≤ result.2.position)
      (fun halt after => after.reports = reader.reports ∧ ∃ fault, halt = .fault fault) := by
  obtain ⟨stream, hOver⟩ := reader.window.exists_over
  have hFinds := p.recognizes_scan { reader with cursor := reader.cursor.fork } stream hOver
  have hStart := p.leads_scan_start_le hTakes { reader with cursor := reader.cursor.fork }
  rw [leads_onFork]
  apply Leads.intro
  · intro found after hRun
    obtain ⟨window, moved, rfl, hWindow, -⟩ := hFinds.of_ok hRun
    have hBefore : reader.window.start ≤ reader.cursor.position := hStart.of_ok hRun
    have hSame : window.start = reader.window.start := hWindow.start_eq
    exact ⟨rfl, rfl, hSame.trans_le (Nat.le_add_right_of_le hBefore)⟩
  · intro halt after hRun
    obtain ⟨window, moved, fault, rfl, rfl, -⟩ := hFinds.of_error hRun
    exact ⟨rfl, fault, rfl⟩

theorem lines_note_failed (p : Primitive) (offset : Nat) (fault : Fault) :
    (Report.note p offset (.error (.fault fault))).lines =
      [p.line offset .tried none,
        if p.takesNothing then p.line offset .matched (some (.matched (.leaf p.tag [] offset)))
        else p.line offset .failed (some (.failed fault))] := by
  cases hTakes : p.takesNothing <;>
    simp [Report.lines, Report.note, Outcome.of?, line, Subject.takesNothing, Subject.tag, hTakes]

/-- What can come of the scan of an attempt, and of the commit of its fork. It is only by a run that
takes nothing that a scan comes to a match at a root that the window has left behind. -/
inductive Goes (p : Primitive) (reader : Reader) : Prop
  | unmatched {fork : Cursor} {after : Reader}
      (scan_eq : onFork p.scan reader = .ok (none, fork) after)
      (reports_eq : after.reports = reader.reports)
  | matched {content : List UInt8} {fork : Cursor} {after last : Reader}
      (scan_eq : onFork p.scan reader = .ok (some content, fork) after)
      (commit_eq : commit fork after = .ok () last)
      (reports_eq : last.reports = reader.reports)
  | stale (takesNothing_eq : p.takesNothing = true)
      (scan_eq : onFork p.scan reader = .ok (some [], reader.cursor.fork) reader)
      (commit_eq : commit reader.cursor.fork reader =
        .error (.fault (.reclaimed reader.cursor.position reader.window.start)) reader)
      (depth_eq : reader.cursor.depth = 0)
      (position_lt : reader.cursor.position < reader.window.start)
  | fails {fault : Fault} {after : Reader} (takesNothing_eq : p.takesNothing = false)
      (scan_eq : onFork p.scan reader = .error (.fault fault) after)
      (reports_eq : after.reports = reader.reports)

theorem reports_eq_of_commit {fork : Cursor} {reader last : Reader}
    (hCommit : commit fork reader = .ok () last) : last.reports = reader.reports := by
  obtain ⟨-, ⟨-, -, rfl⟩ | ⟨-, rfl⟩⟩ := (leads_commit _ _).of_ok hCommit <;> rfl

theorem goes_of_takesNothing {p : Primitive} (hTakes : p.takesNothing = true) (reader : Reader) :
    p.Goes reader := by
  have hScan := onFork_scan_of_takesNothing hTakes reader
  cases hCommit : commit reader.cursor.fork reader with
  | ok _ last => exact .matched hScan hCommit (reports_eq_of_commit hCommit)
  | error halt last =>
    -- The fork is one generation below, so that only the window can be in the way.
    obtain ⟨rfl, ⟨hDepth, -⟩ | ⟨-, hRoot, hStale, rfl⟩⟩ := (leads_commit _ _).of_error hCommit
    · exact absurd rfl hDepth
    · exact .stale hTakes hScan hCommit hRoot hStale

theorem goes (p : Primitive) (reader : Reader) : p.Goes reader := by
  cases hTakes : p.takesNothing with
  | true => exact goes_of_takesNothing hTakes reader
  | false =>
    have hLeads := leads_onFork_scan hTakes reader
    cases hScan : onFork p.scan reader with
    | error halt after =>
      obtain ⟨hReports, fault, rfl⟩ := hLeads.of_error hScan
      exact .fails hTakes hScan hReports
    | ok result after =>
      obtain ⟨found, fork⟩ := result
      obtain ⟨hReports, hDepth, hStart⟩ := hLeads.of_ok hScan
      cases found with
      | none => exact .unmatched hScan hReports
      | some content =>
        cases hCommit : commit fork after with
        | ok _ last =>
          exact .matched hScan hCommit ((reports_eq_of_commit hCommit).trans hReports)
        | error halt last =>
          obtain ⟨-, ⟨hMisplaced, -⟩ | ⟨-, -, hStale, -⟩⟩ := (leads_commit _ _).of_error hCommit
          · exact absurd hDepth hMisplaced
          · exact absurd hStart (Nat.not_le.2 hStale)

/-- An attempt with its reports comes to what it comes to without, and leaves the same but for the
reports. -/
theorem attempt_eq_showing (p : Primitive) (reader : Reader) :
    p.attempt reader =
      match p.quiet reader with
      | .ok found after => .ok found (after.showing (.note p reader.cursor.position (.ok found)))
      | .error halt after =>
        .error halt (after.showing (.note p reader.cursor.position (.error halt))) := by
  rw [attempt_eq, quiet_eq]
  cases p.goes reader with
  | unmatched hScan =>
    rw [hScan]
    rfl
  | matched hScan hCommit =>
    simp only [hScan, hCommit]
    rfl
  | stale hTakes hScan hCommit =>
    simp only [hScan, hCommit, Reader.showing, lines_note_failed, hTakes, if_true, List.foldl]
  | fails hTakes hScan =>
    simp only [hScan, Reader.showing, lines_note_failed, hTakes, if_false, List.foldl,
      Bool.false_eq_true]

/-- An attempt that halts has met a fault; if it takes nothing, then only that it has been left behind
by the window, which a root finds out at the end. -/
theorem leads_quiet (p : Primitive) (reader : Reader) :
    Leads p.quiet reader (fun _ after => after.reports = reader.reports)
      (fun halt after => after.reports = reader.reports ∧ ∃ fault, halt = .fault fault ∧
        (p.takesNothing = true → reader.cursor.depth = 0 ∧
          reader.cursor.position < reader.window.start ∧
          fault = .reclaimed reader.cursor.position reader.window.start)) := by
  unfold Leads
  rw [quiet_eq]
  cases p.goes reader with
  | unmatched hScan hReports =>
    rw [hScan]
    exact hReports
  | matched hScan hCommit hReports =>
    simp only [hScan, hCommit]
    exact hReports
  | stale _ hScan hCommit hRoot hStale =>
    simp only [hScan, hCommit, true_and]
    exact ⟨_, rfl, fun _ => ⟨hRoot, hStale, rfl⟩⟩
  | @fails fault _ hTakes hScan hReports =>
    rw [hScan]
    exact ⟨hReports, fault, rfl, by simp [hTakes]⟩

end Primitive

theorem Coupling.within_quiet (C : Coupling) (p : Primitive) :
    C.Within p.reach p.quiet p.quiet := by
  apply C.within_position_bind
  intro offset readers hSound hRoom
  apply (C.runs_onFork_of_within (C.within_scan p) hSound hRoom).bind
  rintro ⟨found, fork⟩ ⟨-, other⟩ middle ⟨rfl, hAwaits, hFork⟩
  cases found with
  | none => exact .pure ⟨rfl, C.leaves_mono hAwaits.leaves zero_le⟩
  | some content => exact C.runs_commit _ hFork hAwaits.leaves fun _ hDone => ⟨rfl, hDone⟩

theorem Reader.foldl_reported (reader : Reader) (lines : List Report) :
    lines.foldl Reader.reported reader = { reader with
      reports := if reader.cursor.traced then reader.reports ++ lines else reader.reports } := by
  induction lines generalizing reader with
  | nil => cases hTraced : reader.cursor.traced <;> simp
  | cons line rest ih =>
    rw [List.foldl_cons, ih]
    cases hTraced : reader.cursor.traced <;> simp [reported, hTraced]

/-- What is reported of attempts of which these are the notes. -/
def shown (traced : Bool) (notes : Array Report) : List Report :=
  if traced then notes.toList.flatMap Report.lines else []

/-- What follows from the notes is reported after one more of them, if it was before. -/
theorem Readers.Abreast.showing {traced : Bool} {left right : Reader} {before : List Report}
    (hAbreast : Abreast (traced, traced) (left, right))
    (hReports : left.reports.toList = before ++ shown traced right.reports) (note : Report) :
    Abreast (traced, traced) (left.showing note, right.noting note) ∧
      (left.showing note).reports.toList = before ++ shown traced (right.noting note).reports := by
  have hTraced : left.cursor.traced = traced := hAbreast.traced_eq
  rw [Reader.showing, Reader.foldl_reported]
  refine ⟨⟨hAbreast.window_eq, hAbreast.position_eq, hAbreast.depth_eq, hTraced,
    hAbreast.traced_eq'⟩, ?_⟩
  cases traced <;> simp_all [shown, Reader.noting]

/-- The fault that an attempt came to, if it is the note of such an attempt. -/
def Report.fault? (note : Report) : Option Fault :=
  match note.outcome with
  | some (.failed fault) => some fault
  | _ => none

/-- Only the last of the notes is of an attempt that came to a fault, and to this one. Unless it may
have been made at a root, that attempt has looked at the window. -/
def FailsLast (root : Prop) (fault : Fault) (notes : Array Report) : Prop :=
  ∃ (front : Array Report) (p : Primitive) (offset : Nat),
    notes = front.push (.note p offset (.error (.fault fault))) ∧
      (∀ note ∈ front, note.fault? = none) ∧ (¬ root → p.takesNothing = false)

/-- The one run makes the reports that follow from the notes of the other. -/
def recording (traced : Bool) (before : Array Report) : Bookkeeping where
  Kept reports notes := reports.toList = before.toList ++ shown traced notes ∧
    ∀ note ∈ notes, note.fault? = none
  Stopped root halt reports notes := reports.toList = before.toList ++ shown traced notes ∧
    ((∀ note ∈ notes, note.fault? = none) ∨
      ∃ fault, halt = .fault fault ∧ FailsLast root fault notes)
  stopped hKept := ⟨hKept.1, .inl hKept.2⟩
  stopped_of_fork hStopped :=
    ⟨hStopped.1, hStopped.2.imp_right fun ⟨fault, hHalt, front, p, offset, hNotes, hFront, hTakes⟩ =>
      ⟨fault, hHalt, front, p, offset, hNotes, hFront, fun _ => hTakes not_false⟩⟩

/-- Before anything is noted, what has been reported is what was before. -/
theorem Reader.recording_sound (reader : Reader) :
    (recording reader.cursor.traced reader.reports).Sound
      (reader.cursor.traced, reader.cursor.traced) (reader, { reader with reports := #[] }) :=
  ⟨⟨rfl, rfl, rfl, rfl, rfl⟩, by cases reader.cursor.traced <;> simp [recording, shown]⟩

namespace Primitive

/-- Of an attempt is reported what follows from the note of it. -/
theorem within_noted (p : Primitive) (traced : Bool) (before : Array Report) :
    ((recording traced before).coupling (traced, traced)).Within p.reach p.attempt p.noted := by
  intro readers hSound _
  have hStill : (stillness readers.1.reports readers.2.reports).Sound (traced, traced) readers :=
    ⟨hSound.abreast, rfl, rfl⟩
  have hPlace := hSound.abreast.position_eq
  have hQuiet := p.leads_quiet readers.1
  have hAttempt := p.attempt_eq_showing readers.1
  cases ((stillness readers.1.reports readers.2.reports).coupling _).within_quiet p readers hStill
    trivial with
  | @returns found other left right hFirst hSecond hReturned =>
    obtain ⟨rfl, ⟨hAbreast, hReports, hNotes⟩, hDepth⟩ := hReturned
    obtain ⟨hShown, hClean⟩ := hSound.kept
    rw [← hReports, ← hNotes] at hShown
    rw [← hNotes] at hClean
    have hNoted : p.noted readers.2 =
        .ok found (right.noting (.note p readers.1.cursor.position (.ok found))) := by
      simp only [noted, hSecond, hPlace]
    rw [hFirst] at hAttempt
    obtain ⟨hAfter, hShown⟩ := hAbreast.showing hShown _
    refine .returns hAttempt hNoted ⟨rfl, ⟨hAfter, hShown, ?_⟩, ?_⟩
    · intro note hMem
      rcases Array.mem_push.1 hMem with hMem | rfl
      · exact hClean note hMem
      · cases found <;> rfl
    · rw [← hDepth, Reader.showing, Reader.foldl_reported]
  | @halts halt left right hFirst hSecond hHalted =>
    obtain ⟨hAbreast, hReports, hNotes⟩ := hHalted
    obtain ⟨-, fault, rfl, hTakes⟩ := hQuiet.of_error hFirst
    obtain ⟨hShown, hClean⟩ := hSound.kept
    rw [← hReports, ← hNotes] at hShown
    rw [← hNotes] at hClean
    have hNoted : p.noted readers.2 = .error (.fault fault)
        (right.noting (.note p readers.1.cursor.position (.error (.fault fault)))) := by
      simp only [noted, hSecond, hPlace]
    rw [hFirst] at hAttempt
    obtain ⟨hAfter, hShown⟩ := hAbreast.showing hShown _
    refine .halts hAttempt hNoted
      ⟨hAfter, hShown, .inr ⟨fault, rfl, right.reports, p, _, rfl, hClean, ?_⟩⟩
    intro hDeep
    rw [← Bool.not_eq_true]
    exact fun hTake => hDeep (hTakes hTake).1
  | excuses _ hExcused => exact hExcused.elim

end Primitive

namespace Report

/-- Where no fault was met, none is reported. -/
theorem stage_ne_failed_of_fault? {note line : Report} (hFault : note.fault? = none)
    (hLine : line ∈ note.lines) : line.stage ≠ .failed := by
  rcases List.mem_cons.1 hLine with rfl | hLine
  · simp
  · cases hOutcome : note.outcome with
    | none => simp [hOutcome] at hLine
    | some outcome =>
      cases outcome with
      | matched m => simp_all
      | failed fault => simp [fault?, hOutcome] at hFault

theorem stage_ne_failed_of_shown {notes : Array Report} (hNotes : ∀ note ∈ notes, note.fault? = none)
    {line : Report} (hLine : line ∈ shown true notes) : line.stage ≠ .failed := by
  obtain ⟨note, hMem, hLine⟩ := List.mem_flatMap.1 hLine
  exact stage_ne_failed_of_fault? (hNotes note (Array.mem_toList_iff.1 hMem)) hLine

end Report

/-- The fault is reported at the end, and none before. -/
theorem FailsLast.exists_shown {fault : Fault} {notes : Array Report}
    (hFails : FailsLast False fault notes) :
    ∃ front offset p,
      shown true notes = front ++ [Primitive.line p offset .failed (some (.failed fault))] ∧
      ∀ line ∈ front, line.stage ≠ .failed := by
  obtain ⟨front, p, offset, rfl, hFront, hTakes⟩ := hFails
  refine ⟨shown true front ++ [p.line offset .tried none], offset, p, ?_, ?_⟩
  · have hLines := Primitive.lines_note_failed p offset fault
    rw [hTakes not_false] at hLines
    simp [shown, hLines]
  · intro line hLine
    rcases List.mem_append.1 hLine with hLine | hLine
    · exact Report.stage_ne_failed_of_shown hFront hLine
    · obtain rfl := List.mem_singleton.1 hLine
      simp [Primitive.line]

theorem FailsLast.exists_fault? {root : Prop} {fault : Fault} {notes : Array Report}
    (hFails : FailsLast root fault notes) : ∃ note ∈ notes, note.fault? = some fault := by
  obtain ⟨front, p, offset, rfl, -⟩ := hFails
  exact ⟨.note p offset (.error (.fault fault)), by simp, rfl⟩

/-- What the notes of a parse say of the lines that follow from them: a line on a fault is the last
one, and there is one if and only if what was met at the end is the outcome. -/
theorem failed_lines {notes : Array Report} {outcome : Except Halt (Option Match)}
    (hNotes : (∀ note ∈ notes, note.fault? = none) ∨
      ∃ fault, outcome = .error (.fault fault) ∧ FailsLast False fault notes) :
    (∀ line ∈ (shown true notes).dropLast, line.stage ≠ .failed) ∧
      (∀ line ∈ shown true notes, line.stage = .failed →
        ∃ fault, line.outcome = some (.failed fault) ∧ outcome = .error (.fault fault)) ∧
      ((∃ line ∈ shown true notes, line.stage = .failed) ↔
        ∃ fault, outcome = .error (.fault fault) ∧ ∃ note ∈ notes, note.fault? = some fault) := by
  rcases hNotes with hNotes | ⟨fault, rfl, hFails⟩
  · have hLines {line : Report} (hLine : line ∈ shown true notes) : line.stage ≠ .failed :=
      Report.stage_ne_failed_of_shown hNotes hLine
    refine ⟨fun line hLine => hLines (List.mem_of_mem_dropLast hLine),
      fun line hLine hStage => absurd hStage (hLines hLine), iff_of_false ?_ ?_⟩
    · rintro ⟨line, hLine, hStage⟩
      exact hLines hLine hStage
    · rintro ⟨fault, -, note, hMem, hFault⟩
      rw [hNotes note hMem] at hFault
      cases hFault
  · obtain ⟨front, offset, p, hEnd, hFront⟩ := hFails.exists_shown
    have hLast : p.line offset .failed (some (.failed fault)) ∈ shown true notes := by simp [hEnd]
    refine ⟨?_, ?_, iff_of_true ⟨_, hLast, rfl⟩ ⟨fault, rfl, hFails.exists_fault?⟩⟩
    · rw [hEnd, List.dropLast_concat]
      exact hFront
    · intro line hLine hStage
      rw [hEnd] at hLine
      rcases List.mem_append.1 hLine with hLine | hLine
      · exact absurd hStage (hFront line hLine)
      · obtain rfl := List.mem_singleton.1 hLine
        exact ⟨fault, rfl, rfl⟩

namespace Primitive

/-- What follows from the note of an attempt is reported of it at a traced cursor. -/
theorem toList_reports_showing {reader after : Reader} {note : Report}
    (hTraced : reader.cursor.traced = true) (hReports : after.reports = reader.reports)
    (hSteady : reader.Keeps (after.showing note)) :
    (after.showing note).reports.toList = reader.reports.toList ++ note.lines := by
  have hMark := hSteady.traced_eq
  rw [Reader.showing, Reader.foldl_reported] at hMark ⊢
  have hMark : after.cursor.traced = true := hMark.trans hTraced
  simp [hMark, hReports]

/-- The reports on an attempt, by what it comes to, and the faults that it can come to. -/
theorem comes_attempt_reported (p : Primitive) {reader : Reader}
    (hTraced : reader.cursor.traced = true) :
    ∃ outcome last, Comes p.attempt reader outcome last ∧
      last.reports.toList =
        reader.reports.toList ++ (Report.note p reader.cursor.position outcome).lines ∧
      ∀ halt, outcome = .error halt → ∃ fault, halt = .fault fault ∧
        (p.takesNothing = true → reader.cursor.isRoot = true ∧
          reader.cursor.position < reader.window.start ∧
          fault = .reclaimed reader.cursor.position reader.window.start) := by
  have hAttempt := p.attempt_eq_showing reader
  have hSteady := p.steady_attempt reader
  have hQuiet := p.leads_quiet reader
  cases hRun : p.quiet reader with
  | ok found after =>
    rw [hRun] at hAttempt
    exact ⟨.ok found, _, hAttempt,
      toList_reports_showing hTraced (hQuiet.of_ok hRun) (hSteady.of_ok hAttempt), by simp⟩
  | error halt after =>
    rw [hRun] at hAttempt
    obtain ⟨hReports, fault, rfl, hTakes⟩ := hQuiet.of_error hRun
    refine ⟨.error (.fault fault), _, hAttempt,
      toList_reports_showing hTraced hReports (hSteady.of_error hAttempt), ?_⟩
    rintro _ ⟨⟩
    exact ⟨fault, rfl, fun hTake => (hTakes hTake).imp_left fun hRoot => by simp [Cursor.isRoot, hRoot]⟩

end Primitive

namespace Grammar

/-- A matcher makes the reports that follow from the notes of the same matcher. -/
theorem within_attempt_noted (grammar : Grammar) (m : Matcher) (traced : Bool)
    (before : Array Report) :
    ((recording traced before).coupling (traced, traced)).Within m.reach (grammar.attempt m)
      (grammar.attemptOf Primitive.noted m) := by
  rw [← grammar.attemptOf_attempt]
  exact (recording traced before).within_attemptOf _ (Primitive.within_noted · _ _) grammar m

/-- A parse makes the reports that follow from the notes of the same parse, if it is traced. -/
theorem comes_parse_noted (grammar : Grammar) (m : Matcher) (reader : Reader) :
    ∃ outcome last noted, Comes (grammar.parse m) reader outcome last ∧
      Comes (grammar.parseOf Primitive.noted m) { reader with reports := #[] } outcome noted ∧
      last.reports.toList = reader.reports.toList ++ shown reader.cursor.traced noted.reports ∧
      ((∀ note ∈ noted.reports, note.fault? = none) ∨
        ∃ fault, outcome = .error (.fault fault) ∧ FailsLast False fault noted.reports) := by
  have hAttempt := grammar.within_attempt_noted m reader.cursor.traced reader.reports
  cases Bookkeeping.runs_keep _ _ hAttempt reader.recording_sound with
  | @returns found other left right hFirst hSecond hReturned =>
    obtain ⟨rfl, hAfter⟩ := hReturned
    exact ⟨.ok found, left, right, hFirst, hSecond, hAfter.kept.1, .inl hAfter.kept.2⟩
  | @halts halt left right hFirst hSecond hHalted =>
    obtain ⟨-, hShown, hNotes⟩ := hHalted
    refine ⟨.error halt, left, right, hFirst, hSecond, hShown, hNotes.imp_right ?_⟩
    rintro ⟨fault, rfl, hFails⟩
    exact ⟨fault, rfl, hFails⟩
  | excuses _ hExcused => exact hExcused.elim

/-- What is reported of the attempt of a primitive, and of a whole parse. The first report on an
attempt is that it is made. If it comes to a match or to a fault, this is reported as well, and
nothing else is; only a run that takes nothing has reported its match already when it turns out that
the cursor is a root that the window has left behind, and that fault is not reported. In a parse all
attempts are made on forks, so that there is no such run. A fault is reported in the last line or
not at all, and it is if and only if the fault of a primitive is the outcome. -/
theorem reports_disciplined (grammar : Grammar) (m : Matcher) {reader : Reader}
    (hTraced : reader.cursor.traced = true) :
    (∀ p : Primitive, ∃ outcome last, Comes p.attempt reader outcome last ∧
      last.reports.toList = reader.reports.toList ++ p.line reader.cursor.position .tried none ::
        (match outcome with
        | .ok none => []
        | .ok (some found) => [p.line reader.cursor.position .matched (some (.matched found))]
        | .error (.fault fault) =>
          if p.takesNothing then
            [p.line reader.cursor.position .matched
              (some (.matched (.leaf p.tag [] reader.cursor.position)))]
          else [p.line reader.cursor.position .failed (some (.failed fault))]
        | .error _ => []) ∧
      ∀ halt, outcome = .error halt → ∃ fault, halt = .fault fault ∧
        (p.takesNothing = true → reader.cursor.isRoot = true ∧
          reader.cursor.position < reader.window.start ∧
          fault = .reclaimed reader.cursor.position reader.window.start)) ∧
    ∃ outcome last noted lines, Comes (grammar.parse m) reader outcome last ∧
      Comes (grammar.parseOf Primitive.noted m) { reader with reports := #[] } outcome noted ∧
      lines = noted.reports.toList.flatMap Report.lines ∧
      last.reports.toList = reader.reports.toList ++ lines ∧
      (∀ line ∈ lines.dropLast, line.stage ≠ .failed) ∧
      (∀ line ∈ lines, line.stage = .failed →
        ∃ fault, line.outcome = some (.failed fault) ∧ outcome = .error (.fault fault)) ∧
      ((∃ line ∈ lines, line.stage = .failed) ↔
        ∃ fault, outcome = .error (.fault fault) ∧
          ∃ note ∈ noted.reports, note.fault? = some fault) := by
  refine ⟨fun p => ?_, ?_⟩
  · obtain ⟨outcome, last, hLast, hReports, hHalts⟩ := p.comes_attempt_reported hTraced
    refine ⟨outcome, last, hLast, ?_, hHalts⟩
    rw [hReports]
    cases outcome with
    | ok found => cases found <;> rfl
    | error halt =>
      cases halt with
      | fault fault =>
        rw [Primitive.lines_note_failed]
        split <;> rfl
      | misplaced => rfl
      | exhausted => rfl
  · obtain ⟨outcome, last, noted, hLast, hNoted, hShown, hNotes⟩ :=
      grammar.comes_parse_noted m reader
    rw [hTraced] at hShown
    exact ⟨outcome, last, noted, shown true noted.reports, hLast, hNoted, rfl, hShown,
      failed_lines hNotes⟩

/-- A run that takes nothing, as it ends at the latest where it begins. -/
def nothing : Primitive := .bytes (.between .literal 0 0 .always)

/-- A traced root that the window has left behind. -/
def forsaken : Reader where
  window := ((Window.ofSource ⟨[]⟩).extend [97, 98]).discard 1
  cursor := { position := 0, traced := true }

/-- The outcome of the attempt is the fault, and a match is what is reported. -/
theorem attempt_nothing_forsaken :
    Leads nothing.attempt forsaken (fun _ _ => False) fun halt after =>
      halt = .fault (.reclaimed 0 1) ∧ after.reports.toList = [nothing.line 0 .tried none,
        nothing.line 0 .matched (some (.matched (.leaf .literal [] 0)))] := by
  unfold Leads
  cbv

/-- A parse with this run at the same root is made on a fork, and what it reports is what comes of
the attempt. -/
theorem reports_disciplined_forsaken :
    forsaken.cursor.traced = true ∧
      (∃ last, Comes nothing.attempt forsaken (.error (.fault (.reclaimed 0 1))) last ∧
        last.reports.toList = [nothing.line 0 .tried none,
          nothing.line 0 .matched (some (.matched (.leaf .literal [] 0)))]) ∧
      ∃ outcome last, Comes (({} : Grammar).parse (.primitive nothing)) forsaken outcome last ∧
        ∀ line ∈ last.reports.toList, line.stage = .failed →
          ∃ fault, line.outcome = some (.failed fault) ∧ outcome = .error (.fault fault) := by
  obtain ⟨hAttempts, outcome, last, noted, lines, hLast, -, -, hReports, -, hFailed, -⟩ :=
    reports_disciplined {} (.primitive nothing) (show forsaken.cursor.traced = true from rfl)
  refine ⟨rfl, ?_, outcome, last, hLast, ?_⟩
  · obtain ⟨outcome, last, hLast, hReports, -⟩ := hAttempts nothing
    have hForsaken := attempt_nothing_forsaken
    cases outcome with
    | ok found => exact (hForsaken.of_ok hLast).elim
    | error halt =>
      obtain ⟨rfl, -⟩ := hForsaken.of_error hLast
      exact ⟨last, hLast, hReports⟩
  · rw [hReports]
    exact hFailed

/-- It does not hold of all attempts at traced cursors that the fault that they come to is what is
reported at their end. -/
theorem not_forall_fault_reported :
    ¬ ∀ (p : Primitive) (reader : Reader), reader.cursor.traced = true →
      ∃ outcome last, Comes p.attempt reader outcome last ∧
        last.reports.toList = reader.reports.toList ++ p.line reader.cursor.position .tried none ::
          match outcome with
          | .ok none => []
          | .ok (some found) => [p.line reader.cursor.position .matched (some (.matched found))]
          | .error (.fault fault) =>
            [p.line reader.cursor.position .failed (some (.failed fault))]
          | .error _ => [] := by
  intro hReported
  obtain ⟨outcome, last, hLast, hReports⟩ := hReported nothing forsaken rfl
  have hForsaken := attempt_nothing_forsaken
  cases outcome with
  | ok found => exact (hForsaken.of_ok hLast).elim
  | error halt =>
    obtain ⟨rfl, hMatched⟩ := hForsaken.of_error hLast
    rw [hMatched] at hReports
    simp [forsaken, Primitive.line] at hReports

end Grammar

end StreamMatch
