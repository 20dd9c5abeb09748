import Mathlib
import StreamMatch.Proofs.StreamDeterminedScripts

/-!
A parse that fails with its source can be tried again. What a run takes from the source is there for
the next one, and the course of the next one is the same, so that in the end it comes to what a
single run comes to that is spared the failures (`Library.parse_retried`).
-/

namespace StreamMatch

namespace Source

/-- These pieces without the first `count` of the failures that surface. -/
def spare : (count : Nat) → List Piece → List Piece
  | 0, pieces => pieces
  | _ + 1, [] => []
  | count + 1, .data bytes :: rest => .data bytes :: spare (count + 1) rest
  | count + 1, .failure .interrupted message :: rest =>
    .failure .interrupted message :: spare (count + 1) rest
  | count + 1, .failure _ _ :: rest => spare count rest

/-- The source without the first `count` of the failures that surface. -/
def sparing (source : Source) (count : Nat) : Source :=
  ⟨spare count source.pieces⟩

@[simp]
theorem spare_zero (pieces : List Piece) : spare 0 pieces = pieces := by
  rw [spare]

@[simp]
theorem spare_data (count : Nat) (bytes : List UInt8) (rest : List Piece) :
    spare count (.data bytes :: rest) = .data bytes :: spare count rest := by
  cases count with
  | zero => simp
  | succ count => rfl

@[simp]
theorem spare_interrupted (count : Nat) (message : String) (rest : List Piece) :
    spare count (.failure .interrupted message :: rest) =
      .failure .interrupted message :: spare count rest := by
  cases count with
  | zero => simp
  | succ count => rfl

theorem spare_surfacing (count : Nat) {kind : IoKind} (hKind : kind ≠ .interrupted)
    (message : String) (rest : List Piece) :
    spare (count + 1) (.failure kind message :: rest) = spare count rest := by
  cases kind <;> first | rfl | exact absurd rfl hKind

/-- A failure delivers nothing, and so a source delivers the same without it. -/
@[simp]
theorem content_sparing (source : Source) (count : Nat) :
    (source.sparing count).content = source.content := by
  obtain ⟨pieces⟩ := source
  simp only [content, sparing]
  fun_induction spare count pieces with
  | case1 pieces => rfl
  | case2 count => rfl
  | case3 count bytes rest ih =>
    cases bytes with
    | nil => rfl
    | cons byte more => simp only [contentOf, ih]
  | case4 count message rest ih => simpa only [contentOf] using ih
  | case5 count kind message rest hKind ih => simpa only [contentOf] using ih

/-- A read that delivers bytes, or none at the end, has nothing to do with later failures. -/
theorem read_bytes_sparing {source rest : Source} {limit : Nat} {delivered : List UInt8}
    (hRead : source.read limit = (.bytes delivered, rest)) (count : Nat) :
    (source.sparing count).read limit = (.bytes delivered, rest.sparing count) := by
  cases delivers_of_read hRead with
  | ended => cases count <;> rfl
  | whole _ more hLength =>
    rw [sparing, spare_data]
    exact (Delivers.whole delivered _ hLength).read_eq
  | part _ left more hLength hLeft =>
    rw [sparing, sparing, spare_data, spare_data]
    exact (Delivers.part delivered left _ hLength hLeft).read_eq

theorem read_interrupted_sparing {source rest : Source} {limit : Nat} {message : String}
    (hRead : source.read limit = (.failed .interrupted message, rest)) (count : Nat) :
    (source.sparing count).read limit = (.failed .interrupted message, rest.sparing count) := by
  cases delivers_of_read hRead with
  | failed _ _ more =>
    rw [sparing, spare_interrupted]
    rfl

/-- A source that is spared the failure it begins with goes on after it. -/
theorem sparing_succ_eq {source rest : Source} {limit : Nat} {kind : IoKind} {message : String}
    (hKind : kind ≠ .interrupted) (hRead : source.read limit = (.failed kind message, rest))
    (count : Nat) : source.sparing (count + 1) = rest.sparing count := by
  cases delivers_of_read hRead with
  | failed _ _ more => simp [sparing, spare_surfacing _ hKind]

end Source

namespace Window

variable {base window after : Window} {want : Nat}

/-- The window with a source that is spared so many failures. -/
def sparing (window : Window) (count : Nat) : Window :=
  { window with source := window.source.sparing count }

theorem sparing_zero (window : Window) : window.sparing 0 = window := by
  simp [sparing, Source.sparing]

theorem Alike.sparing (hAlike : base.Alike window) (count : Nat) :
    base.Alike (window.sparing count) := by
  obtain ⟨hConfig, hStart, hOrigin, hCarry, hAhead⟩ := hAlike
  refine ⟨hConfig, hStart, hOrigin, hCarry, ?_⟩
  rw [← hAhead, ahead, ahead, Window.sparing, Source.content_sparing]
  rfl

/-- If a failure that surfaces had been spared, reading would have gone on from where it was. -/
theorem fill_sparing {kind : IoKind} {message : String}
    (hFill : fill want window = .error (.io kind message) after) (count : Nat) :
    fill want (window.sparing (count + 1)) = fill want (after.sparing count) ∧
      after.source.size < window.source.size := by
  have hSpared {window : Window} (hShort : window.length < want ∧ window.ended = false)
      (count : Nat) : ¬ (window.sparing count).Filled want :=
    not_filled_iff.2 hShort
  fun_induction fill want window with
  | case1 => cases hFill
  | case2 window hShort rest byte more hRead ih =>
    obtain ⟨hFill, hSize⟩ := ih hFill
    have hLess := Source.size_read_lt window.config.chunkSize_pos hRead (by simp)
    refine ⟨?_, Nat.lt_trans hSize hLess⟩
    rw [← hFill, fill_eq (hSpared hShort (count + 1))]
    simp only [sparing, Source.read_bytes_sparing hRead (count + 1)]
  | case3 window hShort rest message hRead ih =>
    obtain ⟨hFill, hSize⟩ := ih hFill
    have hLess := Source.size_read_lt window.config.chunkSize_pos hRead (by simp)
    refine ⟨?_, Nat.lt_trans hSize hLess⟩
    rw [← hFill, fill_eq (hSpared hShort (count + 1))]
    simp only [sparing, Source.read_interrupted_sparing hRead (count + 1)]
  | case4 window hShort kind message rest hKind hRead =>
    cases hFill
    have hLess := Source.size_read_lt window.config.chunkSize_pos hRead (by simp)
    refine ⟨?_, hLess⟩
    simp only [sparing, Source.sparing_succ_eq hKind hRead count]
  | case5 => cases hFill

end Window

namespace Reading

open Window

variable {α β : Type} {base : Window} {want need : Nat} {cursor : Cursor}

/-- The run of the action from `before` comes to this outcome, and leaves the reader so. -/
def Comes (action : Reading α) (before : Reader) (outcome : Except Halt α) (after : Reader) : Prop :=
  match outcome with
  | .ok value => action before = .ok value after
  | .error halt => action before = .error halt after

theorem exists_comes (action : Reading α) (reader : Reader) :
    ∃ outcome after, Comes action reader outcome after := by
  cases hRun : action reader with
  | ok value after => exact ⟨.ok value, after, hRun⟩
  | error halt after => exact ⟨.error halt, after, hRun⟩

/-- The action is run again for as long as a failure of the source stops it, each time from where
the failure left the reader. These are the failures, and what it comes to in the end. -/
inductive Retried (action : Reading α) :
    Reader → List (IoKind × String) → Except Halt α → Reader → Prop where
  | settles {before after : Reader} {outcome : Except Halt α}
    (hRun : Comes action before outcome after)
    (hSettled : ∀ halt, outcome = .error halt → ¬ halt.IsIo) :
    Retried action before [] outcome after
  | again {before middle after : Reader} {kind : IoKind} {message : String}
    {failures : List (IoKind × String)} {outcome : Except Halt α}
    (hRun : action before = .error (.fault (.io kind message)) middle)
    (hRest : Retried action middle failures outcome after) :
    Retried action before ((kind, message) :: failures) outcome after

/-- What holds of a reader as long as the action runs holds of it after all retries. -/
theorem Retried.steady {action : Reading α} (hAction : Steady action) {before after : Reader}
    {failures : List (IoKind × String)} {outcome : Except Halt α}
    (hRetried : Retried action before failures outcome after) : before.Keeps after := by
  induction hRetried with
  | @settles before after outcome hRun =>
    cases outcome with
    | ok value => exact (hAction before).of_ok hRun
    | error halt => exact (hAction before).of_error hRun
  | again hRun hRest ih => exact ((hAction _).of_error hRun).trans ih

/-- A commit has nothing to do with reports, and reads nothing. -/
theorem exists_comes_commit (fork : Cursor) (window : Window) (cursor : Cursor) :
    ∃ (outcome : Except Halt Unit) (after : Reader),
      (∀ halt, outcome = .error halt → ¬ halt.IsIo) ∧ after.window.source = window.source ∧
        ∀ reports, Comes (commit fork) { window, cursor, reports } outcome { after with reports } := by
  by_cases hDepth : fork.depth = cursor.depth + 1
  · by_cases hDeep : cursor.depth ≠ 0
    · exact ⟨.ok (), { window, cursor := { cursor with position := fork.position } },
        by simp, rfl, fun reports => by simp [Comes, commit_eq, hDepth, hDeep]⟩
    · by_cases hStart : window.start ≤ fork.position
      · exact ⟨.ok (), { window := window.discard (fork.position - window.start)
                         cursor := { cursor with position := fork.position } },
          by simp, (window.rest_discard _).2.1, fun reports => by simp_all [Comes, commit_eq]⟩
      · exact ⟨.error (.fault (.reclaimed fork.position window.start)), { window, cursor },
          by simp [Halt.IsIo], rfl, fun reports => by simp_all [Comes, commit_eq]⟩
  · exact ⟨.error .misplaced, { window, cursor }, by simp [Halt.IsIo], rfl,
      fun reports => by simp [Comes, commit_eq, hDepth]⟩

/-- An action that does what one demand does, and then ends in the same way wherever it began, can be
tried again until there is no failure of the source any more. -/
theorem exists_retried {action : Reading α} {outcome : Window → Except Halt α}
    {last : Window → Reader} (hSettled : ∀ window halt, outcome window = .error halt → ¬ halt.IsIo)
    (hRun : ∀ reader, base.Alike reader.window → want ≤ reader.window.length →
      reader.cursor = cursor →
      Leads (fill need) reader.window
        (fun _ window => ∃ reports,
          Comes action reader (outcome window) { last window with reports })
        (fun fault window => ∃ reports,
          action reader = .error (.fault fault) { window, cursor, reports }))
    {reader : Reader} (hAlike : base.Alike reader.window) (hFilled : want ≤ reader.window.length)
    (hCursor : reader.cursor = cursor) :
    ∃ failures window reports,
      Retried action reader failures (outcome window) { last window with reports } ∧
        fill need (reader.window.sparing failures.length) = .ok () window ∧
        reader.window.source.failures = failures ++ window.source.failures := by
  -- A failure that surfaces is taken from the source, so that there is an end to them.
  induction hSize : reader.window.source.size using Nat.strong_induction_on generalizing reader with
  | _ size ih =>
    have hLeads := hRun reader hAlike hFilled hCursor
    have hDraws := leads_fill_draws need reader.window
    cases hFill : fill need reader.window with
    | ok _ window =>
      obtain ⟨reports, hComes⟩ := hLeads.of_ok hFill
      refine ⟨[], window, reports, .settles hComes (hSettled window), ?_,
        (failures_of_fill hFill).symm⟩
      rw [List.length_nil, sparing_zero, hFill]
    | error fault window =>
      obtain ⟨reports, hFails⟩ := hLeads.of_error hFill
      obtain ⟨hDraws, -⟩ := hDraws.of_error hFill
      obtain ⟨kind, message, rfl, hFirst⟩ :=
        (leads_fill_failures need reader.window).of_error hFill
      obtain ⟨-, hLess⟩ := fill_sparing hFill 0
      let next : Reader := { window, cursor, reports }
      have hNext : base.Alike next.window := hAlike.of_draws hDraws
      obtain ⟨failures, final, reports', hRetried, hSpared, hFailures⟩ :=
        ih window.source.size (hSize ▸ hLess) hNext (Nat.le_trans hFilled hDraws.length_le) rfl rfl
      obtain ⟨hAgain, -⟩ := fill_sparing hFill failures.length
      refine ⟨(kind, message) :: failures, final, reports', .again hFails hRetried,
        hAgain.trans hSpared, ?_⟩
      rw [hFirst, hFailures, List.cons_append]

end Reading

namespace Attempt

open Reading

variable {attempt : Attempt} {base : Window} {want : Nat} {cursor : Cursor}

/-- What is kept of an attempt on a fork depends on how the attempt has ended and on the window it
has left. -/
theorem exists_comes_keep (attempt : Attempt) {course : Course (Option Match × Cursor)}
    (hOther : ∀ halt, course.outcome = .error halt → ¬ halt.IsIo) (window : Window) :
    ∃ (outcome : Except Halt (Option Match)) (last : Reader),
      (∀ halt, outcome = .error halt → ¬ halt.IsIo) ∧ last.window.source = window.source ∧
        ∀ reader reports, onFork attempt reader = course.finish window reports →
          Comes attempt.keep reader outcome { last with reports } := by
  obtain ⟨found, need, stopped⟩ := course
  cases found with
  | error halt =>
    refine ⟨.error halt, { window, cursor := stopped }, by simpa using hOther, rfl, ?_⟩
    intro reader reports hRun
    simp [Comes, keep, bind, EStateM.bind, hRun, Course.finish]
  | ok result =>
    obtain ⟨result, fork⟩ := result
    cases result with
    | none =>
      refine ⟨.ok none, { window, cursor := stopped }, by simp, rfl, ?_⟩
      intro reader reports hRun
      simp [Comes, keep, bind, EStateM.bind, hRun, Course.finish]
      rfl
    | some m =>
      obtain ⟨committed, last, hOther, hSource, hCommit⟩ := exists_comes_commit fork window stopped
      cases committed with
      | ok _ =>
        refine ⟨.ok (some m), last, by simp, hSource, ?_⟩
        intro reader reports hRun
        simp only [Comes] at hCommit
        simp [Comes, keep, bind, EStateM.bind, hRun, Course.finish, hCommit]
        rfl
      | error halt =>
        refine ⟨.error halt, last, by simpa using hOther, hSource, ?_⟩
        intro reader reports hRun
        simp only [Comes] at hCommit
        simp [Comes, keep, bind, EStateM.bind, hRun, Course.finish, hCommit]

/-- An attempt on a fork leaves the cursor at hand where it is, and what comes after it depends on
the window alone. -/
theorem exists_takes_keep (hAttempt : Foreseeable True attempt)
    (hPlaced : Placed base want cursor.fork) :
    ∃ (need : Nat) (outcome : Window → Except Halt (Option Match)) (last : Window → Reader),
      (∀ window halt, outcome window = .error halt → ¬ halt.IsIo) ∧
        (∀ window, (last window).window.source = window.source) ∧
        ∀ reader, Scene base want cursor reader →
          Leads (Window.fill need) reader.window
            (fun _ window => ∃ reports,
              Comes attempt.keep reader (outcome window) { last window with reports })
            (fun fault window => ∃ reports,
              attempt.keep reader = .error (.fault fault) { window, cursor, reports }) := by
  obtain ⟨course, -, hTakes, hEnd⟩ := foretold_onFork (hAttempt.foretold hPlaced)
  have hOther : ∀ halt, course.outcome = .error halt → ¬ halt.IsIo := by
    intro halt hHalt
    rw [hHalt] at hEnd
    obtain ⟨-, -, hOther, -⟩ := hEnd
    exact hOther trivial
  choose outcome last hOther hSource hComes using exists_comes_keep attempt hOther
  refine ⟨course.need, outcome, last, hOther, hSource, fun reader hScene => ?_⟩
  have hCursor : Leads (onFork attempt) reader (fun _ _ => True)
      (fun _ after => after.cursor = cursor) :=
    leads_onFork.2 (.intro (fun _ _ _ => trivial) fun _ _ _ => hScene.cursor_eq)
  refine (hTakes reader hScene).mono ?_ ?_
  · rintro - window ⟨reports, hRun⟩
    exact ⟨reports, hComes window reader reports hRun⟩
  · intro fault window hFails
    obtain ⟨other, reports, hRun⟩ := hFails.exists_eq trivial
    obtain rfl : other = cursor := hCursor.of_error hRun
    exact ⟨reports, by simp [keep, bind, EStateM.bind, hRun]⟩

end Attempt

namespace Library

open Reading

/-- Trying again is transparent. Where the cursor lies in the window, a parse that is run again for
as long as a failure of the source stops it comes to the same in the end as one that is spared the
failures that surfaced: the same result, with the cursor in the same place and the same window, in
which no byte of the stream is lost. -/
theorem parse_retried {library : Library} (hLibrary : library.Propagates) (depth : Nat) (m : Matcher)
    {reader : Reader} (hStart : reader.window.start ≤ reader.cursor.position)
    (hDelivered : reader.cursor.position ≤ reader.window.start + reader.window.length) :
    ∃ failures outcome after reports,
      Retried (library.parse depth m) reader failures outcome after ∧
        Comes (library.parse depth m)
          { reader with window := reader.window.sparing failures.length } outcome
          { after with reports } ∧
        reader.window.source.failures = failures ++ after.window.source.failures ∧
        ∀ stream, reader.window.Over stream → after.window.Over stream := by
  have hAttempt : Foreseeable True _ :=
    Matcher.foreseeable_attempt (foreseeable_call (fun _ => hLibrary) depth) m
  have hSteady := Attempt.steady_keep (Matcher.steady_attempt (library.steady_call depth) m)
  have hPlaced : Placed reader.window reader.window.length reader.cursor.fork := by
    have hAhead := reader.window.length_le_length_ahead
    refine ⟨Nat.succ_ne_zero _, hStart, ?_⟩
    rw [Window.reach, Nat.min_eq_left hAhead]
    exact hDelivered
  obtain ⟨need, outcome, last, hSettled, hSource, hRun⟩ := Attempt.exists_takes_keep hAttempt hPlaced
  have hRetry {again : Reader} (hAlike : reader.window.Alike again.window)
      (hFilled : reader.window.length ≤ again.window.length) (hCursor : again.cursor = reader.cursor) :=
    hRun again ⟨hAlike, .inl hFilled, hCursor⟩
  obtain ⟨failures, window, reports, hRetried, hSpared, hFailures⟩ :=
    exists_retried hSettled (fun _ => hRetry) (.refl reader.window) (Nat.le_refl _) rfl
  have hOnce : Leads (Window.fill need) (reader.window.sparing failures.length) _ _ :=
    hRun { reader with window := reader.window.sparing failures.length }
      ⟨(Window.Alike.refl _).sparing _, .inl (Nat.le_refl _), rfl⟩
  obtain ⟨reports', hComes⟩ := hOnce.of_ok hSpared
  refine ⟨failures, outcome window, _, reports', hRetried, hComes, ?_,
    fun stream => (hRetried.steady hSteady).lies_over stream⟩
  rw [hFailures, hSource]

/-- A script that takes two bytes, and hands on what fails. -/
def handing : Library where
  scripts := [("two", .ask .given (.read 2) fun
    | .error fault => .fail fault
    | .ok _ => .finish (some (.empty 0)))]

theorem propagates_handing : handing.Propagates := by
  intro name script hScript
  simp only [handing, List.lookup_cons, List.lookup_nil] at hScript
  split at hScript
  · cases hScript
    refine ⟨fun _ _ => rfl, fun outcome hOther => ?_⟩
    cases outcome with
    | ok bytes => trivial
    | error fault =>
      rintro ⟨kind, message, hIo⟩
      exact hOther kind message (congrArg Except.error (Halt.fault.inj hIo))
  · cases hScript

/-- A reader whose source fails after two bytes. -/
def halting : Reader where
  window := .ofSource ⟨[.data [97, 98], .failure .brokenPipe "broken", .data [99]]⟩
  cursor := { position := 0 }

/-- The source fails after the script has taken its bytes, so that it takes them twice. -/
theorem parse_retried_handing :
    let m : Matcher := .seq .absent [.rule "two", .primitive (.literal .absent [99])]
    Leads (handing.parse 1 m) halting (fun _ _ => False)
        (fun halt _ => halt = .fault (.io .brokenPipe "broken")) ∧
      ∃ failures outcome after reports,
        Retried (handing.parse 1 m) halting failures outcome after ∧
          Comes (handing.parse 1 m)
            { halting with window := halting.window.sparing failures.length } outcome
            { after with reports } ∧
          halting.window.source.failures = failures ++ after.window.source.failures ∧
          ∀ stream, halting.window.Over stream → after.window.Over stream := by
  intro m
  refine ⟨?_, parse_retried propagates_handing 1 m (Nat.le_refl _) (Nat.zero_le _)⟩
  unfold Leads
  cbv

/-- Reads a byte, whatever has come of a first read. -/
def late : Script 0 :=
  .ask .given (.read 1) fun _ => .ask .given (.read 1) fun
    | .error fault => .fail fault
    | .ok _ => .finish (some (.empty 0))

/-- Does not match, whatever has come of its peek. -/
def gulp : Script 0 :=
  .ask .given (.peek 1) fun _ => .finish none

/-- Scripts that go on after a failure of the source. -/
def heedless : Library where
  scripts := [("late", late), ("gulp", gulp)]

/-- A reader whose source fails three times before it delivers two bytes. -/
def faltering : Reader where
  window := .ofSource ⟨[.failure .brokenPipe "broken", .failure .brokenPipe "broken",
    .failure .brokenPipe "broken", .data [97, 98]]⟩
  cursor := { position := 0 }

/-- Trying again is not transparent if scripts go on after a failure. The second try, which goes on
after the last failure, ends after one byte, while a run that is spared all failures takes two. -/
theorem not_forall_parse_retried :
    ¬ ∀ (library : Library) (depth : Nat) (m : Matcher) (reader after : Reader)
      (failures : List (IoKind × String)) (outcome : Except Halt (Option Match)),
      reader.window.start ≤ reader.cursor.position →
      reader.cursor.position ≤ reader.window.start + reader.window.length →
      Retried (library.parse depth m) reader failures outcome after →
      ∃ count reports,
        (count = failures.length ∨
          reader.window.source.failures.length = count + after.window.source.failures.length) ∧
        Comes (library.parse depth m) { reader with window := reader.window.sparing count } outcome
          { after with reports } := by
  intro hTransparent
  have hParse : heedless.parse 1 (.rule "late") =
      Attempt.keep (late.run (·.attempt (heedless.call 0)) Script.noCursors) :=
    rfl
  simp only [late, Script.run] at hParse
  have hRuns : Leads (heedless.parse 1 (.rule "late")) faltering (fun _ _ => False) fun halt middle =>
      halt = .fault (.io .brokenPipe "broken") ∧
        Leads (heedless.parse 1 (.rule "late")) middle
          (fun _ after => after.cursor.position = 1 ∧ after.window.source.failures = [])
          fun _ _ => False := by
    rw [hParse]
    unfold Leads
    cbv
    exact ⟨rfl, trivial⟩
  have hSparedOne : Leads (heedless.parse 1 (.rule "late"))
      ⟨faltering.window.sparing 1, faltering.cursor, #[]⟩ (fun _ _ => False)
      fun _ _ => True := by
    rw [hParse]
    unfold Leads
    cbv
  have hSparedAll : Leads (heedless.parse 1 (.rule "late"))
      ⟨faltering.window.sparing 3, faltering.cursor, #[]⟩ (fun _ last => last.cursor.position = 2)
      fun _ _ => False := by
    rw [hParse]
    unfold Leads
    cbv
  cases hFirst : heedless.parse 1 (.rule "late") faltering with
  | ok found middle => exact hRuns.of_ok hFirst
  | error halt middle =>
    obtain ⟨rfl, hAgain⟩ := hRuns.of_error hFirst
    cases hSecond : heedless.parse 1 (.rule "late") middle with
    | error halt after => exact hAgain.of_error hSecond
    | ok found after =>
      obtain ⟨hPosition, hNone⟩ := hAgain.of_ok hSecond
      have hRetried : Retried (heedless.parse 1 (.rule "late")) faltering
          [(.brokenPipe, "broken")] (.ok found) after :=
        .again hFirst (.settles hSecond (by simp))
      obtain ⟨count, reports, hCount, hComes⟩ := hTransparent heedless 1 (.rule "late") faltering
        after _ _ (Nat.le_refl _) (Nat.zero_le _) hRetried
      rw [hNone] at hCount
      rcases hCount with rfl | hAll
      · exact hSparedOne.of_ok hComes
      · obtain rfl : 3 = count := hAll
        have hTwo := hSparedAll.of_ok hComes
        dsimp only at hTwo
        omega

end Library

end StreamMatch
