import StreamMatch.Proofs.ReadAheadEquivalence
import StreamMatch.Proofs.Tracing

/-!
What holds of cursors at any time. No cursor is past what has been delivered, and what is done at a
cursor below the root only reads into the window, whether rules come to an end or not
(`Reader.Ventures`). This goes along with all that matchers are made of (`Reading.ventures`), and so
it is kept by every command of a session (`Session.Orderly.step`).
-/

namespace StreamMatch

namespace Reader

/-- What the order of a session asks of a later reader at one of its cursors. -/
structure Upholds (before after : Reader) : Prop extends Confines before after where
  calm : before.window.source.Calm → after.window.source.Calm

/-- A later reader that is further on, or where it was, at a cursor as deep as before. Below the
root its window has only been read into. -/
structure Ventures (before after : Reader) : Prop extends Proceeds before after where
  depth_eq : after.cursor.depth = before.cursor.depth
  traced_eq : after.cursor.traced = before.cursor.traced
  calm : before.window.source.Calm → after.window.source.Calm
  draws : before.cursor.depth ≠ 0 → before.window.Draws after.window

namespace Ventures

variable {first second third reader after : Reader}

theorem refl (hWithin : reader.Within) : Ventures reader reader :=
  ⟨.refl hWithin, rfl, rfl, id, fun _ => .refl _⟩

theorem trans (hFirst : Ventures first second) (hSecond : Ventures second third) :
    Ventures first third where
  toProceeds := hFirst.toProceeds.trans hSecond.toProceeds
  depth_eq := hSecond.depth_eq.trans hFirst.depth_eq
  traced_eq := hSecond.traced_eq.trans hFirst.traced_eq
  calm := hSecond.calm ∘ hFirst.calm
  draws hDeep := (hFirst.draws hDeep).trans (hSecond.draws (hFirst.depth_eq ▸ hDeep))

/-- Reports make no difference. -/
theorem reporting (hWithin : reader.Within) (reports : Array Report) :
    Ventures reader { reader with reports } :=
  ⟨⟨⟨hWithin, Nat.le_refl _, fun _ => id⟩, Nat.le_refl _⟩, rfl, rfl, id, fun _ => .refl _⟩

/-- What comes about on a fork, seen from the cursor that was forked. -/
theorem restore (hWithin : reader.Within)
    (hFork : Ventures { reader with cursor := reader.cursor.fork } after) :
    Ventures reader { after with cursor := reader.cursor } :=
  ⟨hFork.toProceeds.restore hWithin, rfl, rfl, hFork.calm, fun _ => hFork.draws (Nat.succ_ne_zero _)⟩

end Ventures

end Reader

namespace Reading

variable {α : Type}

/-- Venturing as a kind of claim. It says nothing of whether an action comes to an end. -/
def venturing : Judgement where
  State := Reader
  Runs := Leads
  Sound := Reader.Within
  Leaves := Reader.Ventures
  Stops before _ after := before.Ventures after
  Committable reader fork :=
    reader.cursor.position ≤ fork.position ∧ fork.position ≤ reader.delivered

theorem Observes.ventures {action : Reading α} {look : Look α} (hObserves : Observes action look)
    (hDraws : Draws action) : venturing.Kept action := by
  intro reader hWithin
  have hSteady := (hDraws reader).and (hObserves.steady reader)
  apply ((hObserves.proceeds reader hWithin).and hSteady).mono
  · intro _ after hAfter
    obtain ⟨hProceeds, hDraws, hKeeps⟩ := hAfter
    exact ⟨hProceeds, hKeeps.depth_eq, hKeeps.traced_eq, hKeeps.calm, fun _ => hDraws⟩
  · intro _ after hAfter
    obtain ⟨hProceeds, hDraws, hKeeps⟩ := hAfter
    exact ⟨hProceeds.2, hKeeps.depth_eq, hKeeps.traced_eq, hKeeps.calm, fun _ => hDraws⟩

theorem leads_report_ventures (report : Report) {reader : Reader} (hWithin : reader.Within) :
    Leads (Reading.report report) reader (fun _ => venturing.Awaits reader)
      (fun _ after => reader.Ventures after) := by
  apply (leads_report report reader).mono
  · intro _ after hAfter
    obtain ⟨reports, rfl⟩ := hAfter
    exact ⟨.reporting hWithin reports, fun _ hFork => hFork⟩
  · exact fun _ _ hNever => hNever.elim

theorem leads_onFork_ventures {action : Reading α} {reader : Reader}
    (hAction : venturing.Kept action) (hWithin : reader.Within) :
    Leads (onFork action) reader
      (fun result after => venturing.Awaits reader after ∧ venturing.Committable after result.2)
      (fun _ after => reader.Ventures after) := by
  apply leads_onFork.2
  apply (hAction { reader with cursor := reader.cursor.fork } hWithin).mono
  · intro value after hAfter
    refine ⟨⟨hAfter.restore hWithin, ?_⟩, hAfter.position_le, hAfter.within⟩
    exact fun fork hFork => ⟨hFork.1, Nat.le_trans hFork.2 hAfter.delivered_le⟩
  · exact fun _ _ hAfter => hAfter.restore hWithin

theorem leads_guarded_ventures {primitive : Primitive} (hScan : venturing.Kept primitive.scan)
    (offset : Nat) {reader : Reader} (hWithin : reader.Within) :
    Leads (primitive.guarded offset) reader
      (fun result after => venturing.Awaits reader after ∧ venturing.Committable after result.2)
      (fun _ after => reader.Ventures after) := by
  apply (primitive.leads_guarded offset reader).2
  apply (leads_onFork_ventures hScan hWithin).mono (fun _ _ h => h)
  intro halt middle hMiddle
  cases halt with
  | fault fault =>
    apply (leads_report_ventures _ hMiddle.within).mono
    · exact fun _ _ hReport => hMiddle.trans hReport.leaves
    · exact fun _ _ hReport => hMiddle.trans hReport
  | misplaced => exact hMiddle
  | exhausted => exact hMiddle

theorem leads_commit_ventures {fork : Cursor} {reader : Reader}
    (hFork : venturing.Committable reader fork) (hWithin : reader.Within) :
    Leads (commit fork) reader (fun _ after => reader.Ventures after)
      (fun _ after => reader.Ventures after) := by
  have hProceeds := leads_commit_proceeds hWithin hFork.1 hFork.2
  apply ((hProceeds.and (steady_commit fork reader)).and (leads_commit fork reader)).mono
  · intro _ after hAfter
    obtain ⟨⟨⟨hProceeds, -⟩, hKeeps⟩, -, hCases⟩ := hAfter
    refine ⟨hProceeds, hKeeps.depth_eq, hKeeps.traced_eq, hKeeps.calm, fun hDeep => ?_⟩
    obtain ⟨hRoot, -⟩ | ⟨-, rfl⟩ := hCases
    · exact absurd hRoot hDeep
    · exact .refl _
  · intro _ after hAfter
    obtain ⟨-, rfl, -⟩ := hAfter
    exact .refl hWithin

/-- Venturing goes along with all that matchers are made of. -/
def ventures : Calculus where
  toJudgement := venturing
  sound hLeaves := hLeaves.within
  refl := .refl
  trans := .trans
  stops := .trans
  pure hReturned := hReturned
  mono := Leads.mono
  bind hAction hNext := Leads.bind hAction (fun _ _ h => h) hNext
  exhausted _ := .refl
  invalidUtf8 _ _ := .refl
  position _ := .refl
  peek count := (observes_peek count).ventures (draws_peek count)
  peekChars count := (observes_peekChars count).ventures (draws_peekChars count)
  read count := (observes_read count).ventures (draws_read count)
  isAtEnd := observes_isAtEnd.ventures draws_isAtEnd
  report report _ := leads_report_ventures report
  onFork := leads_onFork_ventures
  guarded _ offset _ hScan := leads_guarded_ventures hScan offset
  commit := leads_commit_ventures

end Reading

open Reading

theorem ventures_get : venturing.Kept (get : Reading Reader) :=
  fun _ => Reader.Ventures.refl

namespace Grammar

theorem ventures_call (grammar : Grammar) (depth : Nat) (name : String) :
    venturing.Kept (grammar.call depth name) := by
  induction depth generalizing name with
  | zero => exact ventures.exhausted
  | succ depth ih =>
    rw [call]
    split
    · exact ventures.kept_pure none
    · apply ventures.kept_attempt _ ih
      exact fun tag least most => ventures.kept_many ventures_get tag least most

theorem ventures_attempt (grammar : Grammar) (m : Matcher) : venturing.Kept (grammar.attempt m) := by
  apply ventures.kept_bind ventures_get
  intro reader
  apply ventures.kept_attempt _ (grammar.ventures_call _)
  exact fun tag least most => ventures.kept_many ventures_get tag least most

theorem ventures_parse (grammar : Grammar) (m : Matcher) : venturing.Kept (grammar.parse m) :=
  ventures.kept_keep (grammar.ventures_attempt m)

end Grammar

namespace Reading

/-- A look at the window moves nothing. -/
theorem ventures_onWindow {α : Type} {action : Windowed α} (hLooks : Window.Looks action) :
    venturing.Kept (onWindow action) := by
  intro reader hWithin
  have hAfter {window : Window} (hDraws : reader.window.Draws window) :
      reader.Ventures { reader with window } := by
    have hProceeds : reader.Proceeds (reader.further window 0) :=
      .further hWithin hDraws.toContinues (Nat.le_max_left _ _)
    exact ⟨hProceeds, rfl, rfl, hDraws.calm, fun _ => hDraws⟩
  apply leads_onWindow.2
  apply (hLooks reader.window).mono
  · exact fun _ _ hWindow => hAfter hWindow.1
  · exact fun _ _ hWindow => hAfter hWindow.1

/-- A commit to a place that has been delivered, wherever the cursor at hand is. -/
theorem leads_commit_upholds {fork : Cursor} {reader : Reader} (hWithin : reader.Within)
    (hDelivered : fork.position ≤ reader.delivered) :
    Leads (commit fork) reader (fun _ => reader.Upholds) (fun _ => reader.Upholds) := by
  apply ((steady_commit fork reader).and (leads_commit fork reader)).mono
  · intro _ after hAfter
    obtain ⟨hKeeps, -, ⟨-, -, rfl⟩ | ⟨-, rfl⟩⟩ := hAfter
    · exact ⟨.discard hDelivered _, hKeeps.calm⟩
    · exact ⟨⟨hDelivered, Nat.le_refl _, fun _ => id⟩, id⟩
  · intro _ after hAfter
    obtain ⟨-, rfl, -⟩ := hAfter
    exact ⟨.refl hWithin, id⟩

theorem ventures_reclaim : venturing.Kept reclaim := by
  intro reader hWithin
  have hProceeds := (proceeds_reclaim reader hWithin).and (steady_reclaim reader)
  apply (hProceeds.and (leads_reclaim reader)).mono
  · intro _ after hAfter
    obtain ⟨⟨hProceeds, hKeeps⟩, hCases⟩ := hAfter
    refine ⟨hProceeds, hKeeps.depth_eq, hKeeps.traced_eq, hKeeps.calm, fun hDeep => ?_⟩
    obtain ⟨hRoot, -⟩ | ⟨-, rfl⟩ := hCases
    · exact absurd hRoot hDeep
    · exact .refl _
  · intro _ after hAfter
    obtain ⟨-, rfl, -⟩ := hAfter
    exact .refl hWithin

theorem ventures_locate (place : Nat) :
    venturing.Kept (return (← location, ← onWindow (Window.locationAt place))) := by
  have hHere : venturing.Kept location :=
    ventures.kept_bind ventures.position fun _ => ventures_onWindow (Window.looks_locationAt _)
  apply ventures.kept_bind hHere
  intro first
  apply ventures.kept_bind (ventures_onWindow (Window.looks_locationAt place))
  exact fun second => ventures.kept_pure _

end Reading

namespace Session

variable {session : Session} {name : String} {cursor : Cursor}

/-- The source does not fail, and no cursor is past what has been delivered. -/
structure Orderly (session : Session) : Prop where
  calm : session.window.source.Calm
  within : ∀ name cursor, session.cursor? name = some cursor →
    cursor.position ≤ session.window.start + session.window.length

/-- What an action leaves behind is where it has left the reader. -/
theorem exists_run {α : Type} {action : Reading α} {property : Reader → Prop} (session : Session)
    (name : String) (answer : α → Answer)
    (hAction : Leads action { window := session.window, cursor } (fun _ => property)
      fun _ => property) :
    ∃ last, property last ∧ (session.run name cursor action answer).session =
      Session.insert { session with window := last.window } name last.cursor := by
  cases hRun : action { window := session.window, cursor } with
  | ok value last => exact ⟨last, hAction.of_ok hRun, by rw [session.run_of_ok hRun]⟩
  | error halt last => exact ⟨last, hAction.of_error hRun, by rw [session.run_of_error hRun]⟩

theorem orderly_start (config : Config) {source : Source} (hCalm : source.Calm) (name : String)
    (traced : Bool) : (start config source name traced).Orderly where
  calm := hCalm
  within other cursor hCursor := by
    rw [cursor?, start, lookup_cons_eq_ite] at hCursor
    split at hCursor
    · obtain rfl := Option.some.inj hCursor
      exact Nat.zero_le _
    · cases hCursor

namespace Orderly

/-- A cursor that is not past what has been delivered may be added. -/
theorem insert {window : Window} (hOrderly : session.Orderly) (hCalm : window.source.Calm)
    (hDelivered : session.window.start + session.window.length ≤ window.start + window.length)
    (hCursor : cursor.position ≤ window.start + window.length) (name : String) :
    (Session.insert { session with window } name cursor).Orderly where
  calm := hCalm
  within other found hFound := by
    rw [cursor?_insert] at hFound
    split at hFound
    · obtain rfl := Option.some.inj hFound
      exact hCursor
    · exact Nat.le_trans (hOrderly.within other found hFound) hDelivered

theorem remove (hOrderly : session.Orderly) (name : String) : (session.remove name).Orderly where
  calm := hOrderly.calm
  within other found hFound := by
    rw [cursor?_remove] at hFound
    split at hFound
    · cases hFound
    · exact hOrderly.within other found hFound

theorem run {α : Type} {action : Reading α} (hOrderly : session.Orderly)
    (hAction : Leads action { window := session.window, cursor }
      (fun _ => Reader.Upholds { window := session.window, cursor })
      fun _ => Reader.Upholds { window := session.window, cursor }) (name : String)
    (answer : α → Answer) : (session.run name cursor action answer).session.Orderly := by
  obtain ⟨last, hLast, hSession⟩ := session.exists_run name answer hAction
  rw [hSession]
  exact hOrderly.insert (hLast.calm hOrderly.calm) hLast.delivered_le hLast.within name

theorem run_venturing {α : Type} {action : Reading α} (hOrderly : session.Orderly)
    (hCursor : cursor.position ≤ session.window.start + session.window.length)
    (hAction : venturing.Kept action) (name : String) (answer : α → Answer) :
    (session.run name cursor action answer).session.Orderly := by
  apply hOrderly.run
  apply (hAction { window := session.window, cursor } hCursor).mono
  · exact fun _ _ hAfter => ⟨hAfter.toConfines, hAfter.calm⟩
  · exact fun _ _ hAfter => ⟨hAfter.toConfines, hAfter.calm⟩

/-- Order is kept whatever is done with the cursors, and even if bytes are discarded that they
need. -/
theorem step (hOrderly : session.Orderly) (grammar : Grammar) (name : String)
    (command : Command) : (session.step grammar name command).session.Orderly := by
  rw [Session.step]
  cases hCursor : session.cursor? name with
  | none => exact hOrderly
  | some cursor =>
    have hWithin := hOrderly.within name cursor hCursor
    cases command with
    | fork fresh =>
      have hFork : cursor.fork.position ≤ session.window.start + session.window.length := hWithin
      exact hOrderly.insert hOrderly.calm (Nat.le_refl _) hFork fresh
    | copy fresh => exact hOrderly.insert hOrderly.calm (Nat.le_refl _) hWithin fresh
    | newRoot fresh traced =>
      have hRoot : ({ position := session.window.start, traced } : Cursor).position ≤
          session.window.start + session.window.length := Nat.le_add_right _ _
      exact hOrderly.insert hOrderly.calm (Nat.le_refl _) hRoot fresh
    | commit into =>
      have hRemoved := hOrderly.remove name
      dsimp only [perform]
      cases hParent : (session.remove name).cursor? into with
      | none => exact hRemoved
      | some parent =>
        have hParent := hRemoved.within into parent hParent
        exact hRemoved.run (leads_commit_upholds hParent hWithin) into _
    | abandon => exact hOrderly.remove name
    | reclaim => exact hOrderly.run_venturing hWithin ventures_reclaim name _
    | peek count => exact hOrderly.run_venturing hWithin (ventures.peek count) name _
    | peekChars count => exact hOrderly.run_venturing hWithin (ventures.peekChars count) name _
    | read count => exact hOrderly.run_venturing hWithin (ventures.read count) name _
    | readChars count =>
      exact hOrderly.run_venturing hWithin
        ((observes_readChars count).ventures (draws_readChars count)) name _
    | advance count =>
      exact hOrderly.run_venturing hWithin
        ((observes_advance count).ventures (draws_advance count)) name _
    | isAtEnd => exact hOrderly.run_venturing hWithin ventures.isAtEnd name _
    | inspect => exact hOrderly.run_venturing hWithin (ventures.kept_pure cursor) name _
    | locate other =>
      dsimp only [perform]
      cases session.cursor? other with
      | none => exact hOrderly
      | some second => exact hOrderly.run_venturing hWithin (ventures_locate second.position) name _
    | parse m => exact hOrderly.run_venturing hWithin (grammar.ventures_parse m) name _
    | attempt m => exact hOrderly.run_venturing hWithin (grammar.ventures_attempt m) name _
    | discard count =>
      have hSame := session.window.start_add_length_discard count
      obtain ⟨-, hSource, -⟩ := session.window.rest_discard count
      refine ⟨hSource.symm ▸ hOrderly.calm, fun other found hFound => ?_⟩
      exact Nat.le_trans (hOrderly.within other found hFound) (Nat.le_of_eq hSame.symm)

theorem after (hOrderly : session.Orderly) (grammar : Grammar)
    (history : List (String × Command)) : (session.after grammar history).Orderly := by
  induction history generalizing session with
  | nil => exact hOrderly
  | cons entry rest ih => exact ih (hOrderly.step grammar entry.1 entry.2)

end Orderly

end Session

end StreamMatch
