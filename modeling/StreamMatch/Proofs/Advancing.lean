import StreamMatch.Proofs.Closures

/-!
No cursor is moved back to before the place where an action began with it. This goes along with all
that matchers are made of (`Reading.advancement`). A script can move the cursor it is given back, by
the commit of a fork that it made before it read on, but no further than to where it was given it
(`Library.advances_call`).
-/

namespace StreamMatch

namespace Reading

variable {α : Type}

/-- However the action ends, the cursor is further on, or where it was. -/
def Advances (action : Reading α) : Prop :=
  ∀ reader, Leads action reader
    (fun _ after => reader.cursor.position ≤ after.cursor.position)
    (fun _ after => reader.cursor.position ≤ after.cursor.position)

/-- To advance, as a kind of claim. A fork that is not before the cursor may be committed to it. -/
def advancing : Judgement where
  State := Reader
  Runs := Leads
  Sound _ := True
  Leaves before after := before.cursor.position ≤ after.cursor.position
  Stops before _ after := before.cursor.position ≤ after.cursor.position
  Committable reader fork := reader.cursor.position ≤ fork.position

theorem kept_advancing {action : Reading α} : advancing.Kept action ↔ Advances action :=
  ⟨fun hAction reader => hAction reader trivial, fun hAction reader _ => hAction reader⟩

theorem Observes.advances {action : Reading α} {look : Look α} (hObserves : Observes action look) :
    Advances action := by
  intro reader
  obtain ⟨stream, hOver⟩ := reader.window.exists_over
  apply (hObserves reader stream hOver).mono
  · rintro value _ ⟨window, moved, rfl, -⟩
    exact Nat.le_add_right _ _
  · rintro halt _ ⟨window, fault, -, rfl, -⟩
    exact Nat.le_refl _

/-- A fork that is run where the cursor is can be committed to it afterwards. -/
theorem leads_onFork_advances {action : Reading α} (hAction : Advances action) (reader : Reader) :
    Leads (onFork action) reader
      (fun result after => advancing.Awaits reader after ∧ advancing.Committable after result.2)
      (advancing.Stops reader) := by
  apply leads_onFork.2
  apply (hAction { reader with cursor := reader.cursor.fork }).mono
  · exact fun _ _ hAfter => ⟨⟨Nat.le_refl _, fun _ hFork => hFork⟩, hAfter⟩
  · exact fun _ _ _ => Nat.le_refl _

theorem leads_report_advances (report : Report) (reader : Reader) :
    Leads (Reading.report report) reader (fun _ => advancing.Awaits reader)
      (advancing.Stops reader) := by
  apply (leads_report report reader).mono
  · rintro - _ ⟨reports, rfl⟩
    exact ⟨Nat.le_refl _, fun _ hFork => hFork⟩
  · exact fun _ _ hNever => hNever.elim

theorem leads_guarded_advances {primitive : Primitive} (hScan : Advances primitive.scan)
    (offset : Nat) (reader : Reader) :
    Leads (primitive.guarded offset) reader
      (fun result after => advancing.Awaits reader after ∧ advancing.Committable after result.2)
      (advancing.Stops reader) := by
  apply (primitive.leads_guarded offset reader).2
  apply (leads_onFork_advances hScan reader).mono (fun _ _ hAfter => hAfter)
  intro halt middle hMiddle
  cases halt with
  | fault fault =>
    apply (leads_report_advances ⟨.failed, .primitive primitive, offset, some (.failed fault)⟩
      middle).mono
    · exact fun _ _ hReport => Nat.le_trans hMiddle hReport.leaves
    · exact fun _ _ hReport => Nat.le_trans hMiddle hReport
  | misplaced => exact hMiddle
  | exhausted => exact hMiddle

/-- A commit moves the cursor to where the fork is, and one that halts leaves it where it was. -/
theorem leads_commit_position (fork : Cursor) (reader : Reader) :
    Leads (commit fork) reader
      (fun _ after => after.cursor.position = fork.position)
      (fun _ after => after.cursor.position = reader.cursor.position) := by
  apply (leads_commit fork reader).mono
  · rintro - _ ⟨-, ⟨-, -, rfl⟩ | ⟨-, rfl⟩⟩
    · rfl
    · rfl
  · rintro halt _ ⟨rfl, -⟩
    rfl

/-- To advance goes along with all that matchers are made of. -/
def advancement : Calculus where
  toJudgement := advancing
  sound _ := trivial
  refl _ := Nat.le_refl _
  trans := Nat.le_trans
  stops := Nat.le_trans
  pure hReturned := hReturned
  mono := Leads.mono
  bind hAction hNext := Leads.bind hAction (fun _ _ h => h) hNext
  exhausted _ _ := Nat.le_refl _
  invalidUtf8 _ _ _ := Nat.le_refl _
  position _ _ := Nat.le_refl _
  peek count := kept_advancing.2 (observes_peek count).advances
  peekChars count := kept_advancing.2 (observes_peekChars count).advances
  read count := kept_advancing.2 (observes_read count).advances
  isAtEnd := kept_advancing.2 observes_isAtEnd.advances
  report report reader _ := leads_report_advances report reader
  onFork hAction _ := leads_onFork_advances (kept_advancing.1 hAction) _
  guarded _ offset reader hScan _ := leads_guarded_advances (kept_advancing.1 hScan) offset reader
  commit {fork reader} hFork _ := by
    apply (leads_commit_position fork reader).mono
    · exact fun _ _ hAfter => Nat.le_trans hFork (Nat.le_of_eq hAfter.symm)
    · exact fun _ _ hAfter => Nat.le_of_eq hAfter.symm

theorem advances_location : Advances location := by
  intro reader
  simp only [location, leads_bind, leads_position, leads_onWindow]
  exact .intro (fun _ _ _ => Nat.le_refl _) fun _ _ _ => Nat.le_refl _

theorem advances_reclaim : Advances reclaim := by
  intro reader
  apply (leads_reclaim reader).mono
  · rintro - _ (⟨-, -, rfl⟩ | ⟨-, rfl⟩) <;> exact Nat.le_refl _
  · rintro halt _ ⟨rfl, -⟩
    exact Nat.le_refl _

theorem advances_get : Advances (get : Reading Reader) :=
  fun _ => Nat.le_refl _

end Reading

open Reading

theorem Request.advances_action {evaluate : Matcher → Attempt}
    (hEvaluate : ∀ m, Advances (evaluate m)) (request : Request) :
    Advances (request.action evaluate) := by
  cases request with
  | peek count => exact (observes_peek count).advances
  | peekChars count => exact (observes_peekChars count).advances
  | read count => exact (observes_read count).advances
  | readChars count => exact (observes_readChars count).advances
  | advance count => exact (observes_advance count).advances
  | isAtEnd => exact observes_isAtEnd.advances
  | location => exact advances_location
  | reclaim => exact advances_reclaim
  | inspect => exact fun _ => Nat.le_refl _
  | offset => exact fun _ => Nat.le_refl _
  | attempt m => exact hEvaluate m
  | parse m =>
    exact kept_advancing.1 (advancement.kept_keep (kept_advancing.2 (hEvaluate m)))

namespace Script

variable {made origin : Nat} {α : Type} {cursors : Vector Cursor made} {given : Cursor}

/-- All cursors of a script, the one given among them, are at this place or past it. -/
structure Past (origin : Nat) (cursors : Vector Cursor made) (given : Cursor) : Prop where
  given : origin ≤ given.position
  own : Each (origin ≤ ·.position) cursors

namespace Past

theorem place (hPast : Past origin cursors given) (handle : Handle made) :
    origin ≤ (place cursors given handle).position := by
  cases handle with
  | given => exact hPast.given
  | own index => exact hPast.own index

theorem push {cursor : Cursor} (hPast : Past origin cursors given)
    (hCursor : origin ≤ cursor.position) : Past origin (cursors.push cursor) given :=
  ⟨hPast.given, hPast.own.push hCursor⟩

theorem replace {cursor : Cursor} (hPast : Past origin cursors given) (handle : Handle made)
    (hCursor : origin ≤ cursor.position) :
    Past origin (Script.replace cursors given cursor handle).2
      (Script.replace cursors given cursor handle).1 := by
  cases handle with
  | given => exact ⟨hCursor, hPast.own⟩
  | own index => exact ⟨hPast.given, hPast.own.set hCursor index⟩

end Past

/-- What is done at one of the cursors moves none of them back to before the origin. -/
theorem leads_enact_past {action : Reading α} {handle : Handle made} {reader : Reader}
    (hPast : Past origin cursors reader.cursor)
    (hAction : ∀ before : Reader, origin ≤ before.cursor.position →
      Leads action before (fun _ after => origin ≤ after.cursor.position)
        (fun _ after => origin ≤ after.cursor.position)) :
    Leads (enact cursors handle action) reader (fun result after => Past origin result.2 after.cursor)
      (fun _ after => origin ≤ after.cursor.position) := by
  apply leads_enact_iff.2
  apply (hAction { reader with cursor := place cursors reader.cursor handle }
    (hPast.place handle)).mono
  · exact fun _ after hAfter => hPast.replace handle hAfter
  · intro halt after hAfter
    have hReplaced := hPast.replace handle hAfter
    cases halt with
    | fault fault => exact hReplaced
    | misplaced => exact hReplaced.given
    | exhausted => exact hReplaced.given

theorem leads_run_past {evaluate : Matcher → Attempt} (hEvaluate : ∀ m, Advances (evaluate m))
    (script : Script made) {reader : Reader} (hPast : Past origin cursors reader.cursor) :
    Leads (script.run evaluate cursors) reader (fun _ after => origin ≤ after.cursor.position)
      (fun _ after => origin ≤ after.cursor.position) := by
  induction script generalizing reader with
  | finish result => exact hPast.given
  | fail fault => exact hPast.given
  | fork source next ih =>
    apply (leads_cursorAt cursors source reader).bind
    · exact fun _ _ hNever => hNever.elim
    · rintro _ _ ⟨rfl, rfl⟩
      exact ih (hPast.push (hPast.place source))
  | copy source next ih =>
    apply (leads_cursorAt cursors source reader).bind
    · exact fun _ _ hNever => hNever.elim
    · rintro _ _ ⟨rfl, rfl⟩
      exact ih (hPast.push (hPast.place source))
  | commit child into next ih =>
    have hChild := hPast.own child
    apply (leads_enact_past hPast fun before hBefore =>
      (leads_commit_position cursors[child] before).mono
        (fun _ _ hAfter => hAfter ▸ hChild) (fun _ _ hAfter => hAfter ▸ hBefore)).bind
    · exact fun _ _ hAfter => hAfter
    · exact fun result _ hAfter => ih result.1 hAfter
  | ask cursor request next ih =>
    apply (leads_enact_past hPast fun before hBefore =>
      (request.advances_action hEvaluate before).mono
        (fun _ _ hAfter => Nat.le_trans hBefore hAfter)
        (fun _ _ hAfter => Nat.le_trans hBefore hAfter)).bind
    · exact fun _ _ hAfter => hAfter
    · exact fun result _ hAfter => ih result.1 hAfter

end Script

theorem Matcher.advances_attempt {call : String → Attempt} (hCall : ∀ name, Advances (call name))
    (m : Matcher) : Advances (m.attempt call) := by
  apply kept_advancing.1
  apply advancement.kept_attempt
  · exact fun tag least most _ _ hElement hSeparator =>
      advancement.kept_many (kept_advancing.2 advances_get) tag least most hElement hSeparator
  · exact fun name => kept_advancing.2 (hCall name)

/-- Whatever a name stands for, it does not move its cursor back. -/
theorem Library.advances_call (library : Library) (depth : Nat) (name : String) :
    Advances (library.call depth name) := by
  induction depth generalizing name with
  | zero => exact fun _ => Nat.le_refl _
  | succ depth ih =>
    rw [call]
    split
    · exact Matcher.advances_attempt ih _
    · next script _ _ =>
      intro reader
      apply Script.leads_run_past (Matcher.advances_attempt ih) script
      exact ⟨Nat.le_refl _, Script.each_noCursors⟩
    · exact fun _ => Nat.le_refl _

end StreamMatch
