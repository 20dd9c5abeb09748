import StreamMatch.Proofs.Orderly

/-!
Cursors that leave no trace. What is done with forks, and with forks of those, reads into the window
and nothing else, as long as none of them is committed to a cursor that stays
(`Session.Beside.step_apart`). So to whoever asks at the cursors that stay it is as if the others
had never been there (`Session.transcript_filter`).
-/

namespace StreamMatch

open Reading Readers

/-- What a turn shows to whoever has asked: the answer, the reports that were made, and how the
cursor is seen then. -/
structure Reply where
  answer : Except Refusal Answer
  subject : Option String
  reports : Array Report
  view : Option CursorView

theorem CursorView.of_eq_placed (window : Window) (cursor : Cursor) :
    of window cursor =
      ⟨cursor, cursor.position - window.start, window.placed cursor.position⟩ := by
  simp only [of, EStateM.run, Window.locationAt_eq_placed]
  cases window.placed cursor.position <;> rfl

/-- What was asked was cut off: rules went deeper than was allowed for. -/
def Reply.CutOff (reply : Reply) : Prop :=
  reply.answer = .error (.halted .exhausted)

def Turn.reply (turn : Turn) : Reply where
  answer := turn.answer
  subject := turn.subject
  reports := turn.reports
  view := turn.subject.bind turn.session.view?

namespace Command

/-- The command is for a cursor that is not hidden and concerns none that is. It does not discard
what cursors may need. -/
def plain (hidden : String → Bool) (name : String) : Command → Bool
  | .fork other | .copy other | .newRoot other _ | .commit other | .locate other =>
    !hidden name && !hidden other
  | .discard _ => false
  | _ => !hidden name

/-- The command makes a fork that is hidden, or it is for a hidden cursor and changes none but
hidden ones. It makes no root. -/
def Apart (hidden : String → Bool) (name : String) : Command → Prop
  | .fork fresh => hidden fresh = true
  | .copy other | .commit other => hidden name = true ∧ hidden other = true
  | .newRoot _ _ | .discard _ => False
  | _ => hidden name = true

theorem hidden_eq_false_of_plain {hidden : String → Bool} {name : String} {command : Command}
    (hPlain : command.plain hidden name = true) : hidden name = false := by
  cases command <;> simp_all [plain]

end Command

namespace Session

/-- What was asked and what was shown, one turn after the other. -/
def transcript (grammar : Grammar) (session : Session) :
    List (String × Command) → List ((String × Command) × Reply)
  | [] => []
  | entry :: rest =>
    let turn := session.step grammar entry.1 entry.2
    (entry, turn.reply) :: turn.session.transcript grammar rest

variable {hidden : String → Bool} {session first second : Session} {name : String}
  {cursor : Cursor}

/-- Two sessions in good order over the same stream, with the same cursors but for hidden ones. How
much has been read may differ. -/
structure Kin (hidden : String → Bool) (first second : Session) : Prop where
  alike : first.window.Alike second.window
  orderly : first.Orderly
  orderly' : second.Orderly
  cursor?_eq : ∀ name, hidden name = false → second.cursor? name = first.cursor? name

end Session

/-- Two turns that show the same, at no hidden cursor, and leave windows over the same stream and
the same cursors but for hidden ones. -/
structure Turn.Akin (hidden : String → Bool) (first second : Turn) : Prop where
  answer_eq : second.answer = first.answer
  subject_eq : second.subject = first.subject
  subject_plain : ∀ name, first.subject = some name → hidden name = false
  reports_eq : second.reports = first.reports
  alike : first.session.window.Alike second.session.window
  cursor?_eq : ∀ name, hidden name = false →
    second.session.cursor? name = first.session.cursor? name

namespace Session

variable {hidden : String → Bool} {session first second : Session} {name : String}
  {cursor : Cursor}

namespace Kin

theorem refl (hOrderly : session.Orderly) (hidden : String → Bool) : Kin hidden session session :=
  ⟨.refl _, hOrderly, hOrderly, fun _ _ => rfl⟩

theorem remove (hKin : Kin hidden first second) (name : String) :
    Kin hidden (first.remove name) (second.remove name) where
  alike := hKin.alike
  orderly := hKin.orderly.remove name
  orderly' := hKin.orderly'.remove name
  cursor?_eq other hOther := by
    rw [cursor?_remove, cursor?_remove, hKin.cursor?_eq other hOther]

/-- A cursor that is not hidden is seen the same. -/
theorem view?_eq (hKin : Kin hidden first second) (hName : hidden name = false) :
    second.view? name = first.view? name := by
  have hSame := hKin.cursor?_eq name hName
  rw [view?, view?, hSame]
  cases hCursor : first.cursor? name with
  | none => rfl
  | some cursor =>
    have hPlaced := hKin.alike.placed_eq (hKin.orderly.within name cursor hCursor)
      (hKin.orderly'.within name cursor (hSame.trans hCursor))
    simp only [Option.map_some, CursorView.of_eq_placed, hPlaced, hKin.alike.start_eq]

/-- The readers at a cursor that is the same in both. -/
theorem readers (hKin : Kin hidden first second) (hCursor : first.cursor? name = some cursor)
    (hCursor' : second.cursor? name = some cursor) :
    Readers.Kin ({ window := first.window, cursor }, { window := second.window, cursor }) :=
  ⟨hKin.alike, hKin.orderly.calm, hKin.orderly'.calm, rfl, rfl,
    hKin.orderly.within name cursor hCursor, hKin.orderly'.within name cursor hCursor'⟩

/-- The same cursor is put under the same name. -/
theorem akin_add (hKin : Kin hidden first second) {fresh : String} (hFresh : hidden fresh = false)
    (cursor : Cursor) : (first.add fresh cursor).Akin hidden (second.add fresh cursor) where
  answer_eq := rfl
  subject_eq := rfl
  subject_plain _ hSubject := Option.some.inj hSubject ▸ hFresh
  reports_eq := rfl
  alike := hKin.alike
  cursor?_eq other hOther := by
    rw [add, add, cursor?_insert, cursor?_insert, hKin.cursor?_eq other hOther]

theorem akin_unknown (hKin : Kin hidden first second) :
    first.unknown.Akin hidden second.unknown :=
  ⟨rfl, rfl, by simp [unknown], rfl, hKin.alike, hKin.cursor?_eq⟩

/-- An action that goes the same way at kin. -/
theorem akin_run {α : Type} {action : Reading α} (hKin : Kin hidden first second)
    (hRuns : Coincide (fun _ => False) action action
      ({ window := first.window, cursor }, { window := second.window, cursor })
      (fun value other after => value = other ∧ Readers.Kin after) (fun _ => Readers.Kin))
    (hName : hidden name = false) (answer : α → Answer) :
    (first.run name cursor action answer).Akin hidden (second.run name cursor action answer) := by
  have hSubject (other : String) (hOther : some name = some other) : hidden other = false :=
    Option.some.inj hOther ▸ hName
  have hCursors {after : Readers} (hAfter : Readers.Kin after) (other : String)
      (hOther : hidden other = false) :
      (Session.insert { second with window := after.2.window } name after.2.cursor).cursor? other =
        (Session.insert { first with window := after.1.window } name after.1.cursor).cursor?
          other := by
    rw [cursor?_insert, cursor?_insert, hAfter.cursor_eq]
    split
    · rfl
    · exact hKin.cursor?_eq other hOther
  cases hRuns with
  | returns hFirst hSecond hAfter =>
    obtain ⟨rfl, hAfter⟩ := hAfter
    rw [first.run_of_ok hFirst, second.run_of_ok hSecond]
    exact ⟨rfl, rfl, hSubject, hAfter.reports_eq, hAfter.alike, hCursors hAfter⟩
  | halts hFirst hSecond hAfter =>
    rw [first.run_of_error hFirst, second.run_of_error hSecond]
    exact ⟨rfl, rfl, hSubject, hAfter.reports_eq, hAfter.alike, hCursors hAfter⟩
  | excuses _ hExcused => exact hExcused.elim

end Kin

/-- A turn that is not cut off is none in which the action is. -/
theorem not_cutOff_of_run {α : Type} {action : Reading α} {answer : α → Answer}
    (hEnds : ¬ (session.run name cursor action answer).reply.CutOff) :
    ¬ Grammar.CutOff action { window := session.window, cursor } := by
  intro hCutOff
  obtain ⟨after, hRun⟩ := hCutOff
  apply hEnds
  rw [session.run_of_error hRun]
  rfl

/-- Commands at cursors that are not hidden go the same way, unless a turn is cut off. -/
theorem Kin.akin_perform (hKin : Kin hidden first second) (grammar : Grammar) {command : Command}
    (hPlain : command.plain hidden name = true) (hCursor : first.cursor? name = some cursor)
    (hEnds : ¬ (first.perform grammar name cursor command).reply.CutOff)
    (hEnds' : ¬ (second.perform grammar name cursor command).reply.CutOff) :
    (first.perform grammar name cursor command).Akin hidden
      (second.perform grammar name cursor command) := by
  have hName := Command.hidden_eq_false_of_plain hPlain
  have hCursor' := (hKin.cursor?_eq name hName).trans hCursor
  have hReaders := hKin.readers hCursor hCursor'
  have hLook {α : Type} {action : Reading α} {look : Look α} (hObserves : Observes action look)
      (hDraws : Draws action) (answer : α → Answer) :
      (first.run name cursor action answer).Akin hidden
        (second.run name cursor action answer) :=
    hKin.akin_run ((hObserves.runs_kin hDraws hReaders _).mono
      (fun _ _ _ hAfter => ⟨hAfter.1, hAfter.2.toKin⟩) fun _ _ hAfter => hAfter.toKin) hName answer
  cases command with
  | fork fresh => exact hKin.akin_add (by simp_all [Command.plain]) cursor.fork
  | copy fresh => exact hKin.akin_add (by simp_all [Command.plain]) cursor
  | newRoot fresh traced =>
    simp only [perform, hKin.alike.start_eq]
    exact hKin.akin_add (by simp_all [Command.plain]) _
  | commit into =>
    have hInto : hidden into = false := by simp_all [Command.plain]
    have hRemoved := hKin.remove name
    have hParent' := hRemoved.cursor?_eq into hInto
    simp only [perform, hParent']
    cases hParent : (first.remove name).cursor? into with
    | none => exact hRemoved.akin_unknown
    | some parent =>
      rw [hParent] at hParent'
      apply hRemoved.akin_run
      apply (runs_commit_kin (hRemoved.readers hParent hParent') rfl hReaders.within
        hReaders.within' _).mono
      · exact fun _ _ _ hAfter => ⟨rfl, hAfter.1⟩
      · exact fun _ _ hAfter => hAfter.toKin
      · exact hInto
  | abandon =>
    have hRemoved := hKin.remove name
    exact ⟨rfl, rfl, by simp [perform], rfl, hRemoved.alike, hRemoved.cursor?_eq⟩
  | reclaim =>
    exact hKin.akin_run ((runs_reclaim_kin hReaders _).imp fun _ _ _ hAfter => ⟨rfl, hAfter⟩) hName _
  | peek count => exact hLook (observes_peek count) (draws_peek count) _
  | peekChars count => exact hLook (observes_peekChars count) (draws_peekChars count) _
  | read count => exact hLook (observes_read count) (draws_read count) _
  | readChars count => exact hLook (observes_readChars count) (draws_readChars count) _
  | advance count => exact hLook (observes_advance count) (draws_advance count) _
  | isAtEnd => exact hLook observes_isAtEnd draws_isAtEnd _
  | inspect => exact hKin.akin_run (.pure ⟨rfl, hReaders⟩) hName _
  | locate other =>
    have hOther : hidden other = false := by simp_all [Command.plain]
    have hSecond' := hKin.cursor?_eq other hOther
    simp only [perform, hSecond']
    cases hSecond : first.cursor? other with
    | none => exact hKin.akin_unknown
    | some place =>
      have hWithin := hKin.readers hSecond (hSecond'.trans hSecond)
      apply hKin.akin_run
      apply (runs_locate_kin hReaders hWithin.within hWithin.within' _).mono
      · exact fun _ _ after hAfter => ⟨hAfter.1, hAfter.2.symm ▸ hReaders⟩
      · exact fun _ after hAfter => hAfter.symm ▸ hReaders
      · exact hName
  | parse m =>
    exact hKin.akin_run (grammar.runs_parse_kin m hReaders (not_cutOff_of_run hEnds)
      (not_cutOff_of_run hEnds')) hName _
  | attempt m =>
    exact hKin.akin_run (grammar.runs_attempt_kin m hReaders (not_cutOff_of_run hEnds)
      (not_cutOff_of_run hEnds')) hName _
  | discard count => simp [Command.plain] at hPlain

/-- A command at a cursor that is not hidden shows the same, unless a turn is cut off. -/
theorem Kin.step (hKin : Kin hidden first second) (grammar : Grammar) {command : Command}
    (hPlain : command.plain hidden name = true)
    (hEnds : ¬ (first.step grammar name command).reply.CutOff)
    (hEnds' : ¬ (second.step grammar name command).reply.CutOff) :
    (second.step grammar name command).reply = (first.step grammar name command).reply ∧
      Kin hidden (first.step grammar name command).session
        (second.step grammar name command).session := by
  have hName := Command.hidden_eq_false_of_plain hPlain
  have hCursor' := hKin.cursor?_eq name hName
  have hAkin : (first.step grammar name command).Akin hidden
      (second.step grammar name command) := by
    rw [Session.step, Session.step] at *
    cases hCursor : first.cursor? name with
    | none =>
      rw [hCursor', hCursor]
      exact hKin.akin_unknown
    | some cursor =>
      rw [hCursor] at hCursor' hEnds
      rw [hCursor'] at hEnds' ⊢
      exact hKin.akin_perform grammar hPlain hCursor hEnds hEnds'
  have hNext : Kin hidden (first.step grammar name command).session
      (second.step grammar name command).session :=
    ⟨hAkin.alike, hKin.orderly.step grammar name command, hKin.orderly'.step grammar name command,
      hAkin.cursor?_eq⟩
  refine ⟨?_, hNext⟩
  simp only [Turn.reply, hAkin.answer_eq, hAkin.subject_eq, hAkin.reports_eq, Reply.mk.injEq,
    true_and]
  cases hSubject : (first.step grammar name command).subject with
  | none => rfl
  | some other => exact hNext.view?_eq (hAkin.subject_plain other hSubject)

/-- Hidden cursors are no roots. -/
def Below (hidden : String → Bool) (session : Session) : Prop :=
  ∀ name cursor, hidden name = true → session.cursor? name = some cursor → cursor.depth ≠ 0

/-- A session later on, whose window has only been read into, with the same cursors but for hidden
ones. None of those is a root. -/
structure Beside (hidden : String → Bool) (before after : Session) : Prop where
  draws : before.window.Draws after.window
  cursor?_eq : ∀ name, hidden name = false → after.cursor? name = before.cursor? name
  below : after.Below hidden

namespace Beside

theorem refl (hBelow : session.Below hidden) : Beside hidden session session :=
  ⟨.refl _, fun _ _ => rfl, hBelow⟩

/-- A hidden cursor below the root may be put under its name. -/
theorem insert (hBelow : session.Below hidden) {window : Window}
    (hDraws : session.window.Draws window) (hName : hidden name = true) (hDeep : cursor.depth ≠ 0) :
    Beside hidden session (Session.insert { session with window } name cursor) where
  draws := hDraws
  cursor?_eq other hOther := by
    rw [cursor?_insert, if_neg]
    · rfl
    · rintro rfl
      simp [hName] at hOther
  below other found hOther hFound := by
    rw [cursor?_insert] at hFound
    split at hFound
    · obtain rfl := Option.some.inj hFound
      exact hDeep
    · exact hBelow other found hOther hFound

theorem remove (hBelow : session.Below hidden) (hName : hidden name = true) :
    Beside hidden session (session.remove name) where
  draws := .refl _
  cursor?_eq other hOther := by
    rw [cursor?_remove, if_neg]
    rintro rfl
    simp [hName] at hOther
  below other found hOther hFound := by
    rw [cursor?_remove] at hFound
    split at hFound
    · cases hFound
    · exact hBelow other found hOther hFound

theorem trans {third : Session} (hFirst : Beside hidden first second)
    (hSecond : Beside hidden second third) : Beside hidden first third where
  draws := hFirst.draws.trans hSecond.draws
  cursor?_eq name hName := (hSecond.cursor?_eq name hName).trans (hFirst.cursor?_eq name hName)
  below := hSecond.below

/-- An action at a hidden cursor that only reads into the window. -/
theorem run {α : Type} {action : Reading α} (hBelow : session.Below hidden)
    (hName : hidden name = true) (hDeep : cursor.depth ≠ 0)
    (hAction : Leads action { window := session.window, cursor }
      (fun _ last => session.window.Draws last.window ∧ last.cursor.depth = cursor.depth)
      fun _ last => session.window.Draws last.window ∧ last.cursor.depth = cursor.depth)
    (answer : α → Answer) : Beside hidden session (session.run name cursor action answer).session := by
  obtain ⟨last, ⟨hDraws, hDepth⟩, hSession⟩ := session.exists_run name answer hAction
  rw [hSession]
  exact insert hBelow hDraws hName (hDepth.symm ▸ hDeep)

theorem run_venturing {α : Type} {action : Reading α} (hBelow : session.Below hidden)
    (hName : hidden name = true) (hDeep : cursor.depth ≠ 0)
    (hWithin : cursor.position ≤ session.window.start + session.window.length)
    (hAction : venturing.Kept action) (answer : α → Answer) :
    Beside hidden session (session.run name cursor action answer).session := by
  apply run hBelow hName hDeep
  apply (hAction { window := session.window, cursor } hWithin).mono
  · exact fun _ _ hAfter => ⟨hAfter.draws hDeep, hAfter.depth_eq⟩
  · exact fun _ _ hAfter => ⟨hAfter.draws hDeep, hAfter.depth_eq⟩

end Beside

/-- Below the root a commit leaves the window as it is. -/
theorem leads_commit_deep (fork : Cursor) {reader : Reader} (hDeep : reader.cursor.depth ≠ 0) :
    Leads (commit fork) reader
      (fun _ last => reader.window.Draws last.window ∧ last.cursor.depth = reader.cursor.depth)
      fun _ last => reader.window.Draws last.window ∧ last.cursor.depth = reader.cursor.depth := by
  apply (leads_commit fork reader).mono
  · intro _ last hLast
    obtain ⟨-, ⟨hRoot, -⟩ | ⟨-, rfl⟩⟩ := hLast
    · exact absurd hRoot hDeep
    · exact ⟨.refl _, rfl⟩
  · intro _ last hLast
    obtain ⟨rfl, -⟩ := hLast
    exact ⟨.refl _, rfl⟩

/-- What is done with hidden cursors is seen by no other one. -/
theorem beside_perform (hOrderly : session.Orderly) (hBelow : session.Below hidden)
    (grammar : Grammar) {command : Command} (hApart : command.Apart hidden name)
    (hCursor : session.cursor? name = some cursor) :
    Beside hidden session (session.perform grammar name cursor command).session := by
  have hWithin := hOrderly.within name cursor hCursor
  have hDeep (hName : hidden name = true) : cursor.depth ≠ 0 := hBelow name cursor hName hCursor
  have hVentures {α : Type} {action : Reading α} (hName : hidden name = true)
      (hAction : venturing.Kept action) (answer : α → Answer) :
      Beside hidden session (session.run name cursor action answer).session :=
    .run_venturing hBelow hName (hDeep hName) hWithin hAction answer
  cases command with
  | fork fresh => exact .insert hBelow (.refl _) hApart (Nat.succ_ne_zero _)
  | copy fresh => exact .insert hBelow (.refl _) hApart.2 (hDeep hApart.1)
  | newRoot fresh traced => exact hApart.elim
  | commit into =>
    have hRemoved : Beside hidden session (session.remove name) := .remove hBelow hApart.1
    dsimp only [perform]
    cases hParent : (session.remove name).cursor? into with
    | none => exact hRemoved
    | some parent =>
      have hParent := hRemoved.below into parent hApart.2 hParent
      exact hRemoved.trans
        (.run hRemoved.below hApart.2 hParent (leads_commit_deep cursor hParent) _)
  | abandon => exact .remove hBelow hApart
  | reclaim => exact hVentures hApart ventures_reclaim _
  | peek count => exact hVentures hApart (ventures.peek count) _
  | peekChars count => exact hVentures hApart (ventures.peekChars count) _
  | read count => exact hVentures hApart (ventures.read count) _
  | readChars count =>
    exact hVentures hApart ((observes_readChars count).ventures (draws_readChars count)) _
  | advance count =>
    exact hVentures hApart ((observes_advance count).ventures (draws_advance count)) _
  | isAtEnd => exact hVentures hApart ventures.isAtEnd _
  | inspect => exact hVentures hApart (ventures.kept_pure cursor) _
  | locate other =>
    dsimp only [perform]
    cases session.cursor? other with
    | none => exact .refl hBelow
    | some second => exact hVentures hApart (ventures_locate second.position) _
  | parse m => exact hVentures hApart (grammar.ventures_parse m) _
  | attempt m => exact hVentures hApart (grammar.ventures_attempt m) _
  | discard count => exact hApart.elim

theorem step_apart (hOrderly : session.Orderly) (hBelow : session.Below hidden)
    (grammar : Grammar) {command : Command} (hApart : command.Apart hidden name) :
    Beside hidden session (session.step grammar name command).session := by
  rw [Session.step]
  cases hCursor : session.cursor? name with
  | none => exact .refl hBelow
  | some cursor => exact beside_perform hOrderly hBelow grammar hApart hCursor

/-- Beside kin there are kin. -/
theorem Kin.beside (hKin : Kin hidden first second) {after : Session}
    (hBeside : Beside hidden first after) (hOrderly : after.Orderly) : Kin hidden after second where
  alike := (hKin.alike.symm.of_draws hBeside.draws).symm
  orderly := hOrderly
  orderly' := hKin.orderly'
  cursor?_eq name hName := (hKin.cursor?_eq name hName).trans (hBeside.cursor?_eq name hName).symm

theorem cursor?_run_of_ne {α : Type} {other : String} (hOther : other ≠ name) (session : Session)
    (cursor : Cursor) (action : Reading α) (answer : α → Answer) :
    (session.run name cursor action answer).session.cursor? other = session.cursor? other := by
  rw [run]
  split
  · rw [cursor?_insert, if_neg hOther]
    rfl
  · rw [cursor?_insert, if_neg hOther]
    rfl

/-- A command at a cursor that is not hidden leaves the hidden ones where they are. -/
theorem cursor?_step_of_plain (session : Session) (grammar : Grammar) {command : Command}
    (hPlain : command.plain hidden name = true) {other : String} (hOther : hidden other = true) :
    (session.step grammar name command).session.cursor? other = session.cursor? other := by
  have hNe {plain : String} (hPlain : hidden plain = false) : other ≠ plain := by
    rintro rfl
    simp [hOther] at hPlain
  have hName := hNe (Command.hidden_eq_false_of_plain hPlain)
  have hAdd {fresh : String} (hFresh : hidden fresh = false) (cursor : Cursor) :
      (session.add fresh cursor).session.cursor? other = session.cursor? other := by
    rw [add, cursor?_insert, if_neg (hNe hFresh)]
  have hRemove : (session.remove name).cursor? other = session.cursor? other := by
    rw [cursor?_remove, if_neg hName]
  rw [Session.step]
  cases hCursor : session.cursor? name with
  | none => rfl
  | some cursor =>
    cases command with
    | fork fresh => exact hAdd (by simp_all [Command.plain]) _
    | copy fresh => exact hAdd (by simp_all [Command.plain]) _
    | newRoot fresh traced => exact hAdd (by simp_all [Command.plain]) _
    | commit into =>
      have hInto : hidden into = false := by simp_all [Command.plain]
      dsimp only [perform]
      cases (session.remove name).cursor? into with
      | none => exact hRemove
      | some parent => exact (cursor?_run_of_ne (hNe hInto) _ _ _ _).trans hRemove
    | abandon => exact hRemove
    | locate place =>
      dsimp only [perform]
      cases session.cursor? place with
      | none => rfl
      | some second => exact cursor?_run_of_ne hName _ _ _ _
    | discard count => rfl
    | _ => exact cursor?_run_of_ne hName _ _ _ _

theorem Below.step_plain (hBelow : session.Below hidden) (grammar : Grammar) {command : Command}
    (hPlain : command.plain hidden name = true) :
    (session.step grammar name command).session.Below hidden := by
  intro other cursor hOther hCursor
  rw [session.cursor?_step_of_plain grammar hPlain hOther] at hCursor
  exact hBelow other cursor hOther hCursor

/-- Kin show the same whatever is done, as long as no turn is cut off. -/
theorem Kin.transcript_eq (hKin : Kin hidden first second) (grammar : Grammar)
    {history : List (String × Command)}
    (hPlain : ∀ entry ∈ history, entry.2.plain hidden entry.1 = true)
    (hEnds : ∀ line ∈ first.transcript grammar history, ¬ line.2.CutOff)
    (hEnds' : ∀ line ∈ second.transcript grammar history, ¬ line.2.CutOff) :
    first.transcript grammar history = second.transcript grammar history := by
  induction history generalizing first second with
  | nil => rfl
  | cons entry rest ih =>
    obtain ⟨hReply, hNext⟩ := hKin.step grammar (hPlain entry List.mem_cons_self)
      (hEnds _ List.mem_cons_self) (hEnds' _ List.mem_cons_self)
    rw [transcript, transcript, hReply]
    congr 1
    exact ih hNext (fun entry hMem => hPlain entry (List.mem_cons_of_mem _ hMem))
      (fun line hMem => hEnds line (List.mem_cons_of_mem _ hMem))
      (fun line hMem => hEnds' line (List.mem_cons_of_mem _ hMem))

/-- What is shown at cursors that are not hidden is what is shown without the others, even if much
has been read on one side only before. -/
theorem Kin.transcript_filter (hKin : Kin hidden first second) (hBelow : first.Below hidden)
    (grammar : Grammar) {history : List (String × Command)}
    (hHistory : ∀ entry ∈ history,
      entry.2.plain hidden entry.1 = true ∨ entry.2.Apart hidden entry.1)
    (hEnds : ∀ line ∈ first.transcript grammar history, ¬ line.2.CutOff)
    (hEnds' : ∀ line ∈ second.transcript grammar
      (history.filter fun entry => entry.2.plain hidden entry.1), ¬ line.2.CutOff) :
    (first.transcript grammar history).filter (fun line => line.1.2.plain hidden line.1.1) =
      second.transcript grammar (history.filter fun entry => entry.2.plain hidden entry.1) := by
  induction history generalizing first second with
  | nil => rfl
  | cons entry rest ih =>
    obtain ⟨name, command⟩ := entry
    have hRest (entry) (hMem : entry ∈ rest) := hHistory entry (List.mem_cons_of_mem _ hMem)
    have hLater (line) (hMem) := hEnds line (List.mem_cons_of_mem _ hMem)
    cases hPlain : command.plain hidden name with
    | true =>
      simp only [transcript, List.filter_cons, hPlain, if_true] at hEnds' ⊢
      have hLater' (line) (hMem) := hEnds' line (List.mem_cons_of_mem _ hMem)
      obtain ⟨hReply, hNext⟩ := hKin.step grammar hPlain (hEnds _ List.mem_cons_self)
        (hEnds' _ List.mem_cons_self)
      rw [hReply, ih hNext (hBelow.step_plain grammar hPlain) hRest hLater hLater']
    | false =>
      simp only [transcript, List.filter_cons, hPlain, Bool.false_eq_true, if_false] at hEnds' ⊢
      have hApart : command.Apart hidden name := by
        simpa [hPlain] using hHistory _ List.mem_cons_self
      have hBeside := step_apart hKin.orderly hBelow grammar hApart
      have hNext := hKin.beside hBeside (hKin.orderly.step grammar name command)
      exact ih hNext hBeside.below hRest hLater hEnds'

end Session

end StreamMatch
