import StreamMatch.Proofs.Steadiness
import StreamMatch.Session

/-!
Cursors over a whole stream. A ledger knows the stream, where the window begins, and where each
cursor stands: there is no buffer in it, nothing is read into it and nothing is dropped from it. A
session goes through any sequence of moves as the ledger does (`Session.replay_start`), whatever
pieces its source delivers in, as long as no read fails for good.
-/

namespace StreamMatch

/-- The commands by which cursors are made, moved, committed and read at. -/
inductive Move where
  | fork (name : String)
  | copy (name : String)
  | newRoot (name : String) (traced : Bool)
  | commit (into : String)
  | abandon
  | reclaim
  | peek (count : Nat)
  | peekChars (count : Nat)
  | read (count : Nat)
  | readChars (count : Nat)
  | advance (count : Nat)
  | isAtEnd
  | inspect

/-- The command of a session that this move is. -/
def Move.command : Move → Command
  | .fork name => .fork name
  | .copy name => .copy name
  | .newRoot name traced => .newRoot name traced
  | .commit into => .commit into
  | .abandon => .abandon
  | .reclaim => .reclaim
  | .peek count => .peek count
  | .peekChars count => .peekChars count
  | .read count => .read count
  | .readChars count => .readChars count
  | .advance count => .advance count
  | .isAtEnd => .isAtEnd
  | .inspect => .inspect

/-- A stream, the offset before which nothing can be read any more, and cursors by their names. -/
structure Ledger where
  stream : List UInt8
  policy : DecodePolicy
  start : Nat
  cursors : String → Option Cursor

namespace Ledger

/-- What a command returns. -/
abbrev Reply := Except Refusal Answer

/-- One cursor, at the start of the stream. -/
def opened (stream : List UInt8) (policy : DecodePolicy) (name : String) (traced : Bool) :
    Ledger where
  stream
  policy
  start := 0
  cursors other := if other = name then some { position := 0, traced } else none

/-- Gives a cursor that name, in place of the one that had it. -/
def set (ledger : Ledger) (name : String) (cursor : Cursor) : Ledger :=
  { ledger with cursors := fun other => if other = name then some cursor else ledger.cursors other }

def remove (ledger : Ledger) (name : String) : Ledger :=
  { ledger with cursors := fun other => if other = name then none else ledger.cursors other }

/-- A cursor before the window is told so, and nothing changes. Any other one finds out what there
is in the stream from its position on, and moves as far as that says. -/
def look {α : Type} (ledger : Ledger) (name : String) (cursor : Cursor) (look : Look α)
    (answer : α → Answer) : Reply × Ledger :=
  if cursor.position < ledger.start then
    (.error (.halted (.fault (.reclaimed cursor.position ledger.start))), ledger)
  else
    match look ledger.policy cursor.position (ledger.stream.drop cursor.position) with
    | .ok (value, moved) =>
      (.ok (answer value), ledger.set name { cursor with position := cursor.position + moved })
    | .error fault => (.error (.halted (.fault fault)), ledger)

/-- The window begins at this offset from now on, unless it has gone past it. -/
def advanceTo (ledger : Ledger) (offset : Nat) : Reply × Ledger :=
  if offset < ledger.start then
    (.error (.halted (.fault (.reclaimed offset ledger.start))), ledger)
  else (.ok .nothing, { ledger with start := offset })

/-- A commit to a cursor that is not one generation above changes nothing. To a root it makes the
window begin where the root moves to. -/
def commit (ledger : Ledger) (child : Cursor) (into : String) (parent : Cursor) : Reply × Ledger :=
  let moved := { parent with position := child.position }
  if child.depth ≠ parent.depth + 1 then (.error (.halted .misplaced), ledger)
  else if parent.isRoot then
    match ledger.advanceTo child.position with
    | (.ok answer, ledger) => (.ok answer, ledger.set into moved)
    | (.error refusal, ledger) => (.error refusal, ledger)
  else (.ok .nothing, ledger.set into moved)

/-- Makes a move with a cursor. -/
def perform (ledger : Ledger) (name : String) (cursor : Cursor) : Move → Reply × Ledger
  | .fork fresh => (.ok .nothing, ledger.set fresh cursor.fork)
  | .copy fresh => (.ok .nothing, ledger.set fresh cursor)
  | .newRoot fresh traced => (.ok .nothing, ledger.set fresh { position := ledger.start, traced })
  | .commit into =>
    match (ledger.remove name).cursors into with
    | none => (.error .noCursor, ledger.remove name)
    | some parent => (ledger.remove name).commit cursor into parent
  | .abandon => (.ok .nothing, ledger.remove name)
  | .reclaim => if cursor.isRoot then ledger.advanceTo cursor.position else (.ok .nothing, ledger)
  | .peek count => ledger.look name cursor (fun _ _ rest => .ok (rest.take count, 0)) .bytes
  | .peekChars count =>
    ledger.look name cursor
      (fun policy offset rest => (Utf8.decode policy offset count rest).map (·, 0)) .decoded
  | .read count =>
    ledger.look name cursor
      (fun _ _ rest => .ok (rest.take count, (rest.take count).length)) .bytes
  | .readChars count =>
    ledger.look name cursor
      (fun policy offset rest => (Utf8.decode policy offset count rest).map fun decoded =>
        (decoded.chars, decoded.length)) .chars
  | .advance count =>
    ledger.look name cursor
      (fun _ _ rest => .ok ((rest.take count).length, (rest.take count).length)) .count
  | .isAtEnd => ledger.look name cursor (fun _ _ rest => .ok (rest.isEmpty, 0)) .flag
  | .inspect => (.ok (.cursor cursor), ledger)

/-- Makes a move with the cursor of that name. -/
def step (ledger : Ledger) (name : String) (move : Move) : Reply × Ledger :=
  match ledger.cursors name with
  | none => (.error .noCursor, ledger)
  | some cursor => ledger.perform name cursor move

/-- Makes moves one after the other: all replies, and the ledger after them. -/
def replay (ledger : Ledger) : List (String × Move) → List Reply × Ledger
  | [] => ([], ledger)
  | (name, move) :: rest =>
    let (reply, next) := ledger.step name move
    let (replies, last) := next.replay rest
    (reply :: replies, last)

end Ledger

/-- Makes moves one after the other: all replies, and the session after them. -/
def Session.replay (grammar : Grammar) (session : Session) :
    List (String × Move) → List Ledger.Reply × Session
  | [] => ([], session)
  | (name, move) :: rest =>
    let turn := session.step grammar name move.command
    let (replies, last) := turn.session.replay grammar rest
    (turn.answer :: replies, last)

namespace Session

theorem lookup_cons_eq_ite (key other : String) (cursor : Cursor) (rest : List (String × Cursor)) :
    ((key, cursor) :: rest).lookup other =
      if other = key then some cursor else rest.lookup other := by
  rw [List.lookup_cons]
  by_cases hOther : other = key
  · simp [hOther]
  · simp [hOther, beq_false_of_ne hOther]

theorem cursor?_remove (session : Session) (name other : String) :
    (session.remove name).cursor? other = if other = name then none else session.cursor? other := by
  simp only [cursor?, remove]
  induction session.cursors with
  | nil => simp
  | cons entry rest ih =>
    obtain ⟨key, cursor⟩ := entry
    rw [List.filter_cons]
    by_cases hKey : key = name
    · rw [if_neg (by simpa using hKey), ih, lookup_cons_eq_ite, hKey]
      split <;> rfl
    · rw [if_pos (by simpa using hKey), lookup_cons_eq_ite, lookup_cons_eq_ite, ih]
      by_cases hOther : other = key
      · simp [hOther, hKey]
      · simp [hOther]

theorem cursor?_insert (session : Session) (name other : String) (cursor : Cursor) :
    (session.insert name cursor).cursor? other =
      if other = name then some cursor else session.cursor? other := by
  have hRemove := session.cursor?_remove name other
  simp only [cursor?, insert, lookup_cons_eq_ite] at hRemove ⊢
  rw [hRemove]
  split <;> rfl

end Session

/-- The window is one over the stream of the ledger, and begins where the ledger says. -/
structure Ledger.Backs (ledger : Ledger) (window : Window) : Prop where
  lies_over : window.Over ledger.stream
  calm : window.source.Calm
  policy_eq : window.config.policy = ledger.policy
  start_eq : window.start = ledger.start

/-- The session is where the ledger is, and no cursor is ahead of what has been read. -/
structure Session.Follows (session : Session) (ledger : Ledger) : Prop where
  backs : ledger.Backs session.window
  cursors_eq : ∀ name, session.cursor? name = ledger.cursors name
  delivered : ∀ name cursor, ledger.cursors name = some cursor →
    cursor.position ≤ session.window.start + session.window.length

namespace Ledger

@[simp]
theorem stream_look {α : Type} (ledger : Ledger) (name : String) (cursor : Cursor) (look : Look α)
    (answer : α → Answer) : (ledger.look name cursor look answer).2.stream = ledger.stream := by
  rw [Ledger.look]
  split
  · rfl
  · split <;> rfl

@[simp]
theorem stream_advanceTo (ledger : Ledger) (offset : Nat) :
    (ledger.advanceTo offset).2.stream = ledger.stream := by
  rw [advanceTo]
  split <;> rfl

@[simp]
theorem stream_commit (ledger : Ledger) (child : Cursor) (into : String) (parent : Cursor) :
    (ledger.commit child into parent).2.stream = ledger.stream := by
  simp only [commit, advanceTo]
  by_cases hDepth : child.depth ≠ parent.depth + 1
  · rw [if_pos hDepth]
  · by_cases hStale : child.position < ledger.start
    · rw [if_neg hDepth, if_pos hStale]
      split <;> rfl
    · rw [if_neg hDepth, if_neg hStale]
      split <;> rfl

/-- No move changes the stream. -/
theorem stream_step (ledger : Ledger) (name : String) (move : Move) :
    (ledger.step name move).2.stream = ledger.stream := by
  rw [step]
  cases ledger.cursors name with
  | none => rfl
  | some cursor =>
    cases move with
    | fork _ => rfl
    | copy _ => rfl
    | newRoot _ _ => rfl
    | abandon => rfl
    | commit into =>
      simp only [perform]
      split
      · rfl
      · exact (ledger.remove name).stream_commit cursor into _
    | reclaim =>
      simp only [perform]
      split
      · exact ledger.stream_advanceTo cursor.position
      · rfl
    | _ => simp [perform]

theorem stream_replay (ledger : Ledger) (moves : List (String × Move)) :
    (ledger.replay moves).2.stream = ledger.stream := by
  induction moves generalizing ledger with
  | nil => rfl
  | cons entry rest ih => exact (ih _).trans (ledger.stream_step entry.1 entry.2)

theorem set_eq_self {ledger : Ledger} {name : String} {cursor : Cursor}
    (hCursor : ledger.cursors name = some cursor) : ledger.set name cursor = ledger := by
  have hSame : (fun other => if other = name then some cursor else ledger.cursors other) =
      ledger.cursors := by
    funext other
    split
    · next hOther => rw [hOther, hCursor]
    · rfl
  rw [set, hSame]

theorem Backs.of_continues {ledger : Ledger} {window later : Window} (hBacks : ledger.Backs window)
    (hLater : window.Continues later) : ledger.Backs later where
  lies_over := hLater.lies_over hBacks.lies_over
  calm := hLater.calm hBacks.calm
  policy_eq := by rw [hLater.config_eq, hBacks.policy_eq]
  start_eq := hLater.start_eq.trans hBacks.start_eq

end Ledger

namespace Session.Follows

variable {session : Session} {ledger : Ledger}

/-- A cursor that lies in what has been read can be added on both sides. -/
theorem insert (hFollows : session.Follows ledger) (name : String) (cursor : Cursor)
    (hDelivered : cursor.position ≤ session.window.start + session.window.length) :
    (session.insert name cursor).Follows (ledger.set name cursor) where
  backs := ⟨hFollows.backs.lies_over, hFollows.backs.calm, hFollows.backs.policy_eq,
    hFollows.backs.start_eq⟩
  cursors_eq other := by
    rw [cursor?_insert, hFollows.cursors_eq]
    rfl
  delivered other found hFound := by
    simp only [Ledger.set] at hFound
    split at hFound
    · obtain rfl := Option.some.inj hFound
      exact hDelivered
    · exact hFollows.delivered other found hFound

theorem remove (hFollows : session.Follows ledger) (name : String) :
    (session.remove name).Follows (ledger.remove name) where
  backs := ⟨hFollows.backs.lies_over, hFollows.backs.calm, hFollows.backs.policy_eq,
    hFollows.backs.start_eq⟩
  cursors_eq other := by
    rw [cursor?_remove, hFollows.cursors_eq]
    rfl
  delivered other found hFound := by
    simp only [Ledger.remove] at hFound
    split at hFound
    · cases hFound
    · exact hFollows.delivered other found hFound

/-- A cursor that stays where it is can be put back in its place. -/
theorem insert_same (hFollows : session.Follows ledger) {name : String} {cursor : Cursor}
    (hCursor : ledger.cursors name = some cursor) : (session.insert name cursor).Follows ledger := by
  have hInsert := hFollows.insert name cursor (hFollows.delivered name cursor hCursor)
  rwa [Ledger.set_eq_self hCursor] at hInsert

/-- Reading on leaves a session where the ledger is. -/
theorem of_continues (hFollows : session.Follows ledger) {window : Window}
    (hWindow : session.window.Continues window) :
    Session.Follows { session with window } ledger where
  backs := hFollows.backs.of_continues hWindow
  cursors_eq := hFollows.cursors_eq
  delivered name cursor hCursor := by
    have hBefore := hFollows.delivered name cursor hCursor
    have hStart := hWindow.start_eq
    have hLength := hWindow.length_le
    dsimp only
    omega

/-- A discard up to what has been read makes the window begin there. -/
theorem discard (hFollows : session.Follows ledger) {offset : Nat} (hStart : ledger.start ≤ offset)
    (hDelivered : offset ≤ session.window.start + session.window.length) :
    Session.Follows { session with
      window := session.window.discard (offset - session.window.start) }
      { ledger with start := offset } := by
  obtain ⟨hConfig, hSource, -⟩ :=
    session.window.rest_discard (offset - session.window.start)
  have hSame := hFollows.backs.start_eq
  have hMin : min (offset - session.window.start) session.window.length =
      offset - session.window.start := Nat.min_eq_left (by omega)
  refine ⟨⟨hFollows.backs.lies_over.discard _, ?_, ?_, ?_⟩, hFollows.cursors_eq, ?_⟩
  · exact hSource.symm ▸ hFollows.backs.calm
  · exact hConfig.symm ▸ hFollows.backs.policy_eq
  · dsimp only
    rw [Window.start_discard, hMin]
    omega
  · intro name cursor hCursor
    rw [Window.start_add_length_discard]
    exact hFollows.delivered name cursor hCursor

/-- What a cursor finds out when it reads is what the ledger says. -/
theorem run_observes {α : Type} {action : Reading α} {look : Look α}
    (hFollows : session.Follows ledger) {name : String} {cursor : Cursor}
    (hCursor : ledger.cursors name = some cursor) (hObserves : Reading.Observes action look)
    (answer : α → Answer) :
    (session.run name cursor action answer).answer = (ledger.look name cursor look answer).1 ∧
      (session.run name cursor action answer).session.Follows
        (ledger.look name cursor look answer).2 := by
  have hBacks := hFollows.backs
  have hObserved := hObserves { window := session.window, cursor } ledger.stream hBacks.lies_over
  simp only [hBacks.policy_eq, hBacks.start_eq] at hObserved
  have hDelivered := hFollows.delivered name cursor hCursor
  rw [Session.run, Ledger.look]
  unfold Leads at hObserved
  split at hObserved
  · next value after hRun =>
    obtain ⟨window, moved, rfl, hWindow, hStart, hLook, hEnd⟩ := hObserved
    rw [hRun, if_neg (Nat.not_lt.2 hStart), hLook]
    refine ⟨rfl, (hFollows.of_continues hWindow).insert name _ ?_⟩
    have hSame := hWindow.start_eq
    have hLength := hWindow.length_le
    simp only [Reader.further] at hSame hLength ⊢
    omega
  · next halt after hRun =>
    obtain ⟨window, fault, rfl, rfl, hWindow, hCases⟩ := hObserved
    rw [hRun]
    have hKept : (Session.insert { session with window } name cursor).Follows ledger := by
      exact (hFollows.of_continues hWindow).insert_same hCursor
    rcases hCases with ⟨hStale, -, rfl⟩ | ⟨hStart, hCalm | hLook⟩
    · rw [if_pos hStale]
      exact ⟨rfl, hKept⟩
    · exact absurd hBacks.calm hCalm
    · rw [if_neg (Nat.not_lt.2 hStart), hLook]
      exact ⟨rfl, hKept⟩

/-- A root that reclaims makes the window begin where it stands. -/
theorem run_reclaim (hFollows : session.Follows ledger) {name : String} {cursor : Cursor}
    (hCursor : ledger.cursors name = some cursor) :
    let turn := session.run name cursor Reading.reclaim fun _ => .nothing
    let next := if cursor.isRoot then ledger.advanceTo cursor.position else (.ok .nothing, ledger)
    turn.answer = next.1 ∧ turn.session.Follows next.2 := by
  have hReclaim := Reading.leads_reclaim { window := session.window, cursor }
  have hDelivered := hFollows.delivered name cursor hCursor
  simp only [hFollows.backs.start_eq] at hReclaim
  simp only [Session.run, Ledger.advanceTo, Cursor.isRoot, beq_iff_eq]
  unfold Leads at hReclaim
  split at hReclaim
  · next value after hRun =>
    rw [hRun]
    rcases hReclaim with ⟨hRoot, hStart, rfl⟩ | ⟨hRoot, rfl⟩
    · rw [if_pos hRoot, if_neg (Nat.not_lt.2 hStart)]
      have hNext := (hFollows.discard hStart hDelivered).insert_same hCursor
      rw [hFollows.backs.start_eq] at hNext
      exact ⟨rfl, hNext⟩
    · rw [if_neg hRoot]
      exact ⟨rfl, hFollows.insert_same hCursor⟩
  · next halt after hRun =>
    obtain ⟨rfl, hRoot, hStale, rfl⟩ := hReclaim
    rw [hRun, if_pos hRoot, if_pos hStale]
    exact ⟨rfl, hFollows.insert_same hCursor⟩

/-- A commit moves the cursor that is committed to, and the window with it if that is a root. -/
theorem run_commit (hFollows : session.Follows ledger) {child parent : Cursor} {into : String}
    (hParent : ledger.cursors into = some parent)
    (hChild : child.position ≤ session.window.start + session.window.length) :
    let turn := session.run into parent (Reading.commit child) fun _ => .nothing
    let next := ledger.commit child into parent
    turn.answer = next.1 ∧ turn.session.Follows next.2 := by
  have hCommit := Reading.leads_commit child { window := session.window, cursor := parent }
  simp only [hFollows.backs.start_eq] at hCommit
  simp only [Session.run, Ledger.commit, Ledger.advanceTo, Cursor.isRoot, beq_iff_eq]
  unfold Leads at hCommit
  split at hCommit
  · next value after hRun =>
    rw [hRun]
    obtain ⟨hDepth, ⟨hRoot, hStart, rfl⟩ | ⟨hRoot, rfl⟩⟩ := hCommit
    · rw [if_neg (not_not_intro hDepth), if_pos hRoot, if_neg (Nat.not_lt.2 hStart)]
      have hMoved := hChild
      rw [← Window.start_add_length_discard _ (child.position - session.window.start)] at hMoved
      have hNext := (hFollows.discard hStart hChild).insert into
        { parent with position := child.position } hMoved
      rw [hFollows.backs.start_eq] at hNext
      exact ⟨rfl, hNext⟩
    · rw [if_neg (not_not_intro hDepth), if_neg hRoot]
      exact ⟨rfl, hFollows.insert into _ hChild⟩
  · next halt after hRun =>
    obtain ⟨rfl, ⟨hDepth, rfl⟩ | ⟨hDepth, hRoot, hStale, rfl⟩⟩ := hCommit
    · rw [hRun, if_pos hDepth]
      exact ⟨rfl, hFollows.insert_same hParent⟩
    · rw [hRun, if_neg (not_not_intro hDepth), if_pos hRoot, if_pos hStale]
      exact ⟨rfl, hFollows.insert_same hParent⟩

theorem perform (hFollows : session.Follows ledger) (grammar : Grammar) {name : String}
    {cursor : Cursor} (hCursor : ledger.cursors name = some cursor) (move : Move) :
    (session.perform grammar name cursor move.command).answer =
        (ledger.perform name cursor move).1 ∧
      (session.perform grammar name cursor move.command).session.Follows
        (ledger.perform name cursor move).2 := by
  have hDelivered := hFollows.delivered name cursor hCursor
  cases move with
  | fork fresh => exact ⟨rfl, hFollows.insert fresh cursor.fork hDelivered⟩
  | copy fresh => exact ⟨rfl, hFollows.insert fresh cursor hDelivered⟩
  | newRoot fresh traced =>
    have hNew := hFollows.insert fresh { position := session.window.start, traced }
      (Nat.le_add_right _ _)
    refine ⟨rfl, ?_⟩
    rw [Ledger.perform, ← hFollows.backs.start_eq]
    exact hNew
  | commit into =>
    have hRemoved := hFollows.remove name
    simp only [Move.command, Session.perform, Ledger.perform, hRemoved.cursors_eq]
    cases hParent : (ledger.remove name).cursors into with
    | none => exact ⟨rfl, hRemoved⟩
    | some parent => exact hRemoved.run_commit hParent hDelivered
  | abandon => exact ⟨rfl, hFollows.remove name⟩
  | reclaim => exact hFollows.run_reclaim hCursor
  | peek count => exact hFollows.run_observes hCursor (Reading.observes_peek count) _
  | peekChars count => exact hFollows.run_observes hCursor (Reading.observes_peekChars count) _
  | read count => exact hFollows.run_observes hCursor (Reading.observes_read count) _
  | readChars count => exact hFollows.run_observes hCursor (Reading.observes_readChars count) _
  | advance count => exact hFollows.run_observes hCursor (Reading.observes_advance count) _
  | isAtEnd => exact hFollows.run_observes hCursor Reading.observes_isAtEnd _
  | inspect => exact ⟨rfl, hFollows.insert_same hCursor⟩

/-- A move of a session that is where the ledger is gets the reply of the ledger, and leaves the
session where the ledger is then. -/
theorem step (hFollows : session.Follows ledger) (grammar : Grammar) (name : String) (move : Move) :
    (session.step grammar name move.command).answer = (ledger.step name move).1 ∧
      (session.step grammar name move.command).session.Follows (ledger.step name move).2 := by
  rw [Session.step, Ledger.step, hFollows.cursors_eq]
  cases hCursor : ledger.cursors name with
  | none => exact ⟨rfl, hFollows⟩
  | some cursor => exact hFollows.perform grammar hCursor move

/-- So it is for moves one after the other. -/
theorem replay (hFollows : session.Follows ledger) (grammar : Grammar)
    (moves : List (String × Move)) :
    (session.replay grammar moves).1 = (ledger.replay moves).1 ∧
      (session.replay grammar moves).2.Follows (ledger.replay moves).2 := by
  induction moves generalizing session ledger with
  | nil => exact ⟨rfl, hFollows⟩
  | cons entry rest ih =>
    obtain ⟨name, move⟩ := entry
    obtain ⟨hReply, hNext⟩ := hFollows.step grammar name move
    obtain ⟨hReplies, hLast⟩ := ih hNext
    exact ⟨congr (congrArg _ hReply) hReplies, hLast⟩

end Session.Follows

namespace Session

theorem follows_start (config : Config) {source : Source} (hCalm : source.Calm) (name : String)
    (traced : Bool) :
    (start config source name traced).Follows
      (.opened source.content config.policy name traced) where
  backs := ⟨Window.over_content config source, hCalm, rfl, rfl⟩
  cursors_eq other := by
    rw [cursor?, start, lookup_cons_eq_ite]
    rfl
  delivered other cursor hCursor := by
    simp only [Ledger.opened] at hCursor
    split at hCursor
    · obtain rfl := Option.some.inj hCursor
      exact Nat.zero_le _
    · cases hCursor

/-- Whatever is done with any number of cursors over a source that does not fail, every reply, every
cursor and the start of the window are as the ledger of the whole stream has them; and no cursor goes
past the end of the stream. -/
theorem replay_start (grammar : Grammar) (config : Config) {source : Source} (hCalm : source.Calm)
    (name : String) (traced : Bool) (moves : List (String × Move)) :
    let run := (start config source name traced).replay grammar moves
    let ledger := Ledger.opened source.content config.policy name traced
    run.1 = (ledger.replay moves).1 ∧
      run.2.window.start = (ledger.replay moves).2.start ∧
      ∀ other, run.2.cursor? other = (ledger.replay moves).2.cursors other ∧
        ∀ cursor, run.2.cursor? other = some cursor → cursor.position ≤ source.content.length := by
  intro run ledger
  obtain ⟨hReplies, hFollows⟩ := (follows_start config hCalm name traced).replay grammar moves
  have hStream : (ledger.replay moves).2.stream = source.content := ledger.stream_replay moves
  refine ⟨hReplies, hFollows.backs.start_eq, fun other => ⟨hFollows.cursors_eq other, ?_⟩⟩
  intro cursor hCursor
  rw [hFollows.cursors_eq] at hCursor
  have hEnd := hFollows.backs.lies_over.delivered_le
  have hDelivered := hFollows.delivered other cursor hCursor
  rw [← hStream]
  exact Nat.le_trans hDelivered hEnd

/-- Two letters are read at a fork and committed, over an interrupted source that delivers them one
by one; a copy of the root that was made before lies before the window then. -/
theorem replay_start_interrupted :
    let run := (start default ⟨[.data [97], .failure .interrupted "", .data [98]]⟩ "root" false).replay {}
      [("root", .fork "child"), ("root", .copy "old"), ("child", .read 5), ("child", .commit "root"),
        ("old", .peek 1), ("root", .isAtEnd)]
    run.1 = [.ok .nothing, .ok .nothing, .ok (.bytes [97, 98]), .ok .nothing,
        .error (.halted (.fault (.reclaimed 0 2))), .ok (.flag true)] ∧
      run.2.window.start = 2 := by
  have hCalm : Source.Calm ⟨[.data [97], .failure .interrupted "", .data [98]]⟩ := by
    intro kind message hMem
    simp only [List.mem_cons, List.not_mem_nil, or_false, reduceCtorEq, false_or,
      Piece.failure.injEq] at hMem
    exact hMem.1
  have hRun := replay_start {} default hCalm "root" false
    [("root", .fork "child"), ("root", .copy "old"), ("child", .read 5), ("child", .commit "root"),
      ("old", .peek 1), ("root", .isAtEnd)]
  exact ⟨hRun.1.trans rfl, hRun.2.1.trans rfl⟩

end Session

end StreamMatch
