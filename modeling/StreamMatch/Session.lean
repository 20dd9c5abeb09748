import StreamMatch.Matcher.Basic

/-!
Any number of named cursors over one window, and the commands that read, fork and commit them in any
order.
-/

namespace StreamMatch

/-- A window with the cursors over it. -/
structure Session where
  window : Window
  cursors : List (String × Cursor)

/-- What can be asked of a cursor. -/
inductive Command where
  /-- A fork of the cursor, under this name. -/
  | fork (name : String)
  /-- A second cursor at the same position and depth. -/
  | copy (name : String)
  /-- A new root at the start of the window. It is traced only if that is asked for: nothing is
  inherited from another cursor. -/
  | newRoot (name : String) (traced : Bool)
  /-- Commits the cursor into another one. The cursor is gone after that, whatever comes of it. -/
  | commit (into : String)
  | abandon
  | reclaim
  | peek (count : Nat)
  | peekChars (count : Nat)
  | read (count : Nat)
  | readChars (count : Nat)
  | advance (count : Nat)
  | isAtEnd
  /-- The cursor itself. -/
  | inspect
  /-- The locations of the cursor and of another one. -/
  | locate (other : String)
  | parse (m : Matcher)
  | attempt (m : Matcher)
  /-- Discards bytes from the window, whatever the cursors need. -/
  | discard (count : Nat)

/-- What a command returns. -/
inductive Answer where
  | nothing
  | bytes (bytes : List UInt8)
  | decoded (decoded : Decoded)
  | chars (chars : List Char)
  | count (count : Nat)
  | flag (value : Bool)
  | cursor (cursor : Cursor)
  | locations (first second : Location)
  | result (result : Option Match)

/-- Why a command returns nothing. -/
inductive Refusal where
  | halted (halt : Halt)
  /-- There is no cursor of that name, or none any more. -/
  | noCursor
deriving DecidableEq, Repr

/-- The outcome of a command. -/
structure Turn where
  answer : Except Refusal Answer
  /-- The cursor that the command acted on, if it is still there. -/
  subject : Option String
  /-- The reports made meanwhile. -/
  reports : Array Report := #[]
  session : Session

/-- A cursor as it is seen from outside. -/
structure CursorView where
  cursor : Cursor
  /-- The distance from the start of the window; zero for a cursor that lies before it. -/
  offset : Nat
  location : Except Fault Location

namespace CursorView

/-- A cursor over a window. -/
def of (window : Window) (cursor : Cursor) : CursorView where
  cursor
  offset := cursor.position - window.start
  location :=
    match (Window.locationAt cursor.position).run window with
    | .ok location _ => .ok location
    | .error fault _ => .error fault

end CursorView

namespace Session

/-- A session with one cursor, at the start of a source. -/
def start (config : Config) (source : Source) (name : String) (traced : Bool) : Session where
  window := .ofSource source config
  cursors := [(name, { position := 0, traced })]

/-- The cursor of that name. -/
def cursor? (session : Session) (name : String) : Option Cursor :=
  session.cursors.lookup name

/-- Removes the cursor of that name. -/
def remove (session : Session) (name : String) : Session :=
  { session with cursors := session.cursors.filter (·.1 != name) }

/-- Gives a cursor that name, in place of the one that had it. -/
def insert (session : Session) (name : String) (cursor : Cursor) : Session :=
  { session with cursors := (name, cursor) :: (session.remove name).cursors }

/-- The cursor of that name as it is seen from outside. -/
def view? (session : Session) (name : String) : Option CursorView :=
  (session.cursor? name).map (.of session.window)

/-- The outcome of a command that names a cursor which is not there. -/
def unknown (session : Session) : Turn :=
  { answer := .error .noCursor, subject := none, session }

/-- Runs an action at a cursor, which keeps the place that it has afterwards. -/
def run {α : Type} (session : Session) (name : String) (cursor : Cursor) (action : Reading α)
    (answer : α → Answer) : Turn :=
  match action { window := session.window, cursor } with
  | .ok value after =>
    { answer := .ok (answer value), subject := some name, reports := after.reports
      session := { session with window := after.window }.insert name after.cursor }
  | .error halt after =>
    { answer := .error (.halted halt), subject := some name, reports := after.reports
      session := { session with window := after.window }.insert name after.cursor }

/-- Adds a cursor. -/
def add (session : Session) (name : String) (cursor : Cursor) : Turn :=
  { answer := .ok .nothing, subject := some name, session := session.insert name cursor }

/-- Carries out a command for a cursor. -/
def perform (grammar : Grammar) (session : Session) (name : String) (cursor : Cursor) :
    Command → Turn
  | .fork fresh => session.add fresh cursor.fork
  | .copy fresh => session.add fresh cursor
  | .newRoot fresh traced => session.add fresh { position := session.window.start, traced }
  | .commit into =>
    let session := session.remove name
    match session.cursor? into with
    | none => session.unknown
    | some parent => session.run into parent (Reading.commit cursor) fun _ => .nothing
  | .abandon => { answer := .ok .nothing, subject := none, session := session.remove name }
  | .reclaim => session.run name cursor Reading.reclaim fun _ => .nothing
  | .peek count => session.run name cursor (Reading.peek count) .bytes
  | .peekChars count => session.run name cursor (Reading.peekChars count) .decoded
  | .read count => session.run name cursor (Reading.read count) .bytes
  | .readChars count => session.run name cursor (Reading.readChars count) .chars
  | .advance count => session.run name cursor (Reading.advance count) .count
  | .isAtEnd => session.run name cursor Reading.isAtEnd .flag
  | .inspect => session.run name cursor (return cursor) .cursor
  | .locate other =>
    match session.cursor? other with
    | none => session.unknown
    | some second =>
      session.run name cursor
        (return (← Reading.location, ← Reading.onWindow (Window.locationAt second.position)))
        fun locations => .locations locations.1 locations.2
  | .parse m => session.run name cursor (grammar.parse m) .result
  | .attempt m => session.run name cursor (grammar.attempt m) .result
  | .discard count =>
    { answer := .ok .nothing, subject := some name
      session := { session with window := session.window.discard count } }

/-- Carries out a command for the cursor of that name. -/
def step (grammar : Grammar) (session : Session) (name : String) (command : Command) : Turn :=
  match session.cursor? name with
  | none => session.unknown
  | some cursor => session.perform grammar name cursor command

end Session

end StreamMatch
