import StreamMatch.Proofs.Steadiness

/-!
Matchers that are programs of their own. Such a program is given a cursor and acts through it alone:
it reads, makes forks and copies, commits them wherever it likes, runs other matchers, and catches
the faults of all this (`Script`). It may break every rule that a matcher should keep, for example
move its cursor and then not match. Still it is as steady as the matchers of the library are
(`Library.steady_call`), since no cursor that it can make is less deep than the one it was given.
-/

namespace StreamMatch

/-- What a script can ask of a cursor. -/
inductive Request where
  | peek (count : Nat)
  | peekChars (count : Nat)
  | read (count : Nat)
  | readChars (count : Nat)
  | advance (count : Nat)
  | isAtEnd
  | location
  | reclaim
  /-- The cursor itself. -/
  | inspect
  /-- The distance of the cursor from the start of the window. -/
  | offset
  /-- Runs a matcher at the cursor itself. -/
  | attempt (m : Matcher)
  /-- Runs a matcher on a fork of the cursor. -/
  | parse (m : Matcher)

namespace Request

/-- What comes back if nothing fails. -/
def Answer : Request → Type
  | peek _ => List UInt8
  | peekChars _ => Decoded
  | read _ => List UInt8
  | readChars _ => List Char
  | advance _ => Nat
  | isAtEnd => Bool
  | location => Location
  | reclaim => Unit
  | inspect => Cursor
  | offset => Nat
  | attempt _ => Option Match
  | parse _ => Option Match

/-- Carries out a request, where `evaluate` runs matchers. -/
def action (evaluate : Matcher → Attempt) : (request : Request) → Reading request.Answer
  | .peek count => Reading.peek count
  | .peekChars count => Reading.peekChars count
  | .read count => Reading.read count
  | .readChars count => Reading.readChars count
  | .advance count => Reading.advance count
  | .isAtEnd => Reading.isAtEnd
  | .location => Reading.location
  | .reclaim => Reading.reclaim
  | .inspect => do return (← get).cursor
  | .offset => do return (← get).cursor.position - (← get).window.start
  | .attempt m => evaluate m
  | .parse m => (evaluate m).keep

end Request

/-- A cursor that a script has at hand when it has made so many. -/
inductive Handle (made : Nat) where
  | given
  | own (index : Fin made)

/-- A program that acts at a cursor and returns a match or none. A fault is handed to the program,
which may go on all the same. Nothing keeps it from using a cursor again that it has committed. -/
inductive Script : (made : Nat) → Type where
  | finish {made : Nat} (result : Option Match) : Script made
  | fail {made : Nat} (fault : Fault) : Script made
  | fork {made : Nat} (source : Handle made) (next : Script (made + 1)) : Script made
  | copy {made : Nat} (source : Handle made) (next : Script (made + 1)) : Script made
  | commit {made : Nat} (child : Fin made) (into : Handle made)
      (next : Except Fault Unit → Script made) : Script made
  | ask {made : Nat} (cursor : Handle made) (request : Request)
      (next : Except Fault request.Answer → Script made) : Script made

namespace Reading

variable {α : Type}

/-- Runs an action at another cursor of the same window. -/
def elsewhere (cursor : Cursor) (action : Reading α) : Reading (α × Cursor) := fun reader =>
  match action { reader with cursor } with
  | .ok value after => .ok (value, after.cursor) { after with cursor := reader.cursor }
  | .error halt after => .error halt { after with cursor := reader.cursor }

/-- Runs an action and hands its fault over instead of raising it. -/
def caught (action : Reading α) : Reading (Except Fault α) := fun reader =>
  match action reader with
  | .ok value after => .ok (.ok value) after
  | .error (.fault fault) after => .ok (.error fault) after
  | .error halt after => .error halt after

end Reading

namespace Script

open Reading

variable {made : Nat}

/-- The cursor that a handle stands for. -/
def cursorAt (cursors : Vector Cursor made) : Handle made → Reading Cursor
  | .given => return (← get).cursor
  | .own index => return cursors[index]

/-- Runs an action at the cursor that a handle stands for; its faults are handed over. The cursor
keeps the place that it has afterwards. -/
def enact {α : Type} (cursors : Vector Cursor made) (handle : Handle made) (action : Reading α) :
    Reading (Except Fault α × Vector Cursor made) :=
  match handle with
  | .given => return (← caught action, cursors)
  | .own index => do
    let (outcome, cursor) ← elsewhere cursors[index] (caught action)
    return (outcome, cursors.set index cursor)

/-- The cursors that a script has before it makes any. -/
def noCursors : Vector Cursor 0 := #v[]

/-- Runs a script with the cursors that it has made so far. -/
def run (evaluate : Matcher → Attempt) : {made : Nat} → Script made → Vector Cursor made → Attempt
  | _, finish result, _ => return result
  | _, fail fault, _ => throw (.fault fault)
  | _, fork source next, cursors => do
    next.run evaluate (cursors.push (← cursorAt cursors source).fork)
  | _, copy source next, cursors => do
    next.run evaluate (cursors.push (← cursorAt cursors source))
  | _, commit child into next, cursors => do
    let (outcome, cursors) ← enact cursors into (Reading.commit cursors[child])
    (next outcome).run evaluate cursors
  | _, ask cursor request next, cursors => do
    let (outcome, cursors) ← enact cursors cursor (request.action evaluate)
    (next outcome).run evaluate cursors

end Script

/-- Rules and scripts by their names. Both may refer to each other. -/
structure Library where
  rules : List (String × Matcher) := []
  scripts : List (String × Script 0) := []

namespace Library

/-- What a name stands for, with rules and scripts that refer to each other at most `depth` deep. A
name that stands for nothing never matches. -/
def call (library : Library) : (depth : Nat) → String → Attempt
  | 0, _ => throw .exhausted
  | depth + 1, name =>
    match library.rules.lookup name, library.scripts.lookup name with
    | some m, _ => m.attempt (library.call depth)
    | none, some script => script.run (·.attempt (library.call depth)) Script.noCursors
    | none, none => return none

/-- Tries to match on a fork, so that the cursor only moves on a match. -/
def parse (library : Library) (depth : Nat) (m : Matcher) : Attempt :=
  (m.attempt (library.call depth)).keep

end Library

namespace Grammar

/-- A library of rules alone. -/
def toLibrary (grammar : Grammar) : Library where
  rules := grammar.rules

theorem call_toLibrary (grammar : Grammar) (depth : Nat) :
    grammar.toLibrary.call depth = grammar.call depth := by
  induction depth with
  | zero => rfl
  | succ depth ih =>
    funext name
    simp only [Library.call, call, ih]
    simp only [toLibrary, List.lookup_nil]
    cases grammar.rules.lookup name <;> rfl

/-- A grammar runs as the library of its rules does, as deep as its rules may go. -/
theorem parse_eq_parse_toLibrary (grammar : Grammar) (m : Matcher) (reader : Reader) :
    grammar.parse m reader = grammar.toLibrary.parse (grammar.depthFor reader) m reader := by
  have hFork : Reading.onFork (grammar.attempt m) reader =
      Reading.onFork (m.attempt (grammar.call (grammar.depthFor reader))) reader := rfl
  rw [Library.parse, call_toLibrary, parse]
  simp only [Attempt.keep, bind, EStateM.bind, hFork]

end Grammar

namespace Reading

variable {α : Type} {action : Reading α} {reader : Reader}

@[simp]
theorem leads_elsewhere {cursor : Cursor} {returned : α × Cursor → Reader → Prop}
    {halted : Halt → Reader → Prop} :
    Leads (elsewhere cursor action) reader returned halted ↔
      Leads action { reader with cursor }
        (fun value after =>
          returned (value, after.cursor) { after with cursor := reader.cursor })
        (fun halt after => halted halt { after with cursor := reader.cursor }) := by
  simp only [Leads, elsewhere]
  cases action { reader with cursor } <;> rfl

@[simp]
theorem leads_caught {returned : Except Fault α → Reader → Prop}
    {halted : Halt → Reader → Prop} :
    Leads (caught action) reader returned halted ↔
      Leads action reader (fun value after => returned (.ok value) after) fun halt after =>
        match halt with
        | .fault fault => returned (.error fault) after
        | halt => halted halt after := by
  simp only [Leads, caught]
  cases action reader with
  | ok value after => rfl
  | error halt after => cases halt <;> rfl

theorem steady_caught (hAction : Steady action) : Steady (caught action) := by
  intro reader
  refine leads_caught.2 ((hAction reader).mono (fun _ _ h => h) ?_)
  intro halt after hKeeps
  cases halt with
  | fault fault => exact hKeeps
  | misplaced => exact hKeeps
  | exhausted => exact hKeeps

theorem steady_location : Steady location := by
  intro reader
  simp only [location, Window.locationAt, leads_bind, leads_position, leads_onWindow, leads_get,
    leads_pure]
  refine (Window.leads_relative _ _).mono ?_ ?_
  · rintro distance _ ⟨rfl, -⟩
    exact .refl reader
  · rintro fault _ ⟨rfl, -⟩
    exact .refl reader

theorem steady_reclaim : Steady reclaim := by
  intro reader
  refine (leads_reclaim reader).mono ?_ ?_
  · rintro - _ (⟨hRoot, -, rfl⟩ | ⟨-, rfl⟩)
    · exact .of_discard hRoot _ _
    · exact .refl _
  · rintro halt _ ⟨rfl, -⟩
    exact .refl _

end Reading

theorem Request.steady_action {evaluate : Matcher → Attempt}
    (hEvaluate : ∀ m, Reading.Steady (evaluate m)) (request : Request) :
    Reading.Steady (request.action evaluate) := by
  cases request with
  | peek count => exact (Reading.observes_peek count).steady
  | peekChars count => exact (Reading.observes_peekChars count).steady
  | read count => exact (Reading.observes_read count).steady
  | readChars count => exact (Reading.observes_readChars count).steady
  | advance count => exact (Reading.observes_advance count).steady
  | isAtEnd => exact Reading.observes_isAtEnd.steady
  | location => exact Reading.steady_location
  | reclaim => exact Reading.steady_reclaim
  | inspect => exact Reading.steady_get.bind fun _ => .pure _
  | offset => exact Reading.steady_get.bind fun _ => Reading.steady_get.bind fun _ => .pure _
  | attempt m => exact hEvaluate m
  | parse m => exact Attempt.steady_keep (hEvaluate m)

namespace Script

open Reading

/-- The cursor that a handle stands for, next to the cursor given. -/
def place {made : Nat} (cursors : Vector Cursor made) (given : Cursor) : Handle made → Cursor
  | .given => given
  | .own index => cursors[index]

/-- The cursor given and the others, with this one in the place of the handle. -/
def replace {made : Nat} (cursors : Vector Cursor made) (given : Cursor) (cursor : Cursor) :
    Handle made → Cursor × Vector Cursor made
  | .given => (cursor, cursors)
  | .own index => (given, cursors.set index cursor)

section Handles

variable {α : Type} {made : Nat} {cursors : Vector Cursor made} {handle : Handle made}
  {reader : Reader}

theorem leads_cursorAt (cursors : Vector Cursor made) (handle : Handle made) (reader : Reader) :
    Leads (cursorAt cursors handle) reader
      (fun cursor after => cursor = place cursors reader.cursor handle ∧ after = reader)
      (fun _ _ => False) := by
  cases handle with
  | given => exact ⟨rfl, rfl⟩
  | own index => exact ⟨rfl, rfl⟩

/-- An action at the cursor of a handle is an action with that cursor at hand, which is put back
after it. -/
theorem leads_enact_iff {action : Reading α}
    {returned : Except Fault α × Vector Cursor made → Reader → Prop}
    {halted : Halt → Reader → Prop} :
    Leads (enact cursors handle action) reader returned halted ↔
      Leads action { reader with cursor := place cursors reader.cursor handle }
        (fun value after =>
          returned (.ok value, (replace cursors reader.cursor after.cursor handle).2)
            { after with cursor := (replace cursors reader.cursor after.cursor handle).1 })
        (fun halt after =>
          match halt with
          | .fault fault =>
            returned (.error fault, (replace cursors reader.cursor after.cursor handle).2)
              { after with cursor := (replace cursors reader.cursor after.cursor handle).1 }
          | halt =>
            halted halt
              { after with cursor := (replace cursors reader.cursor after.cursor handle).1 }) := by
  cases handle with
  | given =>
    simp only [enact, leads_bind, leads_caught, leads_pure]
    exact Iff.rfl
  | own index =>
    simp only [enact, leads_bind, leads_elsewhere, leads_caught, leads_pure]
    exact Iff.rfl

end Handles

/-- All cursors that a script has made are like this. -/
def Each {made : Nat} (property : Cursor → Prop) (cursors : Vector Cursor made) : Prop :=
  ∀ index : Fin made, property cursors[index]

section Each

variable {made : Nat} {property : Cursor → Prop} {cursors : Vector Cursor made} {cursor : Cursor}

theorem each_noCursors : Each property noCursors :=
  fun index => index.elim0

theorem Each.push (hEach : Each property cursors) (hCursor : property cursor) :
    Each property (cursors.push cursor) := by
  intro index
  rw [Fin.getElem_fin, Vector.getElem_push]
  split
  · next hOld => exact hEach ⟨index, hOld⟩
  · exact hCursor

theorem Each.set (hEach : Each property cursors) (hCursor : property cursor) (index : Fin made) :
    Each property (cursors.set index cursor) := by
  intro other
  rw [Fin.getElem_fin, Vector.getElem_set]
  split
  · exact hCursor
  · exact hEach other

end Each

/-- No cursor that a script has made is less deep than this. -/
def AsDeep {made : Nat} (cursors : Vector Cursor made) (depth : Nat) : Prop :=
  ∀ index : Fin made, depth ≤ cursors[index].depth

variable {made depth : Nat} {cursors : Vector Cursor made}

theorem AsDeep.none (depth : Nat) : AsDeep noCursors depth :=
  fun index => index.elim0

theorem AsDeep.push {cursor : Cursor} (hDeep : AsDeep cursors depth)
    (hCursor : depth ≤ cursor.depth) : AsDeep (cursors.push cursor) depth := by
  have hEach : Each (depth ≤ ·.depth) cursors := hDeep
  exact hEach.push hCursor

theorem AsDeep.set {cursor : Cursor} (hDeep : AsDeep cursors depth)
    (hCursor : depth ≤ cursor.depth) (index : Fin made) :
    AsDeep (cursors.set index cursor) depth := by
  have hEach : Each (depth ≤ ·.depth) cursors := hDeep
  exact hEach.set hCursor index

theorem AsDeep.place {reader : Reader} (hDeep : AsDeep cursors reader.cursor.depth)
    (handle : Handle made) : reader.cursor.depth ≤ (place cursors reader.cursor handle).depth := by
  cases handle with
  | given => exact Nat.le_refl _
  | own index => exact hDeep index

/-- An action that is run at the cursor of a handle is kept at the cursor given, and leaves the
cursors that were made as deep as they were. -/
theorem leads_enact {α : Type} {action : Reading α} (hAction : Steady action)
    (handle : Handle made) {reader : Reader} (hDeep : AsDeep cursors reader.cursor.depth) :
    Leads (enact cursors handle action) reader
      (fun result after => reader.Keeps after ∧ AsDeep result.2 after.cursor.depth)
      (fun _ after => reader.Keeps after) := by
  cases handle with
  | given =>
    refine (steady_caught hAction reader).bind (fun _ _ h => h) fun outcome after hAfter => ?_
    exact ⟨hAfter, hAfter.depth_eq ▸ hDeep⟩
  | own index =>
    have hOther (hRoot : reader.cursor.depth ≠ 0) : cursors[index].depth ≠ 0 := by
      have := hDeep index
      omega
    simp only [enact, leads_bind, leads_elsewhere, leads_pure]
    refine (steady_caught hAction _).mono ?_ ?_
    · intro outcome after hAfter
      refine ⟨.of_deeper hOther hAfter, hDeep.set ?_ index⟩
      rw [hAfter.depth_eq]
      exact hDeep index
    · exact fun halt after hAfter => .of_deeper hOther hAfter

/-- A script is steady if the matchers that it runs are. -/
theorem leads_run {evaluate : Matcher → Attempt} (hEvaluate : ∀ m, Steady (evaluate m))
    (script : Script made) {reader : Reader} (hDeep : AsDeep cursors reader.cursor.depth) :
    Leads (script.run evaluate cursors) reader (fun _ after => reader.Keeps after)
      (fun _ after => reader.Keeps after) := by
  -- What is kept is composed step by step, and the cursors stay as deep as the one given.
  induction script generalizing reader with
  | finish result => exact .refl reader
  | fail fault => exact .refl reader
  | fork source next ih =>
    refine (leads_cursorAt cursors source reader).bind (fun _ _ h => h.elim) ?_
    rintro cursor _ ⟨rfl, rfl⟩
    exact ih (hDeep.push (Nat.le_succ_of_le (hDeep.place source)))
  | copy source next ih =>
    refine (leads_cursorAt cursors source reader).bind (fun _ _ h => h.elim) ?_
    rintro cursor _ ⟨rfl, rfl⟩
    exact ih (hDeep.push (hDeep.place source))
  | commit child into next ih =>
    refine (leads_enact (steady_commit _) into hDeep).bind (fun _ _ h => h) ?_
    rintro ⟨outcome, cursors⟩ middle ⟨hMiddle, hDeep⟩
    exact (ih outcome hDeep).mono (fun _ _ h => hMiddle.trans h) (fun _ _ h => hMiddle.trans h)
  | ask cursor request next ih =>
    refine (leads_enact (request.steady_action hEvaluate) cursor hDeep).bind (fun _ _ h => h) ?_
    rintro ⟨outcome, cursors⟩ middle ⟨hMiddle, hDeep⟩
    exact (ih outcome hDeep).mono (fun _ _ h => hMiddle.trans h) (fun _ _ h => hMiddle.trans h)

end Script

namespace Library

open Reading

/-- Whatever a name stands for, it is steady. -/
theorem steady_call (library : Library) (depth : Nat) (name : String) :
    Steady (library.call depth name) := by
  induction depth generalizing name with
  | zero => exact .throw _
  | succ depth ih =>
    rw [call]
    split
    · exact Matcher.steady_attempt ih _
    · exact fun reader => Script.leads_run (Matcher.steady_attempt ih) _ (.none _)
    · exact .pure none

end Library

end StreamMatch
