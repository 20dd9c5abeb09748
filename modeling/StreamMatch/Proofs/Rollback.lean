import Mathlib
import StreamMatch.Proofs.Closures

/-!
What is left after an attempt that came to nothing. Whether it does not match or meets a fault, the
cursor stands where it stood and the window still has all that it had (`Library.rollsBack`). An
attempt on a fork leaves nothing behind whatever runs there, and what follows a commit to the cursor
at hand always matches. Only the steps of a sequence and scripts act at the cursor itself before it
is clear that they match.
-/

namespace StreamMatch

/-- The reader is as it was before, up to what has been read ahead and reported. -/
structure Reader.RolledBack (before after : Reader) : Prop where
  cursor_eq : after.cursor = before.cursor
  start_eq : after.window.start = before.window.start
  keeps_retained : before.window.retained <+: after.window.retained
  /-- From the start of the window on, every byte is retained or still to be delivered. -/
  ahead_eq : after.window.ahead = before.window.ahead

namespace Reader.RolledBack

variable {first second third : Reader}

theorem of_continues {reader : Reader} {window : Window}
    (hWindow : reader.window.Continues window) (reports : Array Report) :
    RolledBack reader { window, cursor := reader.cursor, reports } :=
  ⟨rfl, hWindow.start_eq, hWindow.keeps_retained, hWindow.ahead_eq⟩

theorem refl (reader : Reader) : RolledBack reader reader :=
  ⟨rfl, rfl, List.prefix_refl _, rfl⟩

theorem trans (hFirst : RolledBack first second) (hSecond : RolledBack second third) :
    RolledBack first third where
  cursor_eq := hSecond.cursor_eq.trans hFirst.cursor_eq
  start_eq := hSecond.start_eq.trans hFirst.start_eq
  keeps_retained := hFirst.keeps_retained.trans hSecond.keeps_retained
  ahead_eq := hSecond.ahead_eq.trans hFirst.ahead_eq

end Reader.RolledBack

namespace Reading

variable {α β : Type}

/-- However it ends, the action leaves nothing behind. -/
def Quiet (action : Reading α) : Prop :=
  ∀ reader, Leads action reader (fun _ after => reader.RolledBack after)
    (fun _ after => reader.RolledBack after)

namespace Quiet

variable {action : Reading α} {next : α → Reading β}

theorem pure (value : α) : Quiet (Pure.pure value : Reading α) :=
  fun reader => .refl reader

theorem throw (halt : Halt) : Quiet (MonadExcept.throw halt : Reading α) :=
  fun reader => .refl reader

theorem bind (hAction : Quiet action) (hNext : ∀ value, Quiet (next value)) :
    Quiet (action >>= next) := by
  intro reader
  refine (hAction reader).bind (fun _ _ h => h) fun value middle hMiddle => ?_
  exact (hNext value middle).mono (fun _ _ h => hMiddle.trans h) (fun _ _ h => hMiddle.trans h)

end Quiet

theorem quiet_position : Quiet position :=
  fun reader => .refl reader

theorem quiet_get : Quiet (get : Reading Reader) :=
  fun reader => .refl reader

theorem quiet_report (report : Report) : Quiet (Reading.report report) := by
  intro reader
  refine (leads_report report reader).mono ?_ (fun _ _ h => h.elim)
  rintro - _ ⟨reports, rfl⟩
  exact .of_continues (.refl _) _

theorem quiet_isAtEnd : Quiet isAtEnd := by
  intro reader
  obtain ⟨stream, hOver⟩ := reader.window.exists_over
  refine (observes_isAtEnd reader stream hOver).mono ?_ ?_
  · rintro atEnd _ ⟨window, moved, rfl, hWindow, -, hLook, -⟩
    cases hLook
    exact .of_continues hWindow _
  · rintro halt _ ⟨window, fault, -, rfl, hWindow, -⟩
    exact .of_continues hWindow _

/-- A fork is never a root, and what runs there cannot discard anything. -/
theorem quiet_onFork {action : Reading α} (hAction : Steady action) : Quiet (onFork action) := by
  have hFork {reader after : Reader}
      (hKeeps : Reader.Keeps { reader with cursor := reader.cursor.fork } after) :
      reader.RolledBack { after with cursor := reader.cursor } := by
    have hWindow : reader.window.Continues after.window := hKeeps.continues (Nat.succ_ne_zero _)
    exact .of_continues hWindow _
  exact fun reader => leads_onFork.2 ((hAction _).mono (fun _ _ => hFork) (fun _ _ => hFork))

end Reading

namespace Attempt

open Reading

/-- The attempt leaves nothing behind when it does not match or halts. -/
def RollsBack (attempt : Attempt) : Prop :=
  ∀ reader, Leads attempt reader (fun found after => found = none → reader.RolledBack after)
    (fun _ after => reader.RolledBack after)

namespace RollsBack

variable {α : Type} {action : Reading α} {next : α → Attempt}

theorem of_quiet {attempt : Attempt} (hQuiet : Quiet attempt) : RollsBack attempt :=
  fun reader => (hQuiet reader).mono (fun _ _ h _ => h) (fun _ _ h => h)

theorem matched (m : Match) : RollsBack (Pure.pure (some m)) :=
  fun _ => by simp

theorem bind (hAction : Quiet action) (hNext : ∀ value, RollsBack (next value)) :
    RollsBack (action >>= next) := by
  intro reader
  refine (hAction reader).bind (fun _ _ h => h) fun value middle hMiddle => ?_
  exact (hNext value middle).mono (fun _ _ h hNone => hMiddle.trans (h hNone))
    (fun _ _ h => hMiddle.trans h)

/-- A commit that halts changes nothing, and after one that does not there is a match. -/
theorem commit (fork : Cursor) (m : Match) :
    RollsBack (do Reading.commit fork; return some m) := by
  intro reader
  refine (leads_commit fork reader).bind ?_ fun _ _ _ => by simp
  rintro halt _ ⟨rfl, -⟩
  exact .refl _

end RollsBack

variable {attempt element : Attempt} {separator : Option Attempt} {attempts : List Attempt}

theorem rollsBack_keep (hAttempt : Steady attempt) : RollsBack attempt.keep := by
  refine .bind (quiet_onFork hAttempt) fun found => ?_
  obtain ⟨found, fork⟩ := found
  cases found with
  | none => exact .of_quiet (.pure none)
  | some m => exact .commit fork m

theorem rollsBack_first (hAttempts : ∀ attempt ∈ attempts, Steady attempt) :
    RollsBack (first attempts) := by
  induction attempts with
  | nil => exact .of_quiet (.pure none)
  | cons alternative rest ih =>
    have hRest := ih fun attempt hMem => hAttempts attempt (List.mem_cons_of_mem _ hMem)
    intro reader
    refine (rollsBack_keep (hAttempts alternative List.mem_cons_self) reader).bind
      (fun _ _ h => h) fun found middle hMiddle => ?_
    cases found with
    | some m => simp
    | none =>
      exact (hRest middle).mono (fun _ _ h hNone => (hMiddle rfl).trans (h hNone))
        (fun _ _ h => (hMiddle rfl).trans h)

theorem quiet_best (found : Option (Match × Cursor))
    (hAttempts : ∀ attempt ∈ attempts, Steady attempt) : Quiet (best found attempts) := by
  induction attempts generalizing found with
  | nil => exact .pure _
  | cons alternative rest ih =>
    have hRest (found : Option (Match × Cursor)) : Quiet (best found rest) :=
      ih found fun attempt hMem => hAttempts attempt (List.mem_cons_of_mem _ hMem)
    refine (quiet_onFork (hAttempts alternative List.mem_cons_self)).bind fun result => ?_
    obtain ⟨result, fork⟩ := result
    cases result with
    | none => exact hRest found
    | some m =>
      dsimp only
      split
      · exact hRest _
      · exact hRest found

theorem rollsBack_longest (hAttempts : ∀ attempt ∈ attempts, Steady attempt) :
    RollsBack (longest attempts) := by
  refine .bind (quiet_best none hAttempts) fun found => ?_
  cases found with
  | none => exact .of_quiet (.pure none)
  | some found =>
    obtain ⟨m, fork⟩ := found
    exact .commit fork m

theorem rollsBack_many (tag : Tag) (least : Nat) (most : Option Nat) (hElement : Steady element)
    (hSeparator : ∀ attempt ∈ separator, Steady attempt) :
    RollsBack (many tag least most element separator) := by
  refine .bind quiet_position fun offset => .bind quiet_get fun reader => ?_
  refine .bind (quiet_onFork (steady_rounds most 0 _ hElement hSeparator)) fun found => ?_
  obtain ⟨⟨content, elements⟩, fork⟩ := found
  dsimp only
  split
  · exact .of_quiet (.pure none)
  · exact .commit fork _

theorem rollsBack_optional (hAttempt : Steady attempt) : RollsBack (optional attempt) := by
  intro reader
  simp only [optional, leads_bind, leads_position]
  refine (rollsBack_keep hAttempt reader).mono ?_ (fun _ _ h => h)
  intro found after _
  cases found with
  | none => simp
  | some m => simp

theorem rollsBack_lookahead (tag : Tag) (wanted : Bool) (hAttempt : Steady attempt) :
    RollsBack (lookahead tag wanted attempt) := by
  refine .bind (quiet_onFork hAttempt) fun found => ?_
  dsimp only
  split
  · exact .bind quiet_position fun _ => .matched _
  · exact .of_quiet (.pure none)

theorem rollsBack_endOfInput (tag : Tag) : RollsBack (endOfInput tag) := by
  refine .bind quiet_isAtEnd fun atEnd => ?_
  split
  · exact .bind quiet_position fun _ => .matched _
  · exact .of_quiet (.pure none)

theorem rollsBack_skip (tag : Tag) (count : Nat) : RollsBack (skip tag count) := by
  refine .bind quiet_position fun offset => ?_
  intro reader
  obtain ⟨stream, hOver⟩ := reader.window.exists_over
  refine (observes_advance count reader stream hOver).bind ?_ fun _ _ _ => by simp
  rintro halt _ ⟨window, fault, -, rfl, hWindow, -⟩
  exact .of_continues hWindow _

end Attempt

namespace Primitive

open Reading

theorem quiet_guarded (primitive : Primitive) (offset : Nat) :
    Quiet (primitive.guarded offset) := by
  intro reader
  refine (leads_guarded primitive offset reader).2 ?_
  refine (quiet_onFork primitive.steady_scan reader).mono (fun _ _ h => h) ?_
  intro halt middle hMiddle
  cases halt with
  | fault fault =>
    exact (quiet_report _ middle).mono (fun _ _ h => hMiddle.trans h)
      (fun _ _ h => hMiddle.trans h)
  | misplaced => exact hMiddle
  | exhausted => exact hMiddle

theorem rollsBack_attempt (primitive : Primitive) : primitive.attempt.RollsBack := by
  refine .bind quiet_position fun offset => .bind (quiet_report _) fun _ =>
    .bind (primitive.quiet_guarded offset) fun found => ?_
  obtain ⟨found, fork⟩ := found
  cases found with
  | none => exact .of_quiet (.pure none)
  | some content => exact .bind (quiet_report _) fun _ => .commit fork _

end Primitive

namespace Library

open Attempt

/-- The matchers that act at the cursor itself before it is clear that they match: sequences, what
strays, scripts, and rules that come down to one of these. -/
inductive MayMove (library : Library) : Matcher → Prop where
  | seq (tag : Tag) (steps : List Matcher) : MayMove library (.seq tag steps)
  | named (tag : Tag) (steps : List (String × Matcher)) : MayMove library (.named tag steps)
  | stray (count : Nat) : MayMove library (.stray count)
  | rule {name : String} {m : Matcher} (hRule : library.rules.lookup name = some m)
    (hBody : MayMove library m) : MayMove library (.rule name)
  | script {name : String} {script : Script 0} (hRule : library.rules.lookup name = none)
    (hScript : library.scripts.lookup name = some script) : MayMove library (.rule name)

/-- A matcher that stays where it is rolls back if the rules that stay where they are do. -/
theorem rollsBack_of_call {library : Library} {call : String → Attempt}
    (hSteady : ∀ name, Reading.Steady (call name))
    (hCall : ∀ name, ¬ library.MayMove (.rule name) → RollsBack (call name)) {m : Matcher}
    (hStays : ¬ library.MayMove m) : RollsBack (m.attempt call) := by
  have hAll := Matcher.steady_attempt hSteady
  cases m with
  | primitive p => exact p.rollsBack_attempt
  | seq tag steps => exact absurd (.seq tag steps) hStays
  | named tag steps => exact absurd (.named tag steps) hStays
  | first ms =>
    rw [Matcher.attempt, Matcher.attempts_eq_map]
    exact rollsBack_first (List.forall_mem_map.2 fun m _ => hAll m)
  | longest ms =>
    rw [Matcher.attempt, Matcher.attempts_eq_map]
    exact rollsBack_longest (List.forall_mem_map.2 fun m _ => hAll m)
  | many tag least most element separator =>
    rw [Matcher.attempt, Matcher.attempt?_eq_map]
    refine rollsBack_many tag least most (hAll element) ?_
    rintro _ hAttempt
    obtain ⟨m, -, rfl⟩ := Option.map_eq_some_iff.1 hAttempt
    exact hAll m
  | optional inner => exact rollsBack_optional (hAll inner)
  | keep inner => exact rollsBack_keep (hAll inner)
  | rule name => exact hCall name hStays
  | lookahead tag wanted inner => exact rollsBack_lookahead tag wanted (hAll inner)
  | endOfInput tag => exact rollsBack_endOfInput tag
  | skip tag count => exact rollsBack_skip tag count
  | insert tag bytes => exact .bind Reading.quiet_position fun _ => .matched _
  | stray count => exact absurd (.stray count) hStays
  | refuse => exact .of_quiet (Reading.quiet_position.bind fun _ => .throw _)

theorem rollsBack_call (library : Library) (depth : Nat) {name : String}
    (hStays : ¬ library.MayMove (.rule name)) : RollsBack (library.call depth name) := by
  induction depth generalizing name with
  | zero => exact .of_quiet (.throw _)
  | succ depth ih =>
    rw [call]
    split
    · next m hRule =>
      exact rollsBack_of_call (library.steady_call depth) (fun _ => ih)
        fun hBody => hStays (.rule hRule hBody)
    · next script hRule hScript => exact absurd (.script hRule hScript) hStays
    · exact .of_quiet (.pure none)

/-- Rollback is complete. A parse that does not match or halts leaves the cursor, the start of the
window and all that the window has as they were, and so does every matcher that does not act at the
cursor itself, whatever it is built from. -/
theorem rollsBack (library : Library) (depth : Nat) (m : Matcher) :
    RollsBack (library.parse depth m) ∧
      (¬ library.MayMove m → RollsBack (m.attempt (library.call depth))) :=
  ⟨rollsBack_keep (Matcher.steady_attempt (library.steady_call depth) m),
    rollsBack_of_call (library.steady_call depth) fun _ => library.rollsBack_call depth⟩

/-- A script that reads two bytes where it is and then does not match. -/
def straying : Library where
  scripts := [("stray", .ask .given (.read 2) fun _ => .finish none)]

/-- What the script read is taken back by a parse, and by a choice that is tried at the cursor. -/
theorem rollsBack_straying :
    RollsBack (straying.parse 1 (.rule "stray")) ∧
      ¬ straying.MayMove (.first [.rule "stray"]) ∧
      Leads ((Matcher.first [.rule "stray"]).attempt (straying.call 1))
        { window := .ofSource ⟨[.data [0, 1, 2]]⟩, cursor := { position := 0 } }
        (fun found after => found = none ∧ after.window.length = 3 ∧ after.cursor.position = 0)
        (fun _ _ => False) := by
  have hStays : ¬ straying.MayMove (.first [.rule "stray"]) := by
    intro hMoves
    cases hMoves
  refine ⟨(straying.rollsBack 1 _).1, hStays, ?_⟩
  have hBack := (straying.rollsBack 1 _).2 hStays
    { window := .ofSource ⟨[.data [0, 1, 2]]⟩, cursor := { position := 0 } }
  have hRun : Leads ((Matcher.first [.rule "stray"]).attempt (straying.call 1))
      { window := .ofSource ⟨[.data [0, 1, 2]]⟩, cursor := { position := 0 } }
      (fun found after => found = none ∧ after.window.length = 3) (fun _ _ => False) := by
    unfold Leads
    cbv
  refine (hRun.and hBack).mono ?_ (fun _ _ h => h.1)
  rintro found after ⟨⟨hNone, hLength⟩, hBack⟩
  exact ⟨hNone, hLength, congrArg Cursor.position (hBack hNone).cursor_eq⟩

/-- A sequence does act at the cursor itself: it stays behind the steps that did match. -/
example :
    Leads ((Matcher.seq .absent [.primitive (.literal .absent [97]),
        .primitive (.literal .absent [98])]).attempt (straying.call 1))
      { window := .ofSource ⟨[.data [97, 97, 97]]⟩, cursor := { position := 0 } }
      (fun found after => found = none ∧ after.cursor.position = 1) (fun _ _ => False) := by
  unfold Leads
  cbv

end Library

/-- So it is with the rules of a grammar. -/
theorem Grammar.rollsBack_parse (grammar : Grammar) (m : Matcher) :
    (grammar.parse m).RollsBack := by
  intro reader
  unfold Leads
  rw [grammar.parse_eq_parse_toLibrary m reader]
  exact Attempt.rollsBack_keep
    (Matcher.steady_attempt (grammar.toLibrary.steady_call _) m) reader

end StreamMatch
