import Mathlib
import StreamMatch.Proofs.Closures
import StreamMatch.Proofs.Safekeeping

/-!
No input is reclaimed that is still needed (`Library.safe`). The ways to combine matchers see to
this by themselves. A script could hold on to a fork of a root while the root moves on, and so it
has to keep to a discipline (`Script.Orderly`).
-/

namespace StreamMatch

open Reading

namespace Request

/-- At a root the request may discard input. -/
def reclaims : Request → Bool
  | attempt _ => true
  | parse _ => true
  | reclaim => true
  | _ => false

variable {evaluate : Matcher → Attempt}

theorem mild_action (request : Request) (hMild : request.reclaims = false) :
    Mild (request.action evaluate) := by
  cases request with
  | peek count => exact mild_peek count
  | peekChars count => exact mild_peekChars count
  | read count => exact mild_read count
  | readChars count => exact mild_readChars count
  | advance count => exact mild_advance count
  | isAtEnd => exact mild_isAtEnd
  | location => exact mild_location
  | inspect => exact fun reader hRetains => ⟨hRetains.serves, rfl⟩
  | offset => exact fun reader hRetains => ⟨hRetains.serves, rfl⟩
  | reclaim => cases hMild
  | attempt m => cases hMild
  | parse m => cases hMild

theorem safe_action {least : Nat} (hEvaluate : ∀ m, Safe least (evaluate m)) (request : Request) :
    Safe least (request.action evaluate) := by
  cases hReclaims : request.reclaims with
  | false => exact safe_of_mild (request.mild_action hReclaims)
  | true =>
    cases request with
    | attempt m => exact hEvaluate m
    | parse m =>
      exact kept_safekeeping.1 ((safety least).kept_keep (kept_safekeeping.2 (hEvaluate m)))
    | reclaim => exact safe_reclaim
    | _ => cases hReclaims

end Request

namespace Script

variable {α : Type} {made : Nat}

/-- How deep each cursor is that a script has made, or none for one that it is not to use any
more. -/
abbrev Depths (made : Nat) := Vector (Option Nat) made

/-- How deep the cursor of a handle is, where the one given is as deep as `given`. -/
def depthOf (given : Nat) (depths : Depths made) : Handle made → Option Nat
  | .given => some given
  | .own index => depths.get index

/-- The cursors that may be used after input may have been discarded at one of them. At the cursor
given this leaves the others behind, if it is a root. -/
def spend (given : Nat) (depths : Depths made) : Handle made → Depths made
  | .given => if given = 0 then .replicate made none else depths
  | .own _ => depths

/-- The discipline that a script has to keep at a cursor that is `given` deep. It commits a fork one
generation above it. At a root it may discard input only through the cursor given, and then goes on
with none of the cursors that it made before. Otherwise it could fork a root, run a matcher on the
root, and then ask the fork for what is gone. -/
def Orderly (given : Nat) : {made : Nat} → Script made → Depths made → Prop
  | _, finish _, _ => True
  | _, fail fault, _ => (Halt.fault fault).IsFair
  | _, fork source next, depths =>
    next.Orderly given (depths.push ((depthOf given depths source).map (· + 1)))
  | _, copy source next, depths => next.Orderly given (depths.push (depthOf given depths source))
  | _, commit child into next, depths =>
    ∃ depth, depthOf given depths into = some depth ∧ depths[child] = some (depth + 1) ∧
      (depth = 0 → into = .given) ∧ (next (.ok ())).Orderly given (spend given depths into)
  | _, ask cursor request next, depths =>
    ∃ depth, depthOf given depths cursor = some depth ∧
      (request.reclaims → depth = 0 → cursor = .given) ∧
      ∀ outcome, (∀ offset start, outcome ≠ .error (.reclaimed offset start)) →
        (next outcome).Orderly given
          (if request.reclaims then spend given depths cursor else depths)

/-- The cursor is so deep, no less than the one given, and not before the window. -/
structure Stands (given : Nat) (window : Window) (cursor : Cursor) (depth : Nat) : Prop where
  depth_eq : cursor.depth = depth
  given_le : given ≤ depth
  start_le : window.start ≤ cursor.position

/-- The cursors that may be used stand where they should. -/
def Tracks (given : Nat) (depths : Depths made) (cursors : Vector Cursor made) (reader : Reader) :
    Prop :=
  ∀ handle depth, depthOf given depths handle = some depth →
    Stands given reader.window (place cursors reader.cursor handle) depth

namespace Tracks

variable {given : Nat} {depths : Depths made} {cursors : Vector Cursor made} {reader : Reader}

theorem depth_eq (hTracks : Tracks given depths cursors reader) : reader.cursor.depth = given :=
  (hTracks .given given rfl).depth_eq

theorem retains (hTracks : Tracks given depths cursors reader) : reader.Retains :=
  (hTracks .given given rfl).start_le

/-- Where no other cursor may be used, only the one given counts. -/
theorem spent (hDepth : reader.cursor.depth = given) (hRetains : reader.Retains) :
    Tracks given (.replicate made none) cursors reader := by
  intro handle depth hHandle
  cases handle with
  | given =>
    cases hHandle
    exact ⟨hDepth, Nat.le_refl _, hRetains⟩
  | own index => simp [depthOf] at hHandle

theorem push (hTracks : Tracks given depths cursors reader) {cursor : Cursor} {depth? : Option Nat}
    (hCursor : ∀ depth, depth? = some depth → Stands given reader.window cursor depth) :
    Tracks given (depths.push depth?) (cursors.push cursor) reader := by
  intro handle depth hHandle
  cases handle with
  | given => exact hTracks .given depth hHandle
  | own index =>
    simp only [depthOf, place, Vector.get_eq_getElem, Fin.getElem_fin, Vector.getElem_push]
      at hHandle ⊢
    by_cases hOld : index.val < made
    · simp only [hOld, dite_true] at hHandle ⊢
      exact hTracks (.own ⟨index, hOld⟩) depth hHandle
    · simp only [hOld, dite_false] at hHandle ⊢
      exact hCursor depth hHandle

end Tracks

/-- A run at the cursor of a handle has left the reader so that the script can go on with cursors of
these depths. -/
structure Resumes (given : Nat) (depths : Depths made) (cursors : Vector Cursor made)
    (reader : Reader) (handle : Handle made) (after : Reader) : Prop where
  serves : reader.Serves
    { after with cursor := (replace cursors reader.cursor after.cursor handle).1 }
  tracks : Tracks given depths (replace cursors reader.cursor after.cursor handle).2
    { after with cursor := (replace cursors reader.cursor after.cursor handle).1 }

namespace Tracks

variable {given depth : Nat} {depths : Depths made} {cursors : Vector Cursor made}
  {reader after : Reader} {handle : Handle made} (hTracks : Tracks given depths cursors reader)
  (hServes : Reader.Serves { reader with cursor := place cursors reader.cursor handle } after)

include hTracks hServes

/-- As long as the window starts where it did, all cursors can still be used. -/
theorem resumes (hStart : after.window.start = reader.window.start) :
    Resumes given depths cursors reader handle after := by
  have hDepth := hServes.depth_eq
  have hStands {other : Handle made} {depth : Nat}
      (hOther : depthOf given depths other = some depth) :
      Stands given after.window (place cursors reader.cursor other) depth := by
    obtain ⟨hDepth, hGiven, hPosition⟩ := hTracks other depth hOther
    exact ⟨hDepth, hGiven, hStart ▸ hPosition⟩
  cases handle with
  | given =>
    refine ⟨hServes, fun other depth hOther => ?_⟩
    have hPlace := hStands hOther
    cases other with
    | given => exact ⟨hDepth.trans hPlace.depth_eq, hPlace.given_le, hServes.retains⟩
    | own index => exact hPlace
  | own index =>
    refine ⟨hTracks.retains.serves_of_start_eq hStart _, fun other depth hOther => ?_⟩
    have hPlace := hStands hOther
    cases other with
    | given => exact hPlace
    | own other =>
      simp only [place, replace, Fin.getElem_fin, Vector.getElem_set] at hDepth hPlace ⊢
      by_cases hSame : index.val = other.val
      · simp only [hSame, if_true] at hDepth ⊢
        exact ⟨hDepth.trans hPlace.depth_eq, hPlace.given_le, hServes.retains⟩
      · simp only [hSame, if_false]
        exact hPlace

/-- A run that may discard input does so only at a root, and there all other cursors are spent. -/
theorem resumes_spend (hHandle : depthOf given depths handle = some depth)
    (hRoot : depth = 0 → handle = .given) :
    Resumes given (spend given depths handle) cursors reader handle after := by
  have hDepth := (hTracks handle depth hHandle).depth_eq
  cases handle with
  | given =>
    rw [spend]
    split
    · exact ⟨hServes, spent (hServes.depth_eq.trans hTracks.depth_eq) hServes.retains⟩
    · next hDeep =>
      apply hTracks.resumes hServes
      apply hServes.start_eq
      exact hTracks.depth_eq ▸ hDeep
  | own index =>
    apply hTracks.resumes hServes
    apply hServes.start_eq
    rw [hDepth]
    intro hZero
    cases hRoot hZero

end Tracks

/-- One request or one commit of a script, with all that comes after it. -/
theorem safe_step {cursors : Vector Cursor made} {reader : Reader} (handle : Handle made)
    (action : Reading α) (next : Except Fault α → Vector Cursor made → Attempt)
    (given : Nat) (depths : Depths made) (expected : Except Fault α → Prop)
    (hAction : Leads action { reader with cursor := place cursors reader.cursor handle }
      (fun value after => expected (.ok value) ∧ Resumes given depths cursors reader handle after)
      (fun halt after => halt.IsFair ∧ (∀ fault, halt = .fault fault → expected (.error fault)) ∧
        Resumes given depths cursors reader handle after))
    (hNext : ∀ outcome, expected outcome → ∀ cursors middle, Tracks given depths cursors middle →
      Leads (next outcome cursors) middle (fun _ after => middle.Serves after)
        (fun halt after => halt.IsFair ∧ middle.Serves after)) :
    Leads (do let (outcome, cursors) ← enact cursors handle action; next outcome cursors) reader
      (fun _ after => reader.Serves after)
      (fun halt after => halt.IsFair ∧ reader.Serves after) := by
  have hGoOn (outcome : Except Fault α) (hExpected : expected outcome)
      (cursors : Vector Cursor made) {middle : Reader} (hServes : reader.Serves middle)
      (hTracks : Tracks given depths cursors middle) :
      Leads (next outcome cursors) middle (fun _ after => reader.Serves after)
        (fun halt after => halt.IsFair ∧ reader.Serves after) := by
    apply (hNext outcome hExpected cursors middle hTracks).mono
    · exact fun _ _ h => hServes.trans h
    · exact fun _ _ h => ⟨h.1, hServes.trans h.2⟩
  rw [leads_bind, leads_enact_iff]
  apply hAction.mono
  · rintro value after ⟨hExpected, hAfter⟩
    exact hGoOn _ hExpected _ hAfter.serves hAfter.tracks
  · rintro halt after ⟨hFair, hExpected, hAfter⟩
    cases halt with
    | fault fault => exact hGoOn _ (hExpected fault rfl) _ hAfter.serves hAfter.tracks
    | misplaced => exact ⟨hFair, hAfter.serves⟩
    | exhausted => exact ⟨hFair, hAfter.serves⟩

namespace Tracks

variable {given depth : Nat} {depths : Depths made} {cursors : Vector Cursor made} {reader : Reader}
  (hTracks : Tracks given depths cursors reader)

include hTracks

/-- A fork is committed to the cursor that it is a fork of, and that is the only one left if it is a
root. -/
theorem leads_commit {child : Fin made} {into : Handle made}
    (hInto : depthOf given depths into = some depth)
    (hChild : depthOf given depths (.own child) = some (depth + 1))
    (hRoot : depth = 0 → into = .given) :
    Leads (Reading.commit (cursors.get child))
      { reader with cursor := place cursors reader.cursor into }
      (fun _ after => Resumes given (spend given depths into) cursors reader into after)
      (fun _ _ => False) := by
  obtain ⟨rfl, -, -⟩ := hTracks into depth hInto
  obtain ⟨hChildDepth, -, hStart⟩ := hTracks (.own child) _ hChild
  have hCommit : Leads (Reading.commit (cursors.get child))
      { reader with cursor := place cursors reader.cursor into } _ _ :=
    safe_commit hChildDepth hStart
  apply hCommit.mono
  · exact fun _ after hServes => hTracks.resumes_spend hServes hInto hRoot
  · exact fun _ _ hNever => hNever

/-- A request is answered at a cursor that may be used, and not by saying that its input is gone. -/
theorem leads_request {evaluate : Matcher → Attempt} {least : Nat}
    (hEvaluate : ∀ m, Safe least (evaluate m)) (hLeast : least ≤ given) {request : Request}
    {handle : Handle made} (hHandle : depthOf given depths handle = some depth)
    (hRoot : request.reclaims = true → depth = 0 → handle = .given) :
    Leads (request.action evaluate) { reader with cursor := place cursors reader.cursor handle }
      (fun value after =>
        (∀ offset start, (.ok value : Except Fault request.Answer) ≠
          .error (.reclaimed offset start)) ∧
        Resumes given (if request.reclaims then spend given depths handle else depths) cursors
          reader handle after)
      (fun halt after => halt.IsFair ∧
        (∀ fault, halt = .fault fault → ∀ offset start,
          (.error fault : Except Fault request.Answer) ≠ .error (.reclaimed offset start)) ∧
        Resumes given (if request.reclaims then spend given depths handle else depths) cursors
          reader handle after) := by
  obtain ⟨rfl, hGiven, hStart⟩ := hTracks handle depth hHandle
  have hRetains : Reader.Retains { reader with cursor := place cursors reader.cursor handle } :=
    hStart
  have hExpected {halt : Halt} (hFair : halt.IsFair) (fault : Fault)
      (hFault : halt = .fault fault) : ∀ offset start,
        (.error fault : Except Fault request.Answer) ≠ .error (.reclaimed offset start) := by
    rintro offset start hReclaimed
    exact hFair.2 offset start (hFault.trans (congrArg Halt.fault (Except.error.inj hReclaimed)))
  cases hReclaims : request.reclaims with
  | false =>
    apply (request.mild_action hReclaims _ hRetains).mono
    · rintro value after ⟨hServes, hSame⟩
      exact ⟨by simp, hTracks.resumes hServes hSame⟩
    · rintro halt after ⟨hFair, hServes, hSame⟩
      exact ⟨hFair, hExpected hFair, hTracks.resumes hServes hSame⟩
  | true =>
    have hSpend {after : Reader} (hServes : Reader.Serves
        { reader with cursor := place cursors reader.cursor handle } after) :=
      hTracks.resumes_spend hServes hHandle (hRoot hReclaims)
    apply (request.safe_action hEvaluate _ (Nat.le_trans hLeast hGiven) hRetains).mono
    · exact fun _ _ hServes => ⟨by simp, hSpend hServes⟩
    · exact fun _ _ h => ⟨h.1, hExpected h.1, hSpend h.2⟩

end Tracks

/-- A script that keeps to the discipline is safe if the matchers that it runs are. -/
theorem safe_run {evaluate : Matcher → Attempt} {least given : Nat}
    (hEvaluate : ∀ m, Safe least (evaluate m)) (hLeast : least ≤ given) {depths : Depths made}
    {cursors : Vector Cursor made} {reader : Reader} (script : Script made)
    (hScript : script.Orderly given depths) (hTracks : Tracks given depths cursors reader) :
    Leads (script.run evaluate cursors) reader (fun _ after => reader.Serves after)
      (fun halt after => halt.IsFair ∧ reader.Serves after) := by
  induction script generalizing reader with
  | finish result => exact hTracks.retains.serves
  | fail fault => exact ⟨hScript, hTracks.retains.serves⟩
  | fork source next ih =>
    apply (leads_cursorAt cursors source reader).bind
    · exact fun _ _ h => h.elim
    · rintro cursor _ ⟨rfl, rfl⟩
      apply ih hScript
      apply hTracks.push
      intro depth hDepth
      obtain ⟨above, hAbove, rfl⟩ := Option.map_eq_some_iff.1 hDepth
      obtain ⟨hAbove, hGiven, hStart⟩ := hTracks source above hAbove
      exact ⟨congrArg (· + 1) hAbove, Nat.le_succ_of_le hGiven, hStart⟩
  | copy source next ih =>
    apply (leads_cursorAt cursors source reader).bind
    · exact fun _ _ h => h.elim
    · rintro cursor _ ⟨rfl, rfl⟩
      exact ih hScript (hTracks.push (hTracks source))
  | commit child into next ih =>
    obtain ⟨depth, hInto, hChild, hRoot, hNext⟩ := hScript
    apply safe_step into (Reading.commit cursors[child])
      (fun outcome cursors => (next outcome).run evaluate cursors) given (spend given depths into)
      (· = .ok ())
    · apply (hTracks.leads_commit hInto hChild hRoot).mono
      · exact fun _ _ hResumes => ⟨rfl, hResumes⟩
      · exact fun _ _ hNever => hNever.elim
    · rintro _ rfl cursors middle hMiddle
      exact ih (.ok ()) hNext hMiddle
  | ask cursor request next ih =>
    obtain ⟨depth, hCursor, hRoot, hNext⟩ := hScript
    apply safe_step cursor (request.action evaluate)
      (fun outcome cursors => (next outcome).run evaluate cursors) given
      (if request.reclaims then spend given depths cursor else depths)
      (fun outcome => ∀ offset start, outcome ≠ .error (.reclaimed offset start))
    · exact hTracks.leads_request hEvaluate hLeast hCursor hRoot
    · exact fun outcome hOutcome _ _ hMiddle => ih outcome (hNext outcome hOutcome) hMiddle

end Script

namespace Library

/-- All scripts keep to the discipline at all cursors that are at least so deep. -/
def Orderly (least : Nat) (library : Library) : Prop :=
  ∀ depth ≥ least, ∀ name script, library.scripts.lookup name = some script →
    script.Orderly depth #v[]

theorem safe_call {least : Nat} {library : Library} (hLibrary : library.Orderly least) (depth : Nat)
    (name : String) : Safe least (library.call depth name) := by
  induction depth generalizing name with
  | zero => exact kept_safekeeping.1 (safety least).exhausted
  | succ depth ih =>
    rw [call]
    split
    · exact Matcher.safe_attempt ih _
    · next script hRule hScript =>
      intro reader hLeast hRetains
      exact Script.safe_run (Matcher.safe_attempt ih) hLeast script
        (hLibrary _ hLeast name script hScript) (.spent rfl hRetains)
    · exact kept_safekeeping.1 ((safety least).kept_pure none)

/-- No input is reclaimed that is still needed. Run where the cursor is not before the window, no
matcher is ever told that input is gone, whether it is tried at the cursor itself or on a fork of
it, and no fork is committed where it does not belong. The cursor is not before the window
afterwards either, and if it is no root, the window starts where it did. -/
theorem safe {least : Nat} {library : Library} (hLibrary : library.Orderly least) (depth : Nat)
    (m : Matcher) :
    Safe least (m.attempt (library.call depth)) ∧ Safe least (library.parse depth m) := by
  have hAttempt := Matcher.safe_attempt (safe_call hLibrary depth) m
  have hParse := (safety least).kept_keep (kept_safekeeping.2 hAttempt)
  exact ⟨hAttempt, kept_safekeeping.1 hParse⟩

/-- A script that matches at its cursor, reads on in a fork of it, and commits that. -/
def glance : Script 0 :=
  .ask .given (.parse (.primitive (.literal .absent [97]))) fun _ => .fork .given <|
    .ask (.own 0) (.advance 1) fun _ => .commit 0 .given fun _ => .finish (some (.empty 0))

def glancing : Library where
  scripts := [("glance", glance)]

/-- The fork is made after the match at the cursor, so that a root may be given as well. -/
theorem orderly_glancing : glancing.Orderly 0 := by
  intro depth _ name script hScript
  simp only [glancing, List.lookup_cons, List.lookup_nil] at hScript
  split at hScript
  · cases hScript
    refine ⟨depth, rfl, fun _ _ => rfl, fun _ _ => ?_⟩
    refine ⟨depth + 1, ?_, by simp [Request.reclaims], fun _ _ => ?_⟩
    · simp [Script.depthOf, Vector.get_eq_getElem]
    · exact ⟨depth, rfl, by simp [Script.depthOf, Request.reclaims], fun _ => rfl, trivial⟩
  · cases hScript

/-- A root at the start of three bytes. -/
def outset : Reader where
  window := .ofSource ⟨[.data [97, 98, 99]]⟩
  cursor := { position := 0 }

/-- Both the match and the commit discard a byte. -/
theorem safe_glancing :
    Leads ((Matcher.rule "glance").attempt (glancing.call 1)) outset
      (fun found after => found.isSome ∧ after.window.start = 2 ∧ outset.Serves after)
      (fun _ _ => False) := by
  have hSafe := (safe orderly_glancing 1 (.rule "glance")).1 outset (Nat.le_refl _) (Nat.le_refl _)
  have hCall : (Matcher.rule "glance").attempt (glancing.call 1) =
      glance.run (·.attempt (glancing.call 0)) Script.noCursors :=
    rfl
  have hRun : Leads ((Matcher.rule "glance").attempt (glancing.call 1)) outset
      (fun found after => found.isSome ∧ after.window.start = 2) (fun _ _ => False) := by
    rw [hCall]
    simp only [glance, Script.run]
    unfold Leads
    cbv
  apply (hRun.and hSafe).mono
  · exact fun _ _ h => ⟨h.1.1, h.1.2, h.2⟩
  · exact fun _ _ h => h.1

/-- A script that makes a fork, matches at its cursor, and then looks ahead from the fork. -/
def straggle : Script 0 :=
  .fork .given <| .ask .given (.parse (.primitive (.literal .absent [97]))) fun _ =>
    .ask (.own 0) (.peek 1) fun
      | .ok _ => .finish none
      | .error fault => .fail fault

def straggling : Library where
  scripts := [("straggle", straggle)]

/-- Not every script is safe. At a root the match discards what the fork still needs. -/
theorem not_forall_safe :
    ¬ ∀ (library : Library) (depth : Nat) (m : Matcher), Safe 0 (m.attempt (library.call depth)) := by
  intro hAll
  have hCall : (Matcher.rule "straggle").attempt (straggling.call 1) =
      straggle.run (·.attempt (straggling.call 0)) Script.noCursors :=
    rfl
  have hRun : Leads ((Matcher.rule "straggle").attempt (straggling.call 1)) outset
      (fun _ _ => False) (fun halt _ => halt = .fault (.reclaimed 0 1)) := by
    rw [hCall]
    simp only [straggle, Script.run]
    unfold Leads
    cbv
  have hSafe := hAll straggling 1 (.rule "straggle") outset (Nat.le_refl _) (Nat.le_refl _)
  rcases (hRun.and hSafe).ends with ⟨found, after, hNever, -⟩ | ⟨halt, after, rfl, hFair, -⟩
  · exact hNever
  · exact Halt.isFair_fault.1 hFair 0 1 rfl

end Library

/-- Rules alone hold on to nothing, so that a grammar is safe at every cursor. -/
theorem Grammar.safe_parse (grammar : Grammar) (m : Matcher) :
    Safe 0 (grammar.attempt m) ∧ Safe 0 (grammar.parse m) := by
  have hOrderly : grammar.toLibrary.Orderly 0 := by
    intro depth _ name script hScript
    cases hScript
  have hCall (depth : Nat) (name : String) : Safe 0 (grammar.call depth name) :=
    grammar.call_toLibrary depth ▸ Library.safe_call hOrderly depth name
  have hAttempt : (safety 0).Kept (grammar.attempt m) :=
    (safety 0).kept_bind (kept_safekeeping.2 (safe_of_mild mild_get)) fun reader =>
      kept_safekeeping.2 (Matcher.safe_attempt (hCall _) m)
  exact ⟨kept_safekeeping.1 hAttempt, kept_safekeeping.1 ((safety 0).kept_keep hAttempt)⟩

end StreamMatch
