import Mathlib
import StreamMatch.Proofs.Closures
import StreamMatch.Proofs.Scanning
import StreamMatch.Proofs.Spans

/-!
That matches are faithful to the stream. Whatever a matcher is built from, if it matches, the match
spans the bytes that the cursor has moved over, and so do all nodes of its tree; moreover the
submatches of each node lie there in the way that its matcher says (`Library.reports`). Left out are
only matchers that move without a trace of it in the content, or put into the content what is not in
the stream.
-/

namespace StreamMatch

namespace Attempt

open Reading

/-- At every reader over the stream, what is found is what is made of the bytes between where the
cursor was and where it is then. -/
def Yields {α : Type} (stream : List UInt8) (made : α → (start stop : Nat) → Prop)
    (action : Reading (Option α)) : Prop :=
  ∀ reader, reader.window.Over stream →
    Leads action reader
      (fun found after => after.window.Over stream ∧ ∀ value, found = some value →
        made value reader.cursor.position after.cursor.position)
      (fun _ _ => True)

/-- A match spans what the cursor has moved over, and it has this shape. -/
def Reports (stream : List UInt8) (shape : Match → Prop) (attempt : Attempt) : Prop :=
  Yields stream (fun m start stop => m.Spans stream start stop ∧ shape m) attempt

end Attempt

/-- Matchers that do not move without a trace, and report nothing that is not in the stream. What a
lookahead does is taken back, so that it does not matter here. -/
inductive Matcher.Honest : Matcher → Prop where
  | primitive (p : Primitive) : Honest (.primitive p)
  | seq (tag : Tag) {steps : List Matcher} (hSteps : ∀ m ∈ steps, Honest m) :
    Honest (.seq tag steps)
  | named (tag : Tag) {steps : List (String × Matcher)} (hSteps : ∀ step ∈ steps, Honest step.2) :
    Honest (.named tag steps)
  | first {ms : List Matcher} (hAll : ∀ m ∈ ms, Honest m) : Honest (.first ms)
  | longest {ms : List Matcher} (hAll : ∀ m ∈ ms, Honest m) : Honest (.longest ms)
  | many (tag : Tag) (least : Nat) (most : Option Nat) {element : Matcher}
    {separator : Option Matcher} (hElement : Honest element)
    (hSeparator : ∀ m ∈ separator, Honest m) : Honest (.many tag least most element separator)
  | optional {inner : Matcher} (hInner : Honest inner) : Honest (.optional inner)
  | keep {inner : Matcher} (hInner : Honest inner) : Honest (.keep inner)
  | rule (name : String) : Honest (.rule name)
  | lookahead (tag : Tag) (wanted : Bool) (inner : Matcher) : Honest (.lookahead tag wanted inner)
  | endOfInput (tag : Tag) : Honest (.endOfInput tag)
  | skip (tag : Tag) : Honest (.skip tag 0)
  | insert (tag : Tag) : Honest (.insert tag [])
  | stray (count : Nat) : Honest (.stray count)
  | refuse : Honest .refuse

/-- A script that is honest about what it moves over, as long as the honest matchers that it runs
are. -/
def Script.Honest (script : Script 0) : Prop :=
  ∀ (evaluate : Matcher → Attempt) (stream : List UInt8), (∀ m, Reading.Steady (evaluate m)) →
    (∀ m, m.Honest → (evaluate m).Reports stream fun _ => True) →
      (script.run evaluate noCursors).Reports stream fun _ => True

namespace Library

/-- All rules and all scripts are honest. -/
structure Honest (library : Library) : Prop where
  rules : ∀ name m, library.rules.lookup name = some m → m.Honest
  scripts : ∀ name script, library.scripts.lookup name = some script → script.Honest

/-- How the tree of a match comes from a matcher, node by node: from which matcher each submatch is,
and how the submatches lie in the span. -/
inductive Derives (library : Library) (stream : List UInt8) : Matcher → Match → Prop where
  | primitive {p : Primitive} {t : Match} (hSubmatches : t.submatches = []) :
    Derives library stream (.primitive p) t
  | seq {tag : Tag} {steps : List Matcher} {t : Match}
    (hSteps : List.Forall₂ (Derives library stream) steps t.submatches) (hTiled : t.Tiled) :
    Derives library stream (.seq tag steps) t
  | named {tag : Tag} {steps : List (String × Matcher)} {t : Match}
    (hSteps : List.Forall₂ (fun step => Derives library stream step.2) steps t.submatches)
    (hTiled : t.Tiled) : Derives library stream (.named tag steps) t
  | first {ms : List Matcher} {m : Matcher} {t : Match} (hMem : m ∈ ms)
    (hMatch : Derives library stream m t) : Derives library stream (.first ms) t
  | longest {ms : List Matcher} {m : Matcher} {t : Match} (hMem : m ∈ ms)
    (hMatch : Derives library stream m t) : Derives library stream (.longest ms) t
  | many {tag : Tag} {least : Nat} {most : Option Nat} {element : Matcher} {t : Match}
    (hElements : ∀ submatch ∈ t.submatches, Derives library stream element submatch)
    (hTiled : t.Tiled) : Derives library stream (.many tag least most element none) t
  | noElement {tag : Tag} {least : Nat} {most : Option Nat} {element separator : Matcher} {t : Match}
    (hSubmatches : t.submatches = []) (hContent : t.content = []) :
    Derives library stream (.many tag least most element (some separator)) t
  /-- With the matches of the separators put back between the elements, the span is covered. -/
  | separated {tag : Tag} {least : Nat} {most : Option Nat} {element separator : Matcher} {t : Match}
    {first : Match} {later : List (Match × Match)}
    (hSubmatches : t.submatches = first :: later.map (·.2))
    (hFirst : Derives library stream element first)
    (hSeparators : ∀ pair ∈ later, Derives library stream separator pair.1)
    (hElements : ∀ pair ∈ later, Derives library stream element pair.2)
    (hFaithful : ∀ pair ∈ later, pair.1.Faithful stream)
    (hTile : Match.Tile t.offset (first :: later.flatMap fun pair => [pair.1, pair.2])
      (t.offset + t.length)) :
    Derives library stream (.many tag least most element (some separator)) t
  | optional {inner : Matcher} {t : Match} (hMatch : Derives library stream inner t) :
    Derives library stream (.optional inner) t
  | absent {inner : Matcher} (offset : Nat) :
    Derives library stream (.optional inner) (.empty offset)
  | keep {inner : Matcher} {t : Match} (hMatch : Derives library stream inner t) :
    Derives library stream (.keep inner) t
  | rule {name : String} {m : Matcher} {t : Match} (hRule : library.rules.lookup name = some m)
    (hMatch : Derives library stream m t) : Derives library stream (.rule name) t
  | script {name : String} {script : Script 0} {t : Match}
    (hRule : library.rules.lookup name = none)
    (hScript : library.scripts.lookup name = some script) : Derives library stream (.rule name) t
  | lookahead {tag : Tag} {wanted : Bool} {inner : Matcher} (offset : Nat) :
    Derives library stream (.lookahead tag wanted inner) (.leaf tag [] offset)
  | endOfInput {tag : Tag} (offset : Nat) :
    Derives library stream (.endOfInput tag) (.leaf tag [] offset)
  | skip {tag : Tag} {count : Nat} (offset : Nat) :
    Derives library stream (.skip tag count) (.leaf tag [] offset)
  | insert {tag : Tag} {bytes : List UInt8} (offset : Nat) :
    Derives library stream (.insert tag bytes) (.leaf tag [] offset)

end Library

namespace Reading

/-- A commit that is carried out moves the cursor to where the fork is, and keeps to the stream. -/
theorem leads_commit_over (fork : Cursor) (reader : Reader) {stream : List UInt8}
    (hOver : reader.window.Over stream) :
    Leads (commit fork) reader
      (fun _ after => after.window.Over stream ∧
        after.cursor = { reader.cursor with position := fork.position })
      (fun _ _ => True) := by
  refine (leads_commit fork reader).mono ?_ (fun _ _ _ => trivial)
  rintro - after ⟨-, ⟨-, -, rfl⟩ | ⟨-, rfl⟩⟩
  · exact ⟨hOver.discard _, rfl⟩
  · exact ⟨hOver, rfl⟩

end Reading

namespace Attempt

open Reading

variable {stream : List UInt8} {attempt element : Attempt} {shape shape' : Match → Prop}

theorem Reports.mono (hReports : Reports stream shape attempt)
    (hShape : ∀ m, shape m → shape' m) : Reports stream shape' attempt := by
  intro reader hOver
  refine (hReports reader hOver).mono ?_ (fun _ _ h => h)
  rintro found after ⟨hAfter, hFound⟩
  exact ⟨hAfter, fun m hSome => ⟨(hFound m hSome).1, hShape m (hFound m hSome).2⟩⟩

/-- An attempt that never matches has nothing to report. -/
theorem reports_of_none (hSteady : Steady attempt)
    (hNone : ∀ reader, Leads attempt reader (fun found _ => found = none) (fun _ _ => True)) :
    Reports stream shape attempt := by
  intro reader hOver
  refine ((hSteady reader).and (hNone reader)).mono ?_ (fun _ _ _ => trivial)
  rintro found after ⟨hKeeps, rfl⟩
  exact ⟨hKeeps.lies_over stream hOver, by simp⟩

/-- On a fork the cursor stays where it was as long as there is no match. -/
theorem Reports.leads_keep (hReports : Reports stream shape attempt) {reader : Reader}
    (hOver : reader.window.Over stream) :
    Leads attempt.keep reader
      (fun found after => after.window.Over stream ∧ (found = none → after.cursor = reader.cursor) ∧
        ∀ m, found = some m →
          m.Spans stream reader.cursor.position after.cursor.position ∧ shape m)
      (fun _ _ => True) := by
  rw [keep, leads_bind, leads_onFork]
  refine (hReports { reader with cursor := reader.cursor.fork } hOver).mono ?_
    (fun _ _ _ => trivial)
  rintro found after ⟨hAfter, hFound⟩
  cases found with
  | none => exact ⟨hAfter, fun _ => rfl, by simp⟩
  | some m =>
    have hCommit := leads_commit_over after.cursor { after with cursor := reader.cursor } hAfter
    refine hCommit.bind (fun _ _ _ => trivial) ?_
    rintro - last ⟨hLast, hCursor⟩
    refine ⟨hLast, by simp, fun _ hSome => ?_⟩
    cases hSome
    rw [hCursor]
    exact hFound m rfl

theorem Reports.keep (hReports : Reports stream shape attempt) :
    Reports stream shape attempt.keep :=
  fun _ hOver => (hReports.leads_keep hOver).mono (fun _ _ h => ⟨h.1, h.2.2⟩) (fun _ _ h => h)

section Steps

variable {ι : Type} {run : ι → Attempt} {shapes : ι → Match → Prop} {steps : List ι}

/-- The matches of steps that all match tile what the cursor has moved over. -/
theorem yields_inTurn (hSteps : ∀ step ∈ steps, Reports stream (shapes step) (run step)) :
    Yields stream
      (fun ms start stop => List.Forall₂ shapes steps ms ∧ (∀ m ∈ ms, m.Faithful stream) ∧
        Match.Tile start ms stop)
      (inTurn (steps.map run)) := by
  induction steps with
  | nil =>
    refine fun reader hOver => ⟨hOver, fun _ hSome => ?_⟩
    cases hSome
    exact ⟨.nil, by simp, rfl⟩
  | cons step rest ih =>
    intro reader hOver
    rw [List.map_cons, inTurn]
    refine (hSteps step List.mem_cons_self reader hOver).bind (fun _ _ h => h) ?_
    rintro found middle ⟨hMiddle, hFound⟩
    cases found with
    | none => exact ⟨hMiddle, by simp⟩
    | some m =>
      obtain ⟨hSpans, hShape⟩ := hFound m rfl
      have hRest := fun step hMem => hSteps step (List.mem_cons_of_mem _ hMem)
      refine (ih hRest middle hMiddle).bind (fun _ _ h => h) ?_
      rintro found after ⟨hAfter, hMore⟩
      cases found with
      | none => exact ⟨hAfter, by simp⟩
      | some more =>
        obtain ⟨hShapes, hFaithful, hTile⟩ := hMore more rfl
        refine ⟨hAfter, fun _ hSome => ?_⟩
        cases hSome
        refine ⟨.cons hShape hShapes, List.forall_mem_cons.2 ⟨hSpans.faithful, hFaithful⟩,
          hSpans.offset_eq, ?_⟩
        rw [← hSpans.stop_eq]
        exact hTile

theorem reports_seq (tag : Tag) (hSteps : ∀ step ∈ steps, Reports stream (shapes step) (run step))
    (hShape : ∀ m, List.Forall₂ shapes steps m.submatches → m.Tiled → shape m) :
    Reports stream shape (seq tag (steps.map run)) := by
  intro reader hOver
  rw [seq, leads_bind, leads_position]
  refine (yields_inTurn hSteps reader hOver).bind (fun _ _ h => h) ?_
  rintro found after ⟨hAfter, hFound⟩
  cases found with
  | none => exact ⟨hAfter, by simp⟩
  | some ms =>
    obtain ⟨hShapes, hFaithful, hTile⟩ := hFound ms rfl
    refine ⟨hAfter, fun _ hSome => ?_⟩
    cases hSome
    have hSpans : Match.Spans stream (.composite tag _ (ms.flatMap (·.content)) ms) _ _ :=
      .of_tile hTile hFaithful rfl rfl (List.Sublist.refl ms)
    exact ⟨hSpans, hShape _ hShapes (hSpans.tiled hTile)⟩

/-- Labels do not change how the submatches lie. -/
theorem reports_seqNamed (tag : Tag) (label : ι → String)
    (hSteps : ∀ step ∈ steps, Reports stream (shapes step) (run step))
    (hShape : ∀ m, List.Forall₂ shapes steps m.submatches → m.Tiled → shape m) :
    Reports stream shape (seqNamed tag (steps.map fun step => (label step, run step))) := by
  intro reader hOver
  rw [seqNamed, leads_bind, leads_position, List.map_map]
  refine (yields_inTurn hSteps reader hOver).bind (fun _ _ h => h) ?_
  rintro found after ⟨hAfter, hFound⟩
  cases found with
  | none => exact ⟨hAfter, by simp⟩
  | some ms =>
    obtain ⟨hShapes, hFaithful, hTile⟩ := hFound ms rfl
    refine ⟨hAfter, fun _ hSome => ?_⟩
    cases hSome
    generalize hParts : ((steps.map fun step => (label step, run step)).map (·.1)).zip ms = parts
    have hSubmatches : (Match.named tag reader.cursor.position parts).submatches = ms := by
      rw [← hParts]
      exact List.map_snd_zip (by simp [hShapes.length_eq])
    have hContent : parts.flatMap (·.2.content) = ms.flatMap (·.content) := by
      rw [← hSubmatches]
      exact (List.flatMap_map _ _ _).symm
    have hSpans : Match.Spans stream (.named tag reader.cursor.position parts) _ _ :=
      .of_tile hTile hFaithful rfl hContent (hSubmatches ▸ List.Sublist.refl _)
    refine ⟨hSpans, hShape _ ?_ (hSpans.tiled ?_)⟩
    · rw [hSubmatches]
      exact hShapes
    · rw [hSubmatches]
      exact hTile

end Steps

theorem reports_first {attempts : List Attempt}
    (hAttempts : ∀ attempt ∈ attempts, Reports stream shape attempt) :
    Reports stream shape (first attempts) := by
  induction attempts with
  | nil => exact fun _ hOver => ⟨hOver, by simp⟩
  | cons alternative rest ih =>
    have hRest := ih fun attempt hMem => hAttempts attempt (List.mem_cons_of_mem _ hMem)
    intro reader hOver
    refine ((hAttempts alternative List.mem_cons_self).leads_keep hOver).bind
      (fun _ _ h => h) ?_
    rintro found middle ⟨hMiddle, hNone, hFound⟩
    cases found with
    | some m => exact ⟨hMiddle, hFound⟩
    | none =>
      have hLater := hRest middle hMiddle
      rw [hNone rfl] at hLater
      exact hLater

/-- The best match so far is one that was found from where the cursor is. -/
theorem leads_best {attempts : List Attempt}
    (hAttempts : ∀ attempt ∈ attempts, Reports stream shape attempt) (reader : Reader)
    (hOver : reader.window.Over stream) {found : Option (Match × Cursor)}
    (hFound : ∀ m fork, found = some (m, fork) →
      m.Spans stream reader.cursor.position fork.position ∧ shape m) :
    Leads (best found attempts) reader
      (fun found after => after.window.Over stream ∧ after.cursor = reader.cursor ∧
        ∀ m fork, found = some (m, fork) →
          m.Spans stream reader.cursor.position fork.position ∧ shape m)
      (fun _ _ => True) := by
  induction attempts generalizing reader found with
  | nil => exact ⟨hOver, rfl, hFound⟩
  | cons alternative rest ih =>
    have hRest := fun attempt hMem => hAttempts attempt (List.mem_cons_of_mem _ hMem)
    have hFirst := hAttempts alternative List.mem_cons_self
      { reader with cursor := reader.cursor.fork } hOver
    rw [best, leads_bind, leads_onFork]
    refine hFirst.mono ?_ (fun _ _ _ => trivial)
    rintro result after ⟨hAfter, hResult⟩
    cases result with
    | none => exact ih hRest { after with cursor := reader.cursor } hAfter hFound
    | some m =>
      dsimp only
      split
      · refine ih hRest { after with cursor := reader.cursor } hAfter fun _ _ hSome => ?_
        cases hSome
        exact hResult m rfl
      · exact ih hRest { after with cursor := reader.cursor } hAfter hFound

theorem reports_longest {attempts : List Attempt}
    (hAttempts : ∀ attempt ∈ attempts, Reports stream shape attempt) :
    Reports stream shape (longest attempts) := by
  intro reader hOver
  refine (leads_best hAttempts reader hOver (by simp)).bind (fun _ _ _ => trivial) ?_
  rintro found middle ⟨hMiddle, hCursor, hFound⟩
  cases found with
  | none => exact ⟨hMiddle, by simp⟩
  | some found =>
    obtain ⟨m, fork⟩ := found
    refine (leads_commit_over fork middle hMiddle).bind (fun _ _ _ => trivial) ?_
    rintro - after ⟨hAfter, hMoved⟩
    refine ⟨hAfter, fun _ hSome => ?_⟩
    cases hSome
    rw [hMoved]
    exact hFound m fork rfl

theorem reports_optional (hReports : Reports stream shape attempt)
    (hAbsent : ∀ offset, shape (.empty offset)) : Reports stream shape (optional attempt) := by
  intro reader hOver
  rw [optional, leads_bind, leads_position]
  refine (hReports.leads_keep hOver).bind (fun _ _ h => h) ?_
  rintro found after ⟨hAfter, hNone, hFound⟩
  cases found with
  | some m => exact ⟨hAfter, hFound⟩
  | none =>
    refine ⟨hAfter, fun _ hSome => ?_⟩
    cases hSome
    rw [hNone rfl]
    exact ⟨.leaf List.nil_prefix, hAbsent _⟩

section Rounds

variable {separator : Option Attempt} {most : Option Nat} {count allowed : Nat}
  {made : List UInt8 × Match → (start stop : Nat) → Prop} {gapShape elementShape : Match → Prop}

/-- One more round: either there is none any more, or what it makes comes before what the later
rounds make. -/
theorem leads_rounds_succ {due : Option Attempt}
    (hDue : (if count = 0 then none else separator) = due)
    (hRound : Yields stream made (round element due)) (reader : Reader)
    (hOver : reader.window.Over stream) {returned : List UInt8 × List Match → Reader → Prop}
    (hStop : ∀ after, after.window.Over stream → after.cursor = reader.cursor →
      returned ([], []) after)
    (hNext : ∀ consumed m next, next.window.Over stream →
      made (consumed, m) reader.cursor.position next.cursor.position →
      Leads (rounds element separator most (count + 1) allowed) next
        (fun later after => returned (consumed ++ later.1, m :: later.2) after)
        (fun _ _ => True)) :
    Leads (rounds element separator most count (allowed + 1)) reader returned
      (fun _ _ => True) := by
  rw [rounds, hDue]
  split
  · exact hStop reader hOver rfl
  · rw [leads_bind, leads_position, leads_bind, leads_onFork]
    refine (hRound { reader with cursor := reader.cursor.fork } hOver).mono ?_
      (fun _ _ _ => trivial)
    rintro found after ⟨hAfter, hFound⟩
    cases found with
    | none => exact hStop { after with cursor := reader.cursor } hAfter rfl
    | some found =>
      obtain ⟨consumed, m⟩ := found
      dsimp only
      split
      · exact hStop { after with cursor := reader.cursor } hAfter rfl
      · refine (leads_commit_over _ { after with cursor := reader.cursor } hAfter).bind
          (fun _ _ _ => trivial) ?_
        rintro - next ⟨hNextOver, hMoved⟩
        rw [leads_bind]
        refine hNext consumed m next hNextOver ?_
        rw [hMoved]
        exact hFound _ rfl

/-- A round without a separator is the element. -/
theorem yields_round (hElement : Reports stream elementShape element) :
    Yields stream
      (fun made start stop => made.2.Spans stream start stop ∧ elementShape made.2 ∧
        made.1 = made.2.content)
      (round element none) := by
  intro reader hOver
  refine (hElement reader hOver).bind (fun _ _ h => h) ?_
  rintro found after ⟨hAfter, hFound⟩
  cases found with
  | none => exact ⟨hAfter, by simp⟩
  | some m =>
    refine ⟨hAfter, fun _ hSome => ?_⟩
    cases hSome
    exact ⟨(hFound m rfl).1, (hFound m rfl).2, rfl⟩

/-- In a round with a separator the element begins where the separator ends. -/
theorem yields_round_separated {separator : Attempt}
    (hElement : Reports stream elementShape element)
    (hSeparator : Reports stream gapShape separator) :
    Yields stream
      (fun made start stop => ∃ gap : Match, gap.Spans stream start (start + gap.length) ∧
        gapShape gap ∧ made.2.Spans stream (start + gap.length) stop ∧ elementShape made.2 ∧
        made.1 = gap.content ++ made.2.content)
      (round element (some separator)) := by
  intro reader hOver
  refine (hSeparator reader hOver).bind (fun _ _ h => h) ?_
  rintro found middle ⟨hMiddle, hGap⟩
  cases found with
  | none => exact ⟨hMiddle, by simp⟩
  | some gap =>
    obtain ⟨hGapSpans, hGapShape⟩ := hGap gap rfl
    refine (hElement middle hMiddle).bind (fun _ _ h => h) ?_
    rintro found after ⟨hAfter, hFound⟩
    cases found with
    | none => exact ⟨hAfter, by simp⟩
    | some m =>
      refine ⟨hAfter, fun _ hSome => ?_⟩
      cases hSome
      refine ⟨gap, hGapSpans.stop_eq ▸ hGapSpans, hGapShape, ?_, (hFound m rfl).2, rfl⟩
      rw [← hGapSpans.stop_eq]
      exact (hFound m rfl).1

theorem leads_rounds (hElement : Reports stream elementShape element) (reader : Reader)
    (hOver : reader.window.Over stream) :
    Leads (rounds element none most count allowed) reader
      (fun found after => after.window.Over stream ∧ found.1 = found.2.flatMap (·.content) ∧
        (∀ m ∈ found.2, m.Faithful stream ∧ elementShape m) ∧
        Match.Tile reader.cursor.position found.2 after.cursor.position)
      (fun _ _ => True) := by
  induction allowed generalizing count reader with
  | zero => trivial
  | succ allowed ih =>
    refine leads_rounds_succ (by simp) (yields_round hElement) reader hOver ?_ ?_
    · intro after hAfter hCursor
      exact ⟨hAfter, rfl, by simp, congrArg Cursor.position hCursor.symm⟩
    · rintro consumed m next hNext ⟨hSpans, hShape, hConsumed⟩
      obtain rfl : consumed = m.content := hConsumed
      refine (ih next hNext).mono ?_ (fun _ _ h => h)
      rintro ⟨content, elements⟩ after ⟨hAfter, hContent, hElements, hTile⟩
      obtain rfl : content = elements.flatMap (·.content) := hContent
      refine ⟨hAfter, rfl, List.forall_mem_cons.2 ⟨⟨hSpans.faithful, hShape⟩, hElements⟩,
        hSpans.offset_eq, ?_⟩
      rw [← hSpans.stop_eq]
      exact hTile

/-- The matches of separators and elements, in the order in which they lie in the stream. -/
def laid (pairs : List (Match × Match)) : List Match :=
  pairs.flatMap fun pair => [pair.1, pair.2]

/-- After the first round, each round adds a separator and an element. -/
theorem leads_rounds_separated {separator : Attempt}
    (hElement : Reports stream elementShape element)
    (hSeparator : Reports stream gapShape separator) (reader : Reader)
    (hOver : reader.window.Over stream) :
    Leads (rounds element (some separator) most (count + 1) allowed) reader
      (fun found after => after.window.Over stream ∧ ∃ pairs : List (Match × Match),
        found = ((laid pairs).flatMap (·.content), pairs.map (·.2)) ∧
        (∀ pair ∈ pairs, pair.1.Faithful stream ∧ gapShape pair.1) ∧
        (∀ pair ∈ pairs, pair.2.Faithful stream ∧ elementShape pair.2) ∧
        Match.Tile reader.cursor.position (laid pairs) after.cursor.position)
      (fun _ _ => True) := by
  induction allowed generalizing count reader with
  | zero => trivial
  | succ allowed ih =>
    refine leads_rounds_succ (by simp) (yields_round_separated hElement hSeparator) reader hOver
      ?_ ?_
    · intro after hAfter hCursor
      exact ⟨hAfter, [], rfl, by simp, by simp, congrArg Cursor.position hCursor.symm⟩
    · rintro consumed m next hNext ⟨gap, hGap, hGapShape, hSpans, hShape, hConsumed⟩
      obtain rfl : consumed = gap.content ++ m.content := hConsumed
      refine (ih next hNext).mono ?_ (fun _ _ h => h)
      rintro _ after ⟨hAfter, pairs, rfl, hGaps, hElements, hTile⟩
      refine ⟨hAfter, (gap, m) :: pairs, ?_, ?_, ?_, ?_⟩
      · simp [laid]
      · exact List.forall_mem_cons.2 ⟨⟨hGap.faithful, hGapShape⟩, hGaps⟩
      · exact List.forall_mem_cons.2 ⟨⟨hSpans.faithful, hShape⟩, hElements⟩
      · refine ⟨hGap.offset_eq, hSpans.offset_eq, ?_⟩
        rw [← hSpans.stop_eq]
        exact hTile

/-- What the rounds make on a fork is what the repetition reports. -/
theorem reports_of_rounds (tag : Tag) (least : Nat)
    (hRounds : ∀ allowed reader, reader.window.Over stream →
      Leads (rounds element separator most 0 allowed) reader
        (fun found after => after.window.Over stream ∧
          (Match.composite tag reader.cursor.position found.1 found.2).Spans stream
            reader.cursor.position after.cursor.position ∧
          shape (.composite tag reader.cursor.position found.1 found.2))
        (fun _ _ => True)) :
    Reports stream shape (many tag least most element separator) := by
  intro reader hOver
  rw [many, leads_bind, leads_position, leads_bind, leads_get, leads_bind, leads_onFork]
  refine (hRounds _ { reader with cursor := reader.cursor.fork } hOver).mono ?_
    (fun _ _ _ => trivial)
  rintro ⟨content, elements⟩ after ⟨hAfter, hMade⟩
  dsimp only
  split
  · exact ⟨hAfter, by simp⟩
  · refine (leads_commit_over _ { after with cursor := reader.cursor } hAfter).bind
      (fun _ _ _ => trivial) ?_
    rintro - last ⟨hLast, hMoved⟩
    refine ⟨hLast, fun _ hSome => ?_⟩
    cases hSome
    rw [hMoved]
    exact hMade

theorem reports_many (tag : Tag) (least : Nat) (hElement : Reports stream elementShape element)
    (hShape : ∀ m, (∀ submatch ∈ m.submatches, elementShape submatch) → m.Tiled → shape m) :
    Reports stream shape (many tag least most element none) := by
  refine reports_of_rounds tag least fun allowed reader hOver => ?_
  refine (leads_rounds hElement reader hOver).mono ?_ (fun _ _ h => h)
  rintro ⟨content, elements⟩ after ⟨hAfter, hContent, hElements, hTile⟩
  have hSpans : (Match.composite tag reader.cursor.position content elements).Spans stream _ _ :=
    .of_tile hTile (fun m hMem => (hElements m hMem).1) rfl hContent (List.Sublist.refl _)
  exact ⟨hAfter, hSpans, hShape _ (fun m hMem => (hElements m hMem).2) (hSpans.tiled hTile)⟩

theorem sublist_laid (pairs : List (Match × Match)) : (pairs.map (·.2)).Sublist (laid pairs) := by
  induction pairs with
  | nil => exact .slnil
  | cons pair rest ih => exact .cons _ (.cons_cons _ ih)

theorem forall_mem_laid {pairs : List (Match × Match)} {p : Match → Prop}
    (hFirst : ∀ pair ∈ pairs, p pair.1) (hSecond : ∀ pair ∈ pairs, p pair.2) :
    ∀ m ∈ laid pairs, p m := by
  intro m hMem
  obtain ⟨pair, hPair, hMem⟩ := List.mem_flatMap.1 hMem
  rcases List.mem_pair.1 hMem with rfl | rfl
  · exact hFirst pair hPair
  · exact hSecond pair hPair

theorem reports_many_separated {separator : Attempt} (tag : Tag) (least : Nat)
    (hElement : Reports stream elementShape element)
    (hSeparator : Reports stream gapShape separator)
    (hNone : ∀ m : Match, m.submatches = [] → m.content = [] → shape m)
    (hShape : ∀ (m first : Match) (later : List (Match × Match)),
      m.submatches = first :: later.map (·.2) → elementShape first →
      (∀ pair ∈ later, gapShape pair.1) → (∀ pair ∈ later, elementShape pair.2) →
      (∀ pair ∈ later, pair.1.Faithful stream) →
      Match.Tile m.offset (first :: laid later) (m.offset + m.length) → shape m) :
    Reports stream shape (many tag least most element (some separator)) := by
  refine reports_of_rounds tag least fun allowed reader hOver => ?_
  cases allowed with
  | zero => trivial
  | succ allowed =>
    refine leads_rounds_succ rfl (yields_round hElement) reader hOver ?_ ?_
    · intro after hAfter hCursor
      have hSpans : (Match.composite tag reader.cursor.position [] []).Spans stream _ _ :=
        .leaf List.nil_prefix
      rw [hCursor]
      exact ⟨hAfter, hSpans, hNone _ rfl rfl⟩
    · rintro consumed first next hNext ⟨hFirst, hFirstShape, hConsumed⟩
      obtain rfl : consumed = first.content := hConsumed
      refine (leads_rounds_separated hElement hSeparator next hNext).mono ?_ (fun _ _ h => h)
      rintro _ after ⟨hAfter, later, rfl, hGaps, hElements, hTile⟩
      have hWhole : Match.Tile reader.cursor.position (first :: laid later)
          after.cursor.position := by
        refine ⟨hFirst.offset_eq, ?_⟩
        rw [← hFirst.stop_eq]
        exact hTile
      have hFaithful : ∀ piece ∈ first :: laid later, piece.Faithful stream :=
        List.forall_mem_cons.2 ⟨hFirst.faithful,
          forall_mem_laid (fun pair hMem => (hGaps pair hMem).1)
            (fun pair hMem => (hElements pair hMem).1)⟩
      have hSpans : (Match.composite tag reader.cursor.position
          (first.content ++ (laid later).flatMap (·.content))
          (first :: later.map (·.2))).Spans stream _ _ :=
        .of_tile hWhole hFaithful rfl rfl (.cons_cons _ (sublist_laid later))
      refine ⟨hAfter, hSpans, hShape _ first later rfl hFirstShape
        (fun pair hMem => (hGaps pair hMem).2) (fun pair hMem => (hElements pair hMem).2)
        (fun pair hMem => (hGaps pair hMem).1) ?_⟩
      rw [hSpans.offset_eq, ← hSpans.stop_eq]
      exact hWhole

end Rounds

end Attempt

theorem Primitive.reports_attempt (primitive : Primitive) (stream : List UInt8) :
    primitive.attempt.Reports stream fun m => m.submatches = [] := by
  intro reader hOver
  refine ((primitive.steady_attempt reader).and (primitive.leads_attempt hOver)).mono ?_
    (fun _ _ _ => trivial)
  rintro found after ⟨hKeeps, content?, hContent, rfl, hCursor, -⟩
  refine ⟨hKeeps.lies_over stream hOver, ?_⟩
  intro m hFound
  cases content? with
  | none => cases hFound
  | some content =>
    cases hFound
    rw [hCursor]
    exact ⟨.leaf (Primitive.prefix_of_recognize hContent), rfl⟩

namespace Attempt

open Reading

variable {stream : List UInt8} {shape : Match → Prop}

/-- A match of nothing, where the cursor is and stays. -/
theorem reports_of_leaf {attempt : Attempt} (hSteady : Steady attempt) (tag : Tag)
    (hLeaf : ∀ reader, Leads attempt reader
      (fun found after => after.cursor.position = reader.cursor.position ∧
        ∀ m, found = some m → m = .leaf tag [] reader.cursor.position) (fun _ _ => True))
    (hShape : ∀ offset, shape (.leaf tag [] offset)) : Reports stream shape attempt := by
  intro reader hOver
  refine ((hSteady reader).and (hLeaf reader)).mono ?_ (fun _ _ _ => trivial)
  rintro found after ⟨hKeeps, hPosition, hFound⟩
  refine ⟨hKeeps.lies_over stream hOver, fun m hSome => ?_⟩
  rw [hFound m hSome, hPosition]
  exact ⟨.leaf List.nil_prefix, hShape _⟩

theorem leads_lookahead (tag : Tag) (wanted : Bool) (attempt : Attempt) (reader : Reader) :
    Leads (lookahead tag wanted attempt) reader
      (fun found after => after.cursor.position = reader.cursor.position ∧
        ∀ m, found = some m → m = .leaf tag [] reader.cursor.position) (fun _ _ => True) := by
  rw [lookahead, leads_bind, leads_onFork]
  refine .intro (fun found after _ => ?_) (fun _ _ _ => trivial)
  dsimp only
  split
  · exact ⟨rfl, fun m hSome => (Option.some.inj hSome).symm⟩
  · exact ⟨rfl, by simp⟩

theorem leads_endOfInput (tag : Tag) (reader : Reader) :
    Leads (endOfInput tag) reader
      (fun found after => after.cursor.position = reader.cursor.position ∧
        ∀ m, found = some m → m = .leaf tag [] reader.cursor.position) (fun _ _ => True) := by
  obtain ⟨stream, hOver⟩ := reader.window.exists_over
  refine (observes_isAtEnd reader stream hOver).bind (fun _ _ _ => trivial) ?_
  rintro atEnd _ ⟨window, moved, rfl, -, -, hLook, -⟩
  cases hLook
  split
  · exact ⟨rfl, fun m hSome => (Option.some.inj hSome).symm⟩
  · exact ⟨rfl, by simp⟩

theorem leads_skip_zero (tag : Tag) (reader : Reader) :
    Leads (skip tag 0) reader
      (fun found after => after.cursor.position = reader.cursor.position ∧
        ∀ m, found = some m → m = .leaf tag [] reader.cursor.position) (fun _ _ => True) := by
  obtain ⟨stream, hOver⟩ := reader.window.exists_over
  rw [skip, leads_bind, leads_position]
  refine (observes_advance 0 reader stream hOver).bind (fun _ _ _ => trivial) ?_
  rintro count _ ⟨window, moved, rfl, -, -, hLook, -⟩
  cases hLook
  exact ⟨rfl, fun m hSome => (Option.some.inj hSome).symm⟩

theorem leads_insert_nil (tag : Tag) (reader : Reader) :
    Leads (insert tag []) reader
      (fun found after => after.cursor.position = reader.cursor.position ∧
        ∀ m, found = some m → m = .leaf tag [] reader.cursor.position) (fun _ _ => True) :=
  ⟨rfl, fun _ hSome => (Option.some.inj hSome).symm⟩

theorem leads_stray (count : Nat) (reader : Reader) :
    Leads (stray count) reader (fun found _ => found = none) (fun _ _ => True) := by
  rw [stray, leads_bind]
  exact .intro (fun _ _ _ => rfl) (fun _ _ _ => trivial)

theorem leads_refuse (reader : Reader) :
    Leads refuse reader (fun found _ => found = none) (fun _ _ => True) :=
  trivial

end Attempt

open Attempt

/-- An honest matcher reports what it moves over if what the names of rules stand for does. -/
theorem Matcher.reports_attempt {library : Library} {stream : List UInt8} {call : String → Attempt}
    (hSteady : ∀ name, Reading.Steady (call name))
    (hCall : ∀ name, (call name).Reports stream (library.Derives stream (.rule name)))
    {m : Matcher} (hHonest : m.Honest) :
    (m.attempt call).Reports stream (library.Derives stream m) := by
  induction hHonest with
  | primitive p => exact (p.reports_attempt stream).mono fun _ => .primitive
  | seq tag hSteps ih =>
    rw [attempt, attempts_eq_map]
    exact reports_seq tag ih fun _ => .seq
  | @named tag steps hSteps ih =>
    rw [attempt, namedAttempts_eq_map]
    exact reports_seqNamed tag Prod.fst ih fun _ => .named
  | first hAll ih =>
    rw [attempt, attempts_eq_map]
    exact reports_first (List.forall_mem_map.2 fun m hMem => (ih m hMem).mono fun _ => .first hMem)
  | longest hAll ih =>
    rw [attempt, attempts_eq_map]
    exact reports_longest
      (List.forall_mem_map.2 fun m hMem => (ih m hMem).mono fun _ => .longest hMem)
  | @many tag least most element separator hElement hSeparator ihElement ihSeparator =>
    rw [attempt, attempt?_eq_map]
    cases separator with
    | none => exact reports_many tag least ihElement fun _ => .many
    | some separator =>
      exact reports_many_separated tag least ihElement (ihSeparator separator rfl)
        (fun _ => .noElement) fun _ _ _ => .separated
  | optional hInner ih =>
    exact reports_optional (ih.mono fun _ => .optional) .absent
  | keep hInner ih => exact (ih.mono fun _ => .keep).keep
  | rule name => exact hCall name
  | lookahead tag wanted inner =>
    exact reports_of_leaf (steady_lookahead tag wanted (inner.steady_attempt hSteady)) tag
      (leads_lookahead tag wanted _) .lookahead
  | endOfInput tag =>
    exact reports_of_leaf (steady_endOfInput tag) tag (leads_endOfInput tag) .endOfInput
  | skip tag => exact reports_of_leaf (steady_skip tag 0) tag (leads_skip_zero tag) .skip
  | insert tag => exact reports_of_leaf (steady_insert tag []) tag (leads_insert_nil tag) .insert
  | stray count => exact reports_of_none (steady_stray count) (leads_stray count)
  | refuse => exact reports_of_none steady_refuse leads_refuse

namespace Library

theorem reports_call {library : Library} (hLibrary : library.Honest) (stream : List UInt8)
    (depth : Nat) (name : String) :
    (library.call depth name).Reports stream (library.Derives stream (.rule name)) := by
  induction depth generalizing name with
  | zero => exact fun _ _ => trivial
  | succ depth ih =>
    have hSteady := library.steady_call depth
    rw [call]
    split
    · next m hRule =>
      exact (Matcher.reports_attempt hSteady ih (hLibrary.rules name m hRule)).mono
        fun _ => .rule hRule
    · next script hRule hScript =>
      have hScripted := hLibrary.scripts name script hScript (·.attempt (library.call depth)) stream
        (Matcher.steady_attempt hSteady) fun m hHonest =>
          (Matcher.reports_attempt hSteady ih hHonest).mono fun _ _ => trivial
      exact hScripted.mono fun _ _ => .script hRule hScript
    · exact fun _ hOver => ⟨hOver, by simp⟩

/-- Match trees are faithful. If an honest matcher matches, at the cursor itself or on a fork, the
match begins where the cursor was and ends where it is then, every node of its tree has the content
that the stream has at its span and its submatches in order inside, and they lie there as the
matcher that the node comes from says. -/
theorem reports {library : Library} (hLibrary : library.Honest) (stream : List UInt8)
    (depth : Nat) {m : Matcher} (hHonest : m.Honest) :
    (m.attempt (library.call depth)).Reports stream (library.Derives stream m) ∧
      (library.parse depth m).Reports stream (library.Derives stream m) := by
  have hAttempt := Matcher.reports_attempt (library.steady_call depth)
    (reports_call hLibrary stream depth) hHonest
  exact ⟨hAttempt, hAttempt.keep⟩

end Library

/-- A script that reads so many bytes and reports them. -/
def Script.reading (tag : Tag) (count : Nat) : Script 0 :=
  .ask .given .inspect fun
    | .error fault => .fail fault
    | .ok cursor => .ask .given (.read count) fun
      | .error fault => .fail fault
      | .ok bytes => .finish (some (.leaf tag bytes (Cursor.position cursor)))

theorem Script.leads_ask_given {evaluate : Matcher → Attempt} {made : Nat}
    {cursors : Vector Cursor made} {request : Request}
    {next : Except Fault request.Answer → Script made} {reader : Reader}
    {returned : Option Match → Reader → Prop} {halted : Halt → Reader → Prop} :
    Leads ((ask .given request next).run evaluate cursors) reader returned halted ↔
      Leads (request.action evaluate) reader
        (fun answer after => Leads ((next (.ok answer)).run evaluate cursors) after returned halted)
        fun halt after =>
          match halt with
          | .fault fault => Leads ((next (.error fault)).run evaluate cursors) after returned halted
          | halt => halted halt after := by
  rw [run, leads_bind, enact, leads_bind, Reading.leads_caught]
  rfl

theorem Script.honest_reading (tag : Tag) (count : Nat) : (reading tag count).Honest := by
  intro evaluate stream _ _ reader hOver
  refine leads_ask_given.2 (leads_ask_given.2 ?_)
  refine (Reading.observes_read count reader stream hOver).mono ?_ ?_
  · rintro bytes _ ⟨window, moved, rfl, hWindow, -, hLook, -⟩
    cases hLook
    refine ⟨hWindow.lies_over hOver, fun _ hSome => ?_⟩
    cases hSome
    exact ⟨.leaf (List.take_prefix _ _), trivial⟩
  · rintro halt _ ⟨window, fault, rfl, rfl, -⟩
    trivial

namespace Library

/-- Pairs of bytes, read by a script. -/
def pairing : Library where
  scripts := [("pair", .reading .absent 2)]

theorem honest_pairing : pairing.Honest where
  rules := by
    intro name m hRule
    cases hRule
  scripts := by
    intro name script hScript
    rw [pairing, List.lookup_cons] at hScript
    split at hScript
    · obtain rfl := Option.some.inj hScript
      exact Script.honest_reading .absent 2
    · cases hScript

/-- Words with commas between them, or else a pair. -/
def words : Matcher :=
  .first [.separated .absent 1 (.primitive (.bytes (.between .absent 1 9 (· != 44))))
    (.primitive (.literal .absent [44])), .rule "pair"]

theorem honest_words : words.Honest := by
  refine .first (List.forall_mem_cons.2 ⟨.many _ _ _ (.primitive _) ?_, ?_⟩)
  · intro m hMem
    obtain rfl := Option.some.inj hMem
    exact .primitive _
  · exact List.forall_mem_singleton.2 (.rule _)

/-- Two words, delivered in two pieces that do not end where the words do. -/
theorem reports_pairing :
    Leads (pairing.parse 1 words)
      { window := .ofSource ⟨[.data [97, 98, 44, 97], .data [98, 97]]⟩
        cursor := { position := 0 } }
      (fun found after => after.cursor.position = 6 ∧ ∃ t, found = some t ∧
        t.submatches.length = 2 ∧ t.Spans [97, 98, 44, 97, 98, 97] 0 6)
      (fun _ _ => False) := by
  have hRun : Leads (pairing.parse 1 words)
      { window := .ofSource ⟨[.data [97, 98, 44, 97], .data [98, 97]]⟩
        cursor := { position := 0 } }
      (fun found after => (found.map (·.submatches.length), after.cursor.position) = (some 2, 6))
      (fun _ _ => False) := by
    unfold Leads
    cbv
  have hOver := Window.over_content default ⟨[.data [97, 98, 44, 97], .data [98, 97]]⟩
  have hReports := (reports honest_pairing _ 1 honest_words).2
    { window := .ofSource ⟨[.data [97, 98, 44, 97], .data [98, 97]]⟩
      cursor := { position := 0 } } hOver
  refine (hRun.and hReports).mono ?_ (fun _ _ h => h.1)
  rintro found after ⟨hFound, -, hSpans⟩
  obtain ⟨hCount, hPosition⟩ := Prod.mk.inj hFound
  obtain ⟨t, rfl, hLength⟩ := Option.map_eq_some_iff.1 hCount
  rw [hPosition] at hSpans
  exact ⟨hPosition, t, rfl, hLength, (hSpans t rfl).1⟩

end Library

/-- So it is with the rules of a grammar. -/
theorem Grammar.reports_parse (grammar : Grammar)
    (hRules : ∀ name m, grammar.rules.lookup name = some m → m.Honest) (stream : List UInt8)
    {m : Matcher} (hHonest : m.Honest) :
    (grammar.parse m).Reports stream (grammar.toLibrary.Derives stream m) := by
  intro reader hOver
  unfold Leads
  rw [grammar.parse_eq_parse_toLibrary m reader]
  have hLibrary : grammar.toLibrary.Honest := by
    refine ⟨hRules, ?_⟩
    intro name script hScript
    cases hScript
  exact (Matcher.reports_attempt (grammar.toLibrary.steady_call _)
    (Library.reports_call hLibrary stream _) hHonest).keep reader hOver

end StreamMatch
