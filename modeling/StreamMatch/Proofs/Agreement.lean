import Mathlib
import StreamMatch.Proofs.PegDepth
import StreamMatch.Proofs.Simulation

/-!
Matching in a window agrees with the evaluation of plain lists of bytes. Each way of combining
attempts simulates the one of combining recognizers, so that every matcher simulates the recognizer
that it stands for (`Matcher.simulates_attempt`). Since rules are followed as deep as it takes, what
comes of a run at a cursor is what the bytes of the stream at that cursor evaluate to, and nothing
else has a part in it (`Grammar.parse_agrees`).
-/

namespace StreamMatch

variable {stream : List UInt8} {policy : DecodePolicy}

namespace Attempt

open Reading

section Combined

variable {ι : Type} {run : ι → Attempt} {peg : ι → Peg Match} {items : List ι}

theorem simulates_inTurn
    (hItems : ∀ item ∈ items, Simulates stream policy (run item) (peg item)) :
    Simulates stream policy (inTurn (items.map run)) (Peg.inTurn (items.map peg)) := by
  induction items with
  | nil => exact .success []
  | cons item rest ih =>
    have hRest := ih fun item hMem => hItems item (List.mem_cons_of_mem _ hMem)
    exact (hItems item List.mem_cons_self).bind rfl fun m =>
      hRest.bind rfl fun more => .success (m :: more)

theorem simulates_seq (tag : Tag)
    (hItems : ∀ item ∈ items, Simulates stream policy (run item) (peg item)) :
    Simulates stream policy (seq tag (items.map run)) (Peg.seq tag (items.map peg)) :=
  .position fun _ => ⟨_, (simulates_inTurn hItems).bind rfl fun _ => .success _, rfl⟩

theorem simulates_seqNamed (tag : Tag) (label : ι → String)
    (hItems : ∀ item ∈ items, Simulates stream policy (run item) (peg item)) :
    Simulates stream policy (seqNamed tag (items.map fun item => (label item, run item)))
      (Peg.seqNamed tag (items.map fun item => (label item, peg item))) := by
  unfold seqNamed Peg.seqNamed
  simp only [List.map_map, Function.comp_def]
  exact .position fun _ => ⟨_, (simulates_inTurn hItems).bind rfl fun _ => .success _, rfl⟩

theorem simulates_first
    (hItems : ∀ item ∈ items, Simulates stream policy (run item) (peg item)) :
    Simulates stream policy (first (items.map run)) (Peg.first (items.map peg)) := by
  induction items with
  | nil => exact .failure
  | cons item rest ih =>
    exact simulates_orElse (hItems item List.mem_cons_self) (fun _ => rfl)
      (ih fun item hMem => hItems item (List.mem_cons_of_mem _ hMem))

/-- A match that was found on a fork, and the same one with what it has consumed. -/
def Stands (stream : List UInt8) (cursor : Cursor) (found : Match × Cursor)
    (taken : Match × Nat) : Prop :=
  found.1 = taken.1 ∧ cursor.Precedes stream found.2 taken.2

/-- All alternatives are tried from the same place, so that the best so far stands as it is. -/
theorem leads_best_ready
    (hItems : ∀ item ∈ items, Simulates stream policy (run item) (peg item)) {reader : Reader}
    (hReady : reader.Ready stream policy) {found : Option (Match × Cursor)}
    {taken : Option (Match × Nat)} (hFound : Option.Rel (Stands stream reader.cursor) found taken) :
    Leads (best found (items.map run)) reader
      (fun result after => after.cursor = reader.cursor ∧ after.Ready stream policy ∧
        match result with
        | none => reader.verdict stream (Peg.best taken (items.map peg)) = some .unmatched
        | some (m, fork) => ∃ consumed,
          reader.verdict stream (Peg.best taken (items.map peg)) = some (.matched m consumed) ∧
            reader.cursor.Precedes stream fork consumed)
      (fun halt _ => halt.Shows (reader.verdict stream (Peg.best taken (items.map peg)))) := by
  induction items generalizing reader found taken with
  | nil =>
    refine ⟨rfl, hReady, ?_⟩
    cases hFound with
    | none => rfl
    | @some found taken hStands =>
      obtain ⟨m, fork⟩ := found
      obtain ⟨_, consumed⟩ := taken
      obtain ⟨rfl, hFork⟩ := hStands
      exact ⟨consumed, rfl, hFork⟩
  | cons item rest ih =>
    simp only [List.map_cons, best, Reader.verdict, Peg.best]
    refine ((hItems item List.mem_cons_self).leads_onFork hReady).bind ?_ ?_
    · exact fun halt _ hShows => hShows.2.bind fun _ => rfl
    · rintro ⟨result, fork⟩ middle ⟨hCursor, hMiddle, hResult⟩
      -- The rest is tried from where the cursor was, with what is the best then.
      have hNext (best : Option (Match × Cursor)) (better : Option (Match × Nat))
          (hBest : Option.Rel (Stands stream reader.cursor) best better) := by
        rw [← hCursor] at hBest
        have hLater :=
          ih (fun item hMem => hItems item (List.mem_cons_of_mem _ hMem)) hMiddle hBest
        simp only [Reader.verdict, hCursor] at hLater
        exact hLater
      cases result with
      | none =>
        simp only [Reader.verdict] at hResult
        simp only [hResult]
        exact hNext found taken hFound
      | some m =>
        obtain ⟨consumed, hVerdict, hFork⟩ := hResult
        have hBetter : Option.Rel (Stands stream reader.cursor) (some (m, fork))
            (some (m, consumed)) := .some ⟨rfl, hFork⟩
        simp only [Reader.verdict] at hVerdict
        simp only [hVerdict, Option.bind_eq_bind, Option.bind_some]
        cases hFound with
        | none => exact hNext _ _ hBetter
        | @some found taken hStands =>
          obtain ⟨current, kept⟩ := found
          obtain ⟨_, taken⟩ := taken
          obtain ⟨rfl, hKept⟩ := hStands
          simp only [Option.all_some]
          split
          · exact hNext _ _ hBetter
          · exact hNext _ _ (.some ⟨rfl, hKept⟩)

theorem simulates_longest
    (hItems : ∀ item ∈ items, Simulates stream policy (run item) (peg item)) :
    Simulates stream policy (longest (items.map run)) (Peg.longest (items.map peg)) where
  steady := steady_longest (List.forall_mem_map.2 fun item hMem => (hItems item hMem).steady)
  leads := by
    intro reader hReady
    rw [longest]
    refine (leads_best_ready hItems hReady .none).bind (fun _ _ h => h) ?_
    rintro result middle ⟨hCursor, hMiddle, hResult⟩
    cases result with
    | none => exact hResult
    | some result =>
      obtain ⟨m, fork⟩ := result
      obtain ⟨consumed, hVerdict, hFork⟩ := hResult
      rw [← hCursor] at hFork
      refine (leads_commit_ready hMiddle hFork).bind (fun _ _ h => h.elim) ?_
      rintro - after ⟨hAfter, hReady⟩
      exact ⟨consumed, hVerdict, by rw [hAfter, hCursor], hReady⟩

end Combined

section Repeated

variable {element : Attempt} {peg : Peg Match} {separator : Option Attempt} {gap : Option (Peg Match)}

theorem simulates_round (hElement : Simulates stream policy element peg)
    (hSeparator : Option.Rel (Simulates stream policy) separator gap) :
    Simulates stream policy (round element separator) (Peg.round peg gap) := by
  cases hSeparator with
  | none => exact hElement.bind rfl fun _ => .success _
  | some hGap => exact hGap.bind rfl fun _ => hElement.bind rfl fun _ => .success _

/-- More rounds are allowed than bytes are left, so that they never run out. -/
theorem leads_rounds_ready (hElement : Simulates stream policy element peg)
    (hSeparator : Option.Rel (Simulates stream policy) separator gap) (most : Option Nat)
    (count : Nat) {allowed : Nat} {reader : Reader} (hReady : reader.Ready stream policy)
    (hAllowed : stream.length - reader.cursor.position < allowed) :
    Leads (rounds element separator most count allowed) reader
      (fun found after => ∃ consumed,
        reader.verdict stream (Peg.rounds peg gap most count) = some (.matched found consumed) ∧
        after.cursor.position = reader.cursor.position + consumed ∧ after.Ready stream policy)
      (fun halt _ => halt.Shows (reader.verdict stream (Peg.rounds peg gap most count))) := by
  induction allowed generalizing count reader with
  | zero => exact absurd hAllowed (Nat.not_lt_zero _)
  | succ allowed ih =>
    rw [rounds, Reader.verdict, Peg.rounds]
    split
    · exact ⟨0, rfl, rfl, hReady⟩
    · have hDue : Option.Rel (Simulates stream policy) (if count = 0 then none else separator)
          (if count = 0 then none else gap) := by
        split
        · exact .none
        · exact hSeparator
      rw [leads_bind, leads_position]
      refine ((simulates_round hElement hDue).leads_onFork hReady).bind ?_ ?_
      · exact fun halt _ hShows => hShows.2.bind fun _ => rfl
      · rintro ⟨found, fork⟩ middle ⟨hCursor, hMiddle, hFound⟩
        cases found with
        | none =>
          simp only [Reader.verdict] at hFound
          simp only [hFound]
          exact ⟨0, rfl, congrArg Cursor.position hCursor, hMiddle⟩
        | some found =>
          obtain ⟨content, m⟩ := found
          obtain ⟨consumed, hVerdict, hFork⟩ := hFound
          have hPosition : fork.position = reader.cursor.position + consumed := hFork.position_eq
          have hEnd : fork.position ≤ stream.length := hFork.position_le
          simp only [Reader.verdict] at hVerdict
          simp only [hVerdict, Option.bind_eq_bind, Option.bind_some, List.drop_drop,
            List.length_drop]
          by_cases hStill : fork.position = reader.cursor.position
          · obtain rfl : consumed = 0 := by omega
            rw [if_pos hStill]
            exact ⟨0, rfl, congrArg Cursor.position hCursor, hMiddle⟩
          · have hLess : 0 < consumed ∧ consumed ≤ stream.length - reader.cursor.position := by
              omega
            rw [if_neg hStill, dif_pos hLess]
            rw [← hCursor] at hFork
            refine (leads_commit_ready hMiddle hFork).bind (fun _ _ h => h.elim) ?_
            rintro - next ⟨hNext, hReady⟩
            have hPlace : next.cursor.position = reader.cursor.position + consumed := by
              rw [hNext, hCursor]
            have hLater := ih (count + 1) hReady (by omega)
            rw [Reader.verdict, hPlace] at hLater
            refine hLater.bind ?_ ?_
            · exact fun halt _ hShows => hShows.bind fun _ => rfl
            · rintro ⟨later, elements⟩ after ⟨more, hMore, hAfterEnd, hAfter⟩
              refine ⟨consumed + more, ?_, ?_, hAfter⟩
              · rw [hMore]
                rfl
              · rw [hAfterEnd, Nat.add_assoc]

theorem steady_of_rel (hSeparator : Option.Rel (Simulates stream policy) separator gap) :
    ∀ attempt ∈ separator, Steady attempt := by
  cases hSeparator with
  | none => simp
  | some hGap => simpa using hGap.steady

theorem simulates_many (tag : Tag) (least : Nat) (most : Option Nat)
    (hElement : Simulates stream policy element peg)
    (hSeparator : Option.Rel (Simulates stream policy) separator gap) :
    Simulates stream policy (many tag least most element separator)
      (Peg.many tag least most peg gap) where
  steady := steady_many tag least most hElement.steady (steady_of_rel hSeparator)
  leads := by
    intro reader hReady
    rw [many, leads_bind, leads_position, leads_bind, leads_get]
    have hRounds := leads_rounds_ready hElement hSeparator most 0 hReady.fork
      (Nat.lt_succ_of_le hReady.length_le_remaining)
    have hSteady := steady_rounds most 0 (reader.remaining + 1) hElement.steady
      (steady_of_rel hSeparator)
    simp only [Reader.verdict, Peg.many, Peg.andThen]
    refine (hSteady.leads_onFork hReady hRounds).bind ?_ ?_
    · rintro halt _ ⟨-, -, hShows⟩
      exact hShows.bind fun _ => rfl
    · rintro ⟨⟨content, elements⟩, fork⟩ middle
        ⟨hCursor, hMiddle, hDepth, forked, rfl, consumed, hVerdict, hPosition, hForked⟩
      simp only [Reader.verdict, Cursor.position_fork] at hVerdict
      simp only [hVerdict, Option.bind_eq_bind, Option.bind_some]
      split
      · exact rfl
      · have hFork : middle.cursor.Precedes stream forked.cursor consumed := by
          rw [hCursor]
          exact ⟨hDepth, hPosition, hForked.position_le⟩
        refine (leads_commit_ready hMiddle hFork).bind (fun _ _ h => h.elim) ?_
        rintro - after ⟨hAfter, hReady⟩
        exact ⟨consumed, rfl, by rw [hAfter, hCursor], hReady⟩

end Repeated

section Single

variable {inner : Attempt} {peg : Peg Match}

theorem simulates_optional (hInner : Simulates stream policy inner peg) :
    Simulates stream policy (optional inner) (Peg.optional peg) :=
  .position fun _ => ⟨_, simulates_orElse hInner (fun _ => rfl) (.success _), rfl⟩

theorem simulates_lookahead (tag : Tag) (wanted : Bool) (hInner : Simulates stream policy inner peg) :
    Simulates stream policy (lookahead tag wanted inner) (Peg.lookahead tag wanted peg) where
  steady := steady_lookahead tag wanted hInner.steady
  leads := by
    intro reader hReady
    simp only [lookahead, Reader.verdict, Peg.lookahead]
    refine (hInner.leads_onFork hReady).bind ?_ ?_
    · exact fun halt _ hShows => hShows.2.bind fun _ => rfl
    · rintro ⟨found, fork⟩ middle ⟨hCursor, hMiddle, hFound⟩
      have hHere : middle.cursor.position = reader.cursor.position + 0 := by
        rw [hCursor, Nat.add_zero]
      cases found with
      | none =>
        simp only [Reader.verdict] at hFound
        rw [hFound]
        cases wanted with
        | true => rfl
        | false =>
          refine ⟨0, ?_, hHere, hMiddle⟩
          rw [hCursor]
          rfl
      | some m =>
        obtain ⟨consumed, hVerdict, -⟩ := hFound
        simp only [Reader.verdict] at hVerdict
        rw [hVerdict]
        cases wanted with
        | true =>
          refine ⟨0, ?_, hHere, hMiddle⟩
          rw [hCursor]
          rfl
        | false => rfl

theorem simulates_endOfInput (tag : Tag) :
    Simulates stream policy (endOfInput tag) (Peg.endOfInput tag) where
  steady := steady_endOfInput tag
  leads := by
    intro reader hReady
    simp only [endOfInput, Reader.verdict, Peg.endOfInput]
    refine (observes_isAtEnd.leads_ready hReady).bind ?_ ?_
    · rintro halt _ ⟨fault, -, hFault⟩
      cases hFault
    · rintro atEnd after ⟨moved, hLook, hPosition, hAfter⟩
      obtain ⟨rfl, rfl⟩ := Prod.mk.inj (Except.ok.inj hLook)
      split
      · refine ⟨0, ?_, hPosition, hAfter⟩
        rw [hPosition]
        rfl
      · rfl

theorem simulates_skip (tag : Tag) (count : Nat) :
    Simulates stream policy (skip tag count) (Peg.skip tag count) where
  steady := steady_skip tag count
  leads := by
    intro reader hReady
    rw [skip, leads_bind, leads_position]
    refine ((observes_advance count).leads_ready hReady).bind ?_ ?_
    · rintro halt _ ⟨fault, -, hFault⟩
      cases hFault
    · rintro advanced after ⟨moved, hLook, hPosition, hAfter⟩
      obtain ⟨rfl, rfl⟩ := Prod.mk.inj (Except.ok.inj hLook)
      exact ⟨_, rfl, hPosition, hAfter⟩

theorem simulates_insert (tag : Tag) (bytes : List UInt8) :
    Simulates stream policy (insert tag bytes) (Peg.insert tag bytes) :=
  .position fun _ => ⟨_, .success _, rfl⟩

theorem simulates_stray (count : Nat) :
    Simulates stream policy (stray count) Peg.failure where
  steady := steady_stray count
  leads := by
    intro reader hReady
    rw [stray]
    refine ((observes_advance count).leads_ready hReady).bind ?_ fun _ _ _ => rfl
    rintro halt _ ⟨fault, -, hFault⟩
    cases hFault

theorem simulates_refuse : Simulates stream policy refuse Peg.refuse where
  steady := steady_refuse
  leads := fun reader _ => .inl ⟨reader.cursor.position, rfl, rfl⟩

end Single

end Attempt

theorem Primitive.simulates_attempt (primitive : Primitive) :
    Simulates stream policy primitive.attempt (primitive.peg policy) where
  steady := primitive.steady_attempt
  leads := by
    intro reader hReady
    have hAttempt := (primitive.steady_attempt reader).and (primitive.leads_attempt hReady.lies_over)
    rw [hReady.policy_eq] at hAttempt
    simp only [Reader.verdict, peg]
    refine hAttempt.mono ?_ ?_
    · rintro found after ⟨hKeeps, content?, hContent, rfl, hCursor, hStart⟩
      rw [hContent]
      cases content? with
      | none => rfl
      | some content =>
        have hLength := (prefix_of_recognize hContent).length_le
        have hBefore := hReady.start_le
        have hPosition := hReady.position_le
        rw [List.length_drop] at hLength
        refine ⟨content.length, rfl, by rw [hCursor]; rfl, hKeeps.lies_over stream hReady.lies_over,
          hKeeps.calm hReady.calm, hKeeps.config_eq ▸ hReady.policy_eq, ?_, ?_⟩
        · rw [hCursor] at hStart ⊢
          dsimp only at hStart ⊢
          omega
        · rw [hCursor]
          simp only [Option.getD_some]
          omega
    · rintro halt _ ⟨-, fault, rfl, hStale | hCalm | hFault⟩
      · exact absurd hReady.start_le (Nat.not_le.2 hStale)
      · exact absurd hReady.calm hCalm
      · obtain ⟨place, rfl⟩ := eq_invalidUtf8_of_recognize hFault
        rw [hFault]
        exact .inl ⟨place, rfl, rfl⟩

open Attempt in
/-- A matcher does what its recognizer says if what the names of rules stand for does. -/
theorem Matcher.simulates_attempt {call : String → Attempt} {peg : String → Peg Match}
    (hCall : ∀ name, Simulates stream policy (call name) (peg name)) (m : Matcher) :
    Simulates stream policy (m.attempt call) (m.peg policy peg) := by
  induction m with
  | primitive p => exact p.simulates_attempt
  | seq tag steps ih =>
    rw [attempt, attempts_eq_map, Matcher.peg, pegs_eq_map]
    exact simulates_seq tag ih
  | named tag steps ih =>
    rw [attempt, namedAttempts_eq_map, Matcher.peg, namedPegs_eq_map]
    exact simulates_seqNamed tag Prod.fst ih
  | first ms ih =>
    rw [attempt, attempts_eq_map, Matcher.peg, pegs_eq_map]
    exact simulates_first ih
  | longest ms ih =>
    rw [attempt, attempts_eq_map, Matcher.peg, pegs_eq_map]
    exact simulates_longest ih
  | many tag least most element separator hElement hSeparator =>
    rw [attempt, attempt?_eq_map, Matcher.peg, peg?_eq_map]
    refine simulates_many tag least most hElement ?_
    cases separator with
    | none => exact .none
    | some separator => exact .some (hSeparator separator rfl)
  | optional inner ih => exact simulates_optional ih
  | keep inner ih => exact simulates_keep ih
  | rule name => exact hCall name
  | lookahead tag wanted inner ih => exact simulates_lookahead tag wanted ih
  | endOfInput tag => exact simulates_endOfInput tag
  | skip tag count => exact simulates_skip tag count
  | insert tag bytes => exact simulates_insert tag bytes
  | stray count => exact simulates_stray count
  | refuse => exact simulates_refuse

namespace Grammar

theorem simulates_call (grammar : Grammar) (depth : Nat) (name : String) :
    Simulates stream policy (grammar.call depth name) (grammar.peg policy depth name) := by
  induction depth generalizing name with
  | zero => exact ⟨.throw _, fun _ _ => .inr ⟨rfl, rfl⟩⟩
  | succ depth ih =>
    rw [call, peg]
    cases grammar.rules.lookup name with
    | none => exact .failure
    | some m => exact Matcher.simulates_attempt ih m

/-- There is a verdict that a run in the window shows, and no other one. -/
theorem leads_parse (grammar : Grammar) (m : Matcher) {reader : Reader}
    (hReady : reader.Ready stream policy) :
    ∃ verdict?, grammar.Decides policy m reader.cursor.position
        (stream.drop reader.cursor.position) verdict? ∧
      Leads (grammar.parse m) reader
        (fun found after => after.Ready stream policy ∧
          match found with
          | none => after.cursor = reader.cursor ∧ verdict? = some .unmatched
          | some t => ∃ consumed, verdict? = some (.matched t consumed) ∧
            after.cursor = { reader.cursor with position := reader.cursor.position + consumed })
        (fun halt after => after.cursor = reader.cursor ∧ halt.Shows verdict?) := by
  have hDepth : grammar.rules.length * (stream.length + 1 - reader.cursor.position) <
      grammar.depthFor reader := by
    have hLength := hReady.length_le_remaining
    exact Nat.lt_succ_of_le (Nat.mul_le_mul_left _ (by omega))
  refine ⟨_, decides_peg m (Nat.le_refl _) hReady.position_le hDepth, ?_⟩
  have hKeep := Attempt.leads_keep
    (Matcher.simulates_attempt (grammar.simulates_call (grammar.depthFor reader)) m) hReady
  have hParse : grammar.parse m reader =
      (m.attempt (grammar.call (grammar.depthFor reader))).keep reader := rfl
  unfold Leads at hKeep ⊢
  rw [hParse]
  exact hKeep

/-- Where plain evaluation comes to a match, or to none, so does a run in the window. -/
theorem leads_parse_found (grammar : Grammar) (m : Matcher) {reader : Reader}
    (hReady : reader.Ready stream policy) {depth : Nat} {found : Option Match} {width : Match → Nat}
    (hRun : m.peg policy (grammar.peg policy depth) reader.cursor.position
      (stream.drop reader.cursor.position) =
        some (found.elim .unmatched fun t => .matched t (width t))) :
    Leads (grammar.parse m) reader (fun result _ => result = found) (fun _ _ => False) := by
  obtain ⟨verdict?, hDecides, hParse⟩ := grammar.leads_parse m hReady
  have hVerdict : verdict? = _ := (hDecides _).1 ⟨depth, hRun⟩
  apply hParse.mono
  · rintro result after ⟨-, hResult⟩
    cases result with
    | none =>
      rw [hResult.2] at hVerdict
      cases found with
      | none => rfl
      | some t => cases hVerdict
    | some t =>
      obtain ⟨consumed, hMatched, -⟩ := hResult
      rw [hMatched] at hVerdict
      cases found with
      | none => cases hVerdict
      | some other =>
        cases hVerdict
        rfl
  · rintro halt after ⟨-, ⟨place, -, hMalformed⟩ | ⟨-, hNone⟩⟩
    · rw [hMalformed] at hVerdict
      cases found <;> cases hVerdict
    · rw [hNone] at hVerdict
      cases hVerdict

/-- Matching in the window agrees with plain evaluation of the bytes that the stream has at the
cursor: there is the same match, with the cursor past what it has consumed, or no match, or the
strict policy refuses the same byte. Only rules that go on without end lead to no result. -/
theorem parse_agrees (grammar : Grammar) (m : Matcher) {reader : Reader}
    (hReady : reader.Ready stream policy) :
    Leads (grammar.parse m) reader
      (fun found after =>
        match found with
        | none => grammar.Decides policy m reader.cursor.position
            (stream.drop reader.cursor.position) (some .unmatched) ∧
          after.cursor = reader.cursor
        | some t => ∃ consumed, grammar.Decides policy m reader.cursor.position
            (stream.drop reader.cursor.position) (some (.matched t consumed)) ∧
          after.cursor = { reader.cursor with position := reader.cursor.position + consumed })
      (fun halt after => after.cursor = reader.cursor ∧
        ((∃ place, halt = .fault (.invalidUtf8 place) ∧
            grammar.Decides policy m reader.cursor.position (stream.drop reader.cursor.position)
              (some (.malformed place))) ∨
          halt = .exhausted ∧
            grammar.Decides policy m reader.cursor.position (stream.drop reader.cursor.position)
              none)) := by
  obtain ⟨verdict?, hDecides, hParse⟩ := grammar.leads_parse m hReady
  refine hParse.mono ?_ ?_
  · rintro found after ⟨-, hFound⟩
    cases found with
    | none =>
      obtain ⟨hCursor, rfl⟩ := hFound
      exact ⟨hDecides, hCursor⟩
    | some t =>
      obtain ⟨consumed, rfl, hCursor⟩ := hFound
      exact ⟨consumed, hDecides, hCursor⟩
  · rintro halt after ⟨hCursor, ⟨place, rfl, rfl⟩ | ⟨rfl, rfl⟩⟩
    · exact ⟨hCursor, .inl ⟨place, rfl, hDecides⟩⟩
    · exact ⟨hCursor, .inr ⟨rfl, hDecides⟩⟩

/-- Brackets in brackets. -/
def brackets : Grammar where
  rules := [("nest", .seq .absent [.primitive (.literal .absent [40]), .optional (.rule "nest"),
    .primitive (.literal .absent [41])])]

/-- Brackets that begin after another byte, in a stream that is delivered with an interruption. -/
theorem parse_agrees_brackets :
    Leads (brackets.parse (.rule "nest"))
      { window := .ofSource ⟨[.data [120, 40], .failure .interrupted "", .data [40, 41, 41]]⟩
        cursor := { position := 1 } }
      (fun found after => after.cursor.position = 5 ∧ ∃ t, found = some t ∧
        t.content = [40, 40, 41, 41] ∧
        brackets.Decides .lenient (.rule "nest") 1 [40, 40, 41, 41] (some (.matched t 4)))
      (fun _ _ => False) := by
  have hRun : Leads (brackets.parse (.rule "nest"))
      { window := .ofSource ⟨[.data [120, 40], .failure .interrupted "", .data [40, 41, 41]]⟩
        cursor := { position := 1 } }
      (fun found after => (found.map (·.content), after.cursor.position) =
        (some [40, 40, 41, 41], 5))
      (fun _ _ => False) := by
    unfold Leads
    cbv
  have hReady : Reader.Ready [120, 40, 40, 41, 41] .lenient
      { window := .ofSource ⟨[.data [120, 40], .failure .interrupted "", .data [40, 41, 41]]⟩
        cursor := { position := 1 } } :=
    ⟨Window.over_content default _, by simp [Source.Calm, Window.ofSource], rfl, by decide, by decide⟩
  refine (hRun.and (parse_agrees brackets (.rule "nest") hReady)).mono ?_ (fun _ _ h => h.1)
  rintro found after ⟨hFound, hAgrees⟩
  obtain ⟨hContent, hPosition⟩ := Prod.mk.inj hFound
  obtain ⟨t, rfl, hText⟩ := Option.map_eq_some_iff.1 hContent
  obtain ⟨consumed, hDecides, hCursor⟩ := hAgrees
  rw [hCursor] at hPosition
  obtain rfl : consumed = 4 := by
    dsimp only at hPosition
    omega
  exact ⟨by rw [hCursor], t, rfl, hText, hDecides⟩

end Grammar

/-- What is told of a verdict on a whole source. -/
def Verdict.answer : Option (Verdict Match) → Except Halt (Option Match)
  | some (.matched t _) => .ok (some t)
  | some .unmatched => .ok none
  | some (.malformed place) => .error (.fault (.invalidUtf8 place))
  | none => .error .exhausted

namespace Matcher

/-- The start of a source is matched by evaluation of its content. -/
theorem parse_eq_answer (grammar : Grammar) (m : Matcher) {source : Source} (hCalm : source.Calm)
    {verdict? : Option (Verdict Match)}
    (hDecides : grammar.Decides (default : Config).policy m 0 source.content verdict?) :
    parse grammar m source = Verdict.answer verdict? := by
  have hReady : Reader.Ready source.content (default : Config).policy
      { window := .ofSource source, cursor := { position := 0 } } :=
    ⟨Window.over_content default source, hCalm, rfl, Nat.le_refl _, Nat.zero_le _⟩
  obtain ⟨shown?, hShown, hParse⟩ := grammar.leads_parse m hReady
  obtain rfl : shown? = verdict? := hShown.unique hDecides
  unfold parse
  unfold Leads at hParse
  split at hParse
  · next found after hRun =>
    rw [hRun]
    cases found with
    | none =>
      rw [hParse.2.2]
      rfl
    | some t =>
      obtain ⟨-, consumed, hVerdict, -⟩ := hParse
      rw [hVerdict]
      rfl
  · next halt after hRun =>
    rw [hRun]
    obtain ⟨-, ⟨place, rfl, hVerdict⟩ | ⟨rfl, hVerdict⟩⟩ := hParse
    · rw [hVerdict]
      rfl
    · rw [hVerdict]
      rfl

/-- The pieces in which a source delivers, and what interrupts it, make no difference. -/
theorem parse_eq_of_content_eq (grammar : Grammar) (m : Matcher) {source source' : Source}
    (hCalm : source.Calm) (hCalm' : source'.Calm) (hContent : source.content = source'.content) :
    parse grammar m source = parse grammar m source' := by
  obtain ⟨verdict?, hDecides⟩ := grammar.exists_decides (default : Config).policy m 0 source.content
  rw [parse_eq_answer grammar m hCalm hDecides]
  rw [hContent] at hDecides
  rw [parse_eq_answer grammar m hCalm' hDecides]

end Matcher

end StreamMatch
