import StreamMatch.Proofs.StreamDetermined

/-!
All that is done at a cursor below the root is determined by the stream: looks, reads, forks and the
commit of a fork (`Reading.Foreseeable`). Whatever is needed for it is retained afterwards, so that
it is there for what comes next (`Reading.Onward`).
-/

namespace StreamMatch

namespace Reading

open Window

variable {α β : Type} {base : Window} {want : Nat} {cursor : Cursor}

section Windowed

theorem onWindow_bind {action : Windowed α} {next : α → Windowed β} :
    onWindow (action >>= next) = onWindow action >>= fun value => onWindow (next value) := by
  funext reader
  simp only [onWindow, Bind.bind, EStateM.bind]
  cases action reader.window <;> rfl

variable {returned : α → Nat → Cursor → Prop} {halted : Halt → Nat → Cursor → Prop} {handed : Prop}

/-- A look at the window needs no more than there is. -/
theorem foretold_onWindow {action : Windowed α} (value : α)
    (hRun : ∀ window, base.Alike window → window.Filled want → action window = .ok value window)
    (hReturned : returned value want cursor) :
    Foretold handed base (onWindow action) want cursor returned halted := by
  refine .of_returns value (fun reader hScene => ⟨reader.reports, ?_⟩) hReturned
  rw [onWindow, hRun reader.window hScene.alike hScene.filled, ← hScene.cursor_eq]

theorem foretold_onWindow_fill (more : Nat) :
    Foretold True base (onWindow (fill more)) want cursor
      (fun _ need last => last = cursor ∧ more ≤ need) (fun _ _ _ => False) := by
  refine ⟨⟨.ok (), max want more, cursor⟩, Nat.le_max_left _ _, ?_, rfl, Nat.le_max_right _ _⟩
  intro reader hScene
  have hCursor := hScene.cursor_eq
  rcases Nat.le_total more want with hMore | hMore
  · have hFilled := hScene.filled
    unfold Leads
    rw [Nat.max_eq_left hMore, fill_of_filled hFilled]
    refine ⟨reader.reports, ?_⟩
    simp only [onWindow, fill_of_filled (hFilled.mono hMore), ← hCursor]
    rfl
  · rw [Nat.max_eq_right hMore]
    apply Leads.intro
    · intro _ window hRun
      refine ⟨reader.reports, ?_⟩
      simp only [onWindow, hRun, ← hCursor]
      rfl
    · intro fault window hRun
      exact fails_of_error hRun (by simp only [onWindow, hRun]; rfl)

theorem foretold_onWindow_peek (offset count : Nat) :
    Foretold True base (onWindow (Window.peek offset count)) want cursor
      (fun bytes need last => last = cursor ∧ bytes = (base.ahead.drop offset).take count ∧
        offset + count ≤ need) (fun _ _ _ => False) := by
  have hPeek : onWindow (Window.peek offset count) = (do
      onWindow (fill (offset + count))
      onWindow do return (← get).slice offset count) :=
    onWindow_bind
  rw [hPeek]
  refine (foretold_onWindow_fill (offset + count)).bind_handed (fun _ _ _ _ h => h) ?_
  rintro - need _ - ⟨rfl, hNeed⟩
  refine foretold_onWindow _ (fun window hAlike hFilled => ?_) ⟨rfl, rfl, hNeed⟩
  rw [← hAlike.slice_eq (hFilled.mono hNeed)]
  rfl

theorem foretold_onWindow_tolerate (offset : Nat) :
    Foretold True base (onWindow (Window.tolerate offset)) want cursor
      (fun _ _ last => last = cursor)
      (fun halt need last => halt = .fault (.invalidUtf8 (base.start + offset)) ∧ last = cursor ∧
        need = want) := by
  cases hPolicy : base.config.policy with
  | lenient =>
    refine foretold_onWindow () (fun window hAlike _ => ?_) rfl
    rw [← hAlike.config_eq] at hPolicy
    rw [Window.tolerate, get_bind_apply, hPolicy]
    rfl
  | strict =>
    refine .of_halts (fun reader hScene => ⟨reader.reports, ?_⟩) ⟨rfl, rfl, rfl⟩
    rw [← hScene.alike.config_eq] at hPolicy
    rw [← hScene.alike.start_eq, ← hScene.cursor_eq]
    rw [onWindow, Window.tolerate, get_bind_apply, hPolicy]
    rfl

/-- The bytes of a character that is found are needed for it, and so is the lead byte in any
case. -/
theorem foretold_onWindow_segment (offset : Nat) :
    Foretold True base (onWindow (Window.segment offset)) want cursor
      (fun found need last => last = cursor ∧ (found.isSome → offset + 1 ≤ base.reach need) ∧
        ∀ c width, found = some (.char c width) → offset + width ≤ base.reach need)
      (fun _ _ _ => False) := by
  rw [Window.segment, onWindow_bind]
  refine (foretold_onWindow_peek offset 1).bind_handed (fun _ _ _ _ h => h) ?_
  rintro bytes need last - ⟨rfl, rfl, hLead⟩
  cases hFront : base.ahead.drop offset with
  | nil => exact .pure ⟨rfl, by simp, by simp⟩
  | cons lead rest =>
    have hLength := congrArg List.length hFront
    rw [List.length_drop, List.length_cons] at hLength
    change Foretold True base (onWindow do
      let tail ← Window.peek (offset + 1) (Utf8.leadWidth lead - 1)
      return some (Utf8.Segment.of lead tail)) need last _ _
    rw [onWindow_bind]
    refine (foretold_onWindow_peek (offset + 1) (Utf8.leadWidth lead - 1)).bind_handed
      (fun _ _ _ _ h => h) ?_
    rintro tail more _ hMore ⟨rfl, rfl, hTail⟩
    refine .pure ⟨rfl, fun _ => by unfold reach; omega, ?_⟩
    intro c width hFound
    obtain ⟨hWidth, hPos, hEnough⟩ := Utf8.Segment.of_eq_char (Option.some.inj hFound)
    rw [List.length_take, List.length_drop] at hEnough
    unfold reach
    omega

theorem foretold_onWindow_decode (offset count : Nat) :
    Foretold True base (onWindow (Window.decode offset count)) want cursor
      (fun decoded need last => last = cursor ∧ offset + decoded.length ≤ max offset (base.reach need))
      (fun halt _ last => last = cursor ∧ ∃ place, halt = .fault (.invalidUtf8 place)) := by
  induction count generalizing offset want with
  | zero => exact .pure ⟨rfl, Nat.le_max_left _ _⟩
  | succ count ih =>
    rw [Window.decode, onWindow_bind]
    refine (foretold_onWindow_segment offset).bind_handed (fun _ _ _ _ h => h.elim) ?_
    rintro found need last - ⟨rfl, hLead, hWidth⟩
    -- Past the segment decoding goes on, which needs what the segment needs and perhaps more.
    have hRest (c : Char) (width : Nat) {more : Nat} (hMore : need ≤ more)
        (hSegment : offset + width ≤ base.reach need) :
        Foretold True base (onWindow do return (← Window.decode (offset + width) count).cons c width) more
          last
          (fun decoded need last' => last' = last ∧
            offset + decoded.length ≤ max offset (base.reach need))
          (fun halt _ last' => last' = last ∧ ∃ place, halt = .fault (.invalidUtf8 place)) := by
      rw [onWindow_bind]
      refine (ih (offset + width)).bind_handed (fun _ _ _ _ h => h) ?_
      rintro decoded need' _ hNeed ⟨rfl, hLength⟩
      have hReach := base.reach_mono (Nat.le_trans hMore hNeed)
      refine .pure ⟨rfl, ?_⟩
      simp only [Decoded.cons]
      omega
    cases found with
    | none => exact .pure ⟨rfl, Nat.le_max_left _ _⟩
    | some segment =>
      have hOne := hLead rfl
      cases segment with
      | char c width => exact hRest c width (Nat.le_refl _) (hWidth c width rfl)
      | malformed =>
        change Foretold True base (onWindow do
          Window.tolerate offset
          return (← Window.decode (offset + 1) count).cons Utf8.replacement 1) need last _ _
        rw [onWindow_bind]
        refine (foretold_onWindow_tolerate offset).bind_handed (fun _ _ _ _ h => ⟨h.2.1, _, h.1⟩) ?_
        rintro - more _ hMore rfl
        exact hRest Utf8.replacement 1 hMore hOne
      | truncated =>
        change Foretold True base (onWindow do
          Window.tolerate offset
          return Decoded.nil.cons Utf8.replacement 1) need last _ _
        rw [onWindow_bind]
        refine (foretold_onWindow_tolerate offset).bind_handed (fun _ _ _ _ h => ⟨h.2.1, _, h.1⟩) ?_
        rintro - more _ hMore rfl
        have hReach := base.reach_mono hMore
        refine .pure ⟨rfl, ?_⟩
        simp only [Decoded.cons, Decoded.nil]
        omega

/-- At a cursor that is not before the window, a place in the stream is as far into the window as it
is from the start of it. -/
theorem Foretold.at (action : Nat → Windowed α) (hStart : base.start ≤ cursor.position)
    (hAction : Foretold handed base (onWindow (action (cursor.position - base.start))) want cursor
      returned halted) :
    Foretold handed base (do let offset ← position; onWindow (do action (← relative offset))) want cursor
      returned halted := by
  refine hAction.congr fun reader hScene => ?_
  obtain ⟨hAlike, -, rfl⟩ := hScene
  rw [← hAlike.start_eq] at hStart ⊢
  change onWindow (do action (← relative reader.cursor.position)) reader = _
  simp only [onWindow, Bind.bind, EStateM.bind, relative_eq hStart]

end Windowed

/-- A cursor below the root that lies in the window, among the bytes that are known to be read. -/
structure Placed (base : Window) (want : Nat) (cursor : Cursor) : Prop where
  deep : cursor.depth ≠ 0
  start_le : base.start ≤ cursor.position
  le_reach : cursor.position ≤ base.start + base.reach want

/-- The cursor further on, or where it was. -/
structure Onward (base : Window) (cursor : Cursor) (need : Nat) (last : Cursor) : Prop where
  position_le : cursor.position ≤ last.position
  le_reach : last.position ≤ base.start + base.reach need
  depth_eq : last.depth = cursor.depth

section

variable {need more : Nat} {last later : Cursor}

theorem Placed.mono (hPlaced : Placed base want cursor) (hNeed : want ≤ need) :
    Placed base need cursor :=
  ⟨hPlaced.deep, hPlaced.start_le,
    Nat.le_trans hPlaced.le_reach (Nat.add_le_add_left (base.reach_mono hNeed) _)⟩

theorem Placed.fork (hPlaced : Placed base want cursor) : Placed base want cursor.fork :=
  ⟨Nat.succ_ne_zero _, hPlaced.start_le, hPlaced.le_reach⟩

theorem Placed.onward (hPlaced : Placed base want cursor) : Onward base cursor want cursor :=
  ⟨Nat.le_refl _, hPlaced.le_reach, rfl⟩

theorem Onward.mono (hOnward : Onward base cursor need last) (hMore : need ≤ more) :
    Onward base cursor more last :=
  ⟨hOnward.position_le,
    Nat.le_trans hOnward.le_reach (Nat.add_le_add_left (base.reach_mono hMore) _),
    hOnward.depth_eq⟩

theorem Onward.placed (hOnward : Onward base cursor need last) (hPlaced : Placed base want cursor) :
    Placed base need last :=
  ⟨hOnward.depth_eq ▸ hPlaced.deep, Nat.le_trans hPlaced.start_le hOnward.position_le,
    hOnward.le_reach⟩

theorem Onward.trans (hFirst : Onward base cursor need last) (hSecond : Onward base last more later) :
    Onward base cursor more later :=
  ⟨Nat.le_trans hFirst.position_le hSecond.position_le, hSecond.le_reach,
    hSecond.depth_eq.trans hFirst.depth_eq⟩

end

section

variable {handed : Prop}

/-- The cursor is further on. If failures are `handed` on, it was not one of these that halted the
run. -/
def Stopped (handed : Prop) (base : Window) (cursor : Cursor) (halt : Halt) (need : Nat)
    (last : Cursor) : Prop :=
  (handed → ¬ halt.IsIo) ∧ Onward base cursor need last

/-- Wherever below the root it is run, the course of the action is laid down. -/
structure Foreseeable (handed : Prop) (action : Reading α) : Prop where
  addsNoFailure : AddsNoFailure action
  foretold {base : Window} {want : Nat} {cursor : Cursor} (hPlaced : Placed base want cursor) :
    Foretold handed base action want cursor (fun _ => Onward base cursor)
      (Stopped handed base cursor)

theorem not_isIo_invalidUtf8 (place : Nat) : ¬ (Halt.fault (.invalidUtf8 place)).IsIo := by
  rintro ⟨kind, message, hIo⟩
  cases hIo

theorem not_isIo_exhausted : ¬ Halt.exhausted.IsIo := by
  rintro ⟨kind, message, hIo⟩
  cases hIo

namespace Foreseeable

variable {action : Reading α} {next : α → Reading β}

theorem pure (value : α) : Foreseeable handed (Pure.pure value : Reading α) where
  addsNoFailure := .pure value
  foretold hPlaced := .pure hPlaced.onward

theorem throw {halt : Halt} (hHalt : handed → ¬ halt.IsIo) :
    Foreseeable handed (MonadExcept.throw halt : Reading α) where
  addsNoFailure := .throw halt
  foretold hPlaced := .throw ⟨hHalt, hPlaced.onward⟩

theorem bind (hAction : Foreseeable handed action)
    (hNext : ∀ value, Foreseeable handed (next value)) : Foreseeable handed (action >>= next) where
  addsNoFailure := hAction.addsNoFailure.bind fun value => (hNext value).addsNoFailure
  foretold {base want cursor} hPlaced := by
    apply (hAction.foretold hPlaced).bind
    · exact fun _ _ _ _ hHalts => hHalts
    · exact fun _ reader _ => AddsNoFailure.after (fun value => (hNext value).addsNoFailure) _ _
    · intro value need last _ hOnward
      apply ((hNext value).foretold (hOnward.placed hPlaced)).mono
      · exact fun _ _ _ _ hLater => hOnward.trans hLater
      · exact fun _ _ _ _ hHalts => ⟨hHalts.1, hOnward.trans hHalts.2⟩

/-- An action that hands failures on is foreseeable in any case. -/
theorem of_handed (hAction : Foreseeable True action) : Foreseeable handed action where
  addsNoFailure := hAction.addsNoFailure
  foretold hPlaced := by
    apply (hAction.foretold hPlaced).of_handed.mono
    · exact fun _ _ _ _ hOnward => hOnward
    · exact fun _ _ _ _ hHalts => ⟨fun _ => hHalts.1 trivial, hHalts.2⟩

end Foreseeable

theorem foretold_position :
    Foretold handed base position want cursor
      (fun offset need last => offset = cursor.position ∧ need = want ∧ last = cursor)
      (fun _ _ _ => False) := by
  refine .of_returns _ (fun reader hScene => ⟨reader.reports, ?_⟩) ⟨rfl, rfl, rfl⟩
  rw [← hScene.cursor_eq]
  rfl

theorem foreseeable_position : Foreseeable handed position where
  addsNoFailure := steady_position.addsNoFailure
  foretold hPlaced := by
    refine foretold_position.mono ?_ (fun _ _ _ _ h => h.elim)
    rintro offset need last - ⟨-, rfl, rfl⟩
    exact hPlaced.onward

theorem foretold_moveTo (offset : Nat) :
    Foretold handed base (moveTo offset) want cursor
      (fun _ need last => need = want ∧ last = { cursor with position := offset })
      (fun _ _ _ => False) := by
  refine .of_returns () (fun reader hScene => ⟨reader.reports, ?_⟩) ⟨rfl, rfl⟩
  rw [← hScene.cursor_eq]
  rfl

/-- A report changes nothing but the reports. -/
theorem foretold_report (report : Report) :
    Foretold handed base (Reading.report report) want cursor
      (fun _ need last => need = want ∧ last = cursor) (fun _ _ _ => False) := by
  refine .of_returns () (fun reader hScene => ?_) ⟨rfl, rfl⟩
  have hReport := leads_report report reader
  rw [← hScene.cursor_eq]
  unfold Leads at hReport
  split at hReport
  · next after hRun =>
    obtain ⟨reports, rfl⟩ := hReport
    exact ⟨reports, hRun⟩
  · exact hReport.elim

end

section Reads

variable (hStart : base.start ≤ cursor.position)

include hStart

theorem foretold_peek (count : Nat) :
    Foretold True base (peek count) want cursor
      (fun bytes need last => last = cursor ∧
        cursor.position + bytes.length ≤ max cursor.position (base.start + base.reach need))
      (fun _ _ _ => False) := by
  refine .at (Window.peek · count) hStart ?_
  refine (foretold_onWindow_peek _ count).mono ?_ (fun _ _ _ _ h => h)
  rintro bytes need last - ⟨rfl, rfl, hNeed⟩
  refine ⟨rfl, ?_⟩
  rw [List.length_take, List.length_drop]
  unfold reach
  omega

theorem foretold_peekChars (count : Nat) :
    Foretold True base (peekChars count) want cursor
      (fun decoded need last => last = cursor ∧
        cursor.position + decoded.length ≤ max cursor.position (base.start + base.reach need))
      (fun halt _ last => last = cursor ∧ ∃ place, halt = .fault (.invalidUtf8 place)) := by
  refine .at (Window.decode · count) hStart ?_
  refine (foretold_onWindow_decode _ count).mono ?_ (fun _ _ _ _ h => h)
  rintro decoded need last - ⟨rfl, hLength⟩
  exact ⟨rfl, by omega⟩

theorem foretold_isAtEnd :
    Foretold True base isAtEnd want cursor (fun _ _ last => last = cursor) (fun _ _ _ => False) := by
  let action (distance : Nat) : Windowed Bool := do
    fill (distance + 1)
    return decide ((← get).length ≤ distance)
  refine .at action hStart ?_
  have hAction (distance : Nat) : onWindow (action distance) = (do
      onWindow (fill (distance + 1))
      onWindow do return decide ((← get).length ≤ distance)) :=
    onWindow_bind
  rw [hAction]
  refine (foretold_onWindow_fill _).bind_handed (fun _ _ _ _ h => h.elim) ?_
  rintro - need last - ⟨rfl, hNeed⟩
  refine foretold_onWindow (decide (base.ahead.length ≤ last.position - base.start))
    (fun window hAlike hFilled => ?_) rfl
  have hLength : window.length ≤ last.position - base.start ↔
      base.ahead.length ≤ last.position - base.start := by
    have hRetained := window.length_le_length_ahead
    have hReach := hFilled.reach_le_length
    rw [reach, hAlike.ahead_eq] at hReach
    rw [hAlike.ahead_eq] at hRetained
    omega
  change EStateM.Result.ok (decide (window.length ≤ _)) window = _
  rw [decide_eq_decide.2 hLength]

end Reads

/-- Bytes that are found can be moved past. -/
theorem foretold_moving {action : Reading α} {length : α → Nat} {answer : α → β}
    {halted : Halt → Nat → Cursor → Prop} (hPlaced : Placed base want cursor)
    (hAction : Foretold True base action want cursor
      (fun value need last => last = cursor ∧
        cursor.position + length value ≤ max cursor.position (base.start + base.reach need)) halted) :
    Foretold True base
      (do
        let value ← action
        moveTo ((← position) + length value)
        return answer value)
      want cursor (fun _ => Onward base cursor) halted := by
  refine hAction.bind_handed (fun _ _ _ _ h => h) ?_
  rintro value need last hNeed ⟨rfl, hLength⟩
  refine foretold_position.bind_handed (fun _ _ _ _ h => h.elim) ?_
  rintro offset need' last' - ⟨rfl, rfl, rfl⟩
  refine (foretold_moveTo _).bind_handed (fun _ _ _ _ h => h.elim) ?_
  rintro - need'' last'' - ⟨rfl, rfl⟩
  have hReach := (hPlaced.mono hNeed).le_reach
  have hEnd : last'.position + length value ≤ base.start + base.reach need'' := by omega
  exact .pure ⟨Nat.le_add_right _ _, hEnd, rfl⟩

theorem foreseeable_peek (count : Nat) : Foreseeable True (peek count) where
  addsNoFailure := (observes_peek count).steady.addsNoFailure
  foretold hPlaced := by
    refine (foretold_peek hPlaced.start_le count).mono ?_ (fun _ _ _ _ h => h.elim)
    rintro bytes need last hNeed ⟨rfl, -⟩
    exact (hPlaced.mono hNeed).onward

theorem foreseeable_peekChars (count : Nat) : Foreseeable True (peekChars count) where
  addsNoFailure := (observes_peekChars count).steady.addsNoFailure
  foretold hPlaced := by
    refine (foretold_peekChars hPlaced.start_le count).mono ?_ ?_
    · rintro decoded need last hNeed ⟨rfl, -⟩
      exact (hPlaced.mono hNeed).onward
    · rintro halt need last hNeed ⟨rfl, place, rfl⟩
      exact ⟨fun _ => not_isIo_invalidUtf8 place, (hPlaced.mono hNeed).onward⟩

theorem foreseeable_isAtEnd : Foreseeable True isAtEnd where
  addsNoFailure := observes_isAtEnd.steady.addsNoFailure
  foretold hPlaced := by
    refine (foretold_isAtEnd hPlaced.start_le).mono ?_ (fun _ _ _ _ h => h.elim)
    rintro atEnd need last hNeed rfl
    exact (hPlaced.mono hNeed).onward

theorem foreseeable_read (count : Nat) : Foreseeable True (read count) where
  addsNoFailure := (observes_read count).steady.addsNoFailure
  foretold hPlaced := (foretold_moving hPlaced (foretold_peek hPlaced.start_le count)).mono
    (fun _ _ _ _ h => h) (fun _ _ _ _ h => h.elim)

theorem foreseeable_readChars (count : Nat) : Foreseeable True (readChars count) where
  addsNoFailure := (observes_readChars count).steady.addsNoFailure
  foretold hPlaced := by
    refine (foretold_moving hPlaced (foretold_peekChars hPlaced.start_le count)).mono
      (fun _ _ _ _ h => h) ?_
    rintro halt need last hNeed ⟨rfl, place, rfl⟩
    exact ⟨fun _ => not_isIo_invalidUtf8 place, (hPlaced.mono hNeed).onward⟩

theorem foreseeable_advance (count : Nat) : Foreseeable True (advance count) :=
  (foreseeable_read count).bind fun _ => .pure _

/-- The bytes before a cursor that is placed are retained, so that it is located without a read. -/
theorem foreseeable_location : Foreseeable True location where
  addsNoFailure := by
    intro reader
    simp only [location, Window.locationAt, leads_bind, leads_position, leads_onWindow, leads_get,
      leads_pure]
    apply (Window.leads_relative _ _).mono
    · rintro distance _ ⟨rfl, -⟩
      exact Nat.le_refl _
    · rintro fault _ ⟨rfl, -⟩
      exact Nat.le_refl _
  foretold {base want cursor} hPlaced := by
    let action (distance : Nat) : Windowed Location := do
      let window ← get
      return window.origin.after (window.carry ++ window.slice 0 distance)
    refine Foretold.at action hPlaced.start_le ?_
    refine foretold_onWindow
      (base.origin.after (base.carry ++ base.ahead.take (cursor.position - base.start)))
      (fun window hAlike hFilled => ?_) hPlaced.onward
    have hReach := hPlaced.le_reach
    have hDistance : window.Filled (0 + (cursor.position - base.start)) := by
      refine hFilled.mono ?_
      unfold reach at hReach
      omega
    have hSlice := hAlike.slice_eq hDistance
    rw [List.drop_zero] at hSlice
    rw [← hSlice, ← hAlike.origin_eq, ← hAlike.carry_eq]
    rfl

section

variable {handed : Prop}

/-- Below the root a commit discards nothing. -/
theorem foretold_commit (fork : Cursor) (hDeep : cursor.depth ≠ 0) :
    Foretold handed base (commit fork) want cursor
      (fun _ need last => need = want ∧ fork.depth = cursor.depth + 1 ∧
        last = { cursor with position := fork.position })
      (fun halt need last => need = want ∧ fork.depth ≠ cursor.depth + 1 ∧ halt = .misplaced ∧
        last = cursor) := by
  by_cases hDepth : fork.depth = cursor.depth + 1
  · refine .of_returns () (fun reader hScene => ⟨reader.reports, ?_⟩) ⟨rfl, hDepth, rfl⟩
    obtain ⟨-, -, rfl⟩ := hScene
    rw [commit_eq, if_pos hDepth, if_pos hDeep]
  · refine .of_halts (fun reader hScene => ⟨reader.reports, ?_⟩) ⟨rfl, hDepth, rfl, rfl⟩
    obtain ⟨-, -, rfl⟩ := hScene
    rw [commit_eq, if_neg hDepth]

/-- A fork that went on from here can be committed here. -/
theorem foretold_commit_onward {fork : Cursor} (hPlaced : Placed base want cursor)
    (hFork : Onward base cursor.fork want fork) :
    Foretold handed base (commit fork) want cursor (fun _ => Onward base cursor)
      (fun _ _ _ => False) := by
  refine (foretold_commit fork hPlaced.deep).mono ?_ ?_
  · rintro - need last - ⟨rfl, -, rfl⟩
    exact ⟨hFork.position_le, hFork.le_reach, rfl⟩
  · rintro halt need last - ⟨-, hDepth, -⟩
    exact absurd hFork.depth_eq hDepth

/-- On a fork the action takes the course that it takes with the fork at hand, and the cursor stays
where it was. -/
theorem Takes.onFork {action : Reading α} {course : Course α}
    (hTakes : Takes handed base action want cursor.fork course) :
    Takes handed base (Reading.onFork action) want cursor
      ⟨course.outcome.map (·, course.cursor), course.need, cursor⟩ := by
  intro reader hReader
  have hFork : Scene base want cursor.fork { reader with cursor := reader.cursor.fork } :=
    ⟨hReader.alike, hReader.filled, congrArg Cursor.fork hReader.cursor_eq⟩
  obtain ⟨-, -, rfl⟩ := hReader
  obtain ⟨outcome, need, fork⟩ := course
  refine (hTakes _ hFork).mono ?_ ?_
  · rintro - window ⟨reports, hRun⟩
    refine ⟨reports, ?_⟩
    cases outcome <;> simp only [Reading.onFork, hRun, Course.finish, Except.map]
  · exact fun _ _ hFails => leads_onFork.2 hFails

/-- On a fork everything goes as it would with the fork at hand. -/
theorem foretold_onFork {action : Reading α} {returned : α → Nat → Cursor → Prop}
    {halted : Halt → Nat → Cursor → Prop}
    (hAction : Foretold handed base action want cursor.fork returned halted) :
    Foretold handed base (onFork action) want cursor
      (fun result need last => last = cursor ∧ returned result.1 need result.2)
      (fun halt need last => last = cursor ∧ ∃ fork, halted halt need fork) := by
  obtain ⟨⟨outcome, need, fork⟩, hNeed, hTakes, hEnd⟩ := hAction
  refine ⟨_, hNeed, hTakes.onFork, ?_⟩
  cases outcome with
  | ok value => exact ⟨rfl, hEnd⟩
  | error halt => exact ⟨rfl, fork, hEnd⟩

/-- A run on a fork leaves the cursor at hand where it is, and the fork can be committed to it. -/
theorem Foreseeable.onFork {action : Reading α} (hAction : Foreseeable handed action)
    (hPlaced : Placed base want cursor) :
    Foretold handed base (Reading.onFork action) want cursor
      (fun result need last => last = cursor ∧ Onward base cursor.fork need result.2)
      (fun halt need last => last = cursor ∧ Stopped handed base cursor halt need last) := by
  refine (foretold_onFork (hAction.foretold hPlaced.fork)).mono (fun _ _ _ _ h => h) ?_
  rintro halt need last hNeed ⟨rfl, fork, hHalt, -⟩
  exact ⟨rfl, hHalt, (hPlaced.mono hNeed).onward⟩

end

end Reading

end StreamMatch
