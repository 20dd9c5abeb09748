import Mathlib
import StreamMatch.Proofs.Bounds
import StreamMatch.Proofs.FaultPropagation
import StreamMatch.Proofs.Locating
import StreamMatch.Session

/-!
What a window has in its books. Whatever is done with it and with the cursors over it, and whatever
fails meanwhile, all that has happened to it is that its source was read and bytes were discarded, and
it agrees with that to the byte (`Session.accounts_foldl`): what was delivered and not discarded is
retained, and nothing else.
-/

namespace StreamMatch

namespace Window

/-- How many bytes an event has discarded. -/
def Event.discarded : Event → Nat
  | .read _ => 0
  | .discard count => count

/-- How many bytes have been discarded. -/
def discardedBy : (events : List Event) → Nat
  | [] => 0
  | event :: rest => event.discarded + discardedBy rest

theorem discardedBy_append (events later : List Event) :
    discardedBy (events ++ later) = discardedBy events + discardedBy later := by
  induction events with
  | nil => rw [List.nil_append, discardedBy, Nat.zero_add]
  | cons event rest ih => rw [List.cons_append, discardedBy, discardedBy, ih, Nat.add_assoc]

/-- The bytes that the source will still deliver to the window. -/
def coming (window : Window) : List UInt8 :=
  if window.ended then [] else window.source.content

section

variable {before after : Window} {event : Event} {events later : List Event}

theorem Step.start_eq (hStep : Step before event after) :
    after.start = before.start + event.discarded := by
  cases hStep with
  | read hOpen hRead => exact start_receive _ _ _
  | discard count width => exact start_discard before count width

/-- What an event delivers was to come before, and what comes after it is still to come. -/
theorem Step.coming_eq (hStep : Step before event after) :
    before.coming = event.delivered ++ after.coming := by
  cases hStep with
  | discard count width =>
    obtain ⟨-, hSource, hEnded⟩ := before.rest_discard count width
    rw [coming, coming, hSource, hEnded]
    rfl
  | @read delivery rest hOpen hRead =>
    have hComing : before.coming = before.source.content := by
      rw [coming, if_neg (by simp [hOpen])]
    rw [hComing]
    cases delivery with
    | failed kind message =>
      rw [Source.content_of_read_failed hRead]
      simp [coming, receive, hOpen, Event.delivered]
    | bytes bytes =>
      cases bytes with
      | nil =>
        rw [Source.content_of_read_nil before.config.chunkSize_pos hRead]
        rfl
      | cons byte more =>
        rw [Source.content_of_read_bytes (List.cons_ne_nil _ _) hRead]
        simp [coming, receive, hOpen, Event.delivered]

theorem Step.ended_iff (hStep : Step before event after) :
    after.ended = true ↔ before.ended = true ∨ event = .read (.bytes []) := by
  cases hStep with
  | discard count width => simp [(before.rest_discard count width).2.2]
  | @read delivery rest hOpen hRead =>
    unfold receive
    split <;> simp_all

theorem Passes.start_eq (hPasses : before.Passes events after) :
    after.start = before.start + discardedBy events := by
  induction hPasses with
  | refl => rfl
  | snoc _ hLast ih =>
    rw [hLast.start_eq, ih, discardedBy_append, Nat.add_assoc]
    rfl

theorem Passes.coming_eq (hPasses : before.Passes events after) :
    before.coming = deliveredBy events ++ after.coming := by
  induction hPasses with
  | refl => rfl
  | snoc _ hLast ih =>
    rw [ih, hLast.coming_eq, deliveredBy, deliveredBy, List.flatMap_append, List.flatMap_singleton,
      List.append_assoc]

theorem Passes.ended_iff (hPasses : before.Passes events after) :
    after.ended = true ↔ before.ended = true ∨ .read (.bytes []) ∈ events := by
  induction hPasses with
  | refl => simp
  | snoc _ hLast ih =>
    rw [hLast.ended_iff, ih, List.mem_append, List.mem_singleton, or_assoc, eq_comm (a := Event.read _)]

/-- Events can be told apart into those before and those after some point. -/
theorem Passes.split (hPasses : before.Passes (events ++ later) after) :
    ∃ middle, before.Passes events middle ∧ middle.Passes later after := by
  generalize hAll : events ++ later = all at hPasses
  induction hPasses generalizing later with
  | refl =>
    obtain ⟨rfl, rfl⟩ := List.append_eq_nil_iff.1 hAll
    exact ⟨before, .refl, .refl⟩
  | @snoc front event middle after hPrior hLast ih =>
    obtain rfl | ⟨rest, last, rfl⟩ := List.eq_nil_or_concat' later
    · rw [List.append_nil] at hAll
      exact ⟨after, hAll ▸ .snoc hPrior hLast, .refl⟩
    · rw [← List.append_assoc] at hAll
      obtain ⟨rfl, hEvent⟩ := List.append_inj' hAll rfl
      obtain rfl := List.singleton_inj.1 hEvent
      obtain ⟨start, hFirst, hSecond⟩ := ih rfl
      exact ⟨start, hFirst, .snoc hSecond hLast⟩

/-- A window that has ended reads nothing. -/
theorem Passes.not_read (hPasses : before.Passes events after) (hEnded : before.ended = true)
    (delivery : Delivery) : .read delivery ∉ events := by
  induction hPasses with
  | refl => simp
  | snoc hPrior hLast ih =>
    intro hMem
    rcases List.mem_append.1 hMem with hMem | hMem
    · exact ih hMem
    · obtain rfl := List.mem_singleton.1 hMem
      cases hLast with
      | read hOpen hRead => simp [hPrior.ended_iff.2 (.inl hEnded)] at hOpen

/-- The end of the source is the last that is read of it. -/
theorem Passes.not_read_after_end (hPasses : before.Passes (events ++ .read (.bytes []) :: later) after)
    (delivery : Delivery) : .read delivery ∉ later := by
  rw [← List.singleton_append, ← List.append_assoc] at hPasses
  obtain ⟨middle, hFirst, hSecond⟩ := hPasses.split
  apply hSecond.not_read (hFirst.ended_iff.2 (.inr ?_))
  exact List.mem_append_right _ (List.mem_singleton_self _)

end

/-- A window agrees with what has happened to it since it was opened on this source. -/
structure Accounts (source : Source) (events : List Event) (window : Window) : Prop where
  head_le : window.head ≤ window.bytes.size
  retained_eq : window.retained = (deliveredBy events).drop window.start
  end_eq : window.start + window.length = (deliveredBy events).length
  start_eq : window.start = discardedBy events
  delivered : deliveredBy events <+: source.content
  ended_iff : window.ended = true ↔ .read (.bytes []) ∈ events
  /-- The end of the source is the last that is read of it. -/
  last_read : ∀ front rest, events = front ++ .read (.bytes []) :: rest →
    ∀ delivery, .read delivery ∉ rest
  /-- What is looked at stands in the stream, and there is less of it only at its end. -/
  peek : ∀ offset count, Leads (peek offset count) window
    (fun bytes after => bytes = (source.content.drop (window.start + offset)).take count ∧
      (bytes.length < count → after.ended = true))
    (fun _ _ => True)

/-- No index is out of range, whatever is done next. -/
structure InRange (window : Window) : Prop where
  fill : ∀ want, Checked.fill want window.store = Checked.image (fill want window)
  peek : ∀ offset count,
    Checked.peek offset count window.store = Checked.image (peek offset count window)
  decode : ∀ offset count,
    Checked.decode offset count window.store = Checked.image (decode offset count window)
  discard : ∀ count, Checked.discard count window.store = .ok () (window.discard count).store

theorem inRange (window : Window) : window.InRange where
  fill want := Checked.fill_store want window
  peek offset count := Checked.peek_store offset count window
  decode offset count := Checked.decode_store offset count window
  discard count := Checked.discard_store count window

/-- A look finds less than was asked for only where the stream ends. -/
theorem leads_peek_ended (offset count : Nat) (window : Window) :
    Leads (peek offset count) window (fun bytes after => bytes.length < count → after.ended = true)
      (fun _ _ => True) := by
  apply (leads_fill_draws (offset + count) window).bind (fun _ _ _ => trivial)
  rintro - after ⟨-, hFilled⟩
  simp only [leads_bind, leads_get, leads_pure]
  intro hShort
  apply hFilled.resolve_left
  intro hEnough
  rw [slice_eq_take_drop, List.length_take, List.length_drop, length_retained] at hShort
  omega

theorem Passes.accounts {source : Source} {config : Config} {events : List Event} {window : Window}
    (hPasses : (ofSource source config).Passes events window) : window.Accounts source events := by
  have hHolds : window.Holds (deliveredBy events) := (Holds.ofSource source config).passes hPasses
  have hStart := hPasses.start_eq
  have hComing : source.content = deliveredBy events ++ window.coming := hPasses.coming_eq
  have hEnded := hPasses.ended_iff
  have hOver : window.ahead = source.content.drop window.start := by
    rw [hComing, List.drop_append_of_le_length hHolds.start_le, ← hHolds.retained_eq]
    rfl
  refine ⟨window.head_le, hHolds.retained_eq, hHolds.start_add_length, ?_, ?_, ?_, ?_, ?_⟩
  · exact hStart.trans (Nat.zero_add _)
  · exact ⟨_, hComing.symm⟩
  · simpa [ofSource] using hEnded
  · rintro front rest rfl delivery
    exact hPasses.not_read_after_end delivery
  · intro offset count
    apply ((leads_peek offset count window).and (leads_peek_ended offset count window)).mono
    · rintro bytes after ⟨⟨-, hBytes, -⟩, hShort⟩
      rw [hOver, List.drop_drop] at hBytes
      exact ⟨hBytes, hShort⟩
    · exact fun _ _ _ => trivial

end Window

/-- One thing done with a session: its window is used, or a command is carried out for one of its
cursors. -/
inductive Operation where
  | use (use : Window.Use)
  | turn (name : String) (command : Command)

namespace Session

open Reading

/-- The session after an operation, whether it came off or not. -/
def operate (grammar : Grammar) (session : Session) : Operation → Session
  | .use use => { session with window := use.apply columnWidth session.window }
  | .turn name command => (session.step grammar name command).session

/-- What happens to a window when it is used. -/
theorem exists_passes_use (use : Window.Use) (window : Window) :
    ∃ events, window.Passes events (use.apply columnWidth window) := by
  have hUse := use.leads_action columnWidth window
  rw [Window.Use.apply]
  split
  · next value after hRun =>
    obtain ⟨middle, count, -, hProceeds, rfl⟩ := hUse.of_ok hRun
    obtain ⟨events, hPasses, -⟩ := hProceeds.trans (middle.proceeds_discard count)
    exact ⟨events, hPasses⟩
  · next fault after hRun =>
    obtain ⟨-, events, hPasses, -⟩ := hUse.of_error hRun
    exact ⟨events, hPasses⟩

/-- What happens to the window when an action is run at one of the cursors. -/
theorem exists_passes_run {α : Type} {action : Reading α} (hAction : Candid action)
    (session : Session) (name : String) (cursor : Cursor) (answer : α → Answer) :
    ∃ events, session.window.Passes events (session.run name cursor action answer).session.window := by
  have hRuns := hAction { window := session.window, cursor }
  rw [run]
  split
  · next value after hRun =>
    obtain ⟨events, hPasses, -⟩ := hRuns.of_ok hRun
    exact ⟨events, hPasses⟩
  · next halt after hRun =>
    obtain ⟨events, hPasses, -⟩ := (hRuns.of_error hRun).exists_passes
    exact ⟨events, hPasses⟩

theorem exists_passes_perform (grammar : Grammar) (session : Session) (name : String)
    (cursor : Cursor) (command : Command) :
    ∃ events, session.window.Passes events
      (session.perform grammar name cursor command).session.window := by
  have hStill {after : Window} (hSame : after = session.window) :
      ∃ events, session.window.Passes events after :=
    ⟨[], hSame ▸ .refl⟩
  have hRun {α : Type} {action : Reading α} (hAction : Candid action) (answer : α → Answer) :=
    exists_passes_run hAction session name cursor answer
  cases command with
  | fork fresh => exact hStill rfl
  | copy fresh => exact hStill rfl
  | newRoot fresh traced => exact hStill rfl
  | commit into =>
    rw [perform]
    split
    · exact hStill rfl
    · next parent _ =>
      exact exists_passes_run (candid_commit cursor) (session.remove name) into parent _
  | abandon => exact hStill rfl
  | reclaim => exact hRun candid_reclaim _
  | peek count => exact hRun (candid_peek count) _
  | peekChars count => exact hRun (candid_peekChars count) _
  | read count => exact hRun (candid_read count) _
  | readChars count => exact hRun (candid_readChars count) _
  | advance count => exact hRun (candid_advance count) _
  | isAtEnd => exact hRun candid_isAtEnd _
  | inspect => exact hRun (.pure cursor) _
  | locate other =>
    rw [perform]
    split
    · exact hStill rfl
    · exact hRun (candid_location.bind fun _ =>
        (Candid.onWindow (Window.looks_locationAt _)).bind fun _ => .pure _) _
  | parse m => exact hRun (grammar.candid_parse m) _
  | attempt m => exact hRun (grammar.candid_attempt m) _
  | discard count =>
    obtain ⟨events, hPasses, -⟩ := session.window.proceeds_discard count
    exact ⟨events, hPasses⟩

/-- Whatever is done with a session, its source is read and bytes are discarded, and that is all. -/
theorem exists_passes_operate (grammar : Grammar) (session : Session) (operation : Operation) :
    ∃ events, session.window.Passes events (session.operate grammar operation).window := by
  cases operation with
  | use use => exact exists_passes_use use session.window
  | turn name command =>
    rw [operate, step]
    split
    · exact ⟨[], .refl⟩
    · exact session.exists_passes_perform grammar name _ command

theorem exists_passes_foldl (grammar : Grammar) (session : Session) (operations : List Operation) :
    ∃ events, session.window.Passes events (operations.foldl (operate grammar) session).window := by
  induction operations generalizing session with
  | nil => exact ⟨[], .refl⟩
  | cons operation rest ih =>
    obtain ⟨events, hFirst⟩ := session.exists_passes_operate grammar operation
    obtain ⟨later, hRest⟩ := ih (session.operate grammar operation)
    exact ⟨events ++ later, hFirst.trans hRest⟩

/-- The books of a window are right, whatever its source delivers and however it fails. After any
operations, those included that came to nothing, all that has happened to the window is that its
source was read and bytes were discarded (`Window.Passes`). With this it agrees
(`Window.Accounts`): the head lies in the bytes held; what is retained is what was delivered from
the start of the window on, up to the last byte; the start is how much was discarded; what was
delivered is the beginning of the stream; the source is not read again after it has said that it has
ended; and a look finds what stands in the stream there, less of it only at the end. No index is out
of range in what is done next (`Window.InRange`), and that never moves the start back. -/
theorem accounts_foldl (grammar : Grammar) (config : Config) (source : Source) (name : String)
    (traced : Bool) (operations : List Operation) :
    let session := operations.foldl (operate grammar) (start config source name traced)
    ∃ events, (Window.ofSource source config).Passes events session.window ∧
      session.window.Accounts source events ∧ session.window.InRange ∧
      ∀ operation, session.window.start ≤ (session.operate grammar operation).window.start := by
  intro session
  obtain ⟨events, hPasses⟩ :=
    exists_passes_foldl grammar (start config source name traced) operations
  refine ⟨events, hPasses, hPasses.accounts, session.window.inRange, fun operation => ?_⟩
  obtain ⟨later, hLater⟩ := session.exists_passes_operate grammar operation
  rw [hLater.start_eq]
  exact Nat.le_add_right _ _

end Session

end StreamMatch
