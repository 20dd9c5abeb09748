import StreamMatch.Proofs.Filling

/-!
What happens to a window, one thing after the other: its source is read, or bytes are discarded
(`Window.Event`). Whatever is done with a window comes to such events, and nothing else changes it
(`Window.Passes`). Of a look at the window it is known besides that it is over as soon as a failure
of the source surfaces, and that no such failure is made up (`Window.Looks`).
-/

namespace StreamMatch

/-- The failure is one that surfaces: it is no interrupted read, which is made again. -/
def Delivery.Surfaces : Delivery → Prop
  | .bytes _ => False
  | .failed kind _ => kind ≠ .interrupted

namespace Window

/-- One thing that happens to a window. -/
inductive Event where
  /-- The source was read, and this is what it returned. -/
  | read (delivery : Delivery)
  /-- So many of the retained bytes were discarded. -/
  | discard (count : Nat)
deriving DecidableEq, Repr

/-- The window after a read of the source. -/
def receive (window : Window) : (delivery : Delivery) → (rest : Source) → Window
  | .bytes [], rest => { window with source := rest, ended := true }
  | .bytes (byte :: more), rest => { window.extend (byte :: more) with source := rest }
  | .failed _ _, rest => { window with source := rest }

/-- How filling a window goes on from `after`, where a read that returned `delivery` has left it. -/
def refill (want : Nat) (delivery : Delivery) (after : Window) : EStateM.Result Fault Window Unit :=
  match delivery with
  | .bytes [] => .ok () after
  | .bytes (_ :: _) => fill want after
  | .failed kind message =>
    if kind = .interrupted then fill want after else .error (.io kind message) after

theorem fill_eq_refill {want : Nat} {window : Window} {delivery : Delivery} {rest : Source}
    (hShort : ¬ window.Filled want)
    (hRead : window.source.read window.config.chunkSize = (delivery, rest)) :
    fill want window = refill want delivery (window.receive delivery rest) := by
  rw [fill_eq hShort, hRead]
  cases delivery with
  | bytes bytes => cases bytes <;> rfl
  | failed kind message => cases kind <;> rfl

/-- What a single event does. A source that has said that it has ended is not read. -/
inductive Step : Window → Event → Window → Prop where
  | read {window : Window} {delivery : Delivery} {rest : Source} (hOpen : window.ended = false)
      (hRead : window.source.read window.config.chunkSize = (delivery, rest)) :
      Step window (.read delivery) (window.receive delivery rest)
  | discard (window : Window) (count : Nat) (width : Char → Nat) :
      Step window (.discard (min count window.length)) (window.discard count width)

/-- What several events do, one after the other. -/
inductive Passes (window : Window) : List Event → Window → Prop where
  | refl : Passes window [] window
  | snoc {events : List Event} {event : Event} {middle after : Window}
      (hPrior : Passes window events middle) (hLast : Step middle event after) :
      Passes window (events ++ [event]) after

/-- No failure of the source has surfaced. -/
def Quiet (events : List Event) : Prop :=
  ∀ delivery, .read delivery ∈ events → ¬ delivery.Surfaces

/-- The last thing that happened is a read that failed like this, and no failure has surfaced
before. -/
def FailsWith (kind : IoKind) (message : String) (events : List Event) : Prop :=
  kind ≠ .interrupted ∧
    ∃ front, Quiet front ∧ events = front ++ [.read (.failed kind message)]

section

variable {first second third : Window} {events later : List Event} {event : Event}

theorem Step.passes (hStep : Step first event second) : first.Passes [event] second :=
  .snoc .refl hStep

theorem Passes.trans (hFirst : first.Passes events second) (hSecond : second.Passes later third) :
    first.Passes (events ++ later) third := by
  induction hSecond with
  | refl => rwa [List.append_nil]
  | snoc _ hLast ih =>
    rw [← List.append_assoc]
    exact .snoc ih hLast

theorem quiet_nil : Quiet [] := by
  simp [Quiet]

theorem Quiet.append (hFirst : Quiet events) (hSecond : Quiet later) : Quiet (events ++ later) := by
  intro delivery hMem
  rcases List.mem_append.1 hMem with hMem | hMem
  · exact hFirst delivery hMem
  · exact hSecond delivery hMem

theorem quiet_read {delivery : Delivery} (hQuiet : ¬ delivery.Surfaces) :
    Quiet [.read delivery] := by
  intro other hMem
  obtain rfl : other = delivery := by simpa using hMem
  exact hQuiet

theorem quiet_discard (count : Nat) : Quiet [.discard count] := by
  simp [Quiet]

theorem FailsWith.append {kind : IoKind} {message : String} (hFirst : Quiet events)
    (hSecond : FailsWith kind message later) : FailsWith kind message (events ++ later) := by
  obtain ⟨hKind, front, hFront, rfl⟩ := hSecond
  exact ⟨hKind, events ++ front, hFirst.append hFront, (List.append_assoc _ _ _).symm⟩

end

/-- The bytes that an event has delivered. -/
def Event.delivered : Event → List UInt8
  | .read (.bytes bytes) => bytes
  | .read (.failed _ _) => []
  | .discard _ => []

/-- The bytes that have been delivered. -/
def deliveredBy (events : List Event) : List UInt8 :=
  events.flatMap Event.delivered

theorem source_receive (window : Window) (delivery : Delivery) (rest : Source) :
    (window.receive delivery rest).source = rest := by
  unfold receive
  split <;> rfl

theorem start_receive (window : Window) (delivery : Delivery) (rest : Source) :
    (window.receive delivery rest).start = window.start := by
  unfold receive
  split <;> rfl

/-- What a read delivers comes after what is retained. -/
theorem retained_receive (window : Window) (delivery : Delivery) (rest : Source) :
    (window.receive delivery rest).retained =
      window.retained ++ (Event.read delivery).delivered := by
  cases delivery with
  | failed kind message => exact (List.append_nil _).symm
  | bytes bytes =>
    cases bytes with
    | nil => exact (List.append_nil _).symm
    | cons byte more => exact window.retained_extend (byte :: more)

/-- What is retained of the bytes that have been delivered so far: all from the start of the window
on. -/
structure Holds (delivered : List UInt8) (window : Window) : Prop where
  start_le : window.start ≤ delivered.length
  retained_eq : window.retained = delivered.drop window.start

namespace Holds

variable {delivered : List UInt8} {window after : Window} {events : List Event} {event : Event}

theorem ofSource (source : Source) (config : Config) : Holds [] (ofSource source config) :=
  ⟨Nat.le_refl _, by simp [retained_eq_drop, Window.ofSource]⟩

theorem start_add_length (hHolds : window.Holds delivered) :
    window.start + window.length = delivered.length := by
  have hStart := hHolds.start_le
  rw [← length_retained, hHolds.retained_eq, List.length_drop]
  omega

/-- What is found at a place in the window was delivered there. -/
theorem slice_eq (hHolds : window.Holds delivered) {place : Nat} (hPlace : window.start ≤ place)
    (count : Nat) :
    window.slice (place - window.start) count = (delivered.drop place).take count := by
  rw [slice_eq_take_drop, hHolds.retained_eq, List.drop_drop, Nat.add_sub_cancel' hPlace]

theorem receive (hHolds : window.Holds delivered) (delivery : Delivery) (rest : Source) :
    (window.receive delivery rest).Holds (delivered ++ (Event.read delivery).delivered) := by
  have hStart := hHolds.start_le
  refine ⟨?_, ?_⟩
  · rw [start_receive, List.length_append]
    exact Nat.le_add_right_of_le hStart
  · rw [retained_receive, start_receive, hHolds.retained_eq]
    exact (List.drop_append_of_le_length hStart).symm

theorem discard (hHolds : window.Holds delivered) (count : Nat) (width : Char → Nat) :
    (window.discard count width).Holds delivered := by
  have hEnd := hHolds.start_add_length
  have hLength := window.length_retained
  refine ⟨?_, ?_⟩
  · rw [start_discard window count width]
    omega
  · rw [start_discard window count width, retained_discard window count width, ← List.drop_drop,
      ← hHolds.retained_eq]
    rcases Nat.le_total count window.length with hCount | hCount
    · rw [Nat.min_eq_left hCount]
    · rw [Nat.min_eq_right hCount, List.drop_of_length_le (by omega),
        List.drop_of_length_le (by omega)]

theorem step (hHolds : window.Holds delivered) (hStep : Step window event after) :
    after.Holds (delivered ++ event.delivered) := by
  cases hStep with
  | read hOpen hRead => exact hHolds.receive _ _
  | discard count width =>
    rw [Event.delivered, List.append_nil]
    exact hHolds.discard count width

/-- What is delivered is added to what was, whatever is discarded in between. -/
theorem passes (hHolds : window.Holds delivered) (hPasses : window.Passes events after) :
    after.Holds (delivered ++ deliveredBy events) := by
  induction hPasses with
  | refl => simpa [deliveredBy] using hHolds
  | snoc _ hLast ih => simpa [deliveredBy] using ih.step hLast

end Holds

/-- What has happened when a fault is met: a fault of the source is the failure that has surfaced,
just now, and with any other fault no failure has. -/
def Tells (events : List Event) : Fault → Prop
  | .io kind message => FailsWith kind message events
  | _ => Quiet events

theorem Tells.append {events later : List Event} {fault : Fault} (hFirst : Quiet events)
    (hSecond : Tells later fault) : Tells (events ++ later) fault := by
  cases fault with
  | io kind message => exact FailsWith.append hFirst hSecond
  | invalidUtf8 offset => exact Quiet.append hFirst hSecond
  | reclaimed offset start => exact Quiet.append hFirst hSecond

/-- The window has got from here to there, and no failure of the source has surfaced. -/
def Proceeds (before after : Window) : Prop :=
  ∃ events, before.Passes events after ∧ Quiet events

/-- The window has got from here to there, and then this fault was met. -/
def Meets (before : Window) (fault : Fault) (after : Window) : Prop :=
  ∃ events, before.Passes events after ∧ Tells events fault

section

variable {first second third : Window} {fault : Fault}

theorem Proceeds.refl (window : Window) : window.Proceeds window :=
  ⟨[], .refl, quiet_nil⟩

theorem Proceeds.trans (hFirst : first.Proceeds second) (hSecond : second.Proceeds third) :
    first.Proceeds third := by
  obtain ⟨events, hPasses, hQuiet⟩ := hFirst
  obtain ⟨later, hRest, hCalm⟩ := hSecond
  exact ⟨events ++ later, hPasses.trans hRest, hQuiet.append hCalm⟩

theorem Proceeds.meets (hFirst : first.Proceeds second) (hSecond : second.Meets fault third) :
    first.Meets fault third := by
  obtain ⟨events, hPasses, hQuiet⟩ := hFirst
  obtain ⟨later, hRest, hTells⟩ := hSecond
  exact ⟨events ++ later, hPasses.trans hRest, hTells.append hQuiet⟩

/-- A read that does not fail for good. -/
theorem Step.proceeds {delivery : Delivery} (hStep : Step first (.read delivery) second)
    (hQuiet : ¬ delivery.Surfaces) : first.Proceeds second :=
  ⟨_, hStep.passes, quiet_read hQuiet⟩

/-- A discard reads nothing. -/
theorem proceeds_discard (window : Window) (count : Nat) :
    window.Proceeds (window.discard count) :=
  ⟨_, (Step.discard window count columnWidth).passes, quiet_discard _⟩

/-- A fault that is none of the source can be met at any time. -/
theorem meets_of_ne (window : Window) (hFault : ∀ kind message, fault ≠ .io kind message) :
    window.Meets fault window := by
  cases fault with
  | io kind message => exact absurd rfl (hFault kind message)
  | invalidUtf8 offset => exact ⟨[], .refl, quiet_nil⟩
  | reclaimed offset start => exact ⟨[], .refl, quiet_nil⟩

end

/-- The action only reads into the window. It is over as soon as a failure of the source surfaces,
with that failure as its fault, and raises none of its own. -/
def Looks {α : Type} (action : Windowed α) : Prop :=
  ∀ window, Leads action window
    (fun _ after => window.Draws after ∧ window.Proceeds after)
    (fun fault after => window.Draws after ∧ window.Meets fault after)

namespace Looks

variable {α β : Type} {action : Windowed α} {next : α → Windowed β}

theorem pure (value : α) : Looks (Pure.pure value) :=
  fun window => ⟨.refl window, .refl window⟩

theorem get : Looks (MonadState.get : Windowed Window) :=
  fun window => ⟨.refl window, .refl window⟩

theorem throw {fault : Fault} (hFault : ∀ kind message, fault ≠ .io kind message) :
    Looks (MonadExcept.throw fault : Windowed α) :=
  fun window => ⟨.refl window, window.meets_of_ne hFault⟩

theorem bind (hAction : Looks action) (hNext : ∀ value, Looks (next value)) :
    Looks (action >>= next) := by
  intro window
  apply (hAction window).bind (fun _ _ h => h)
  rintro value middle ⟨hDraws, hProceeds⟩
  apply (hNext value middle).mono
  · exact fun _ after h => ⟨hDraws.trans h.1, hProceeds.trans h.2⟩
  · exact fun fault after h => ⟨hDraws.trans h.1, hProceeds.meets h.2⟩

end Looks

/-- Filling a window reads the source until there is enough, and a failure that surfaces is the last
that is read. -/
theorem looks_fill (want : Nat) : Looks (fill want) := by
  intro window
  have hEvents : Leads (fill want) window (fun _ after => window.Proceeds after)
      (fun fault after => window.Meets fault after) := by
    unfold Leads
    fun_induction fill want window with
    | case1 window hShort rest hRead => exact (Step.read hShort.2 hRead).proceeds fun h => h
    | case2 window hShort byte more rest hRead ih =>
      have hStep := (Step.read hShort.2 hRead).proceeds fun h => h
      exact Leads.mono ih (fun _ _ h => hStep.trans h) fun _ _ h => hStep.meets h
    | case3 window hShort message rest hRead ih =>
      have hStep := (Step.read hShort.2 hRead).proceeds fun h => h rfl
      exact Leads.mono ih (fun _ _ h => hStep.trans h) fun _ _ h => hStep.meets h
    | case4 window hShort kind message rest hKind hRead =>
      exact ⟨[.read (.failed kind message)], (Step.read hShort.2 hRead).passes, hKind, [],
        quiet_nil, rfl⟩
    | case5 window hEnough => exact .refl window
  apply ((leads_fill_draws want window).and hEvents).mono
  · exact fun _ _ h => ⟨h.1.1, h.2⟩
  · exact fun _ _ h => ⟨h.1.1, h.2⟩

theorem looks_peek (offset count : Nat) : Looks (peek offset count) :=
  (looks_fill _).bind fun _ => .bind .get fun _ => .pure _

theorem looks_relative (offset : Nat) : Looks (relative offset) := by
  apply Looks.bind .get
  intro window
  split
  · exact .throw (by simp)
  · exact .pure _

theorem looks_tolerate (offset : Nat) : Looks (tolerate offset) := by
  apply Looks.bind .get
  intro window
  split
  · exact .pure ()
  · exact .throw (by simp)

theorem looks_segment (offset : Nat) : Looks (segment offset) := by
  apply (looks_peek offset 1).bind
  intro bytes
  split
  · exact .pure none
  · exact (looks_peek _ _).bind fun _ => .pure _

theorem looks_decode (offset count : Nat) : Looks (decode offset count) := by
  induction count generalizing offset with
  | zero => exact .pure _
  | succ count ih =>
    apply (looks_segment offset).bind
    intro found
    split
    · exact .pure _
    · exact (ih _).bind fun _ => .pure _
    · exact (looks_tolerate offset).bind fun _ => (ih _).bind fun _ => .pure _
    · exact (looks_tolerate offset).bind fun _ => .pure _

theorem looks_peekAt (offset count : Nat) : Looks (peekAt offset count) :=
  (looks_relative offset).bind fun distance => looks_peek distance count

theorem looks_decodeAt (offset count : Nat) : Looks (decodeAt offset count) :=
  (looks_relative offset).bind fun distance => looks_decode distance count

theorem looks_isEndAt (offset : Nat) : Looks (isEndAt offset) :=
  (looks_relative offset).bind fun distance =>
    (looks_fill (distance + 1)).bind fun _ => .bind .get fun _ => .pure _

theorem looks_locationAt (offset : Nat) (width : Char → Nat := columnWidth) :
    Looks (locationAt offset width) :=
  (looks_relative offset).bind fun _ => .bind .get fun _ => .pure _

end Window

end StreamMatch
