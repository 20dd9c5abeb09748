import Mathlib
import StreamMatch.Proofs.Alignment
import StreamMatch.Proofs.Events

/-!
How far a matcher looks ahead. A source is sure to deliver the bytes that come before a failure that
surfaces (`Source.assured`), and windows that are sure to have the same bytes in front of their
cursors agree as far as these go (`Window.Offers`). A matcher that looks no further (`Matcher.reach`)
comes to the same at both cursors, whatever comes after, and moves no further either
(`Grammar.comes_of_offers`).
-/

namespace StreamMatch

namespace Source

/-- The bytes that these pieces deliver before a failure surfaces or the source ends. -/
def assuredOf : List Piece → List UInt8
  | [] => []
  | .data [] :: _ => []
  | .data (byte :: more) :: rest => byte :: more ++ assuredOf rest
  | .failure .interrupted _ :: rest => assuredOf rest
  | .failure _ _ :: _ => []

/-- The bytes that a source delivers before a failure surfaces or it ends. -/
def assured (source : Source) : List UInt8 :=
  assuredOf source.pieces

/-- With these pieces in line, the source ends before a failure surfaces. -/
def ClosesOf : List Piece → Prop
  | [] => True
  | .data [] :: _ => True
  | .data (_ :: _) :: rest => ClosesOf rest
  | .failure .interrupted _ :: rest => ClosesOf rest
  | .failure _ _ :: _ => False

/-- The source ends before a failure surfaces. -/
def Closes (source : Source) : Prop :=
  ClosesOf source.pieces

theorem length_assured_le_size (source : Source) : source.assured.length ≤ source.size := by
  obtain ⟨pieces⟩ := source
  simp only [assured, size]
  fun_induction assuredOf pieces with
  | case1 => simp
  | case2 rest => simp
  | case3 byte more rest ih =>
    simp only [List.length_append, Source.readsOf]
    omega
  | case4 message rest ih =>
    simp only [Source.readsOf]
    omega
  | case5 kind message rest hKind => simp

/-- With bytes in line, they come first. -/
theorem assuredOf_data {bytes : List UInt8} (hBytes : bytes ≠ []) (rest : List Piece) :
    assuredOf (.data bytes :: rest) = bytes ++ assuredOf rest ∧
      (ClosesOf (.data bytes :: rest) ↔ ClosesOf rest) := by
  cases bytes with
  | nil => exact absurd rfl hBytes
  | cons byte more => exact ⟨rfl, Iff.rfl⟩

variable {source rest : Source} {limit : Nat}

/-- What a read delivers is what is assured next. -/
theorem assured_of_read_bytes {delivered : List UInt8} (hDelivered : delivered ≠ [])
    (hRead : source.read limit = (.bytes delivered, rest)) :
    source.assured = delivered ++ rest.assured ∧ (source.Closes ↔ rest.Closes) := by
  cases delivers_of_read hRead with
  | ended => exact absurd rfl hDelivered
  | whole _ more hLength => exact assuredOf_data hDelivered more
  | part _ left more hLength hLeft =>
    obtain ⟨hAssured, hCloses⟩ :=
      assuredOf_data (List.append_ne_nil_of_left_ne_nil hDelivered left) more
    obtain ⟨hRest, hLast⟩ := assuredOf_data hLeft more
    refine ⟨?_, hCloses.trans hLast.symm⟩
    rw [assured, assured, hAssured, hRest, List.append_assoc]

/-- A read that delivers no bytes is the end of the source. -/
theorem assured_of_read_nil (hLimit : 0 < limit) (hRead : source.read limit = (.bytes [], rest)) :
    source.assured = [] ∧ source.Closes := by
  cases delivers_of_read hRead with
  | ended => exact ⟨rfl, trivial⟩
  | whole _ more hLength => exact ⟨rfl, trivial⟩
  | part _ left more hLength hLeft => exact absurd hLength (Nat.ne_of_lt hLimit)

/-- An interrupted read is as good as none. -/
theorem assured_of_read_interrupted {message : String}
    (hRead : source.read limit = (.failed .interrupted message, rest)) :
    source.assured = rest.assured ∧ (source.Closes ↔ rest.Closes) := by
  cases delivers_of_read hRead with
  | failed _ _ more => exact ⟨rfl, Iff.rfl⟩

/-- Nothing is assured that comes after a failure that surfaces. -/
theorem assured_of_read_failed {kind : IoKind} {message : String} (hKind : kind ≠ .interrupted)
    (hRead : source.read limit = (.failed kind message, rest)) :
    source.assured = [] ∧ ¬ source.Closes := by
  cases delivers_of_read hRead with
  | failed _ _ more => cases kind <;> simp_all [assured, assuredOf, Closes, ClosesOf]

end Source

namespace Window

/-- The bytes from the start of the window on that it has or is sure to get. -/
def assured (window : Window) : List UInt8 :=
  window.retained ++ if window.ended then [] else window.source.assured

/-- After the bytes that are assured the stream ends. -/
def Closes (window : Window) : Prop :=
  window.ended = true ∨ window.source.Closes

theorem length_assured_le (window : Window) :
    window.assured.length ≤ window.length + window.source.size := by
  have hSize := window.source.length_assured_le_size
  rw [assured, List.length_append, length_retained]
  split
  · exact Nat.add_le_add_left (Nat.zero_le _) _
  · exact Nat.add_le_add_left hSize _

theorem assured_discard (window : Window) (count : Nat) :
    (window.discard count).assured = window.assured.drop (min count window.length) := by
  obtain ⟨-, hSource, hEnded⟩ := window.rest_discard count
  rw [assured, assured, hSource, hEnded]
  exact window.retained_discard_append count _

theorem closes_discard (window : Window) (count : Nat) :
    (window.discard count).Closes ↔ window.Closes := by
  obtain ⟨-, hSource, hEnded⟩ := window.rest_discard count
  rw [Closes, Closes, hSource, hEnded]

/-- A read keeps what is assured, unless it fails for good. -/
theorem assured_receive {window : Window} {delivery : Delivery} {rest : Source}
    (hOpen : window.ended = false)
    (hRead : window.source.read window.config.chunkSize = (delivery, rest))
    (hQuiet : ¬ delivery.Surfaces) :
    (window.receive delivery rest).assured = window.assured ∧
      ((window.receive delivery rest).Closes ↔ window.Closes) := by
  have hRetained := window.retained_receive delivery rest
  have hNow : window.assured = window.retained ++ window.source.assured := by
    simp [assured, hOpen]
  have hClose : window.Closes ↔ window.source.Closes := by
    simp [Closes, hOpen]
  rw [hNow, hClose]
  cases delivery with
  | failed kind message =>
    obtain rfl : kind = .interrupted := Decidable.not_not.1 hQuiet
    obtain ⟨hAssured, hCloses⟩ := Source.assured_of_read_interrupted hRead
    rw [hAssured, hCloses]
    simp [assured, Closes, receive, hOpen, retained_eq_drop]
  | bytes bytes =>
    cases bytes with
    | nil =>
      obtain ⟨hAssured, hCloses⟩ := Source.assured_of_read_nil window.config.chunkSize_pos hRead
      rw [hAssured]
      simp [assured, Closes, receive, hCloses, retained_eq_drop]
    | cons byte more =>
      obtain ⟨hAssured, hCloses⟩ := Source.assured_of_read_bytes (List.cons_ne_nil _ _) hRead
      rw [hAssured, hCloses, ← List.append_assoc]
      rw [assured, hRetained]
      simp [Closes, receive, hOpen, Event.delivered]

/-- A window that has as many bytes as are wanted, or all that there are, if it is sure to get them,
is filled without a fault. -/
theorem leads_fill_assured {want : Nat} {window : Window}
    (hWant : want ≤ window.assured.length ∨ window.Closes) :
    Leads (fill want) window
      (fun _ after => after.assured = window.assured ∧ (after.Closes ↔ window.Closes))
      (fun _ _ => False) := by
  unfold Leads
  fun_induction fill want window with
  | case1 window hShort rest hRead => exact assured_receive hShort.2 hRead fun h => h
  | case2 window hShort byte more rest hRead ih =>
    obtain ⟨hAssured, hCloses⟩ := assured_receive hShort.2 hRead fun h => h
    rw [← hAssured, ← hCloses] at hWant
    exact Leads.mono (ih hWant) (fun _ _ h => ⟨h.1.trans hAssured, h.2.trans hCloses⟩) fun _ _ h => h
  | case3 window hShort message rest hRead ih =>
    obtain ⟨hAssured, hCloses⟩ := assured_receive hShort.2 hRead fun h => h rfl
    rw [← hAssured, ← hCloses] at hWant
    exact Leads.mono (ih hWant) (fun _ _ h => ⟨h.1.trans hAssured, h.2.trans hCloses⟩) fun _ _ h => h
  | case4 window hShort kind message rest hKind hRead =>
    obtain ⟨hAssured, hCloses⟩ := Source.assured_of_read_failed hKind hRead
    have hLength := hShort.1
    simp [assured, Closes, hAssured, hCloses, hShort.2] at hWant
    omega
  | case5 window hEnough => exact ⟨rfl, Iff.rfl⟩

/-- From this place on the window is sure to have `text` as its next `count` bytes, or as the last
ones of the stream if there are fewer. -/
structure Offers (place count : Nat) (text : List UInt8) (window : Window) : Prop where
  start_le : window.start ≤ place
  text_eq : (window.assured.drop (place - window.start)).take count = text
  enough : place - window.start + count ≤ window.assured.length ∨ window.Closes

namespace Offers

variable {place next count : Nat} {text : List UInt8} {window : Window}

theorem length_le (hOffers : window.Offers place count text) : text.length ≤ count := by
  rw [← hOffers.text_eq]
  exact List.length_take_le _ _

/-- What is offered further on. -/
theorem drop (hOffers : window.Offers place count text) (hPlace : place ≤ next)
    (hNext : next ≤ place + text.length) :
    window.Offers next (place + count - next) (text.drop (next - place)) := by
  have hStart := hOffers.start_le
  have hLength := hOffers.length_le
  refine ⟨Nat.le_trans hStart hPlace, ?_, hOffers.enough.imp_left fun hEnough => by omega⟩
  have hOffset : place - window.start + (next - place) = next - window.start := by omega
  have hCount : count - (next - place) = place + count - next := by omega
  rw [← hOffers.text_eq, List.drop_take, List.drop_drop, hOffset, hCount]

/-- A discard of what lies before the place makes no difference. -/
theorem discard (hOffers : window.Offers place count text) {gone : Nat}
    (hStart : (window.discard gone).start ≤ place) :
    (window.discard gone).Offers place count text := by
  have hDiscard := window.start_discard gone
  have hOffset : min gone window.length + (place - (window.discard gone).start) =
      place - window.start := by
    omega
  refine ⟨hStart, ?_, ?_⟩
  · rw [assured_discard, List.drop_drop, hOffset]
    exact hOffers.text_eq
  · rw [assured_discard, closes_discard, List.length_drop]
    exact hOffers.enough.imp_left fun hEnough => by omega

/-- A look at no more than is offered finds it, and does not fault. -/
theorem leads_peek (hOffers : window.Offers place count text) {want : Nat} (hWant : want ≤ count) :
    Leads (peek (place - window.start) want) window
      (fun bytes after => bytes = text.take want ∧ after.start = window.start ∧
        after.config = window.config ∧ after.assured = window.assured ∧
        (after.Closes ↔ window.Closes))
      (fun _ _ => False) := by
  have hEnough : place - window.start + want ≤ window.assured.length ∨ window.Closes :=
    hOffers.enough.imp_left fun hEnough => by omega
  apply ((leads_fill_assured hEnough).and (leads_fill_draws _ window)).bind (fun _ _ h => h.1)
  rintro - after ⟨⟨hAssured, hCloses⟩, hDraws, hFilled⟩
  refine ⟨?_, hDraws.start_eq, hDraws.config_eq, hAssured, hCloses⟩
  have hSlice : after.slice (place - window.start) want =
      (after.assured.drop (place - window.start)).take want := by
    have hLength := after.length_retained
    rw [slice_eq_take_drop, assured]
    rcases hFilled with hLong | hEnded
    · rw [List.take_drop, List.take_drop, List.take_append_of_le_length (by omega)]
    · simp [hEnded]
  rw [hSlice, hAssured, ← hOffers.text_eq, List.take_take, Nat.min_eq_left hWant]

end Offers

/-- What is offered at one place, and whatever of it is left later on. -/
def OffersFrom (place count : Nat) (text : List UInt8) (window : Window) : Prop :=
  ∀ next, place ≤ next → next ≤ place + text.length → window.start ≤ next →
    window.Offers next (place + count - next) (text.drop (next - place))

namespace OffersFrom

variable {place count : Nat} {text : List UInt8} {window after : Window}

theorem of_offers (hOffers : window.Offers place count text) :
    window.OffersFrom place count text :=
  fun _ hPlace hNext _ => hOffers.drop hPlace hNext

/-- Nothing but what is assured matters. -/
theorem congr (hOffers : window.OffersFrom place count text) (hStart : after.start = window.start)
    (hAssured : after.assured = window.assured) (hCloses : after.Closes ↔ window.Closes) :
    after.OffersFrom place count text := by
  intro next hPlace hNext hAfter
  obtain ⟨hBefore, hText, hEnough⟩ := hOffers next hPlace hNext (hStart ▸ hAfter)
  refine ⟨hAfter, ?_, ?_⟩
  · rw [hStart, hAssured]
    exact hText
  · rw [hStart, hAssured, hCloses]
    exact hEnough

theorem discard (hOffers : window.OffersFrom place count text) (gone : Nat) :
    (window.discard gone).OffersFrom place count text := by
  intro next hPlace hNext hStart
  have hDiscard := window.start_discard gone
  exact (hOffers next hPlace hNext (by omega)).discard hStart

/-- What is offered is no more than the window and its source may still have. -/
theorem lt_remaining (hOffers : window.OffersFrom place count text) {next : Nat}
    (hPlace : place ≤ next) (hNext : next ≤ place + text.length) (hStart : window.start ≤ next) :
    place + text.length < next + (window.start + window.length + window.source.size - next + 1) := by
  have hText := congrArg List.length (hOffers next hPlace hNext hStart).text_eq
  have hSize := window.length_assured_le
  simp only [List.length_take, List.length_drop] at hText
  omega

end OffersFrom

end Window

open Window in
/-- What is offered in both windows is the same, and nothing else is looked at. -/
def offering (place count : Nat) (text : List UInt8) : Alignment where
  Agree windows := windows.1.config.policy = windows.2.config.policy ∧
    windows.1.OffersFrom place count text ∧ windows.2.OffersFrom place count text
  Spans next := place ≤ next ∧ next ≤ place + text.length
  far := (place + count : Nat)
  Stops halt _ := ∃ place, halt = .fault (.invalidUtf8 place)
  Allows next allowed other := place + text.length < next + allowed ∧
    place + text.length < next + other
  Traces := False
  policy_eq hAgree := hAgree.1
  peek {next want windows} hAt hFar := by
    obtain ⟨⟨hPolicy, hFirst, hSecond⟩, ⟨hPlace, hNext⟩, hStart, hStart'⟩ := hAt
    have hWant : want ≤ place + count - next := by
      have hEnd : next + want ≤ place + count := Nat.cast_le.1 hFar
      omega
    have hLook := (hFirst next hPlace hNext hStart).leads_peek hWant
    have hLook' := (hSecond next hPlace hNext hStart').leads_peek hWant
    apply Coincide.of_leads hLook hLook'
    rintro _ _ first second ⟨rfl, hStart, hConfig, hAssured, hCloses⟩
      ⟨rfl, hStart', hConfig', hAssured', hCloses'⟩
    have hPolicy' : first.config.policy = second.config.policy := by
      rw [hConfig, hConfig']
      exact hPolicy
    have hSpans := List.length_take_le' want (text.drop (next - place))
    rw [List.length_drop] at hSpans
    refine ⟨rfl, by omega, ⟨hPolicy', ?_, ?_⟩, hStart, hStart'⟩
    · exact hFirst.congr hStart hAssured hCloses
    · exact hSecond.congr hStart' hAssured' hCloses'
  discard {windows} gone other hAgree := by
    obtain ⟨hPolicy, hFirst, hSecond⟩ := hAgree
    refine ⟨?_, hFirst.discard gone, hSecond.discard other⟩
    rw [(windows.1.rest_discard gone).1, (windows.2.rest_discard other).1]
    exact hPolicy
  invalidUtf8 place _ := ⟨place, rfl⟩
  exhausted _ hFar := absurd hFar (ENat.natCast_ne_top _)
  allows {next windows} hAt := by
    obtain ⟨⟨-, hFirst, hSecond⟩, ⟨hPlace, hNext⟩, hStart, hStart'⟩ := hAt
    exact ⟨hFirst.lt_remaining hPlace hNext hStart, hSecond.lt_remaining hPlace hNext hStart'⟩
  allows_zero hSpans hAllows := by
    obtain ⟨hPlace, hNext⟩ := hSpans
    omega
  spent hAt hAllows := by
    obtain ⟨hPlace, hNext⟩ := hAt.spans
    omega
  allows_after hAllows hNext := by omega

namespace Grammar

open Reading

/-- A matcher that looks no further than what is offered goes the same way at both readers. It
follows no rule, and so it makes no difference how deep rules may go. -/
theorem within_attempt_offering (grammar : Grammar) (m : Matcher) (place count : Nat)
    (text : List UInt8) :
    (offering place count text).coupling.Within m.reach (grammar.attempt m) (grammar.attempt m) := by
  intro readers hSound hRoom
  have hCall (name : String) : (offering place count text).coupling.Within ⊤
      (grammar.call (grammar.depthFor readers.1) name)
      (grammar.call (grammar.depthFor readers.2) name) := by
    intro _ _ hFar
    have hTop : (⊤ : ℕ∞) ≤ (place + count : Nat) := le_trans le_add_self hFar
    exact absurd (top_le_iff.1 hTop) (ENat.natCast_ne_top _)
  apply ((offering place count text).coupling.within_attempt hCall m readers hSound hRoom).congr
  · rfl
  · rfl

/-- An action that goes the same way at both readers comes to the same at both, and ends within what
is offered. -/
theorem exists_comes_of_within {place count : Nat} {text : List UInt8} {reach : ℕ∞}
    {action : Attempt} {first second : Reader}
    (hWithin : (offering place count text).coupling.Within reach action action)
    (hSound : (offering place count text).Sound (first, second))
    (hRoom : (offering place count text).comparison.Room (first, second) reach) :
    ∃ outcome next,
      (∀ halt, outcome = .error halt → ∃ offset, halt = .fault (.invalidUtf8 offset)) ∧
        place ≤ next ∧ next ≤ place + text.length ∧
        ∀ reader ∈ [first, second], ∃ after,
          Comes action reader outcome after ∧ after.cursor.position = next := by
  obtain ⟨outcome, last, hLast⟩ := exists_comes action first
  obtain ⟨after, hAfter, hEnd⟩ := (hWithin (first, second) hSound hRoom).comes hLast
  obtain ⟨hHalt, ⟨hPlace, hNext⟩, hSame⟩ :
      (∀ halt, outcome = .error halt → ∃ offset, halt = .fault (.invalidUtf8 offset)) ∧
        (place ≤ last.cursor.position ∧ last.cursor.position ≤ place + text.length) ∧
        after.cursor.position = last.cursor.position := by
    cases outcome with
    | ok found => exact ⟨by simp, hEnd.1.lies.spans, hEnd.1.position_eq⟩
    | error halt =>
      exact ⟨fun _ hSame => Except.error.inj hSame ▸ hEnd.stops, hEnd.spans, hEnd.position_eq⟩
  refine ⟨outcome, last.cursor.position, hHalt, hPlace, hNext, ?_⟩
  intro reader hReader
  rcases List.mem_pair.1 hReader with rfl | rfl
  · exact ⟨last, hLast, rfl⟩
  · exact ⟨after, hAfter, hSame⟩

/-- A matcher looks no further than `Matcher.reach` says. Take two cursors at the same position that
are not before their windows, which decode by the same policy and are sure to have the same bytes
from there on, so many of them or all that there are. Then an attempt, or a parse, comes to the same
at both, whatever comes after these bytes. That is a match, none, or malformed text, but never a
fault of the source, and the cursor is moved by so many bytes at most. -/
theorem comes_of_offers (grammar : Grammar) (m : Matcher) {first second : Reader} {count : Nat}
    {text : List UInt8} (hReach : m.reach ≤ count)
    (hPosition : second.cursor.position = first.cursor.position)
    (hPolicy : first.window.config.policy = second.window.config.policy)
    (hFirst : first.window.Offers first.cursor.position count text)
    (hSecond : second.window.Offers first.cursor.position count text) :
    ∀ action ∈ [grammar.attempt m, grammar.parse m], ∃ outcome place,
      (∀ halt, outcome = .error halt → ∃ offset, halt = .fault (.invalidUtf8 offset)) ∧
        first.cursor.position ≤ place ∧ place ≤ first.cursor.position + count ∧
        ∀ reader ∈ [first, second], ∃ after,
          Comes action reader outcome after ∧ after.cursor.position = place := by
  have hSound : (offering first.cursor.position count text).Sound (first, second) :=
    ⟨⟨⟨hPolicy, .of_offers hFirst, .of_offers hSecond⟩, ⟨le_rfl, Nat.le_add_right _ _⟩,
      hFirst.start_le, hSecond.start_le⟩, hPosition, fun hTraces => hTraces.elim⟩
  have hRoom : (offering first.cursor.position count text).comparison.Room (first, second)
      m.reach := by
    have hFar := add_le_add_right hReach (first.cursor.position : ℕ∞)
    rw [← Nat.cast_add] at hFar
    exact hFar
  have hAttempt := grammar.within_attempt_offering m first.cursor.position count text
  have hLength := hFirst.length_le
  intro action hAction
  have hWithin :
      (offering first.cursor.position count text).coupling.Within m.reach action action := by
    rcases List.mem_pair.1 hAction with rfl | rfl
    · exact hAttempt
    · exact (offering _ _ _).coupling.within_keep hAttempt
  obtain ⟨outcome, place, hHalt, hPlace, hNext, hBoth⟩ :=
    exists_comes_of_within hWithin hSound hRoom
  exact ⟨outcome, place, hHalt, hPlace, by omega, hBoth⟩

/-- An `a`, and up to two of `b` or `c`. This looks three bytes ahead. -/
def twice : Matcher :=
  .seq .absent [.primitive (.literal .absent [97]),
    .many .absent 0 (some 2)
      (.first [.primitive (.literal .absent [98]), .primitive (.literal .absent [99])]) none]

/-- A reader with nothing held, and whose source fails after the three bytes that it delivers. -/
def failing : Reader where
  window := { Window.ofSource ⟨[.data [97, 98, 99], .failure .other "lost"]⟩ with
    bytes := #[0]
    head := 1
    start := 1
    head_le := Nat.le_refl _ }
  cursor := { position := 1 }

/-- A reader in a fork, with bytes held, and whose source goes on after an interruption. -/
def flowing : Reader where
  window := { Window.ofSource ⟨[.data [98], .failure .interrupted "again", .data [99, 99]]⟩ with
    bytes := #[0, 97]
    head_le := Nat.zero_le _ }
  cursor := { position := 1, depth := 1 }

theorem comes_of_offers_flowing :
    Leads (({} : Grammar).attempt twice) failing
        (fun found after => found.isSome = true ∧ after.cursor.position = 4) (fun _ _ => False) ∧
      ∀ action ∈ [({} : Grammar).attempt twice, ({} : Grammar).parse twice], ∃ outcome place,
        (∀ halt, outcome = .error halt → ∃ offset, halt = .fault (.invalidUtf8 offset)) ∧
          1 ≤ place ∧ place ≤ 1 + 3 ∧
          ∀ reader ∈ [failing, flowing], ∃ after,
            Comes action reader outcome after ∧ after.cursor.position = place := by
  have hReach : twice.reach ≤ (3 : Nat) := by
    simp [twice, Matcher.reach, Matcher.reaches, Matcher.reach?, Primitive.reach]
    norm_num
  have hPosition : flowing.cursor.position = failing.cursor.position := rfl
  have hFailing : failing.window.Offers 1 3 [97, 98, 99] := ⟨by decide, by decide, .inl (by decide)⟩
  have hFlowing : flowing.window.Offers 1 3 [97, 98, 99] := ⟨by decide, by decide, .inl (by decide)⟩
  have hBoth := comes_of_offers {} twice hReach hPosition rfl hFailing hFlowing
  refine ⟨?_, hBoth⟩
  unfold Leads
  cbv

end Grammar

end StreamMatch
