import Mathlib
import StreamMatch.Proofs.Boundaries
import StreamMatch.Proofs.Events

/-!
Locations do not depend on what has been discarded. The window keeps a location for the stream up to
its start, less a few bytes that it carries along since they may belong to one character with those
that follow (`Window.Located`). Reading changes neither, and a discard locates what it takes as far
as its complete length, where the text can be cut. So it is as if the whole stream had been located
at once (`Window.locationAt_foldl_apply`).
-/

namespace StreamMatch

namespace Location

theorem after_nil (location : Location) (width : Char → Nat) : location.after [] width = location :=
  rfl

/-- Locating what can be cut in two is locating one part after the other. -/
theorem after_append {before rest : List UInt8} (hBreaks : Utf8.Breaks before rest)
    (location : Location) (width : Char → Nat) :
    location.after (before ++ rest) width = (location.after before width).after rest width := by
  simp only [after, Utf8.lossy_append hBreaks, List.foldl_append]

end Location

namespace Window

/-- One use of a window: the bytes or the characters somewhere in it, or somewhere in the stream, are
looked at, or bytes are discarded. -/
inductive Use where
  | peek (offset count : Nat)
  | decode (offset count : Nat)
  | peekAt (offset count : Nat)
  | decodeAt (offset count : Nat)
  | isEndAt (offset : Nat)
  | locationAt (offset : Nat)
  | discard (count : Nat)
  | discardTo (offset : Nat)

namespace Use

/-- What a use does, with nothing made of what it finds. -/
def action (width : Char → Nat) : Use → Windowed Unit
  | peek offset count => do let _ ← Window.peek offset count
  | decode offset count => do let _ ← Window.decode offset count
  | peekAt offset count => do let _ ← Window.peekAt offset count
  | decodeAt offset count => do let _ ← Window.decodeAt offset count
  | isEndAt offset => do let _ ← Window.isEndAt offset
  | locationAt offset => do let _ ← Window.locationAt offset width
  | discard count => modify (·.discard count width)
  | discardTo offset => Window.discardTo offset width

/-- The window afterwards, whether the use came off or met a fault. -/
def apply (width : Char → Nat) (window : Window) (use : Use) : Window :=
  match use.action width window with
  | .ok _ after => after
  | .error _ after => after

/-- A use reads into the window, as far as it comes to that, and then it may discard bytes. -/
theorem leads_action (width : Char → Nat) (use : Use) (window : Window) :
    Leads (use.action width) window
      (fun _ after => ∃ middle count, window.Draws middle ∧ window.Proceeds middle ∧
        after = middle.discard count width)
      (fun fault after => window.Draws after ∧ window.Meets fault after) := by
  have hLook {α : Type} {action : Windowed α} (hAction : Looks action) :
      Leads (do let _ ← action) window
        (fun _ after => ∃ middle count, window.Draws middle ∧ window.Proceeds middle ∧
          after = middle.discard count width)
        (fun fault after => window.Draws after ∧ window.Meets fault after) := by
    apply ((hAction.bind fun _ => .pure ()) window).mono
    · exact fun _ after h => ⟨after, 0, h.1, h.2, (after.discard_zero width).symm⟩
    · exact fun _ _ h => h
  cases use with
  | peek offset count => exact hLook (looks_peek offset count)
  | decode offset count => exact hLook (looks_decode offset count)
  | peekAt offset count => exact hLook (looks_peekAt offset count)
  | decodeAt offset count => exact hLook (looks_decodeAt offset count)
  | isEndAt offset => exact hLook (looks_isEndAt offset)
  | locationAt offset => exact hLook (looks_locationAt offset width)
  | discard count => exact ⟨window, count, .refl window, .refl window, rfl⟩
  | discardTo offset =>
    apply (looks_relative offset window).bind
    · exact fun _ _ h => h
    · exact fun distance middle h => ⟨middle, distance, h.1, h.2, rfl⟩

end Use

/-- A discard locates what was carried and what it takes, as far as the complete length of that, and
carries the rest. -/
theorem discard_cut (window : Window) {count : Nat} (width : Char → Nat)
    (hGone : min count window.length ≠ 0) :
    let all := window.carry ++ window.slice 0 (min count window.length)
    let located := Utf8.completeLength all
    (window.discard count width).origin = window.origin.after (all.take located) width ∧
      (window.discard count width).carry = all.drop located := by
  simp [discard, hGone]

/-- What follows the start of the window is located as if it followed what a discard takes. -/
theorem after_discard (window : Window) (count : Nat) (width : Char → Nat) (rest : List UInt8) :
    (window.discard count width).origin.after ((window.discard count width).carry ++ rest) width =
      window.origin.after (window.carry ++ window.retained.take count ++ rest) width := by
  have hSlice : window.slice 0 (min count window.length) = window.retained.take count := by
    rw [slice_eq_take_drop, List.drop_zero, ← length_retained, ← List.take_eq_take_min]
  by_cases hGone : min count window.length = 0
  · have hSame : window.discard count width = window := by simp [discard, hGone]
    rw [hSame, ← hSlice, hGone, slice_eq_take_drop, List.take_zero, List.append_nil]
  · obtain ⟨hOrigin, hCarry⟩ := window.discard_cut width hGone
    rw [hSlice] at hOrigin hCarry
    let all := window.carry ++ window.retained.take count
    have hStart : Utf8.Breaks [] all := .inl rfl
    have hCut : Utf8.Breaks (all.take (Utf8.completeLength all))
        (all.drop (Utf8.completeLength all)) :=
      hStart.completeLength
    rw [hOrigin, hCarry, ← Location.after_append (hCut.append rest), ← List.append_assoc,
      List.take_append_drop]

/-- The window holds the location of the stream up to its start, but for the bytes that it carries,
and a new character can begin before these. -/
structure Located (width : Char → Nat) (stream : List UInt8) (window : Window) : Prop where
  lies_over : window.Over stream
  origin_eq : ∃ front, stream.take window.start = front ++ window.carry ∧
    window.origin = Location.after {} front width ∧ Utf8.Breaks front window.carry
  carry_le : window.carry.length ≤ 3

namespace Located

variable {width : Char → Nat} {stream : List UInt8} {window : Window}

theorem ofSource (width : Char → Nat) (config : Config) (source : Source) :
    Located width source.content (Window.ofSource source config) :=
  ⟨over_content config source, ⟨[], rfl, rfl, .inl rfl⟩, Nat.zero_le _⟩

theorem of_draws {after : Window} (hLocated : Located width stream window)
    (hDraws : window.Draws after) : Located width stream after := by
  refine ⟨hDraws.lies_over hLocated.lies_over, ?_, ?_⟩
  · rw [hDraws.start_eq, hDraws.origin_eq, hDraws.carry_eq]
    exact hLocated.origin_eq
  · rw [hDraws.carry_eq]
    exact hLocated.carry_le

/-- What is retained lies in the stream right after the start of the window. -/
theorem take_add (hOver : window.Over stream) {distance : Nat} (hDistance : distance ≤ window.length) :
    stream.take (window.start + distance) =
      stream.take window.start ++ window.slice 0 distance := by
  rw [List.take_add, hOver.drop_start, ahead, slice_eq_take_drop, List.drop_zero,
    List.take_append_of_le_length (by rwa [length_retained])]

theorem discard (hLocated : Located width stream window) (count : Nat) :
    Located width stream (window.discard count width) := by
  have hOver := hLocated.lies_over.discard count width
  have hStart := start_discard window count width
  by_cases hGone : min count window.length = 0
  · have hSame : window.discard count width = window := by simp [Window.discard, hGone]
    rw [hSame]
    exact hLocated
  · obtain ⟨front, hFront, hOrigin, hBreaks⟩ := hLocated.origin_eq
    obtain ⟨hNewOrigin, hNewCarry⟩ := window.discard_cut width hGone
    -- What was carried and what is discarded now, and how much of it is located now.
    let all := window.carry ++ window.slice 0 (min count window.length)
    let located := Utf8.completeLength all
    have hAll : Utf8.Breaks front all := hBreaks.append _
    change _ = window.origin.after (all.take located) width at hNewOrigin
    change _ = all.drop located at hNewCarry
    refine ⟨hOver, ⟨front ++ all.take located, ?_, ?_, ?_⟩, ?_⟩
    · rw [hStart, take_add hLocated.lies_over (Nat.min_le_right _ _), hFront, hNewCarry,
        List.append_assoc, List.append_assoc, List.take_append_drop]
    · rw [hNewOrigin, hOrigin]
      by_cases hNothing : located = 0
      · simp [hNothing, Location.after_nil]
      · exact (Location.after_append (hAll.take (Nat.pos_of_ne_zero hNothing)) _ width).symm
    · rw [hNewCarry]
      exact hAll.completeLength
    · have hLength := Utf8.length_le_completeLength_add all
      rw [hNewCarry, List.length_drop]
      omega

/-- A place in the window is located as if the whole stream before it had been located at once. -/
theorem locationAt_eq (hLocated : Located width stream window) {place : Nat}
    (hStart : window.start ≤ place) (hEnd : place ≤ window.start + window.length) :
    locationAt place width window = .ok (Location.after {} (stream.take place) width) window := by
  obtain ⟨front, hFront, hOrigin, hBreaks⟩ := hLocated.origin_eq
  have hDistance : place - window.start ≤ window.length := by omega
  have hTake := take_add hLocated.lies_over hDistance
  rw [Nat.add_sub_cancel' hStart, hFront, List.append_assoc] at hTake
  have hAfter : window.origin.after (window.carry ++ window.slice 0 (place - window.start)) width =
      Location.after {} (stream.take place) width := by
    rw [hTake, hOrigin, Location.after_append (hBreaks.append _)]
  simp only [locationAt, bind, EStateM.bind, relative_eq hStart]
  change EStateM.Result.ok (window.origin.after _ width) window = _
  rw [hAfter]

theorem apply (hLocated : Located width stream window) (use : Use) :
    Located width stream (use.apply width window) := by
  have hUse := use.leads_action width window
  rw [Use.apply]
  split
  · next value after hRun =>
    obtain ⟨middle, count, hDraws, -, rfl⟩ := hUse.of_ok hRun
    exact (hLocated.of_draws hDraws).discard count
  · next fault after hRun => exact hLocated.of_draws (hUse.of_error hRun).1

theorem foldl_apply (hLocated : Located width stream window) (uses : List Use) :
    Located width stream (uses.foldl (Use.apply width) window) := by
  induction uses generalizing window with
  | nil => exact hLocated
  | cons use rest ih => exact ih (hLocated.apply use)

end Located

/-- Locations do not depend on what has been discarded, or how. Whatever the stream holds, and in
however many columns the characters are shown: after any uses of its window, every place in it is
located as if the whole stream before it had been read as text at once, and never more than three
bytes are carried along for this. -/
theorem locationAt_foldl_apply (width : Char → Nat) (config : Config) (source : Source)
    (uses : List Use) :
    let window := uses.foldl (Use.apply width) (ofSource source config)
    window.carry.length ≤ 3 ∧
      ∀ place, window.start ≤ place → place ≤ window.start + window.length →
        locationAt place width window =
          .ok (Location.after {} (source.content.take place) width) window := by
  have hLocated := (Located.ofSource width config source).foldl_apply uses
  exact ⟨hLocated.carry_le, fun place => hLocated.locationAt_eq⟩

/-- A window over a letter of three bytes, of which one is left after two discards. Letters that are
not ASCII take two columns. -/
def halfway : Window :=
  [Use.peek 0 4, .discard 2, .discard 1].foldl
    (Use.apply fun c => if c.toNat < 0x80 then 1 else 2)
    (ofSource ⟨[.data [0x61, 0xe4, 0xb8], .data [0x96, 0x0a]]⟩)

/-- What was discarded of the letter is carried along, and so it counts as one. -/
theorem locationAt_foldl_apply_halfway :
    halfway.start = 3 ∧ halfway.carry.length = 2 ∧
      locationAt 4 (fun c => if c.toNat < 0x80 then 1 else 2) halfway = .ok ⟨1, 4⟩ halfway := by
  have hStart : halfway.start = 3 := by
    cbv
  have hLength : halfway.length = 2 := by
    cbv
  have hCarry : halfway.carry.length = 2 := by
    cbv
  have hPlace : Location.after {} [0x61, 0xe4, 0xb8, 0x96]
      (fun c => if c.toNat < 0x80 then 1 else 2) = ⟨1, 4⟩ := by
    decide
  have hLocation := (locationAt_foldl_apply (fun c => if c.toNat < 0x80 then 1 else 2) default
    ⟨[.data [0x61, 0xe4, 0xb8], .data [0x96, 0x0a]]⟩ [.peek 0 4, .discard 2, .discard 1]).2 4
    (hStart.trans_le (by decide)) (by change 4 ≤ halfway.start + halfway.length; omega)
  exact ⟨hStart, hCarry, hLocation.trans (congrArg (EStateM.Result.ok · halfway) hPlace)⟩

end Window

end StreamMatch
