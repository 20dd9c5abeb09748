import Mathlib
import StreamMatch.Proofs.Accounts

/-!
How much a window holds. The bytes that were discarded and not dropped yet are fewer than a chunk,
or fewer than those retained (`Window.Tight`): a discard drops them as soon as they are neither, and
a read only adds to what is retained. And a look takes less than a chunk from the source beyond what
it asks for (`Window.leads_fill_frugal`), since each read before the last one has left something to
ask for. So what is held is bounded by what is still needed (`Session.holdings_bounded`).
-/

namespace StreamMatch

/-- A read delivers no more than was asked for. -/
theorem Source.length_le_of_read {source rest : Source} {limit : Nat} {delivered : List UInt8}
    (hRead : source.read limit = (.bytes delivered, rest)) : delivered.length ≤ limit := by
  cases delivers_of_read hRead with
  | ended => exact Nat.zero_le _
  | whole _ more hLength => exact hLength
  | part _ left more hLength hLeft => exact Nat.le_of_eq hLength

namespace Window

/-- The bytes before the head are fewer than a chunk, or fewer than those behind it. -/
def Tight (window : Window) : Prop :=
  window.head < window.config.chunkSize ∨ window.head < window.length

section Tightness

variable {before after : Window} {event : Event} {events : List Event}

theorem size_eq (window : Window) : window.bytes.size = window.head + window.length :=
  (Nat.add_sub_cancel' window.head_le).symm

theorem Tight.size_lt (hTight : before.Tight) :
    before.bytes.size < before.length + max before.config.chunkSize before.length := by
  rw [size_eq]
  unfold Tight at hTight
  omega

theorem tight_ofSource (source : Source) (config : Config) : (ofSource source config).Tight :=
  .inl config.chunkSize_pos

theorem tight_compact (window : Window) : window.compact.Tight := by
  have hSize := window.size_eq
  unfold compact
  split
  · exact .inl window.config.chunkSize_pos
  · unfold Tight
    omega

theorem Tight.discard (hTight : before.Tight) (count : Nat) (width : Char → Nat) :
    (before.discard count width).Tight := by
  simp only [Window.discard]
  split
  · exact hTight
  · exact tight_compact _

theorem Tight.receive (hTight : before.Tight) (delivery : Delivery) (rest : Source) :
    (before.receive delivery rest).Tight := by
  have hLength : before.length ≤ (before.receive delivery rest).length := by
    rw [← length_retained, ← length_retained, retained_receive, List.length_append]
    exact Nat.le_add_right _ _
  have hHead : (before.receive delivery rest).head = before.head := by
    unfold Window.receive
    split <;> rfl
  have hConfig : (before.receive delivery rest).config = before.config := by
    unfold Window.receive
    split <;> rfl
  rw [Tight, hHead, hConfig]
  exact hTight.imp_right fun hLess => Nat.lt_of_lt_of_le hLess hLength

theorem Tight.step (hTight : before.Tight) (hStep : Step before event after) : after.Tight := by
  cases hStep with
  | read hOpen hRead => exact hTight.receive _ _
  | discard count width => exact hTight.discard count width

theorem Tight.passes (hTight : before.Tight) (hPasses : before.Passes events after) :
    after.Tight := by
  induction hPasses with
  | refl => exact hTight
  | snoc _ hLast ih => exact ih.step hLast

theorem Step.config_eq (hStep : Step before event after) : after.config = before.config := by
  cases hStep with
  | read hOpen hRead =>
    unfold receive
    split <;> rfl
  | discard count width => exact (before.rest_discard count width).1

theorem Passes.config_eq (hPasses : before.Passes events after) : after.config = before.config := by
  induction hPasses with
  | refl => rfl
  | snoc _ hLast ih => exact hLast.config_eq.trans ih

end Tightness

/-- The window after so many bytes were wanted. What has come from the source meanwhile is retained
behind what was, and if there is any, then less than a chunk of it was not wanted. -/
structure Frugal (want : Nat) (before after : Window) : Prop where
  start_eq : after.start = before.start
  exists_delivered : ∃ delivered, before.coming = delivered ++ after.coming ∧
    after.retained = before.retained ++ delivered
  length_le : after.length ≤ max before.length (want + before.config.chunkSize - 1)

section Frugality

variable {before after : Window} {want : Nat}

theorem Draws.exists_delivered (hDraws : before.Draws after) :
    ∃ delivered, before.coming = delivered ++ after.coming ∧
      after.retained = before.retained ++ delivered := by
  obtain ⟨delivered, hRetained⟩ := hDraws.keeps_retained
  refine ⟨delivered, ?_, hRetained.symm⟩
  have hAhead : after.retained ++ after.coming = before.retained ++ before.coming := hDraws.ahead_eq
  rw [← hRetained, List.append_assoc] at hAhead
  exact (List.append_cancel_left hAhead).symm

/-- The source is read only while something is still wanted. -/
theorem leads_fill_length (want : Nat) (window : Window) :
    Leads (fill want) window
      (fun _ after => after.length ≤ max window.length (want + window.config.chunkSize - 1))
      (fun _ after => after.length ≤ max window.length (want + window.config.chunkSize - 1)) := by
  unfold Leads
  fun_induction fill want window with
  | case1 => exact Nat.le_max_left _ _
  | case2 window hShort byte more rest hRead ih =>
    have hDelivered := Source.length_le_of_read hRead
    have hLength := (window.extend (byte :: more)).length_retained
    rw [retained_extend, List.length_append, length_retained] at hLength
    have hEnough : (window.extend (byte :: more)).length ≤ want + window.config.chunkSize - 1 := by
      have hWant := hShort.1
      omega
    have hBound : max (window.extend (byte :: more)).length (want + window.config.chunkSize - 1) ≤
        max window.length (want + window.config.chunkSize - 1) := by omega
    exact Leads.mono ih (fun _ _ h => Nat.le_trans h hBound) fun _ _ h => Nat.le_trans h hBound
  | case3 window hShort message rest hRead ih => exact ih
  | case4 window hShort kind message => exact Nat.le_max_left _ _
  | case5 window hEnough => exact Nat.le_max_left _ _

/-- Whether or not the source fails, less than a chunk is read beyond what is wanted. -/
theorem leads_fill_frugal (want : Nat) (window : Window) :
    Leads (fill want) window (fun _ after => Frugal want window after)
      (fun _ after => Frugal want window after) := by
  apply ((leads_fill_draws want window).and (leads_fill_length want window)).mono
  · exact fun _ after h => ⟨h.1.1.start_eq, h.1.1.exists_delivered, h.2⟩
  · exact fun _ after h => ⟨h.1.1.start_eq, h.1.1.exists_delivered, h.2⟩

theorem leads_peek_frugal (offset count : Nat) (window : Window) :
    Leads (peek offset count) window (fun _ after => Frugal (offset + count) window after)
      (fun _ after => Frugal (offset + count) window after) :=
  (leads_fill_frugal (offset + count) window).bind (fun _ _ h => h) fun _ _ h => h

end Frugality

end Window

namespace Session

/-- What is held is bounded by what is still needed. After any operations on a session, those
included that met a fault, the bytes that were discarded and not dropped yet are fewer than a chunk,
or fewer than those retained; so all that are held are fewer than those retained and as many more,
or a chunk more. And whether or not it succeeds, a look at so many bytes leaves no more retained
than were before, or than those looked at and less than a chunk; all that it has taken from the
source is among them. -/
theorem holdings_bounded (grammar : Grammar) (config : Config) (source : Source) (name : String)
    (traced : Bool) (operations : List Operation) :
    let window := (operations.foldl (operate grammar) (start config source name traced)).window
    (window.head < config.chunkSize ∨ window.head < window.length) ∧
      window.bytes.size < window.length + max config.chunkSize window.length ∧
      ∀ offset count, Leads (Window.peek offset count) window
        (fun _ after => window.Frugal (offset + count) after ∧
          after.length ≤ max window.length (offset + count + config.chunkSize - 1))
        (fun _ after => window.Frugal (offset + count) after ∧
          after.length ≤ max window.length (offset + count + config.chunkSize - 1)) := by
  intro window
  obtain ⟨events, hPasses⟩ :=
    exists_passes_foldl grammar (start config source name traced) operations
  have hConfig : window.config = config := hPasses.config_eq
  have hTight : window.Tight := (Window.tight_ofSource source config).passes hPasses
  rw [← hConfig]
  refine ⟨hTight, hTight.size_lt, fun offset count => ?_⟩
  apply (Window.leads_peek_frugal offset count window).mono
  · exact fun _ after h => ⟨h, h.length_le⟩
  · exact fun _ after h => ⟨h, h.length_le⟩

end Session

end StreamMatch
