import StreamMatch.Proofs.Stream
import StreamMatch.Window.Decode

/-!
Code points decoded from bytes that are all at hand. A window decodes what stands ahead of it in
just this way (`leads_decode`), wherever the reads of its source cut the characters.
-/

namespace StreamMatch

namespace Utf8

/-- The segment at the front of the bytes, or nothing if there are none. -/
def Segment.atFront : List UInt8 → Option Segment
  | [] => none
  | lead :: rest => some (.of lead (rest.take (leadWidth lead - 1)))

/-- Under the strict policy malformed bytes at this offset of the stream are a fault. -/
def tolerate (policy : DecodePolicy) (offset : Nat) : Except Fault Unit :=
  match policy with
  | .lenient => return ()
  | .strict => throw (.invalidUtf8 offset)

/-- Decodes up to `count` code points from bytes that stand at this offset of the stream. -/
def decode (policy : DecodePolicy) (offset : Nat) :
    (count : Nat) → List UInt8 → Except Fault Decoded
  | 0, _ => return .nil
  | count + 1, bytes =>
    match Segment.atFront bytes with
    | none => return .nil
    | some (.char c width) => do
      return (← decode policy (offset + width) count (bytes.drop width)).cons c width
    | some .malformed => do
      tolerate policy offset
      return (← decode policy (offset + 1) count (bytes.drop 1)).cons replacement 1
    | some .truncated => do
      tolerate policy offset
      return Decoded.nil.cons replacement 1

/-- A character takes as many bytes as its lead byte announces, and they are all there. -/
theorem Segment.of_eq_char {lead : UInt8} {tail : List UInt8} {c : Char} {width : Nat}
    (hSegment : Segment.of lead tail = .char c width) :
    width = leadWidth lead ∧ 0 < width ∧ width ≤ tail.length + 1 := by
  unfold Segment.of at hSegment
  split at hSegment
  · cases hSegment
  · next hLead =>
    split at hSegment
    · split at hSegment <;> cases hSegment
    · next hTail =>
      split at hSegment
      · cases hSegment
        exact ⟨rfl, Nat.pos_of_ne_zero hLead, Nat.not_lt.1 hTail⟩
      · cases hSegment

end Utf8

namespace Window

theorem tolerate_eq (offset : Nat) (window : Window) :
    tolerate offset window =
      match window.config.policy with
      | .lenient => .ok () window
      | .strict => .error (.invalidUtf8 (window.start + offset)) window := by
  rw [tolerate, get_bind_apply]
  cases window.config.policy <;> rfl

theorem leads_tolerate (offset : Nat) (window : Window) :
    Leads (tolerate offset) window
      (fun _ after => after = window ∧
        Utf8.tolerate window.config.policy (window.start + offset) = .ok ())
      (fun fault after => after = window ∧
        Utf8.tolerate window.config.policy (window.start + offset) = .error fault) := by
  simp only [tolerate, leads_bind, leads_get]
  cases window.config.policy with
  | lenient => exact ⟨rfl, rfl⟩
  | strict => exact ⟨rfl, rfl⟩

/-- The segment found is the one that stands in the stream, and the bytes of a character have been
read. -/
theorem leads_segment (offset : Nat) (window : Window) :
    Leads (segment offset) window
      (fun found after => Continues window after ∧
        found = Utf8.Segment.atFront (window.ahead.drop offset) ∧
        (found.isSome → offset + 1 ≤ after.length) ∧
        ∀ c width, found = some (.char c width) → offset + width ≤ after.length)
      (fun _ after => Continues window after ∧ ¬ window.source.Calm) := by
  refine (leads_peek offset 1 window).bind (fun _ _ h => h) ?_
  rintro bytes middle ⟨hMiddle, hBytes, hHead⟩
  cases hFront : window.ahead.drop offset with
  | nil =>
    rw [hFront, List.take_nil] at hBytes
    subst hBytes
    exact ⟨hMiddle, rfl, by simp, by simp⟩
  | cons lead rest =>
    rw [hFront, List.take_succ_cons, List.take_zero] at hBytes
    subst hBytes
    refine (leads_peek (offset + 1) (Utf8.leadWidth lead - 1) middle).bind
      (fun _ _ h => ⟨hMiddle.trans h.1, h.2 ∘ hMiddle.calm⟩) ?_
    rintro tail after ⟨hAfter, hTail, hEnd⟩
    have hRest : middle.ahead.drop (offset + 1) = rest := by
      rw [hMiddle.ahead_eq, ← List.drop_drop, hFront, List.drop_succ_cons, List.drop_zero]
    have hLength := hAfter.length_le
    rw [hRest] at hTail
    simp only [List.length_singleton] at hHead
    refine ⟨hMiddle.trans hAfter, by rw [hTail]; rfl, fun _ => by omega, ?_⟩
    intro c width hFound
    obtain ⟨-, hWidth, hEnough⟩ := Utf8.Segment.of_eq_char (Option.some.inj hFound)
    omega

/-- A character that has been read goes in front of what is decoded behind it. -/
theorem leads_decode_cons {offset width count : Nat} {c : Char} {window middle : Window}
    {wanted : Except Fault Decoded}
    (hDecode : Leads (decode (offset + width) count) middle
      (fun decoded after => (Continues window after ∧ middle.length ≤ after.length) ∧
        wanted = .ok decoded ∧ offset + width + decoded.length ≤ max (offset + width) after.length)
      (fun fault after => Continues window after ∧
        (¬ window.source.Calm ∨ wanted = .error fault)))
    (hWidth : offset + width ≤ middle.length) :
    Leads (do return (← decode (offset + width) count).cons c width) middle
      (fun decoded after => Continues window after ∧
        (do return (← wanted).cons c width) = .ok decoded ∧
        offset + decoded.length ≤ max offset after.length)
      (fun fault after => Continues window after ∧
        (¬ window.source.Calm ∨ (do return (← wanted).cons c width) = .error fault)) := by
  refine hDecode.bind (fun _ _ h => ⟨h.1, h.2.imp_right fun hFault => ?_⟩) ?_
  · rw [hFault]
    rfl
  · rintro rest after ⟨⟨hAfter, hLength⟩, hRest, hEnd⟩
    refine ⟨hAfter, by rw [hRest]; rfl, ?_⟩
    simp only [Decoded.cons]
    omega

/-- A window decodes what stands ahead of it in the stream. -/
theorem leads_decode (offset count : Nat) (window : Window) :
    Leads (decode offset count) window
      (fun decoded after => Continues window after ∧
        Utf8.decode window.config.policy (window.start + offset) count
          (window.ahead.drop offset) = .ok decoded ∧
        offset + decoded.length ≤ max offset after.length)
      (fun fault after => Continues window after ∧
        (¬ window.source.Calm ∨
          Utf8.decode window.config.policy (window.start + offset) count
            (window.ahead.drop offset) = .error fault)) := by
  induction count generalizing offset window with
  | zero => exact ⟨.refl window, rfl, Nat.le_max_left _ _⟩
  | succ count ih =>
    refine (leads_segment offset window).bind (fun _ _ h => ⟨h.1, .inl h.2⟩) ?_
    rintro found middle ⟨hMiddle, hFound, hLead, hWidth⟩
    -- Decoding goes on in the window as it is after the segment, past the width of the segment.
    have hRest (width : Nat) : Leads (decode (offset + width) count) middle
        (fun decoded after => (Continues window after ∧ middle.length ≤ after.length) ∧
          Utf8.decode window.config.policy (window.start + offset + width) count
            ((window.ahead.drop offset).drop width) = .ok decoded ∧
          offset + width + decoded.length ≤ max (offset + width) after.length)
        (fun fault after => Continues window after ∧
          (¬ window.source.Calm ∨
            Utf8.decode window.config.policy (window.start + offset + width) count
              ((window.ahead.drop offset).drop width) = .error fault)) := by
      have hIh := ih (offset + width) middle
      rw [hMiddle.config_eq, hMiddle.start_eq, hMiddle.ahead_eq, ← Nat.add_assoc,
        ← List.drop_drop] at hIh
      exact hIh.mono (fun _ _ h => ⟨⟨hMiddle.trans h.1, h.1.length_le⟩, h.2⟩)
        (fun _ _ h => ⟨hMiddle.trans h.1, h.2.imp_left (· ∘ hMiddle.calm)⟩)
    have hTolerate := leads_tolerate offset middle
    rw [hMiddle.config_eq, hMiddle.start_eq] at hTolerate
    rw [Utf8.decode]
    cases found with
    | none => exact ⟨hMiddle, by rw [← hFound]; rfl, Nat.le_max_left _ _⟩
    | some segment =>
      rw [← hFound]
      cases segment with
      | char c width => exact leads_decode_cons (hRest width) (hWidth c width rfl)
      | malformed =>
        dsimp only
        refine hTolerate.bind (fun _ _ h => ?_) ?_
        · obtain ⟨rfl, hFault⟩ := h
          exact ⟨hMiddle, .inr (by rw [hFault]; rfl)⟩
        · rintro - after ⟨rfl, hAllowed⟩
          rw [hAllowed]
          exact leads_decode_cons (hRest 1) (hLead rfl)
      | truncated =>
        dsimp only
        refine hTolerate.bind (fun _ _ h => ?_) ?_
        · obtain ⟨rfl, hFault⟩ := h
          exact ⟨hMiddle, .inr (by rw [hFault]; rfl)⟩
        · rintro - after ⟨rfl, hAllowed⟩
          refine ⟨hMiddle, by rw [hAllowed]; rfl, ?_⟩
          have hEnough := hLead rfl
          simp only [Decoded.cons, Decoded.nil]
          omega

end Window

end StreamMatch
