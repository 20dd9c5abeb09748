import StreamMatch.Proofs.Boundaries
import StreamMatch.Proofs.Encoding

/-!
What lenient decoding makes of bytes that are not all well formed. Each character that is decoded
stands for a segment of the stream: for the well-formed sequence that spells it, or, if it is a
replacement, for a single byte at which no well-formed sequence starts (`Utf8.Segmented`). Since
well-formed sequences do not overlap, none of them is missed among malformed bytes
(`Utf8.Segmented.exists_split`).
-/

namespace StreamMatch

namespace Utf8

/-- A well-formed sequence stands at the front of these bytes. -/
def StartsCharacter (bytes : List UInt8) : Prop :=
  ∃ c rest, bytes = String.utf8EncodeChar c ++ rest

/-- The bytes begin with one segment for each of these characters, so many bytes in all. -/
inductive Segmented : (bytes : List UInt8) → (chars : List Char) → (length : Nat) → Prop where
  | nil (bytes : List UInt8) : Segmented bytes [] 0
  /-- A character stands for the sequence that spells it. -/
  | spelled (c : Char) {rest : List UInt8} {chars : List Char} {length : Nat}
    (hRest : Segmented rest chars length) :
    Segmented (String.utf8EncodeChar c ++ rest) (c :: chars)
      ((String.utf8EncodeChar c).length + length)
  /-- A replacement stands for one byte at which no character starts. -/
  | replaced {byte : UInt8} {rest : List UInt8} {chars : List Char} {length : Nat}
    (hMalformed : ¬ StartsCharacter (byte :: rest)) (hRest : Segmented rest chars length) :
    Segmented (byte :: rest) (replacement :: chars) (1 + length)

variable {lead : UInt8} {bytes tail front rest : List UInt8} {c other : Char} {width : Nat}

/-- The segment of a character is the sequence that spells it. -/
theorem Segment.utf8EncodeChar_of_eq_char (hSegment : Segment.of lead tail = .char c width) :
    String.utf8EncodeChar c = lead :: tail := by
  unfold Segment.of at hSegment
  split at hSegment
  · cases hSegment
  · split at hSegment
    · split at hSegment <;> cases hSegment
    · split at hSegment
      · next hChar =>
        cases hSegment
        exact utf8EncodeChar_of_charOf? hChar
      · cases hSegment

theorem Segment.eq_append_of_atFront (hFront : Segment.atFront bytes = some (.char c width)) :
    bytes = String.utf8EncodeChar c ++ bytes.drop width ∧
      width = (String.utf8EncodeChar c).length := by
  cases bytes with
  | nil => cases hFront
  | cons lead rest =>
    have hSegment := Option.some.inj hFront
    have hBytes := Segment.utf8EncodeChar_of_eq_char hSegment
    obtain ⟨rfl, hPos, hEnough⟩ := Segment.of_eq_char hSegment
    rw [List.length_take] at hEnough
    obtain ⟨more, hMore⟩ := Nat.exists_eq_succ_of_ne_zero (Nat.ne_of_gt hPos)
    rw [hMore] at hBytes hEnough ⊢
    constructor
    · rw [hBytes]
      simp
    · rw [hBytes]
      simp
      omega

/-- Where a character starts, it is found. -/
theorem StartsCharacter.exists_atFront (hStarts : StartsCharacter bytes) :
    ∃ c width, Segment.atFront bytes = some (.char c width) := by
  obtain ⟨c, rest, rfl⟩ := hStarts
  exact ⟨c, _, Segment.atFront_utf8EncodeChar c rest⟩

/-- Lenient decoding never fails, and what it decodes stands for segments of the bytes. -/
theorem exists_segmented_decode (offset count : Nat) (bytes : List UInt8) :
    ∃ decoded, decode .lenient offset count bytes = .ok decoded ∧ decoded.chars.length ≤ count ∧
      Segmented bytes decoded.chars decoded.length := by
  induction count generalizing offset bytes with
  | zero => exact ⟨.nil, rfl, Nat.le_refl _, .nil bytes⟩
  | succ count ih =>
    -- A byte that is replaced is one where no character is found, whatever the reason.
    have hReplaced {byte : UInt8} {rest : List UInt8} {segment : Segment}
        (hFront : Segment.atFront (byte :: rest) = some segment)
        (hOther : ∀ c width, segment ≠ .char c width) : ¬ StartsCharacter (byte :: rest) := by
      intro hStarts
      obtain ⟨c, width, hChar⟩ := hStarts.exists_atFront
      rw [hFront] at hChar
      exact hOther c width (Option.some.inj hChar)
    cases bytes with
    | nil => exact ⟨.nil, rfl, Nat.zero_le _, .nil []⟩
    | cons byte rest =>
      cases hFront : Segment.of byte (rest.take (leadWidth byte - 1)) with
      | char c width =>
        have hAtFront : Segment.atFront (byte :: rest) = some (.char c width) :=
          congrArg some hFront
        obtain ⟨hBytes, hWidth⟩ := Segment.eq_append_of_atFront hAtFront
        obtain ⟨decoded, hDecode, hCount, hRest⟩ := ih (offset + width) ((byte :: rest).drop width)
        refine ⟨decoded.cons c width, ?_, Nat.succ_le_succ hCount, ?_⟩
        · simp only [decode, Segment.atFront, hFront, hDecode]
          rfl
        · have hSegmented := Segmented.spelled c hRest
          rw [← hBytes, ← hWidth] at hSegmented
          exact hSegmented
      | malformed =>
        obtain ⟨decoded, hDecode, hCount, hRest⟩ := ih (offset + 1) rest
        have hMalformed := hReplaced (congrArg some hFront) (by simp)
        have hDecoded : decode .lenient offset (count + 1) (byte :: rest) =
            .ok (decoded.cons replacement 1) := by
          simp only [decode, Segment.atFront, hFront, tolerate, List.drop_one, List.tail_cons,
            hDecode]
          rfl
        exact ⟨_, hDecoded, Nat.succ_le_succ hCount, .replaced hMalformed hRest⟩
      | truncated =>
        have hMalformed := hReplaced (congrArg some hFront) (by simp)
        have hDecoded : decode .lenient offset (count + 1) (byte :: rest) =
            .ok (Decoded.nil.cons replacement 1) := by
          simp only [decode, Segment.atFront, hFront, tolerate]
          rfl
        exact ⟨_, hDecoded, Nat.succ_le_succ (Nat.zero_le _), .replaced hMalformed (.nil rest)⟩

/-- Only the first byte of what spells a character is no continuation byte. -/
theorem utf8EncodeChar_eq_cons (c : Char) :
    ∃ lead tail, String.utf8EncodeChar c = lead :: tail ∧ isContinuation lead = false ∧
      ∀ byte ∈ tail, isContinuation byte = true := by
  obtain ⟨lead, tail, hBytes, hChar⟩ := charOf?_cons_of_utf8EncodeChar c
  have hWidth := leadWidth_of_charOf? hChar
  have hLead : isContinuation lead = false :=
    Bool.eq_false_iff.2 fun hContinues =>
      absurd (leadWidth_of_isContinuation hContinues) (by omega)
  exact ⟨lead, tail, hBytes, hLead, fun byte hByte => isContinuation_of_charOf? hChar hByte⟩

/-- What spells a character cannot go on to spell another one. -/
theorem eq_of_utf8EncodeChar_append {more : List UInt8}
    (hSame : String.utf8EncodeChar c ++ rest = String.utf8EncodeChar other ++ more) :
    c = other := by
  have hFound := Segment.atFront_utf8EncodeChar c rest
  rw [hSame, Segment.atFront_utf8EncodeChar] at hFound
  cases hFound
  rfl

/-- No sequence starts inside another one: if it stands further on, it stands behind that one. -/
theorem exists_eq_utf8EncodeChar_append {more : List UInt8} (hFront : front ≠ [])
    (hSame : String.utf8EncodeChar other ++ more = front ++ (String.utf8EncodeChar c ++ rest)) :
    ∃ between, front = String.utf8EncodeChar other ++ between ∧
      more = between ++ (String.utf8EncodeChar c ++ rest) := by
  obtain ⟨lead, tail, hOther, -, hTail⟩ := utf8EncodeChar_eq_cons other
  obtain ⟨head, last, hChar, hHead, -⟩ := utf8EncodeChar_eq_cons c
  rcases List.append_eq_append_iff.1 hSame with hBehind | hWithin
  · exact hBehind
  · obtain ⟨inside, hInside, hRest⟩ := hWithin
    cases inside with
    | nil =>
      rw [List.append_nil] at hInside
      exact ⟨[], by rw [hInside, List.append_nil], hRest.symm⟩
    | cons byte inside =>
      -- The lead byte of the later sequence would be a continuation byte of the earlier one.
      rw [hChar, List.cons_append, List.cons_append] at hRest
      obtain ⟨rfl, -⟩ := List.cons.inj hRest
      cases front with
      | nil => exact absurd rfl hFront
      | cons first others =>
        rw [hOther, List.cons_append] at hInside
        have hMem : head ∈ tail := by
          rw [(List.cons.inj hInside).2]
          simp
        rw [hTail head hMem] at hHead
        cases hHead

namespace Segmented

variable {chars : List Char} {length : Nat}

/-- A character that starts among the bytes spanned is one of those decoded, at its place. -/
theorem exists_split (hSegmented : Segmented bytes chars length)
    (hBytes : bytes = front ++ (String.utf8EncodeChar c ++ rest)) (hFront : front.length < length) :
    ∃ before after, chars = before ++ c :: after ∧ Segmented bytes before front.length := by
  induction hSegmented generalizing front with
  | nil bytes => cases hFront
  | @spelled other more chars length hRest ih =>
    cases front with
    | nil =>
      obtain rfl := eq_of_utf8EncodeChar_append hBytes
      exact ⟨[], chars, rfl, .nil _⟩
    | cons byte others =>
      obtain ⟨between, hOthers, hMore⟩ :=
        exists_eq_utf8EncodeChar_append (List.cons_ne_nil _ _) hBytes
      rw [hOthers, List.length_append] at hFront ⊢
      obtain ⟨before, after, rfl, hBefore⟩ := ih hMore (by omega)
      exact ⟨other :: before, after, rfl, .spelled other hBefore⟩
  | @replaced byte more chars length hMalformed hRest ih =>
    cases front with
    | nil => exact absurd ⟨c, rest, hBytes⟩ hMalformed
    | cons first others =>
      obtain ⟨rfl, hMore⟩ := List.cons.inj hBytes
      rw [List.length_cons] at hFront
      obtain ⟨before, after, rfl, hBefore⟩ := ih hMore (by omega)
      rw [List.length_cons, Nat.add_comm]
      exact ⟨replacement :: before, after, rfl, .replaced hMalformed hBefore⟩

end Segmented

end Utf8

namespace Window

/-- Lenient decoding replaces exactly the bytes that start no well-formed sequence. Wherever the
window has got to, and however its source delivers the stream, no more characters are decoded than
were asked for, and each of them stands for a segment of the stream, in order: for the well-formed
sequence that spells it, or, if it replaces a byte, for that byte alone, at which no well-formed
sequence of the stream starts. Every character whose sequence starts among the bytes spanned is
decoded, at its place. -/
theorem decode_segmented {stream : List UInt8} {window : Window} (hOver : window.Over stream)
    (hCalm : window.source.Calm) (hPolicy : window.config.policy = .lenient) (offset count : Nat) :
    Leads (decode offset count) window
      (fun decoded _ => decoded.chars.length ≤ count ∧
        Utf8.Segmented (stream.drop (window.start + offset)) decoded.chars decoded.length ∧
        ∀ front c rest,
          stream.drop (window.start + offset) = front ++ (String.utf8EncodeChar c ++ rest) →
          front.length < decoded.length →
          ∃ before after, decoded.chars = before ++ c :: after ∧
            Utf8.Segmented (stream.drop (window.start + offset)) before front.length)
      (fun _ _ => False) := by
  obtain ⟨found, hFound, hCount, hSegmented⟩ := Utf8.exists_segmented_decode
    (window.start + offset) count (stream.drop (window.start + offset))
  have hAhead : window.ahead.drop offset = stream.drop (window.start + offset) := by
    rw [← List.drop_drop, hOver.drop_start]
  have hDecode := leads_decode offset count window
  rw [hPolicy, hAhead, hFound] at hDecode
  apply hDecode.mono
  · intro decoded after hDecoded
    obtain ⟨-, hSame, -⟩ := hDecoded
    cases hSame
    exact ⟨hCount, hSegmented, fun _ _ _ => hSegmented.exists_split⟩
  · intro fault after hHalts
    cases hHalts.2 with
    | inl hFails => exact hFails hCalm
    | inr hFault => cases hFault

/-- A sequence that a letter cuts short, a character delivered in two pieces, the three bytes of a
surrogate, and a lead byte at the end of the stream. -/
def patchy : Source :=
  ⟨[.data [0xe2, 0x82], .data [0x41, 0xf0, 0x9f], .failure .interrupted "",
    .data [0x98, 0x80, 0xed, 0xa0, 0x80, 0xc3]]⟩

/-- The letter and the character are decoded, and six bytes are replaced one by one. -/
theorem decode_segmented_patchy :
    Leads (decode 0 20) (ofSource patchy)
      (fun decoded _ =>
        decoded.chars = ['\uFFFD', '\uFFFD', 'A', '😀', '\uFFFD', '\uFFFD', '\uFFFD', '\uFFFD'] ∧
        Utf8.Segmented patchy.content decoded.chars decoded.length)
      (fun _ _ => False) := by
  have hCalm : patchy.Calm := by
    simp [patchy, Source.Calm]
  have hOver : (ofSource patchy).Over patchy.content := over_content default patchy
  have hDecode : Utf8.decode .lenient 0 20 patchy.content =
      .ok ⟨['\uFFFD', '\uFFFD', 'A', '😀', '\uFFFD', '\uFFFD', '\uFFFD', '\uFFFD'], 11⟩ := rfl
  have hRun := leads_decode 0 20 (ofSource patchy)
  rw [← hOver.drop_start] at hRun
  apply (hRun.and (decode_segmented hOver hCalm rfl 0 20)).mono
  · intro decoded after hDecoded
    obtain ⟨⟨-, hSame, -⟩, -, hSegments, -⟩ := hDecoded
    cases hDecode.symm.trans hSame
    exact ⟨rfl, hSegments⟩
  · exact fun _ _ hHalts => hHalts.2

end Window

end StreamMatch
