import StreamMatch.Proofs.Replacement

/-!
Where lenient decoding stops. At the front of any bytes there is nothing, a character, or a byte at
which no character starts (`Utf8.Front`), and decoding goes on behind each of these but one: the
lead byte of a sequence that the end of the stream cuts off (`Utf8.CutOff`). Only how many bytes the
lead asks for tells such a sequence from others, so that what is cut off need not be the beginning
of a character (`Utf8.cutShort_iff`).
-/

namespace StreamMatch

namespace Utf8

/-- What stands at the front of some bytes. -/
inductive Front : List UInt8 → Prop where
  | nil : Front []
  | character (c : Char) (rest : List UInt8) : Front (String.utf8EncodeChar c ++ rest)
  | malformed {byte : UInt8} {rest : List UInt8} (hMalformed : ¬ StartsCharacter (byte :: rest)) :
    Front (byte :: rest)

/-- The bytes are a lead byte and some continuation bytes, fewer than the lead asks for. -/
def CutOff : List UInt8 → Prop
  | [] => False
  | lead :: tail => tail.length + 1 < leadWidth lead ∧ ∀ byte ∈ tail, isContinuation byte = true

/-- The bytes begin the sequence of a character, of which there is more to come. -/
def CutShort (bytes : List UInt8) : Prop :=
  ∃ c more, more ≠ [] ∧ String.utf8EncodeChar c = bytes ++ more

variable {policy : DecodePolicy} {offset count place : Nat} {byte lead second : UInt8}
  {bytes tail rest more : List UInt8} {c : Char} {front : List Char} {decoded : Decoded}

theorem Front.of (bytes : List UInt8) : Front bytes := by
  by_cases hStarts : StartsCharacter bytes
  · obtain ⟨c, rest, rfl⟩ := hStarts
    exact .character c rest
  · cases bytes with
    | nil => exact .nil
    | cons byte rest => exact .malformed hStarts

section Segments

theorem Segment.atFront_eq_truncated_iff (bytes : List UInt8) :
    Segment.atFront bytes = some .truncated ↔ CutOff bytes := by
  cases bytes with
  | nil => simp [Segment.atFront, CutOff]
  | cons lead tail =>
    simp only [Segment.atFront, Option.some.injEq, CutOff]
    by_cases hShort : tail.length + 1 < leadWidth lead
    · have hTail : tail.take (leadWidth lead - 1) = tail := List.take_of_length_le (by omega)
      have hLead : leadWidth lead ≠ 0 := by omega
      simp [Segment.of, hTail, hLead, hShort]
    · have hEnough : ¬ (tail.take (leadWidth lead - 1)).length + 1 < leadWidth lead := by
        rw [List.length_take]
        omega
      simp only [Segment.of, if_neg hEnough, hShort, false_and, iff_false]
      split
      · simp
      · split <;> simp

theorem Segment.atFront_of_not_cutOff (hMalformed : ¬ StartsCharacter (byte :: rest))
    (hGoes : ¬ CutOff (byte :: rest)) : Segment.atFront (byte :: rest) = some .malformed := by
  cases hFront : Segment.atFront (byte :: rest) with
  | none => cases hFront
  | some segment =>
    cases segment with
    | char c width => exact absurd ⟨c, _, (Segment.eq_append_of_atFront hFront).1⟩ hMalformed
    | malformed => rfl
    | truncated => exact absurd ((Segment.atFront_eq_truncated_iff _).1 hFront) hGoes

end Segments

section Steps

theorem decode_character (policy : DecodePolicy) (offset count : Nat) (c : Char)
    (rest : List UInt8) :
    decode policy offset (count + 1) (String.utf8EncodeChar c ++ rest) =
      (Decoded.cons c (String.utf8EncodeChar c).length) <$>
        decode policy (offset + (String.utf8EncodeChar c).length) count rest := by
  rw [decode, Segment.atFront_utf8EncodeChar]
  simp only [List.drop_left]
  rfl

/-- A replacement is made without regard to what is behind it, and decoding goes on there. -/
theorem decode_malformed (hMalformed : ¬ StartsCharacter (byte :: rest))
    (hGoes : ¬ CutOff (byte :: rest)) :
    decode .lenient offset (count + 1) (byte :: rest) =
      (Decoded.cons replacement 1) <$> decode .lenient (offset + 1) count rest := by
  rw [decode, Segment.atFront_of_not_cutOff hMalformed hGoes]
  rfl

theorem decode_cutOff (hCut : CutOff bytes) :
    decode .lenient offset (count + 1) bytes = .ok ⟨[replacement], 1⟩ := by
  rw [decode, (Segment.atFront_eq_truncated_iff bytes).2 hCut]
  rfl

/-- One character is all the same whether or not decoding would go on behind it. -/
theorem decode_one_malformed (offset : Nat) (hMalformed : ¬ StartsCharacter (byte :: rest)) :
    decode .lenient offset 1 (byte :: rest) = .ok ⟨[replacement], 1⟩ := by
  by_cases hCut : CutOff (byte :: rest)
  · exact decode_cutOff hCut
  · rw [decode_malformed hMalformed hCut]
    rfl

/-- Whether or not decoding goes on behind it, the first character is a replacement. -/
theorem exists_decode_malformed (offset count : Nat)
    (hMalformed : ¬ StartsCharacter (byte :: rest)) :
    ∃ behind length,
      decode .lenient offset (count + 1) (byte :: rest) = .ok ⟨replacement :: behind, length⟩ := by
  by_cases hCut : CutOff (byte :: rest)
  · exact ⟨[], 1, decode_cutOff hCut⟩
  · obtain ⟨later, hLater, -, -⟩ := exists_segmented_decode (offset + 1) count rest
    refine ⟨later.chars, 1 + later.length, ?_⟩
    rw [decode_malformed hMalformed hCut, hLater]
    rfl

theorem decode_strict_malformed (hMalformed : ¬ StartsCharacter (byte :: rest)) :
    decode .strict offset (count + 1) (byte :: rest) = .error (.invalidUtf8 offset) := by
  by_cases hCut : CutOff (byte :: rest)
  · rw [decode, (Segment.atFront_eq_truncated_iff _).2 hCut]
    rfl
  · rw [decode, Segment.atFront_of_not_cutOff hMalformed hCut]
    rfl

end Steps

section Stops

/-- No character starts at a continuation byte. -/
theorem not_startsCharacter_of_isContinuation (hByte : isContinuation byte = true) :
    ¬ StartsCharacter (byte :: rest) := by
  intro hStarts
  obtain ⟨c, more, hBytes⟩ := hStarts
  obtain ⟨lead, tail, hChar, hLead, -⟩ := utf8EncodeChar_eq_cons c
  rw [hChar, List.cons_append] at hBytes
  rw [(List.cons.inj hBytes).1, hLead] at hByte
  cases hByte

/-- No lead byte asks for more than three bytes. -/
theorem CutOff.length_le (hCut : CutOff bytes) : bytes.length ≤ 3 := by
  cases bytes with
  | nil => exact Nat.zero_le _
  | cons lead tail =>
    have hWidth := hCut.1
    have hMost := leadWidth_le lead
    rw [List.length_cons]
    omega

/-- No lead byte stands among the bytes behind one that is cut off. -/
theorem CutOff.not_cutOff_drop (hCut : CutOff (byte :: rest)) : ¬ CutOff (rest.drop place) := by
  intro hLater
  cases hDrop : rest.drop place with
  | nil =>
    rw [hDrop] at hLater
    exact hLater
  | cons lead tail =>
    rw [hDrop] at hLater
    have hMem : lead ∈ rest := by
      apply List.mem_of_mem_drop (i := place)
      rw [hDrop]
      exact List.mem_cons_self
    have hLead := leadWidth_of_isContinuation (hCut.2 lead hMem)
    have hWidth := hLater.1
    omega

/-- Wherever a sequence is cut off, decoding comes to it and stops there. -/
theorem decode_of_cutOff (hFront : Segmented bytes front place) (hCut : CutOff (bytes.drop place))
    (hCount : front.length < count) :
    decode .lenient offset count bytes = .ok ⟨front ++ [replacement], place + 1⟩ := by
  obtain ⟨count, rfl⟩ := Nat.exists_eq_succ_of_ne_zero (Nat.ne_zero_of_lt hCount)
  induction hFront generalizing offset count with
  | nil bytes => exact decode_cutOff hCut
  | @spelled c rest chars length hRest ih =>
    rw [List.drop_length_add_append] at hCut
    rw [List.length_cons] at hCount
    obtain ⟨count, rfl⟩ := Nat.exists_eq_succ_of_ne_zero (n := count) (by omega)
    rw [decode_character, ih hCut count (by omega)]
    simp [Decoded.cons, Functor.map, Except.map, Nat.add_assoc]
  | @replaced byte rest chars length hMalformed hRest ih =>
    rw [Nat.add_comm, List.drop_succ_cons] at hCut
    rw [List.length_cons] at hCount
    obtain ⟨count, rfl⟩ := Nat.exists_eq_succ_of_ne_zero (n := count) (by omega)
    have hGoes : ¬ CutOff (byte :: rest) := fun hFirst => hFirst.not_cutOff_drop hCut
    rw [decode_malformed hMalformed hGoes, ih hCut count (by omega)]
    simp [Decoded.cons, Functor.map, Except.map, Nat.add_assoc]

/-- Where decoding stops early, a sequence is cut off. -/
theorem exists_cutOff_of_decode (hDecode : decode .lenient offset count bytes = .ok decoded)
    (hFewer : decoded.chars.length < count) (hMore : decoded.length < bytes.length) :
    ∃ front place, decoded = ⟨front ++ [replacement], place + 1⟩ ∧ Segmented bytes front place ∧
      CutOff (bytes.drop place) := by
  induction count generalizing offset bytes decoded with
  | zero => cases hFewer
  | succ count ih =>
    cases Front.of bytes with
    | nil => cases hMore
    | character c rest =>
      obtain ⟨later, hLater, -, -⟩ := exists_segmented_decode
        (offset + (String.utf8EncodeChar c).length) count rest
      rw [decode_character, hLater] at hDecode
      cases hDecode
      simp only [Decoded.cons, List.length_cons, List.length_append] at hFewer hMore
      obtain ⟨front, place, rfl, hFront, hCut⟩ := ih hLater (by omega) (by omega)
      refine ⟨c :: front, (String.utf8EncodeChar c).length + place, ?_, .spelled c hFront, ?_⟩
      · simp [Decoded.cons, Nat.add_assoc]
      · rwa [List.drop_length_add_append]
    | @malformed byte rest hMalformed =>
      by_cases hCut : CutOff (byte :: rest)
      · rw [decode_cutOff hCut] at hDecode
        cases hDecode
        exact ⟨[], 0, rfl, .nil _, hCut⟩
      · obtain ⟨later, hLater, -, -⟩ := exists_segmented_decode (offset + 1) count rest
        rw [decode_malformed hMalformed hCut, hLater] at hDecode
        cases hDecode
        simp only [Decoded.cons, List.length_cons] at hFewer hMore
        obtain ⟨front, place, rfl, hFront, hCut⟩ := ih hLater (by omega) (by omega)
        refine ⟨replacement :: front, 1 + place, ?_, .replaced hMalformed hFront, ?_⟩
        · simp [Decoded.cons, Nat.add_assoc]
        · rwa [Nat.add_comm, List.drop_succ_cons]

end Stops

section Beginnings

theorem isSecond_of_charOf? (hChar : charOf? (lead :: second :: more) = some c) :
    isSecond lead second = true := by
  unfold charOf? at hChar
  split at hChar <;> grind

/-- A sequence that is cut off behind its second byte is the beginning of a character just if that
byte is one of those that may follow the lead. -/
theorem cutShort_iff (hCut : CutOff (lead :: second :: more)) :
    CutShort (lead :: second :: more) ↔ isSecond lead second = true := by
  constructor
  · intro hShort
    obtain ⟨c, rest, -, hBytes⟩ := hShort
    have hChar := charOf?_utf8EncodeChar c
    rw [hBytes] at hChar
    exact isSecond_of_charOf? hChar
  · intro hSecond
    have hLast : isContinuation 0x80 = true := by decide
    have hComplete {missing : List UInt8} (hMissing : missing ≠ [])
        (hChar : (charOf? (lead :: second :: (more ++ missing))).isSome) :
        CutShort (lead :: second :: more) := by
      obtain ⟨c, hChar⟩ := Option.isSome_iff_exists.1 hChar
      exact ⟨c, missing, hMissing, utf8EncodeChar_of_charOf? hChar⟩
    obtain ⟨hWidth, hTail⟩ := hCut
    have hMost := leadWidth_le lead
    cases more with
    | nil =>
      have hLead : leadWidth lead = 3 ∨ leadWidth lead = 4 := by
        rw [List.length_singleton] at hWidth
        omega
      cases hLead with
      | inl hThree =>
        have hChar : (charOf? [lead, second, 0x80]).isSome := by
          simp [charOf?, hThree, hSecond, hLast]
        exact hComplete (List.cons_ne_nil _ []) hChar
      | inr hFour =>
        have hChar : (charOf? [lead, second, 0x80, 0x80]).isSome := by
          simp [charOf?, hFour, hSecond, hLast]
        exact hComplete (List.cons_ne_nil _ [0x80]) hChar
    | cons third others =>
      simp only [List.length_cons] at hWidth
      have hNone : others = [] := List.eq_nil_of_length_eq_zero (by omega)
      have hFour : leadWidth lead = 4 := by omega
      have hThird : isContinuation third = true := hTail third (by simp)
      subst hNone
      have hChar : (charOf? [lead, second, third, 0x80]).isSome := by
        simp [charOf?, hFour, hSecond, hThird, hLast]
      exact hComplete (List.cons_ne_nil _ []) hChar

end Beginnings

end Utf8

namespace Window

/-- If no read fails, a window decodes what is ahead of it in the stream. -/
theorem leads_decode_calm {stream : List UInt8} {window : Window} (hOver : window.Over stream)
    (hCalm : window.source.Calm) (offset count : Nat) :
    Leads (decode offset count) window
      (fun decoded _ => Utf8.decode window.config.policy (window.start + offset) count
        (stream.drop (window.start + offset)) = .ok decoded)
      (fun fault _ => Utf8.decode window.config.policy (window.start + offset) count
        (stream.drop (window.start + offset)) = .error fault) := by
  have hAhead : window.ahead.drop offset = stream.drop (window.start + offset) := by
    rw [← List.drop_drop, hOver.drop_start]
  have hDecode := leads_decode offset count window
  rw [hAhead] at hDecode
  apply hDecode.mono
  · exact fun _ _ hDecoded => hDecoded.2.1
  · intro fault after hHalts
    cases hHalts.2 with
    | inl hFails => exact absurd hCalm hFails
    | inr hFault => exact hFault

/-- Under the lenient policy no decoding fails. -/
theorem leads_decode_lenient {stream : List UInt8} {window : Window} (hOver : window.Over stream)
    (hCalm : window.source.Calm) (hPolicy : window.config.policy = .lenient) (offset count : Nat) :
    Leads (decode offset count) window
      (fun decoded _ => Utf8.decode .lenient (window.start + offset) count
        (stream.drop (window.start + offset)) = .ok decoded)
      (fun _ _ => False) := by
  obtain ⟨found, hFound, -, -⟩ := Utf8.exists_segmented_decode
    (window.start + offset) count (stream.drop (window.start + offset))
  have hDecode := leads_decode_calm hOver hCalm offset count
  rw [hPolicy] at hDecode
  apply hDecode.mono
  · exact fun _ _ hDecoded => hDecoded
  · intro fault after hFault
    rw [hFound] at hFault
    cases hFault

/-- Lenient decoding stops early only in front of bytes that are cut off by the end of the stream:
a lead byte, which the last replacement stands for, and continuation bytes, fewer than it asks for.
They need not begin a character: they do just if the second of them is one that may follow the lead.
And wherever such bytes are come to, decoding stops. -/
theorem decode_stops {stream : List UInt8} {window : Window} (hOver : window.Over stream)
    (hCalm : window.source.Calm) (hPolicy : window.config.policy = .lenient) (offset count : Nat) :
    let bytes := stream.drop (window.start + offset)
    Leads (decode offset count) window
      (fun decoded _ =>
        (decoded.chars.length < count → decoded.length < bytes.length →
          ∃ front place lead second more,
            decoded = ⟨front ++ [Utf8.replacement], place + 1⟩ ∧ Utf8.Segmented bytes front place ∧
            bytes.drop place = lead :: second :: more ∧ Utf8.CutOff (lead :: second :: more) ∧
            (Utf8.CutShort (lead :: second :: more) ↔ Utf8.isSecond lead second = true)) ∧
        ∀ front place, Utf8.Segmented bytes front place → front.length < count →
          Utf8.CutOff (bytes.drop place) → decoded = ⟨front ++ [Utf8.replacement], place + 1⟩)
      (fun _ _ => False) := by
  intro bytes
  apply (leads_decode_lenient hOver hCalm hPolicy offset count).mono
  · intro decoded after hDecode
    constructor
    · intro hFewer hMore
      obtain ⟨front, place, rfl, hFront, hCut⟩ := Utf8.exists_cutOff_of_decode hDecode hFewer hMore
      cases hTail : bytes.drop place with
      | nil =>
        rw [hTail] at hCut
        exact hCut.elim
      | cons lead tail =>
        cases tail with
        | nil =>
          have hLength := congrArg List.length hTail
          rw [List.length_drop, List.length_singleton] at hLength
          dsimp only at hMore
          omega
        | cons second more =>
          rw [hTail] at hCut
          exact ⟨front, place, lead, second, more, rfl, hFront, hTail, hCut, Utf8.cutShort_iff hCut⟩
    · intro front place hFront hCount hCut
      rw [Utf8.decode_of_cutOff hFront hCut hCount] at hDecode
      exact (Except.ok.inj hDecode).symm
  · exact fun _ _ hHalts => hHalts

/-- A letter, and at the end of the stream two bytes that are the beginning of no character: what
they announce would be an overlong form. -/
def overlong : Source :=
  ⟨[.data [0x41, 0xe0], .data [0x80]]⟩

theorem calm_overlong : overlong.Calm := by
  simp [overlong, Source.Calm]

theorem decode_overlong :
    Utf8.decode .lenient 0 5 overlong.content = .ok ⟨['A', Utf8.replacement], 2⟩ :=
  rfl

/-- The letter is decoded, the first of the two bytes is replaced, and the second is left over. -/
theorem decode_stops_overlong :
    Leads (decode 0 5) (ofSource overlong)
      (fun decoded _ => decoded = ⟨['A', Utf8.replacement], 2⟩ ∧
        (∃ front place lead second more,
          decoded = ⟨front ++ [Utf8.replacement], place + 1⟩ ∧
          Utf8.Segmented overlong.content front place ∧
          overlong.content.drop place = lead :: second :: more ∧
          Utf8.CutOff (lead :: second :: more) ∧
          (Utf8.CutShort (lead :: second :: more) ↔ Utf8.isSecond lead second = true)) ∧
        ∀ front place, Utf8.Segmented overlong.content front place → front.length < 5 →
          Utf8.CutOff (overlong.content.drop place) →
          decoded = ⟨front ++ [Utf8.replacement], place + 1⟩)
      (fun _ _ => False) := by
  have hOver : (ofSource overlong).Over overlong.content := over_content default overlong
  apply ((leads_decode_lenient hOver calm_overlong rfl 0 5).and
    (decode_stops hOver calm_overlong rfl 0 5)).mono
  · intro decoded after hDecoded
    obtain ⟨hDecode, hEarly, hStops⟩ := hDecoded
    cases decode_overlong.symm.trans hDecode
    exact ⟨rfl, hEarly (by decide) (by decide), hStops⟩
  · exact fun _ _ hHalts => hHalts.1

/-- Not everything that decoding stops in front of is the beginning of a character. -/
theorem not_forall_cutShort :
    ¬ ∀ (stream : List UInt8) (window : Window) (offset count : Nat), window.Over stream →
      window.source.Calm → window.config.policy = .lenient →
      Leads (decode offset count) window
        (fun decoded _ => decoded.chars.length < count →
          decoded.length < (stream.drop (window.start + offset)).length →
          ∃ front place, decoded = ⟨front ++ [Utf8.replacement], place + 1⟩ ∧
            Utf8.CutShort ((stream.drop (window.start + offset)).drop place))
        (fun _ _ => True) := by
  intro hAll
  have hOver : (ofSource overlong).Over overlong.content := over_content default overlong
  have hRun := (leads_decode_lenient hOver calm_overlong rfl 0 5).and
    (hAll overlong.content (ofSource overlong) 0 5 hOver calm_overlong rfl)
  cases hDecoded : decode 0 5 (ofSource overlong) with
  | error fault after => exact (hRun.of_error hDecoded).1
  | ok decoded after =>
    obtain ⟨hDecode, hEarly⟩ := hRun.of_ok hDecoded
    cases decode_overlong.symm.trans hDecode
    obtain ⟨front, place, hFront, hShort⟩ := hEarly (by decide) (by decide)
    have hPlace : place = 1 := (Nat.succ.inj (congrArg Decoded.length hFront)).symm
    subst hPlace
    have hCut : Utf8.CutOff [0xe0, 0x80] := by
      simp [Utf8.CutOff, Utf8.leadWidth, Utf8.isContinuation]
    exact absurd ((Utf8.cutShort_iff hCut).1 hShort) (by decide)

end Window

end StreamMatch
