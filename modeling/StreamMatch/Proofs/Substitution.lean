import StreamMatch.Proofs.DecodingStops

/-!
The text of bytes that need not be well formed. Where no character starts, the longest stretch that
begins one stands for a single replacement, or one byte does if none begins there. This determines
the text (`Utf8.Substituted`), and it is the text that the decoder makes, which goes byte by byte
and never looks back (`Utf8.substituted_iff`). The complete length of a byte string cuts the text in
two whatever comes behind it (`Utf8.lossy_append_completeLength`).
-/

namespace StreamMatch.Utf8

/-- A stretch at the front that is replaced as a whole: no character starts there, the stretch
begins one or is a single byte, and with any more of the bytes it would begin none. -/
structure Stray (stretch rest : List UInt8) : Prop where
  ne_nil : stretch ≠ []
  not_starts : ¬ StartsCharacter (stretch ++ rest)
  begins : stretch.length = 1 ∨ CutShort stretch
  longest : ∀ more behind, rest = more ++ behind → more ≠ [] → ¬ CutShort (stretch ++ more)

/-- The text of some bytes: the characters that they spell, and a replacement for each stretch that
spells none. -/
inductive Substituted : (bytes : List UInt8) → (text : List Char) → Prop where
  | nil : Substituted [] []
  | spelled (c : Char) {rest : List UInt8} {text : List Char} (hRest : Substituted rest text) :
    Substituted (String.utf8EncodeChar c ++ rest) (c :: text)
  | replaced {stretch rest : List UInt8} {text : List Char} (hStray : Stray stretch rest)
    (hRest : Substituted rest text) : Substituted (stretch ++ rest) (replacement :: text)

variable {stretch other bytes rest more tail : List UInt8} {byte : UInt8} {pending : Pending}
  {text : List Char} {c : Char}

section Unique

/-- At most one stretch at the front is replaced as a whole. -/
theorem Stray.unique (hFirst : Stray stretch rest) (hSecond : Stray other more)
    (hSame : stretch ++ rest = other ++ more) : stretch = other ∧ rest = more := by
  have hEmpty {short long behind ahead between : List UInt8} (hShort : Stray short behind)
      (hLong : Stray long ahead) (hBetween : long = short ++ between)
      (hBehind : behind = between ++ ahead) : between = [] := by
    refine Decidable.byContradiction fun hMore => ?_
    rcases hLong.begins with hOne | hCut
    · rw [hBetween, List.length_append] at hOne
      have hShortPos := List.length_pos_iff.2 hShort.ne_nil
      have hMorePos := List.length_pos_iff.2 hMore
      omega
    · exact hShort.longest between ahead hBehind hMore (hBetween ▸ hCut)
  rcases List.append_eq_append_iff.1 hSame with ⟨between, hOther, hRest⟩ | ⟨between, hOther, hRest⟩
  · obtain rfl := hEmpty hFirst hSecond hOther hRest
    exact ⟨by simpa using hOther.symm, by simpa using hRest⟩
  · obtain rfl := hEmpty hSecond hFirst hOther hRest
    exact ⟨by simpa using hOther, by simpa using hRest.symm⟩

/-- There is only one text for some bytes. -/
theorem Substituted.unique {first second : List Char} (hFirst : Substituted bytes first)
    (hSecond : Substituted bytes second) : first = second := by
  induction hFirst generalizing second with
  | nil =>
    generalize hBytes : ([] : List UInt8) = bytes at hSecond
    cases hSecond with
    | nil => rfl
    | spelled c =>
      exact absurd (List.append_eq_nil_iff.1 hBytes.symm).1 String.utf8EncodeChar_ne_nil
    | replaced hStray => exact absurd (List.append_eq_nil_iff.1 hBytes.symm).1 hStray.ne_nil
  | @spelled c rest text hRest ih =>
    generalize hBytes : String.utf8EncodeChar c ++ rest = bytes at hSecond
    cases hSecond with
    | nil => exact absurd (List.append_eq_nil_iff.1 hBytes).1 String.utf8EncodeChar_ne_nil
    | spelled d hOther =>
      obtain rfl := eq_of_utf8EncodeChar_append hBytes
      rw [ih (List.append_cancel_left hBytes ▸ hOther)]
    | replaced hStray => exact absurd ⟨c, rest, hBytes.symm⟩ hStray.not_starts
  | @replaced stretch rest text hStray hRest ih =>
    generalize hBytes : stretch ++ rest = bytes at hSecond
    cases hSecond with
    | nil => exact absurd (List.append_eq_nil_iff.1 hBytes).1 hStray.ne_nil
    | spelled d => exact absurd ⟨d, _, hBytes⟩ hStray.not_starts
    | replaced hStray' hOther =>
      obtain ⟨-, rfl⟩ := hStray.unique hStray' hBytes
      rw [ih hOther]

end Unique

section Decoder

/-- The character that these bytes complete, if they are just what is still to come. -/
def Pending.finish (pending : Pending) : List UInt8 → Option Char
  | [] => none
  | byte :: tail =>
    if pending.low ≤ byte && byte ≤ pending.high then
      let bits := appendBits pending.bits byte
      if pending.owed ≤ 1 then if tail.isEmpty then some (Char.ofNat bits) else none
      else finish ⟨pending.owed - 1, 0x80, 0xbf, bits⟩ tail
    else none

/-- The decoder has taken the stretch since it was last between two characters: what completes the
stretch is what it waits for. -/
structure Holding (stretch : List UInt8) (pending : Pending) : Prop where
  ne_nil : stretch ≠ []
  sound : pending.Sound
  low_le : pending.low ≤ pending.high
  charOf?_eq : ∀ tail, charOf? (stretch ++ tail) = pending.finish tail

theorem charOf?_eq_some_iff : charOf? bytes = some c ↔ String.utf8EncodeChar c = bytes :=
  ⟨utf8EncodeChar_of_charOf?, fun hBytes => hBytes ▸ charOf?_utf8EncodeChar c⟩

theorem secondRange_le (lead : UInt8) : (secondRange lead).1 ≤ (secondRange lead).2 := by
  unfold secondRange
  repeat' split
  all_goals decide

/-- Entering a sequence, the decoder waits for just those bytes that complete it. -/
theorem finish_eq_charOf? (hWidth : 2 ≤ leadWidth byte) (tail : List UInt8) :
    charOf? (byte :: tail) =
      Pending.finish ⟨leadWidth byte - 1, (secondRange byte).1, (secondRange byte).2, leadBits byte⟩
        tail := by
  have hMost := leadWidth_le byte
  match tail with
  | [] => simp [charOf?, Pending.finish]; omega
  | [b] => grind [charOf?, Pending.finish, isSecond]
  | [b, c] => grind [charOf?, Pending.finish, isSecond, isContinuation]
  | [b, c, d] => grind [charOf?, Pending.finish, isSecond, isContinuation]
  | b :: c :: d :: e :: rest => grind [charOf?, Pending.finish, isSecond, isContinuation]

/-- Some bytes complete what the decoder has entered. -/
theorem exists_finish {pending : Pending} (hSound : pending.Sound)
    (hRange : pending.low ≤ pending.high) : ∃ tail c, pending.finish tail = some c := by
  have hOwed := hSound.owed_pos
  obtain ⟨owed, low, high, bits⟩ := pending
  induction owed generalizing low high bits with
  | zero => cases hOwed
  | succ owed ih =>
    cases owed with
    | zero => exact ⟨[low], _, by simp [Pending.finish, hRange]; rfl⟩
    | succ owed =>
      have hLess := hSound.owed_le
      obtain ⟨tail, c, hTail⟩ := ih 0x80 0xbf (appendBits bits low)
        ⟨Nat.le_refl _, Nat.le_refl _, Nat.succ_pos _, by simp only at hLess ⊢; omega⟩
        (show (0x80 : UInt8) ≤ 0xbf by decide) (Nat.succ_pos _)
      refine ⟨low :: tail, c, ?_⟩
      rw [Pending.finish]
      simpa [hRange] using hTail

namespace Holding

theorem enter (hWidth : 2 ≤ leadWidth byte) :
    Holding [byte]
      ⟨leadWidth byte - 1, (secondRange byte).1, (secondRange byte).2, leadBits byte⟩ := by
  have hMost := leadWidth_le byte
  obtain ⟨hLow, hHigh⟩ := secondRange_bounds byte
  refine ⟨List.cons_ne_nil _ _, ⟨hLow, hHigh, ?_, ?_⟩, secondRange_le byte,
    finish_eq_charOf? hWidth⟩
  · exact Nat.sub_pos_of_lt hWidth
  · exact Nat.sub_le_of_le_add hMost

/-- A byte that goes on with the sequence, but does not complete it. -/
theorem push (hHolding : Holding stretch pending)
    (hInside : (pending.low ≤ byte && byte ≤ pending.high) = true) (hMore : ¬ pending.owed ≤ 1) :
    Holding (stretch ++ [byte]) ⟨pending.owed - 1, 0x80, 0xbf, appendBits pending.bits byte⟩ := by
  have hOwed := hHolding.sound.owed_le
  refine ⟨by simp, ⟨Nat.le_refl _, Nat.le_refl _, ?_, ?_⟩, show (0x80 : UInt8) ≤ 0xbf by decide, ?_⟩
  · exact Nat.sub_pos_of_lt (Nat.not_le.1 hMore)
  · exact Nat.le_trans (Nat.sub_le _ _) hOwed
  · intro tail
    rw [List.append_assoc, List.singleton_append, hHolding.charOf?_eq, Pending.finish,
      if_pos hInside]
    exact if_neg hMore

/-- The byte that completes the sequence. -/
theorem complete (hHolding : Holding stretch pending)
    (hInside : (pending.low ≤ byte && byte ≤ pending.high) = true) (hLast : pending.owed ≤ 1) :
    String.utf8EncodeChar (Char.ofNat (appendBits pending.bits byte)) = stretch ++ [byte] := by
  rw [← charOf?_eq_some_iff, hHolding.charOf?_eq, Pending.finish, if_pos hInside]
  exact if_pos hLast

theorem cutShort (hHolding : Holding stretch pending) : CutShort stretch := by
  obtain ⟨tail, c, hTail⟩ := exists_finish hHolding.sound hHolding.low_le
  refine ⟨c, tail, ?_, charOf?_eq_some_iff.1 ((hHolding.charOf?_eq tail).trans hTail)⟩
  rintro rfl
  cases hTail

/-- Where the decoder cannot go on, what it has taken is replaced. -/
theorem stray (hHolding : Holding stretch pending)
    (hRest : ∀ byte behind, rest = byte :: behind →
      ¬ (pending.low ≤ byte && byte ≤ pending.high) = true) : Stray stretch rest := by
  -- No bytes of the rest complete the stretch, however many more there were.
  have hNone {front behind more : List UInt8} (hFront : rest = front ++ behind)
      (hSome : front ≠ []) :
      ∀ c, String.utf8EncodeChar c ≠ stretch ++ (front ++ more) := by
    intro c hChar
    obtain ⟨byte, front, rfl⟩ := List.exists_cons_of_ne_nil hSome
    rw [← charOf?_eq_some_iff, hHolding.charOf?_eq, List.cons_append, Pending.finish,
      if_neg (hRest byte _ hFront)] at hChar
    cases hChar
  refine ⟨hHolding.ne_nil, ?_, .inr hHolding.cutShort, ?_⟩
  · rintro ⟨c, behind, hStarts⟩
    obtain ⟨d, tail, hTail, hChar⟩ := hHolding.cutShort
    rcases List.append_eq_append_iff.1 hStarts with
      ⟨front, hSpelled, hFront⟩ | ⟨between, hStretch, -⟩
    · by_cases hSome : front = []
      · -- The stretch would spell a character by itself, and go on to spell another one.
        rw [hSome, List.append_nil] at hSpelled
        have hSame : String.utf8EncodeChar c ++ tail = String.utf8EncodeChar d ++ [] := by
          rw [hSpelled, hChar, List.append_nil]
        obtain rfl := eq_of_utf8EncodeChar_append hSame
        exact hTail (List.append_cancel_left hSame)
      · exact hNone hFront hSome c (by rw [List.append_nil]; exact hSpelled)
    · have hSame :
          String.utf8EncodeChar c ++ (between ++ tail) = String.utf8EncodeChar d ++ [] := by
        rw [hChar, hStretch, List.append_nil, List.append_assoc]
      obtain rfl := eq_of_utf8EncodeChar_append hSame
      exact hTail (List.append_eq_nil_iff.1 (List.append_cancel_left hSame)).2
  · rintro front behind hFront hSome ⟨c, more, -, hChar⟩
    exact hNone hFront hSome c (by rw [hChar, List.append_assoc])

end Holding

/-- A byte that begins no sequence is replaced by itself. -/
theorem stray_of_leadWidth (hWidth : leadWidth byte = 0) (rest : List UInt8) :
    Stray [byte] rest := by
  have hNone {tail : List UInt8} (c : Char) : String.utf8EncodeChar c ≠ byte :: tail := by
    intro hChar
    have hLead := leadWidth_of_charOf? (charOf?_eq_some_iff.2 hChar)
    omega
  refine ⟨List.cons_ne_nil _ _, ?_, .inl rfl, ?_⟩
  · rintro ⟨c, behind, hStarts⟩
    obtain ⟨lead, tail, hChar, -⟩ := utf8EncodeChar_eq_cons c
    rw [hChar, List.cons_append] at hStarts
    exact hNone c ((List.cons.inj hStarts).1 ▸ hChar)
  · rintro more behind - - ⟨c, tail, -, hChar⟩
    exact hNone c hChar

/-- What the decoder makes of the bytes, also if it has entered a sequence before them. -/
theorem substituted_lossyFrom (bytes : List UInt8) :
    Substituted bytes (lossyFrom none bytes) ∧
      ∀ stretch pending, Holding stretch pending →
        Substituted (stretch ++ bytes) (lossyFrom (some pending) bytes) := by
  induction bytes with
  | nil =>
    refine ⟨.nil, fun stretch pending hHolding => ?_⟩
    exact .replaced (hHolding.stray fun byte behind hRest => by cases hRest) .nil
  | cons byte rest ih =>
    have hNone : Substituted (byte :: rest) (lossyFrom none (byte :: rest)) := by
      rw [lossyFrom, accept]
      by_cases hZero : leadWidth byte = 0
      · have hEnter : enter byte = ([replacement], none) := by simp [enter, hZero]
        rw [hEnter]
        exact .replaced (stray_of_leadWidth hZero rest) ih.1
      · by_cases hOne : leadWidth byte = 1
        · have hEnter : enter byte = ([Char.ofNat byte.toNat], none) := by simp [enter, hOne]
          have hSpelled : String.utf8EncodeChar (Char.ofNat byte.toNat) = [byte] :=
            charOf?_eq_some_iff.1 (charOf?_one (by grind [leadWidth_eq]) rfl)
          have hText := Substituted.spelled (Char.ofNat byte.toNat) ih.1
          rw [hSpelled] at hText
          rw [hEnter]
          exact hText
        · have hEnter : enter byte = ([], some ⟨leadWidth byte - 1, (secondRange byte).1,
              (secondRange byte).2, leadBits byte⟩) := by
            unfold enter
            split
            · next hWidth => exact absurd hWidth hZero
            · next hWidth => exact absurd hWidth hOne
            · rfl
          rw [hEnter]
          exact ih.2 [byte] _ (.enter (by omega))
    refine ⟨hNone, fun stretch pending hHolding => ?_⟩
    by_cases hInside : (pending.low ≤ byte && byte ≤ pending.high) = true
    · by_cases hLast : pending.owed ≤ 1
      · have hSpelled := Substituted.spelled (Char.ofNat (appendBits pending.bits byte)) ih.1
        rw [hHolding.complete hInside hLast, List.append_assoc] at hSpelled
        simpa [lossyFrom, accept, hInside, hLast] using hSpelled
      · have hPushed := ih.2 _ _ (hHolding.push hInside hLast)
        rw [List.append_assoc] at hPushed
        simpa [lossyFrom, accept, hInside, hLast] using hPushed
    · -- The byte ends the sequence and is then taken on its own.
      have hStray : Stray stretch (byte :: rest) := by
        refine hHolding.stray fun other behind hRest => ?_
        rwa [← (List.cons.inj hRest).1]
      have hText : lossyFrom (some pending) (byte :: rest) =
          replacement :: lossyFrom none (byte :: rest) := by
        simp only [lossyFrom, accept, if_neg hInside]
        rfl
      rw [hText]
      exact .replaced hStray hNone

/-- The text that the decoder makes of some bytes is the only one that they have. -/
theorem substituted_iff : Substituted bytes text ↔ text = lossy bytes := by
  have hText : Substituted bytes (lossy bytes) := (substituted_lossyFrom bytes).1
  refine ⟨fun hOther => hOther.unique hText, ?_⟩
  rintro rfl
  exact hText

end Decoder

section Cut

/-- Behind a lead byte with nothing but continuation bytes after it there is no other lead byte. -/
theorem eq_nil_of_cons_eq_append {lead other : UInt8} {tail between conts : List UInt8}
    (hTail : ∀ byte ∈ tail, isContinuation byte = true) (hOther : isContinuation other = false)
    (hSame : lead :: tail = between ++ other :: conts) : between = [] := by
  cases between with
  | nil => rfl
  | cons byte between =>
    have hMem : other ∈ tail := by
      rw [(List.cons.inj hSame).2]
      simp
    rw [hTail other hMem] at hOther
    cases hOther

/-- Behind a character that is complete there is nothing to wait for. -/
theorem completeLength_of_utf8EncodeChar (hEnd : String.utf8EncodeChar c <:+ bytes) :
    completeLength bytes = bytes.length := by
  obtain ⟨front, rfl⟩ := hEnd
  obtain ⟨lead, tail, hChar, hLead, hTail⟩ := utf8EncodeChar_eq_cons c
  have hWidth := leadWidth_of_charOf? (charOf?_eq_some_iff.2 hChar)
  rcases completeLength_cases (front ++ String.utf8EncodeChar c) with
    ⟨hAll, -⟩ | ⟨before, other, conts, hBytes, hOther, hConts, hShort, -⟩
  · exact hAll
  · -- The last byte that is no continuation byte is the lead byte of the character.
    rw [hChar] at hBytes
    rcases List.append_eq_append_iff.1 hBytes with ⟨between, -, hSame⟩ | ⟨between, -, hSame⟩
    · obtain rfl := eq_nil_of_cons_eq_append hTail hOther hSame
      obtain ⟨rfl, rfl⟩ := List.cons.inj hSame
      omega
    · obtain rfl := eq_nil_of_cons_eq_append hConts hLead hSame
      obtain ⟨rfl, rfl⟩ := List.cons.inj hSame
      omega

theorem utf8EncodeChar_ascii (hByte : byte ≤ 0x7f) :
    String.utf8EncodeChar (Char.ofNat byte.toNat) = [byte] :=
  charOf?_eq_some_iff.1 (charOf?_one (UInt8.le_iff_toNat_le.1 hByte) rfl)

/-- The complete length of a byte string leaves three bytes at most, and cutting there does not
change the text, whatever bytes come behind and whether or not any of them are well formed. Behind a
character that is complete, and so behind an ASCII byte, it leaves nothing. -/
theorem lossy_append_completeLength (first second : List UInt8) :
    let cut := completeLength first
    (first.length - 3 ≤ cut ∧ cut ≤ first.length) ∧
      lossy (first ++ second) = lossy (first.take cut) ++ lossy (first.drop cut ++ second) ∧
      (∀ c, String.utf8EncodeChar c <:+ first → cut = first.length) ∧
      ∀ byte, first.getLast? = some byte → byte ≤ 0x7f → cut = first.length := by
  intro cut
  have hStart : Breaks [] first := .inl rfl
  have hBreaks : Breaks (first.take cut) (first.drop cut) := hStart.completeLength
  refine ⟨⟨?_, Nat.sub_le _ _⟩, ?_, fun c => completeLength_of_utf8EncodeChar, ?_⟩
  · exact Nat.sub_le_of_le_add (length_le_completeLength_add first)
  · rw [← lossy_append (hBreaks.append second), ← List.append_assoc, List.take_append_drop]
  · intro byte hLast hByte
    apply completeLength_of_utf8EncodeChar (c := Char.ofNat byte.toNat)
    obtain ⟨front, hFront⟩ := List.getLast?_eq_some_iff.1 hLast
    rw [utf8EncodeChar_ascii hByte]
    exact ⟨front, hFront.symm⟩

/-- A cut before the lead byte of a surrogate, which looks incomplete and is malformed already, and
none behind a character of three bytes or a line feed. -/
theorem lossy_append_completeLength_surrogate :
    completeLength [0x61, 0xed, 0xa0] = 1 ∧
      lossy ([0x61, 0xed, 0xa0] ++ [0x80]) = lossy [0x61] ++ lossy ([0xed, 0xa0] ++ [0x80]) ∧
      String.utf8EncodeChar '\u20ac' <:+ [0x80, 0xe2, 0x82, 0xac] ∧
      completeLength [0x80, 0xe2, 0x82, 0xac] = 4 ∧
      [0xe2, 0x0a].getLast? = some 0x0a ∧ completeLength [0xe2, 0x0a] = 2 := by
  have hCut : completeLength [0x61, 0xed, 0xa0] = 1 := by decide
  have hText := (lossy_append_completeLength [0x61, 0xed, 0xa0] [0x80]).2.1
  have hEnd : String.utf8EncodeChar '\u20ac' <:+ [0x80, 0xe2, 0x82, 0xac] := by decide
  refine ⟨hCut, ?_, hEnd, ?_, rfl, ?_⟩
  · rw [hCut] at hText
    exact hText
  · exact (lossy_append_completeLength [0x80, 0xe2, 0x82, 0xac] []).2.2.1 _ hEnd
  · exact (lossy_append_completeLength [0xe2, 0x0a] []).2.2.2 0x0a rfl (by decide)

end Cut

end StreamMatch.Utf8
