import StreamMatch.Proofs.Steadiness

/-!
What a primitive matches, as a function of the bytes that stand at its offset
(`Primitive.recognize`). A scan comes to the same (`Primitive.recognizes_scan`), although it takes the
bytes in chunks and the characters one by one.
-/

namespace StreamMatch

namespace UnitRun

/-- The accepted code points in front, at most `allowed` of them: how many there are, and their
bytes. -/
def acceptedChars (run : CharRun) (policy : DecodePolicy) (offset : Nat) :
    (allowed : Nat) → List UInt8 → Except Fault (Nat × List UInt8)
  | 0, _ => return (0, [])
  | allowed + 1, rest => do
    let next ← Utf8.decode policy offset 1 rest
    match next.chars with
    | [] => return (0, [])
    | c :: _ =>
      if run.accepts c then
        let (count, more) ←
          run.acceptedChars policy (offset + next.length) allowed (rest.drop next.length)
        return (count + 1, rest.take next.length ++ more)
      else return (0, [])

/-- One more code point that spans so many bytes. -/
def counted (width : List UInt8) (found : Nat × List UInt8) : Nat × List UInt8 :=
  (found.1 + 1, width ++ found.2)

end UnitRun

namespace Primitive

/-- The bytes that a primitive matches in front of those that stand at this offset, if any. -/
def recognize (policy : DecodePolicy) (offset : Nat) (rest : List UInt8) :
    Primitive → Except Fault (Option (List UInt8))
  | .bytes run =>
    let taken := (rest.takeWhile run.accepts).take run.most
    return if taken.length < run.least then none else some taken
  | .chars run => do
    let (count, taken) ← run.acceptedChars policy offset run.most rest
    return if count < run.least then none else some taken
  | .literal _ text => return if rest.take text.length = text then some text else none
  | .pattern p => return (p.matchLength? (rest.take p.window)).map rest.take

end Primitive

namespace Utf8

/-- All that the first step of decoding can come to: the end of the bytes, a character or a
replacement with the rest decoded behind it, a replacement with nothing behind it, or a refusal. -/
theorem decode_succ_cases (policy : DecodePolicy) (offset count : Nat) (bytes : List UInt8) :
    decode policy offset (count + 1) bytes = .ok .nil ∨
      (∃ c width, 0 < width ∧ width ≤ bytes.length ∧
        decode policy offset (count + 1) bytes =
          (Decoded.cons c width) <$> decode policy (offset + width) count (bytes.drop width)) ∨
      0 < bytes.length ∧
        decode policy offset (count + 1) bytes = .ok (Decoded.nil.cons replacement 1) ∨
      decode policy offset (count + 1) bytes = .error (.invalidUtf8 offset) := by
  cases bytes with
  | nil => exact .inl rfl
  | cons lead rest =>
    rw [decode]
    simp only [Segment.atFront]
    cases hSegment : Segment.of lead (rest.take (leadWidth lead - 1)) with
    | char c width =>
      obtain ⟨-, hWidth, hLength⟩ := Segment.of_eq_char hSegment
      rw [List.length_take] at hLength
      refine .inr (.inl ⟨c, width, hWidth, ?_, rfl⟩)
      rw [List.length_cons]
      omega
    | malformed =>
      cases policy with
      | lenient => exact .inr (.inl ⟨replacement, 1, by decide, by simp, rfl⟩)
      | strict => exact .inr (.inr (.inr rfl))
    | truncated =>
      cases policy with
      | lenient => exact .inr (.inr (.inl ⟨by simp, rfl⟩))
      | strict => exact .inr (.inr (.inr rfl))

/-- What has been decoded was decoded in one of three ways. -/
theorem decode_succ_eq_ok {policy : DecodePolicy} {offset count : Nat} {bytes : List UInt8}
    {decoded : Decoded} (hDecode : decode policy offset (count + 1) bytes = .ok decoded) :
    decoded = .nil ∨
      (∃ c width rest, 0 < width ∧ width ≤ bytes.length ∧
        decode policy (offset + width) count (bytes.drop width) = .ok rest ∧
        decoded = rest.cons c width) ∨
      0 < bytes.length ∧ decoded = Decoded.nil.cons replacement 1 := by
  rcases decode_succ_cases policy offset count bytes with
    hStep | ⟨c, width, hWidth, hWithin, hStep⟩ | ⟨hLength, hStep⟩ | hStep
  · exact .inl (Except.ok.inj (hDecode.symm.trans hStep))
  · rw [hStep] at hDecode
    cases hRest : decode policy (offset + width) count (bytes.drop width) with
    | error fault =>
      rw [hRest] at hDecode
      cases hDecode
    | ok rest =>
      rw [hRest] at hDecode
      exact .inr (.inl ⟨c, width, rest, hWidth, hWithin, hRest, (Except.ok.inj hDecode).symm⟩)
  · exact .inr (.inr ⟨hLength, Except.ok.inj (hDecode.symm.trans hStep)⟩)
  · cases hDecode.symm.trans hStep

/-- A code point takes a byte at least. -/
theorem length_pos_of_decode {policy : DecodePolicy} {offset count : Nat} {bytes : List UInt8}
    {decoded : Decoded} (hDecode : decode policy offset count bytes = .ok decoded)
    (hChars : decoded.chars ≠ []) : 0 < decoded.length := by
  cases count with
  | zero =>
    cases hDecode
    exact absurd rfl hChars
  | succ count =>
    obtain rfl | ⟨c, width, rest, hWidth, -, -, rfl⟩ | ⟨-, rfl⟩ := decode_succ_eq_ok hDecode
    · exact absurd rfl hChars
    · exact Nat.lt_of_lt_of_le hWidth (Nat.le_add_right _ _)
    · exact Nat.zero_lt_one

/-- What is decoded is there to be decoded. -/
theorem length_le_of_decode {policy : DecodePolicy} {offset count : Nat} {bytes : List UInt8}
    {decoded : Decoded} (hDecode : decode policy offset count bytes = .ok decoded) :
    decoded.length ≤ bytes.length := by
  induction count generalizing offset bytes decoded with
  | zero =>
    cases hDecode
    exact Nat.zero_le _
  | succ count ih =>
    obtain rfl | ⟨c, width, rest, -, hWidth, hRest, rfl⟩ | ⟨hLength, rfl⟩ :=
      decode_succ_eq_ok hDecode
    · exact Nat.zero_le _
    · have hLength := ih hRest
      rw [List.length_drop] at hLength
      simp only [Decoded.cons]
      omega
    · exact hLength

/-- Decoding faults only where the strict policy refuses the bytes. -/
theorem eq_invalidUtf8_of_decode {policy : DecodePolicy} {offset count : Nat}
    {bytes : List UInt8} {fault : Fault} (hFault : decode policy offset count bytes = .error fault) :
    ∃ place, fault = .invalidUtf8 place := by
  induction count generalizing offset bytes with
  | zero => cases hFault
  | succ count ih =>
    rcases decode_succ_cases policy offset count bytes with
      hStep | ⟨c, width, -, -, hStep⟩ | ⟨-, hStep⟩ | hStep
    · cases hFault.symm.trans hStep
    · rw [hStep] at hFault
      cases hRest : decode policy (offset + width) count (bytes.drop width) with
      | error fault' =>
        rw [hRest] at hFault
        cases hFault
        exact ih hRest
      | ok rest =>
        rw [hRest] at hFault
        cases hFault
    · cases hFault.symm.trans hStep
    · exact ⟨offset, Except.error.inj (hFault.symm.trans hStep)⟩

end Utf8

namespace UnitRun

/-- A run that may take another code point faults if this does, ends in front of it, or takes it and
goes on behind it. -/
theorem acceptedChars_succ_cases (run : CharRun) (policy : DecodePolicy) (offset allowed : Nat)
    (rest : List UInt8) :
    (∃ fault, Utf8.decode policy offset 1 rest = .error fault ∧
        run.acceptedChars policy offset (allowed + 1) rest = .error fault) ∨
      run.acceptedChars policy offset (allowed + 1) rest = .ok (0, []) ∨
      ∃ width, run.acceptedChars policy offset (allowed + 1) rest =
        counted (rest.take width) <$>
          run.acceptedChars policy (offset + width) allowed (rest.drop width) := by
  rw [acceptedChars]
  cases Utf8.decode policy offset 1 rest with
  | error fault => exact .inl ⟨fault, rfl, rfl⟩
  | ok next =>
    refine .inr ?_
    simp only [bind, Except.bind]
    cases next.chars with
    | nil => exact .inl rfl
    | cons c more =>
      dsimp only
      split
      · refine .inr ⟨next.length, ?_⟩
        cases run.acceptedChars policy (offset + next.length) allowed (rest.drop next.length) <;> rfl
      · exact .inl rfl

/-- The bytes of the accepted code points are those in front. -/
theorem prefix_of_acceptedChars {run : CharRun} {policy : DecodePolicy} {offset allowed count : Nat}
    {rest taken : List UInt8}
    (hTaken : run.acceptedChars policy offset allowed rest = .ok (count, taken)) :
    taken <+: rest := by
  induction allowed generalizing offset rest count taken with
  | zero =>
    cases hTaken
    exact List.nil_prefix
  | succ allowed ih =>
    rcases run.acceptedChars_succ_cases policy offset allowed rest with
      ⟨fault, -, hStep⟩ | hStep | ⟨width, hStep⟩
    · cases hTaken.symm.trans hStep
    · cases hTaken.symm.trans hStep
      exact List.nil_prefix
    · rw [hStep] at hTaken
      cases hMore : run.acceptedChars policy (offset + width) allowed (rest.drop width) with
      | error fault =>
        rw [hMore] at hTaken
        cases hTaken
      | ok found =>
        rw [hMore] at hTaken
        cases hTaken
        obtain ⟨left, hLeft⟩ := ih hMore
        refine ⟨left, ?_⟩
        rw [List.append_assoc, hLeft, List.take_append_drop]

end UnitRun

/-- A primitive matches bytes that are in front. -/
theorem Primitive.prefix_of_recognize {primitive : Primitive} {policy : DecodePolicy} {offset : Nat}
    {rest content : List UInt8}
    (hContent : primitive.recognize policy offset rest = .ok (some content)) : content <+: rest := by
  cases primitive with
  | bytes run =>
    simp only [recognize, pure, Except.pure, Except.ok.injEq] at hContent
    split at hContent
    · cases hContent
    · cases hContent
      exact (List.take_prefix _ _).trans (List.takeWhile_prefix _)
  | chars run =>
    simp only [recognize, bind, Except.bind] at hContent
    split at hContent
    · cases hContent
    · next found hFound =>
      simp only [pure, Except.pure, Except.ok.injEq] at hContent
      split at hContent
      · cases hContent
      · cases hContent
        exact UnitRun.prefix_of_acceptedChars hFound
  | literal tag text =>
    simp only [recognize, pure, Except.pure, Except.ok.injEq] at hContent
    split at hContent
    · next hText =>
      cases hContent
      rw [← hText]
      exact List.take_prefix _ _
    · cases hContent
  | pattern p =>
    simp only [recognize, pure, Except.pure, Except.ok.injEq] at hContent
    obtain ⟨length, -, rfl⟩ := Option.map_eq_some_iff.1 hContent
    exact List.take_prefix _ _

theorem UnitRun.eq_invalidUtf8_of_acceptedChars {run : CharRun} {policy : DecodePolicy}
    {offset allowed : Nat} {rest : List UInt8} {fault : Fault}
    (hFault : run.acceptedChars policy offset allowed rest = .error fault) :
    ∃ place, fault = .invalidUtf8 place := by
  induction allowed generalizing offset rest with
  | zero => cases hFault
  | succ allowed ih =>
    rcases run.acceptedChars_succ_cases policy offset allowed rest with
      ⟨fault', hDecode, hStep⟩ | hStep | ⟨width, hStep⟩
    · cases hFault.symm.trans hStep
      exact Utf8.eq_invalidUtf8_of_decode hDecode
    · cases hFault.symm.trans hStep
    · rw [hStep] at hFault
      cases hMore : run.acceptedChars policy (offset + width) allowed (rest.drop width) with
      | error fault' =>
        rw [hMore] at hFault
        cases hFault
        exact ih hMore
      | ok found =>
        rw [hMore] at hFault
        cases hFault

theorem Primitive.eq_invalidUtf8_of_recognize {primitive : Primitive} {policy : DecodePolicy}
    {offset : Nat} {rest : List UInt8} {fault : Fault}
    (hFault : primitive.recognize policy offset rest = .error fault) :
    ∃ place, fault = .invalidUtf8 place := by
  cases primitive with
  | bytes run => cases hFault
  | chars run =>
    simp only [recognize, bind, Except.bind] at hFault
    split at hFault
    · next hAccepted =>
      cases hFault
      exact UnitRun.eq_invalidUtf8_of_acceptedChars hAccepted
    · cases hFault
  | literal tag text => cases hFault
  | pattern p => cases hFault

/-- What comes of one look after another: the second is made where the first has moved to. -/
def Look.bind {α β : Type} (first : Look α) (next : α → Look β) : Look β :=
  fun policy offset rest => do
    let (value, moved) ← first policy offset rest
    let (result, more) ← next value policy (offset + moved) (rest.drop moved)
    return (result, moved + more)

namespace Reading

variable {α β : Type}

/-- At every reader the action finds out what `look` says of the stream, and it faults only if there
is a reason to. It may come to a result before it has read anything, and move on before it faults. -/
def Scans (action : Reading α) (look : Look α) : Prop :=
  ∀ reader stream, reader.window.Over stream →
    Leads action reader
      (fun value after => ∃ window moved,
        after = reader.further window moved ∧ reader.window.Continues window ∧
        look reader.window.config.policy reader.cursor.position
          (stream.drop reader.cursor.position) = .ok (value, moved) ∧
        reader.cursor.position + moved ≤
          max reader.cursor.position (window.start + window.length))
      (fun halt after => ∃ window moved fault,
        halt = .fault fault ∧ after = reader.further window moved ∧
        reader.window.Continues window ∧
        (reader.cursor.position < reader.window.start ∨ ¬ reader.window.source.Calm ∨
          look reader.window.config.policy reader.cursor.position
            (stream.drop reader.cursor.position) = .error fault))

theorem Observes.scans {action : Reading α} {look : Look α} (hObserves : Observes action look) :
    Scans action look := by
  intro reader stream hOver
  refine (hObserves reader stream hOver).mono ?_ ?_
  · rintro value after ⟨window, moved, hAfter, hWindow, -, hLook⟩
    exact ⟨window, moved, hAfter, hWindow, hLook⟩
  · rintro halt after ⟨window, fault, hHalt, hAfter, hWindow, hCases⟩
    refine ⟨window, 0, fault, hHalt, hAfter, hWindow, ?_⟩
    rcases hCases with ⟨hStale, -⟩ | ⟨-, hFault⟩
    · exact .inl hStale
    · exact .inr hFault

namespace Scans

variable {action : Reading α} {next : α → Reading β} {look : Look α} {lookNext : α → Look β}

theorem congr {look' : Look α} (hScans : Scans action look)
    (hLook : ∀ policy offset rest, look policy offset rest = look' policy offset rest) :
    Scans action look' := by
  have hSame : look = look' := by
    funext policy offset rest
    exact hLook policy offset rest
  exact hSame ▸ hScans

theorem pure (value : α) : Scans (Pure.pure value) fun _ _ _ => .ok (value, 0) :=
  fun reader _ _ => ⟨reader.window, 0, rfl, .refl _, rfl, Nat.le_max_left _ _⟩

theorem ite {condition : Prop} [Decidable condition] {first second : Reading α}
    {lookFirst lookSecond : Look α} (hFirst : condition → Scans first lookFirst)
    (hSecond : ¬ condition → Scans second lookSecond) :
    Scans (if condition then first else second) (if condition then lookFirst else lookSecond) := by
  split
  · next h => exact hFirst h
  · next h => exact hSecond h

theorem bind (hAction : Scans action look) (hNext : ∀ value, Scans (next value) (lookNext value)) :
    Scans (action >>= next) (look.bind lookNext) := by
  intro reader stream hOver
  refine (hAction reader stream hOver).bind ?_ ?_
  · rintro halt after ⟨window, moved, fault, hHalt, hAfter, hWindow, hCases⟩
    refine ⟨window, moved, fault, hHalt, hAfter, hWindow, ?_⟩
    refine hCases.imp_right fun h => h.imp_right fun hLook => ?_
    rw [Look.bind, hLook]
    rfl
  · rintro value _ ⟨window, moved, rfl, hWindow, hLook, hEnd⟩
    have hSame := hWindow.start_eq
    have hSecond := hNext value (reader.further window moved) stream (hWindow.lies_over hOver)
    simp only [Reader.further, hWindow.config_eq, hSame] at hSecond
    refine hSecond.mono ?_ ?_
    · rintro result _ ⟨later, more, rfl, hLater, hResult, hLaterEnd⟩
      have hLength := hLater.length_le
      have hLaterStart := hLater.start_eq
      refine ⟨later, moved + more, ?_, hWindow.trans hLater, ?_, ?_⟩
      · simp only [Reader.further, Nat.add_assoc]
      · rw [Look.bind, hLook]
        simp only [Bind.bind, Except.bind, List.drop_drop, hResult]
        rfl
      · omega
    · rintro halt _ ⟨later, more, fault, rfl, rfl, hLater, hCases⟩
      refine ⟨later, moved + more, fault, rfl, ?_, hWindow.trans hLater, ?_⟩
      · simp only [Reader.further, Nat.add_assoc]
      · rcases hCases with hStale | hCalm | hFault
        · exact .inl (Nat.lt_of_le_of_lt (Nat.le_add_right _ _) hStale)
        · exact .inr (.inl (hCalm ∘ hWindow.calm))
        · refine .inr (.inr ?_)
          rw [Look.bind, hLook]
          simp only [Bind.bind, Except.bind, List.drop_drop, hFault]

section Calm

variable {reader : Reader} {stream : List UInt8}

/-- If the cursor is not before the window and no read fails, a scan comes to what the stream has at
the cursor. -/
theorem leads_calm (hScans : Scans action look) (hOver : reader.window.Over stream)
    (hCalm : reader.window.source.Calm)
    (hStart : reader.window.start ≤ reader.cursor.position) :
    Leads action reader
      (fun value after => ∃ moved,
        look reader.window.config.policy reader.cursor.position
          (stream.drop reader.cursor.position) = .ok (value, moved) ∧
        after.cursor.position = reader.cursor.position + moved)
      (fun halt _ => ∃ fault, halt = .fault fault ∧
        look reader.window.config.policy reader.cursor.position
          (stream.drop reader.cursor.position) = .error fault) := by
  apply (hScans reader stream hOver).mono
  · intro value after hValue
    obtain ⟨window, moved, rfl, -, hLook, -⟩ := hValue
    exact ⟨moved, hLook, rfl⟩
  · intro halt after hHalts
    obtain ⟨window, moved, fault, hHalt, -, -, hCases⟩ := hHalts
    refine ⟨fault, hHalt, ?_⟩
    rcases hCases with hStale | hFails | hFault
    · exact absurd hStart (Nat.not_le.2 hStale)
    · exact absurd hCalm hFails
    · exact hFault

theorem leads_of_ok (hScans : Scans action look) (hOver : reader.window.Over stream)
    (hCalm : reader.window.source.Calm)
    (hStart : reader.window.start ≤ reader.cursor.position) {value : α} {moved : Nat}
    (hLook : look reader.window.config.policy reader.cursor.position
      (stream.drop reader.cursor.position) = .ok (value, moved)) :
    Leads action reader
      (fun found after => found = value ∧
        after.cursor.position = reader.cursor.position + moved)
      (fun _ _ => False) := by
  apply (hScans.leads_calm hOver hCalm hStart).mono
  · intro found after hFound
    obtain ⟨other, hOther, hAfter⟩ := hFound
    cases hLook.symm.trans hOther
    exact ⟨rfl, hAfter⟩
  · intro halt after hHalts
    obtain ⟨fault, -, hFault⟩ := hHalts
    cases hLook.symm.trans hFault

theorem leads_of_error (hScans : Scans action look) (hOver : reader.window.Over stream)
    (hCalm : reader.window.source.Calm)
    (hStart : reader.window.start ≤ reader.cursor.position) {fault : Fault}
    (hLook : look reader.window.config.policy reader.cursor.position
      (stream.drop reader.cursor.position) = .error fault) :
    Leads action reader (fun _ _ => False) (fun halt _ => halt = .fault fault) := by
  apply (hScans.leads_calm hOver hCalm hStart).mono
  · intro found after hFound
    obtain ⟨moved, hOther, -⟩ := hFound
    cases hLook.symm.trans hOther
  · intro halt after hHalts
    obtain ⟨other, rfl, hOther⟩ := hHalts
    cases hLook.symm.trans hOther
    rfl

end Calm

end Scans

end Reading

namespace UnitRun

open Reading

variable {accepts : UInt8 → Bool} {rest : List UInt8} {most want : Nat}

/-- A chunk that is not accepted as a whole ends the run. -/
theorem takeWhile_of_short (hWant : want ≤ most)
    (hShort : ((rest.take want).takeWhile accepts).length < want) :
    (rest.take want).takeWhile accepts = (rest.takeWhile accepts).take most := by
  rw [← List.take_takeWhile] at hShort ⊢
  rw [List.length_take] at hShort
  rw [List.take_of_length_le (by omega), List.take_of_length_le (by omega)]

/-- After a chunk that is accepted as a whole the run goes on behind it. -/
theorem takeWhile_of_full (hWant : want ≤ most)
    (hFull : ¬ ((rest.take want).takeWhile accepts).length < want) :
    (rest.take want).takeWhile accepts ++
        ((rest.drop ((rest.take want).takeWhile accepts).length).takeWhile accepts).take
          (most - ((rest.take want).takeWhile accepts).length) =
      (rest.takeWhile accepts).take most := by
  have hPrefix := List.takeWhile_prefix accepts (l := rest.take want)
  have hLength := hPrefix.length_le
  rw [List.length_take] at hLength
  have hChunk : (rest.take want).takeWhile accepts = rest.take want :=
    hPrefix.eq_of_length_le (by rw [List.length_take]; omega)
  have hAll : ∀ byte ∈ rest.take want, accepts byte := by
    intro byte hByte
    rw [← hChunk] at hByte
    exact List.all_eq_true.1 List.all_takeWhile byte hByte
  have hWhole : rest.takeWhile accepts = rest.take want ++ (rest.drop want).takeWhile accepts := by
    rw [← List.takeWhile_append_of_pos hAll, List.take_append_drop]
  rw [hChunk] at hFull ⊢
  rw [List.length_take] at hFull
  have hTaken : (rest.take want).length = want := by
    rw [List.length_take]
    omega
  have hMost : most = (rest.take want).length + (most - want) := by omega
  rw [hWhole, hTaken]
  conv => rhs; rw [hMost, List.take_length_add_append]

theorem scans_takeBytes (run : ByteRun) (count : Nat) :
    Scans (takeBytes run count) fun _ _ rest =>
      let taken := (rest.takeWhile run.accepts).take (run.most - count)
      .ok (taken, taken.length) := by
  fun_induction takeBytes run count with
  | case1 count hCount want ih =>
    have hStep := (observes_peek want).scans.bind fun bytes =>
      (observes_advance (bytes.takeWhile run.accepts).length).scans.bind fun _ =>
        Scans.ite (fun _ => .pure (bytes.takeWhile run.accepts))
          (fun hAll => (ih bytes hAll).bind fun more =>
            .pure (bytes.takeWhile run.accepts ++ more))
    refine hStep.congr fun policy offset rest => ?_
    have hWant : want ≤ run.most - count := Nat.min_le_left _ _
    have hTaken : (rest.take ((rest.take want).takeWhile run.accepts).length).length =
        ((rest.take want).takeWhile run.accepts).length := by
      have hPrefix := (List.takeWhile_prefix run.accepts (l := rest.take want)).length_le
      rw [List.length_take] at hPrefix ⊢
      omega
    simp only [Look.bind, Bind.bind, Except.bind, List.drop_zero, Nat.add_zero, Nat.zero_add, hTaken]
    by_cases hShort : ((rest.take want).takeWhile run.accepts).length < want
    · rw [if_pos hShort, ← takeWhile_of_short hWant hShort]
      rfl
    · rw [if_neg hShort, ← takeWhile_of_full hWant hShort, List.length_append, Nat.sub_sub]
      rfl
  | case2 count hCount =>
    refine (Scans.pure []).congr fun policy offset rest => ?_
    rw [Nat.sub_eq_zero_of_le (Nat.not_lt.1 hCount)]
    rfl

theorem scans_takeChars (run : CharRun) (allowed : Nat) :
    Scans (takeChars run allowed) fun policy offset rest =>
      (run.acceptedChars policy offset allowed rest).map fun found => (found, found.2.length) := by
  induction allowed with
  | zero => exact .pure _
  | succ allowed ih =>
    have hNext (next : Decoded) : Scans
        (match next.chars with
          | [] => return (0, [])
          | c :: _ =>
            if run.accepts c then do
              let bytes ← read next.length
              let (count, more) ← takeChars run allowed
              return (count + 1, bytes ++ more)
            else return (0, []))
        (match next.chars with
          | [] => fun _ _ _ => .ok ((0, []), 0)
          | c :: _ =>
            if run.accepts c then
              Look.bind (fun _ _ rest => .ok (rest.take next.length, (rest.take next.length).length))
                fun bytes => Look.bind
                  (fun policy offset rest => (run.acceptedChars policy offset allowed rest).map
                    fun found => (found, found.2.length))
                  fun found _ _ _ => .ok ((found.1 + 1, bytes ++ found.2), 0)
            else fun _ _ _ => .ok ((0, []), 0)) := by
      cases next.chars with
      | nil => exact .pure _
      | cons c more =>
        exact .ite (fun _ => (observes_read next.length).scans.bind fun bytes =>
          ih.bind fun found => .pure _) (fun _ => .pure _)
    refine ((observes_peekChars 1).scans.bind hNext).congr fun policy offset rest => ?_
    rw [acceptedChars, Look.bind]
    cases hDecode : Utf8.decode policy offset 1 rest with
    | error fault => rfl
    | ok next =>
      have hLength := Utf8.length_le_of_decode hDecode
      have hTaken : (rest.take next.length).length = next.length := by
        rw [List.length_take]
        omega
      simp only [Except.map, Bind.bind, Except.bind]
      cases next.chars with
      | nil => rfl
      | cons c more =>
        dsimp only
        by_cases hAccepts : run.accepts c = true
        · simp only [if_pos hAccepts, Look.bind, Bind.bind, Except.bind, List.drop_zero,
            Nat.add_zero, hTaken]
          cases run.acceptedChars policy (offset + next.length) allowed (rest.drop next.length) with
          | error fault => rfl
          | ok found =>
            simp [pure, Except.pure, hTaken]
        · simp only [if_neg hAccepts]
          rfl

end UnitRun

namespace Reading

/-- At every reader the action finds the bytes that `recognize` says are there, and moves past
them. Where it finds none it may have moved as well. -/
def Recognizes (action : Reading (Option (List UInt8)))
    (recognize : DecodePolicy → (offset : Nat) → List UInt8 → Except Fault (Option (List UInt8))) :
    Prop :=
  ∀ reader stream, reader.window.Over stream →
    Leads action reader
      (fun found after => ∃ window moved,
        after = reader.further window moved ∧ reader.window.Continues window ∧
        recognize reader.window.config.policy reader.cursor.position
          (stream.drop reader.cursor.position) = .ok found ∧
        ∀ content, found = some content → moved = content.length)
      (fun halt after => ∃ window moved fault,
        halt = .fault fault ∧ after = reader.further window moved ∧
        reader.window.Continues window ∧
        (reader.cursor.position < reader.window.start ∨ ¬ reader.window.source.Calm ∨
          recognize reader.window.config.policy reader.cursor.position
            (stream.drop reader.cursor.position) = .error fault))

theorem Scans.recognizes {action : Reading (Option (List UInt8))}
    {look : Look (Option (List UInt8))}
    {recognize : DecodePolicy → (offset : Nat) → List UInt8 → Except Fault (Option (List UInt8))}
    (hScans : Scans action look)
    (hFound : ∀ policy offset rest, recognize policy offset rest =
      (look policy offset rest).map (·.1))
    (hMoved : ∀ policy offset rest content moved,
      look policy offset rest = .ok (some content, moved) → moved = content.length) :
    Recognizes action recognize := by
  intro reader stream hOver
  refine (hScans reader stream hOver).mono ?_ ?_
  · rintro found after ⟨window, moved, hAfter, hWindow, hLook, -⟩
    refine ⟨window, moved, hAfter, hWindow, ?_, ?_⟩
    · rw [hFound, hLook]
      rfl
    · rintro content rfl
      exact hMoved _ _ _ _ _ hLook
  · rintro halt after ⟨window, moved, fault, hHalt, hAfter, hWindow, hCases⟩
    refine ⟨window, moved, fault, hHalt, hAfter, hWindow, hCases.imp_right fun h => ?_⟩
    refine h.imp_right fun hLook => ?_
    rw [hFound, hLook]
    rfl

end Reading

namespace Primitive

open Reading

/-- After the bytes ahead have been searched, those that match are read. -/
theorem scans_matched (p : Pattern) (ahead : List UInt8) :
    Scans
      (match p.matchLength? ahead with
        | none => return none
        | some length => do
          let _ ← advance length
          return some (ahead.take length))
      (match p.matchLength? ahead with
        | none => fun _ _ _ => .ok (none, 0)
        | some length =>
          Look.bind (fun _ _ rest => .ok ((rest.take length).length, (rest.take length).length))
            fun _ _ _ _ => .ok (some (ahead.take length), 0)) := by
  cases p.matchLength? ahead with
  | none => exact .pure none
  | some length => exact (observes_advance length).scans.bind fun _ => .pure _

theorem recognizes_bytes (run : ByteRun) :
    Recognizes (scan (.bytes run)) fun policy offset rest =>
      recognize policy offset rest (.bytes run) := by
  refine ((run.scans_takeBytes 0).bind fun content => .pure _).recognizes ?_ ?_
  · exact fun _ _ _ => rfl
  · intro policy offset rest content moved hLook
    obtain ⟨hContent, rfl⟩ := Prod.mk.inj (Except.ok.inj hLook)
    split at hContent
    · cases hContent
    · cases hContent
      rfl

theorem recognizes_chars (run : CharRun) :
    Recognizes (scan (.chars run)) fun policy offset rest =>
      recognize policy offset rest (.chars run) := by
  refine ((run.scans_takeChars run.most).bind fun found =>
    .pure (if found.1 < run.least then none else some found.2)).recognizes ?_ ?_
  · intro policy offset rest
    rw [recognize, Look.bind]
    cases run.acceptedChars policy offset run.most rest <;> rfl
  · intro policy offset rest content moved hLook
    rw [Look.bind] at hLook
    cases hFound : run.acceptedChars policy offset run.most rest with
    | error fault =>
      rw [hFound] at hLook
      cases hLook
    | ok found =>
      rw [hFound] at hLook
      obtain ⟨hContent, rfl⟩ := Prod.mk.inj (Except.ok.inj hLook)
      split at hContent
      · cases hContent
      · cases hContent
        rfl

theorem recognizes_literal (tag : Tag) (text : List UInt8) :
    Recognizes (scan (.literal tag text)) fun policy offset rest =>
      recognize policy offset rest (.literal tag text) := by
  refine ((observes_peek text.length).scans.bind fun bytes =>
    .ite (fun _ => .pure none) fun _ =>
      (observes_advance text.length).scans.bind fun _ => .pure (some text)).recognizes ?_ ?_
  · intro policy offset rest
    by_cases hText : rest.take text.length = text
    · simp [recognize, Look.bind, hText, pure, Except.pure, Except.map, bind, Except.bind]
    · simp [recognize, Look.bind, hText, pure, Except.pure, Except.map, bind, Except.bind]
  · intro policy offset rest content moved hLook
    by_cases hText : rest.take text.length = text
    · simp [Look.bind, hText, pure, Except.pure, bind, Except.bind] at hLook
      rw [← hLook.1, ← hLook.2]
    · simp [Look.bind, hText, pure, Except.pure, bind, Except.bind] at hLook

/-- What a pattern matches of the bytes looked at is all there to be moved past. -/
theorem recognizes_pattern (p : Pattern) :
    Recognizes (scan (.pattern p)) fun policy offset rest =>
      recognize policy offset rest (.pattern p) := by
  refine ((observes_peek p.window).scans.bind (scans_matched p)).recognizes ?_ ?_
  · intro policy offset rest
    simp only [recognize, Look.bind, bind, Except.bind]
    cases hMatch : p.matchLength? (rest.take p.window) with
    | none => rfl
    | some length =>
      have hLength := Pattern.le_length_of_matchLength? hMatch
      rw [List.length_take] at hLength
      simp [pure, Except.pure, Except.map, List.take_take, Look.bind, bind, Except.bind,
        Nat.min_eq_left (Nat.le_trans hLength (Nat.min_le_left _ _))]
  · intro policy offset rest content moved hLook
    simp only [Look.bind, bind, Except.bind] at hLook
    cases hMatch : p.matchLength? (rest.take p.window) with
    | none =>
      rw [hMatch] at hLook
      cases hLook
    | some length =>
      have hLength := Pattern.le_length_of_matchLength? hMatch
      rw [hMatch] at hLook
      simp only [List.drop_zero, Look.bind, bind, Except.bind, pure, Except.pure] at hLook
      obtain ⟨hContent, rfl⟩ := Prod.mk.inj (Except.ok.inj hLook)
      rw [← Option.some.inj hContent]
      simp only [List.length_take] at hLength ⊢
      omega

theorem recognizes_scan (primitive : Primitive) :
    Recognizes primitive.scan fun policy offset rest => primitive.recognize policy offset rest := by
  cases primitive with
  | bytes run => exact recognizes_bytes run
  | chars run => exact recognizes_chars run
  | literal tag text => exact recognizes_literal tag text
  | pattern p => exact recognizes_pattern p

/-- An attempt at a primitive matches what the primitive recognizes, and moves past just that.
Nothing beyond the cursor is discarded. -/
theorem leads_attempt (primitive : Primitive) {reader : Reader} {stream : List UInt8}
    (hOver : reader.window.Over stream) :
    Leads primitive.attempt reader
      (fun found after => ∃ content?,
        primitive.recognize reader.window.config.policy reader.cursor.position
          (stream.drop reader.cursor.position) = .ok content? ∧
        found = content?.map (Match.leaf primitive.tag · reader.cursor.position) ∧
        after.cursor = { reader.cursor with
          position := reader.cursor.position + (content?.getD []).length } ∧
        after.window.start ≤ max reader.window.start after.cursor.position)
      (fun halt _ => ∃ fault, halt = .fault fault ∧
        (reader.cursor.position < reader.window.start ∨ ¬ reader.window.source.Calm ∨
          primitive.recognize reader.window.config.policy reader.cursor.position
            (stream.drop reader.cursor.position) = .error fault)) := by
  rw [attempt, leads_bind, leads_position]
  refine (leads_report _ reader).bind (fun _ _ h => h.elim) ?_
  rintro - _ ⟨reports, rfl⟩
  rw [leads_bind, leads_guarded, leads_onFork]
  have hScan := primitive.recognizes_scan { reader with cursor := reader.cursor.fork, reports }
    stream hOver
  refine hScan.mono ?_ ?_
  · rintro found _ ⟨window, moved, rfl, hWindow, hFound, hMoved⟩
    have hStill (place : Nat) : window.start ≤ max reader.window.start place :=
      Nat.le_trans (Nat.le_of_eq hWindow.start_eq) (Nat.le_max_left _ _)
    cases found with
    | none => exact ⟨none, hFound, rfl, rfl, hStill _⟩
    | some content =>
      cases hMoved content rfl
      refine (leads_report _ _).bind (fun _ _ h => h.elim) ?_
      rintro - _ ⟨reports, rfl⟩
      refine (leads_commit _ _).bind ?_ ?_
      · -- A commit that halts shows that the cursor lay before the window.
        rintro halt _ ⟨-, ⟨hDepth, -⟩ | ⟨-, -, hStale, rfl⟩⟩
        · exact absurd rfl hDepth
        · refine ⟨_, rfl, .inl ?_⟩
          have hSame := hWindow.start_eq
          simp only [Reader.further, Cursor.position_fork] at hStale hSame
          omega
      · rintro - after ⟨-, ⟨-, hStart, rfl⟩ | ⟨-, rfl⟩⟩
        · refine ⟨some content, hFound, rfl, rfl, Nat.le_trans ?_ (Nat.le_max_right _ _)⟩
          simp only [Window.start_discard] at hStart ⊢
          omega
        · exact ⟨some content, hFound, rfl, rfl, hStill _⟩
  · rintro halt _ ⟨window, moved, fault, rfl, rfl, hWindow, hCases⟩
    refine (leads_report _ _).mono ?_ (fun _ _ h => h.elim)
    rintro - _ ⟨reports, rfl⟩
    exact ⟨fault, rfl, hCases⟩

end Primitive

end StreamMatch
