import StreamMatch.Proofs.DecodingStops

/-!
Code points read one at a time, and as many of them at once. Single reads go on where a batch stops
early, behind the lead byte of a sequence that the end of the stream cuts off: they replace the
bytes that are stranded there (`Utf8.singled_decode`). Otherwise both come to the same.
-/

namespace StreamMatch

namespace Utf8

/-- Decodes up to `count` code points one at a time, until there is none. -/
def decodeSingly (policy : DecodePolicy) (offset : Nat) :
    (count : Nat) → List UInt8 → Except Fault Decoded
  | 0, _ => return .nil
  | count + 1, bytes => do
    let next ← decode policy offset 1 bytes
    if next.chars.isEmpty then return next
    let later ← decodeSingly policy (offset + next.length) count (bytes.drop next.length)
    return ⟨next.chars ++ later.chars, next.length + later.length⟩

/-- What a batch of up to `count` code points comes to, and what single reads do: the same, unless
the last character of the batch stands for the lead byte of a sequence that the end of the bytes
cuts off. Single reads go on behind it, with a replacement for each of the bytes stranded there. -/
inductive Singled (policy : DecodePolicy) (count : Nat) (bytes : List UInt8) :
    (batch singles : Except Fault Decoded) → Prop where
  | refused (fault : Fault) : Singled policy count bytes (.error fault) (.error fault)
  | same (decoded : Decoded) : Singled policy count bytes (.ok decoded) (.ok decoded)
  | stranded (front : List Char) (place : Nat) {left : Nat} (hPolicy : policy = .lenient)
    (hCut : CutOff (bytes.drop place))
    (hLeft : left = min (count - (front.length + 1)) (bytes.length - (place + 1))) :
    Singled policy count bytes (.ok ⟨front ++ [replacement], place + 1⟩)
      (.ok ⟨front ++ [replacement] ++ List.replicate left replacement, place + 1 + left⟩)

variable {policy : DecodePolicy} {offset count width : Nat} {byte : UInt8}
  {bytes rest : List UInt8} {c : Char} {batch singles : Except Fault Decoded}

section Steps

theorem decodeSingly_nil (policy : DecodePolicy) (offset count : Nat) :
    decodeSingly policy offset count [] = .ok .nil := by
  cases count <;> rfl

theorem decodeSingly_character (policy : DecodePolicy) (offset count : Nat) (c : Char)
    (rest : List UInt8) :
    decodeSingly policy offset (count + 1) (String.utf8EncodeChar c ++ rest) =
      (Decoded.cons c (String.utf8EncodeChar c).length) <$>
        decodeSingly policy (offset + (String.utf8EncodeChar c).length) count rest := by
  have hDecode : decode policy offset 1 (String.utf8EncodeChar c ++ rest) =
      .ok ⟨[c], (String.utf8EncodeChar c).length⟩ := by
    rw [decode_character]
    rfl
  rw [decodeSingly, hDecode]
  simp only [bind, Except.bind, List.isEmpty_cons, Bool.false_eq_true, if_false, List.drop_left]
  cases decodeSingly policy (offset + (String.utf8EncodeChar c).length) count rest <;> rfl

theorem decodeSingly_malformed (offset count : Nat)
    (hMalformed : ¬ StartsCharacter (byte :: rest)) :
    decodeSingly .lenient offset (count + 1) (byte :: rest) =
      (Decoded.cons replacement 1) <$> decodeSingly .lenient (offset + 1) count rest := by
  have hDecode := decode_one_malformed offset hMalformed
  rw [decodeSingly, hDecode]
  simp only [bind, Except.bind, List.isEmpty_cons, Bool.false_eq_true, if_false,
    List.drop_succ_cons, List.drop_zero]
  cases decodeSingly .lenient (offset + 1) count rest <;> rfl

theorem decodeSingly_strict_malformed (offset count : Nat)
    (hMalformed : ¬ StartsCharacter (byte :: rest)) :
    decodeSingly .strict offset (count + 1) (byte :: rest) = .error (.invalidUtf8 offset) := by
  rw [decodeSingly, decode_strict_malformed hMalformed]
  rfl

end Steps

/-- Single reads replace continuation bytes that are in no sequence one by one. -/
theorem decodeSingly_stranded (offset count : Nat)
    (hRest : ∀ byte ∈ rest, isContinuation byte = true) :
    decodeSingly .lenient offset count rest =
      .ok ⟨List.replicate (min count rest.length) replacement, min count rest.length⟩ := by
  induction count generalizing offset rest with
  | zero => simp [decodeSingly, Decoded.nil, pure, Except.pure]
  | succ count ih =>
    cases rest with
    | nil => simp [decodeSingly_nil, Decoded.nil]
    | cons byte rest =>
      have hMalformed : ¬ StartsCharacter (byte :: rest) :=
        not_startsCharacter_of_isContinuation (hRest byte List.mem_cons_self)
      rw [decodeSingly_malformed offset count hMalformed,
        ih (offset + 1) fun other hOther => hRest other (List.mem_cons_of_mem _ hOther)]
      simp [Decoded.cons, Functor.map, Except.map, Nat.add_min_add_right, List.replicate_succ,
        Nat.add_comm]

/-- A character decoded in front of both leaves what is said of the rest. -/
theorem Singled.cons (hSingled : Singled policy count rest batch singles)
    (hRest : bytes.drop width = rest) :
    Singled policy (count + 1) bytes (Decoded.cons c width <$> batch)
      (Decoded.cons c width <$> singles) := by
  cases hSingled with
  | refused fault => exact .refused fault
  | same decoded => exact .same (decoded.cons c width)
  | @stranded front place left hPolicy hCut hLeft =>
    have hLater : CutOff (bytes.drop (width + place)) := by
      rwa [← hRest, List.drop_drop] at hCut
    have hMore : left = min (count + 1 - ((c :: front).length + 1))
        (bytes.length - (width + place + 1)) := by
      rw [hLeft, ← hRest, List.length_drop, List.length_cons]
      omega
    have hWhole := Singled.stranded (c :: front) (width + place) hPolicy hLater hMore
    simpa [Functor.map, Except.map, Decoded.cons, Nat.add_assoc] using hWhole

/-- A batch is refused just if a single read is, and for the same byte. Otherwise the single reads
decode the batch, and behind it at most what is stranded there. -/
theorem singled_decode (policy : DecodePolicy) (offset count : Nat) (bytes : List UInt8) :
    Singled policy count bytes (decode policy offset count bytes)
      (decodeSingly policy offset count bytes) := by
  induction count generalizing offset bytes with
  | zero => exact .same .nil
  | succ count ih =>
    cases Front.of bytes with
    | nil => exact .same .nil
    | character c rest =>
      rw [decode_character, decodeSingly_character]
      exact (ih _ rest).cons List.drop_left
    | @malformed byte rest hMalformed =>
      cases policy with
      | strict =>
        rw [decode_strict_malformed hMalformed, decodeSingly_strict_malformed _ _ hMalformed]
        exact .refused _
      | lenient =>
        rw [decodeSingly_malformed offset count hMalformed]
        by_cases hCut : CutOff (byte :: rest)
        · rw [decode_cutOff hCut, decodeSingly_stranded (offset + 1) count hCut.2]
          have hStranded := Singled.stranded [] 0 rfl hCut
            (Eq.refl (min (count + 1 - 1) rest.length))
          simpa [Functor.map, Except.map, Decoded.cons] using hStranded
        · rw [decode_malformed hMalformed hCut]
          exact (ih (offset + 1) rest).cons rfl

end Utf8

namespace Reading

open Utf8

/-- Reads up to `count` code points one at a time. The first read that finds none is the last. -/
def readSingly : (count : Nat) → Reading (List Char)
  | 0 => return []
  | count + 1 => do
    let next ← readChars 1
    if next.isEmpty then return next
    return next ++ (← readSingly count)

theorem scans_readSingly (count : Nat) :
    Scans (readSingly count) fun policy offset rest =>
      (decodeSingly policy offset count rest).map fun decoded =>
        (decoded.chars, decoded.length) := by
  induction count with
  | zero => exact .pure []
  | succ count ih =>
    have hNext (next : List Char) : Scans
        (if next.isEmpty then pure next else do return next ++ (← readSingly count))
        (if next.isEmpty then fun _ _ _ => .ok (next, 0)
          else Look.bind (fun policy offset rest =>
              (decodeSingly policy offset count rest).map fun decoded =>
                (decoded.chars, decoded.length))
            fun later _ _ _ => .ok (next ++ later, 0)) :=
      .ite (fun _ => .pure next) fun _ => ih.bind fun later => .pure (next ++ later)
    apply ((observes_readChars 1).scans.bind hNext).congr
    intro policy offset rest
    rw [decodeSingly, Look.bind]
    cases decode policy offset 1 rest with
    | error fault => rfl
    | ok next =>
      simp only [Except.map, Bind.bind, Except.bind]
      by_cases hNone : next.chars.isEmpty = true
      · simp only [if_pos hNone]
        rfl
      · simp only [if_neg hNone, Look.bind, Bind.bind, Except.bind]
        cases decodeSingly policy (offset + next.length) count (rest.drop next.length) <;> rfl

variable {stream : List UInt8} {reader : Reader}

/-- A cursor before the window reads no code points. -/
theorem leads_readChars_stale (hStale : reader.cursor.position < reader.window.start)
    (count : Nat) :
    Leads (readChars count) reader (fun _ _ => False)
      (fun halt _ => halt = .fault (.reclaimed reader.cursor.position reader.window.start)) := by
  obtain ⟨stream, hOver⟩ := reader.window.exists_over
  apply (observes_readChars count reader stream hOver).mono
  · intro chars after hChars
    obtain ⟨window, moved, -, -, hStart, -⟩ := hChars
    exact absurd hStart (Nat.not_le.2 hStale)
  · intro halt after hHalts
    obtain ⟨window, fault, rfl, -, -, hCases⟩ := hHalts
    rcases hCases with ⟨-, -, rfl⟩ | ⟨hStart, -⟩
    · rfl
    · exact absurd hStart (Nat.not_le.2 hStale)

/-- Nor does it read any one at a time; but it halts only if there is a read to make. -/
theorem leads_readSingly_stale (hStale : reader.cursor.position < reader.window.start)
    (count : Nat) :
    Leads (readSingly count) reader (fun _ _ => count = 0)
      (fun halt _ => halt = .fault (.reclaimed reader.cursor.position reader.window.start)) := by
  cases count with
  | zero => exact rfl
  | succ count =>
    exact (leads_readChars_stale hStale 1).bind (fun _ _ hHalts => hHalts)
      fun _ _ hNever => hNever.elim

/-- What a batch of code points reads is what single reads do. They fault just if the batch does,
with the same fault, except that no read at all is made of none. Otherwise they read the characters
of the batch and come to where it ends, unless its last character stands for the lead byte of a
sequence that the end of the stream cuts off. There the batch stops, and the single reads that are
left go on with a replacement for each of the bytes stranded there, of which there are at most
two. -/
theorem readChars_eq_readSingly (hOver : reader.window.Over stream)
    (hCalm : reader.window.source.Calm) (count : Nat) :
    Leads (readChars count) reader
      (fun batch after => Leads (readSingly count) reader
        (fun singles last => batch <+: singles ∧
          (singles = batch ∧ last.cursor.position = after.cursor.position ∨
            ∃ front place left, reader.window.config.policy = .lenient ∧
              batch = front ++ [replacement] ∧ after.cursor.position = place + 1 ∧
              CutOff (stream.drop place) ∧
              left = min (count - batch.length) (stream.length - after.cursor.position) ∧
              stream.length - after.cursor.position ≤ 2 ∧
              singles = batch ++ List.replicate left replacement ∧
              last.cursor.position = after.cursor.position + left))
        (fun _ _ => False))
      (fun halt _ => Leads (readSingly count) reader
        (fun _ _ => count = 0 ∧ reader.cursor.position < reader.window.start)
        (fun other _ => other = halt)) := by
  by_cases hStart : reader.window.start ≤ reader.cursor.position
  · have hScans := (observes_readChars count).scans
    have hSingled := singled_decode reader.window.config.policy reader.cursor.position count
      (stream.drop reader.cursor.position)
    generalize hDecode : decode reader.window.config.policy reader.cursor.position count
      (stream.drop reader.cursor.position) = batch at hSingled
    generalize hSingly : decodeSingly reader.window.config.policy reader.cursor.position count
      (stream.drop reader.cursor.position) = singles at hSingled
    cases hSingled with
    | refused fault =>
      have hBatch := hScans.leads_of_error hOver hCalm hStart (congrArg (Except.map _) hDecode)
      have hSingles := (scans_readSingly count).leads_of_error hOver hCalm hStart
        (congrArg (Except.map _) hSingly)
      apply hBatch.mono
      · exact fun _ _ hNever => hNever.elim
      · intro halt after hHalt
        rw [hHalt]
        exact hSingles.mono (fun _ _ hNever => hNever.elim) fun _ _ hSame => hSame
    | same decoded =>
      have hBatch := hScans.leads_of_ok hOver hCalm hStart (congrArg (Except.map _) hDecode)
      have hSingles := (scans_readSingly count).leads_of_ok hOver hCalm hStart
        (congrArg (Except.map _) hSingly)
      apply hBatch.mono
      · intro batch after hRead
        obtain ⟨rfl, hAfter⟩ := hRead
        apply hSingles.mono
        · intro singles last hLast
          obtain ⟨rfl, hLast⟩ := hLast
          exact ⟨List.prefix_refl _, .inl ⟨rfl, hLast.trans hAfter.symm⟩⟩
        · exact fun _ _ hNever => hNever
      · exact fun _ _ hNever => hNever.elim
    | @stranded front place left hPolicy hCut hLeft =>
      have hBatch := hScans.leads_of_ok hOver hCalm hStart (congrArg (Except.map _) hDecode)
      have hSingles := (scans_readSingly count).leads_of_ok hOver hCalm hStart
        (congrArg (Except.map _) hSingly)
      rw [List.drop_drop] at hCut
      rw [List.length_drop] at hLeft
      have hFew := hCut.length_le
      rw [List.length_drop] at hFew
      dsimp only at hBatch hSingles
      apply hBatch.mono
      · intro batch after hRead
        obtain ⟨rfl, hAfter⟩ := hRead
        apply hSingles.mono
        · intro singles last hLast
          obtain ⟨rfl, hLast⟩ := hLast
          refine ⟨List.prefix_append _ _, .inr ⟨front, reader.cursor.position + place, left,
            hPolicy, rfl, hAfter, hCut, ?_, ?_, rfl, ?_⟩⟩
          · rw [hLeft, hAfter, List.length_append, List.length_singleton]
            omega
          · omega
          · omega
        · exact fun _ _ hNever => hNever
      · exact fun _ _ hNever => hNever.elim
  · have hStale := Nat.not_le.1 hStart
    apply (leads_readChars_stale hStale count).mono
    · exact fun _ _ hNever => hNever.elim
    · intro halt after hHalt
      rw [hHalt]
      apply (leads_readSingly_stale hStale count).mono
      · exact fun _ _ hNone => ⟨hNone, hStale⟩
      · exact fun _ _ hSame => hSame

/-- A letter, and three of the four bytes of a character. -/
def severed : Source :=
  ⟨[.data [0x41, 0xf0], .failure .interrupted "", .data [0x9f, 0x98]]⟩

/-- At the start of the severed stream. -/
def beforeSevered : Reader where
  window := .ofSource severed
  cursor := { position := 0 }

/-- A batch of five stops behind the lead byte, and single reads replace the two bytes left. -/
theorem readChars_eq_readSingly_severed :
    Leads (readChars 5) beforeSevered
      (fun batch after => batch = ['A', '\uFFFD'] ∧ after.cursor.position = 2 ∧
        Leads (readSingly 5) beforeSevered
          (fun singles last => singles = ['A', '\uFFFD', '\uFFFD', '\uFFFD'] ∧
            batch <+: singles ∧
            (singles = batch ∧ last.cursor.position = after.cursor.position ∨
              ∃ front place left, beforeSevered.window.config.policy = .lenient ∧
                batch = front ++ [replacement] ∧ after.cursor.position = place + 1 ∧
                CutOff (severed.content.drop place) ∧
                left = min (5 - batch.length)
                  (severed.content.length - after.cursor.position) ∧
                severed.content.length - after.cursor.position ≤ 2 ∧
                singles = batch ++ List.replicate left replacement ∧
                last.cursor.position = after.cursor.position + left))
          (fun _ _ => False))
      (fun _ _ => False) := by
  have hCalm : severed.Calm := by
    simp [severed, Source.Calm]
  have hOver : beforeSevered.window.Over severed.content := Window.over_content default severed
  have hDecode : decode .lenient 0 5 severed.content = .ok ⟨['A', '\uFFFD'], 2⟩ := rfl
  have hSingly : decodeSingly .lenient 0 5 severed.content =
      .ok ⟨['A', '\uFFFD', '\uFFFD', '\uFFFD'], 4⟩ := rfl
  have hBatch := (observes_readChars 5).scans.leads_of_ok hOver hCalm (Nat.le_refl _)
    (congrArg (Except.map _) hDecode)
  have hSingles := (scans_readSingly 5).leads_of_ok hOver hCalm (Nat.le_refl _)
    (congrArg (Except.map _) hSingly)
  apply (hBatch.and (readChars_eq_readSingly hOver hCalm 5)).mono
  · intro batch after hRead
    obtain ⟨⟨rfl, hAfter⟩, hAgree⟩ := hRead
    refine ⟨rfl, hAfter, (hSingles.and hAgree).mono ?_ ?_⟩
    · exact fun singles last hBoth => ⟨hBoth.1.1, hBoth.2⟩
    · exact fun _ _ hNever => hNever.1
  · exact fun _ _ hHalts => hHalts.1

/-- A root that the window has left behind. -/
def overtaken : Reader where
  window := ((Window.ofSource ⟨[]⟩).extend [97, 98]).discard 1
  cursor := { position := 0 }

/-- Single reads do not always meet the fault that a batch does: there may be none to make. -/
theorem not_forall_readSingly_halts :
    ¬ ∀ (stream : List UInt8) (reader : Reader) (count : Nat), reader.window.Over stream →
      reader.window.source.Calm →
      Leads (readChars count) reader (fun _ _ => True)
        (fun halt _ => Leads (readSingly count) reader (fun _ _ => False)
          (fun other _ => other = halt)) := by
  intro hAll
  have hStale : overtaken.cursor.position < overtaken.window.start := by
    rw [overtaken, Window.start_discard]
    decide
  have hCalm : overtaken.window.source.Calm := by
    obtain ⟨-, hSource, -⟩ := ((Window.ofSource ⟨[]⟩).extend [97, 98]).rest_discard 1
    rw [overtaken, hSource]
    simp [Window.extend, Window.ofSource, Source.Calm]
  obtain ⟨stream, hOver⟩ := overtaken.window.exists_over
  have hBatch := (leads_readChars_stale hStale 0).and (hAll stream overtaken 0 hOver hCalm)
  cases hRead : readChars 0 overtaken with
  | ok chars after => exact (hBatch.of_ok hRead).1
  | error halt after => exact (hBatch.of_error hRead).2

end Reading

end StreamMatch
