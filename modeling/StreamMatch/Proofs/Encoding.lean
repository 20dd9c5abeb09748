import StreamMatch.Proofs.Simulation
import StreamMatch.Utf8.Lemmas

/-!
Reading code points undoes their encoding. Where a stream is the encoding of some characters, each
batch of code points that is read is the next slice of these characters, and the cursor stands after
the bytes that they take (`Reading.readBatches_eq_slices`). The pieces that the source delivers may
cut a character anywhere, and what has been read may be reclaimed between two batches.
-/

namespace StreamMatch

namespace Utf8

/-- The bytes that spell these characters. -/
def encode (cs : List Char) : List UInt8 :=
  cs.flatMap String.utf8EncodeChar

@[simp]
theorem encode_nil : encode [] = [] := rfl

@[simp]
theorem encode_cons (c : Char) (cs : List Char) :
    encode (c :: cs) = String.utf8EncodeChar c ++ encode cs :=
  List.flatMap_cons

@[simp]
theorem encode_append (first second : List Char) :
    encode (first ++ second) = encode first ++ encode second :=
  List.flatMap_append

theorem charOf?_cons_of_utf8EncodeChar (c : Char) :
    ∃ lead tail, String.utf8EncodeChar c = lead :: tail ∧ charOf? (lead :: tail) = some c := by
  obtain ⟨lead, tail, hBytes⟩ := List.exists_cons_of_ne_nil (String.utf8EncodeChar_ne_nil (c := c))
  exact ⟨lead, tail, hBytes, hBytes ▸ charOf?_utf8EncodeChar c⟩

/-- What spells a character is found as that character, whatever bytes stand after it. -/
theorem Segment.atFront_utf8EncodeChar (c : Char) (rest : List UInt8) :
    Segment.atFront (String.utf8EncodeChar c ++ rest) =
      some (.char c (String.utf8EncodeChar c).length) := by
  obtain ⟨lead, tail, hBytes, hChar⟩ := charOf?_cons_of_utf8EncodeChar c
  have hWidth := leadWidth_of_charOf? hChar
  simp [Segment.atFront, Segment.of, hBytes, hWidth, hChar]

/-- Under either policy, what is decoded from an encoding is what was encoded. -/
theorem decode_encode (policy : DecodePolicy) (offset count : Nat) (cs : List Char) :
    decode policy offset count (encode cs) =
      .ok ⟨cs.take count, (encode (cs.take count)).length⟩ := by
  induction count generalizing offset cs with
  | zero => simp [decode, Decoded.nil, pure, Except.pure]
  | succ count ih =>
    cases cs with
    | nil => simp [decode, Segment.atFront, Decoded.nil, pure, Except.pure]
    | cons c cs =>
      rw [encode_cons, decode, Segment.atFront_utf8EncodeChar]
      simp [ih, Decoded.cons, pure, Except.pure, bind, Except.bind]

/-- The slices that batches of these sizes take, after so many characters, each with the number of
bytes of all that has been taken then. -/
def slices (cs : List Char) (taken : Nat) : List Nat → List (List Char × Nat)
  | [] => []
  | count :: rest =>
    ((cs.drop taken).take count, (encode (cs.take (taken + count))).length) ::
      slices cs (taken + count) rest

end Utf8

namespace Reading

/-- Reads code points in batches of these sizes; after a batch that is marked, what lies before the
cursor is reclaimed. For each batch the result tells what was read, and where the cursor stood
then. -/
def readBatches : List (Nat × Bool) → Reading (List (List Char × Nat))
  | [] => return []
  | (count, reclaims) :: rest => do
    let chars ← readChars count
    let place ← position
    if reclaims then reclaim
    return (chars, place) :: (← readBatches rest)

variable {stream : List UInt8} {policy : DecodePolicy}

/-- A cursor in the window can reclaim what lies before it, and stays in the window. -/
theorem leads_reclaim_ready {reader : Reader} (hReady : reader.Ready stream policy) :
    Leads reclaim reader
      (fun _ after => after.cursor = reader.cursor ∧ after.Ready stream policy) (fun _ _ => False) := by
  have hStart := hReady.start_le
  refine (leads_reclaim reader).mono ?_ ?_
  · intro _ after hCases
    rcases hCases with ⟨-, -, rfl⟩ | ⟨-, rfl⟩
    · obtain ⟨hConfig, hSource, -⟩ :=
        reader.window.rest_discard (reader.cursor.position - reader.window.start)
      refine ⟨rfl, hReady.lies_over.discard _, hSource ▸ hReady.calm, hConfig ▸ hReady.policy_eq, ?_,
        hReady.position_le⟩
      simp only [Window.start_discard]
      omega
    · exact ⟨rfl, hReady⟩
  · intro halt after hHalted
    obtain ⟨-, -, hStale, -⟩ := hHalted
    omega

/-- One batch: the next slice of the characters. -/
theorem leads_readChars_encode {cs : List Char} {reader : Reader} {taken : Nat}
    (hReady : reader.Ready (Utf8.encode cs) policy)
    (hPosition : reader.cursor.position = (Utf8.encode (cs.take taken)).length) (count : Nat) :
    Leads (readChars count) reader
      (fun chars after => chars = (cs.drop taken).take count ∧
        after.cursor.position = (Utf8.encode (cs.take (taken + count))).length ∧
        after.Ready (Utf8.encode cs) policy)
      (fun _ _ => False) := by
  have hSplit : Utf8.encode cs = Utf8.encode (cs.take taken) ++ Utf8.encode (cs.drop taken) := by
    rw [← Utf8.encode_append, List.take_append_drop]
  have hRest : (Utf8.encode cs).drop reader.cursor.position = Utf8.encode (cs.drop taken) := by
    rw [hPosition, hSplit, List.drop_left]
  refine ((observes_readChars count).leads_ready hReady).mono ?_ ?_
  · intro chars after hAfter
    obtain ⟨moved, hLook, hMoved, hNext⟩ := hAfter
    rw [hRest, Utf8.decode_encode] at hLook
    cases hLook
    refine ⟨rfl, ?_, hNext⟩
    rw [hMoved, hPosition, List.take_add, Utf8.encode_append, List.length_append]
  · intro halt after hFault
    obtain ⟨fault, -, hLook⟩ := hFault
    rw [hRest, Utf8.decode_encode] at hLook
    cases hLook

/-- Batch after batch the cursor goes through the characters. -/
theorem leads_readBatches {cs : List Char} {reader : Reader} {taken : Nat}
    (hReady : reader.Ready (Utf8.encode cs) policy)
    (hPosition : reader.cursor.position = (Utf8.encode (cs.take taken)).length)
    (batches : List (Nat × Bool)) :
    Leads (readBatches batches) reader
      (fun results _ => results = Utf8.slices cs taken (batches.map (·.1))) (fun _ _ => False) := by
  -- Before each batch the cursor is ready, behind the encoding of what has been taken.
  induction batches generalizing reader taken with
  | nil => exact rfl
  | cons batch rest ih =>
    obtain ⟨count, reclaims⟩ := batch
    refine (leads_readChars_encode hReady hPosition count).bind (fun _ _ h => h) ?_
    intro chars middle hMiddle
    obtain ⟨rfl, hMoved, hNext⟩ := hMiddle
    have hTail {after : Reader} (hCursor : after.cursor = middle.cursor)
        (hAfter : after.Ready (Utf8.encode cs) policy) :
        Leads (do return ((cs.drop taken).take count, middle.cursor.position) ::
            (← readBatches rest)) after
          (fun results _ => results = Utf8.slices cs taken (count :: rest.map (·.1)))
          (fun _ _ => False) := by
      refine (ih hAfter (hCursor ▸ hMoved)).bind (fun _ _ h => h) ?_
      intro results last hResults
      rw [Utf8.slices, ← hMoved, ← hResults]
      exact rfl
    simp only [leads_bind, leads_position]
    cases reclaims with
    | false => exact hTail rfl hNext
    | true =>
      refine (leads_reclaim_ready hNext).bind (fun _ _ h => h) ?_
      intro _ after hAfter
      exact hTail hAfter.1 hAfter.2

/-- Code points are read as they were encoded. From the start of a source that delivers the encoding
of some characters, in whatever pieces, each batch returns the next of them, as many as it asks for
or all that are left, and the cursor stands behind the bytes of all that have been returned; no batch
fails. -/
theorem readBatches_eq_slices (config : Config) {source : Source} (hCalm : source.Calm)
    {cs : List Char} (hContent : source.content = Utf8.encode cs) {cursor : Cursor}
    (hStart : cursor.position = 0) (batches : List (Nat × Bool)) :
    Leads (readBatches batches) { window := .ofSource source config, cursor }
      (fun results _ => results = Utf8.slices cs 0 (batches.map (·.1))) (fun _ _ => False) := by
  have hReady : Reader.Ready (Utf8.encode cs) config.policy
      { window := .ofSource source config, cursor } :=
    ⟨hContent ▸ Window.over_content config source, hCalm, rfl, Nat.zero_le _, by simp [hStart]⟩
  have hPosition : cursor.position = (Utf8.encode (cs.take 0)).length := by simp [hStart]
  exact leads_readBatches hReady hPosition batches

/-- A letter, a sign of three bytes and one of four, delivered in pieces that cut the last two, are
read by two at a time with what was read reclaimed in between. -/
theorem readBatches_eq_slices_cut :
    Leads (readBatches [(2, true), (2, false)])
      { window := .ofSource ⟨[.data [97, 0xe2], .data [0x82, 0xac, 0xf0, 0x9f], .data [0x98],
          .failure .interrupted "", .data [0x80]]⟩
        cursor := { position := 0 } }
      (fun results _ => results = [(['a', '€'], 4), (['😀'], 8)]) (fun _ _ => False) := by
  have hCalm : Source.Calm ⟨[.data [97, 0xe2], .data [0x82, 0xac, 0xf0, 0x9f], .data [0x98],
      .failure .interrupted "", .data [0x80]]⟩ := by
    simp [Source.Calm]
  have hContent : Source.content ⟨[.data [97, 0xe2], .data [0x82, 0xac, 0xf0, 0x9f], .data [0x98],
      .failure .interrupted "", .data [0x80]]⟩ = Utf8.encode ['a', '€', '😀'] := by decide
  exact readBatches_eq_slices default hCalm hContent rfl [(2, true), (2, false)]

end Reading

end StreamMatch
