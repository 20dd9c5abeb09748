import StreamMatch.Proofs.Events
import StreamMatch.Window.Decode

/-!
No index is out of range. What is done with a window is done here once more, with numbers and bytes
of which nothing is known (`Store`), and each index, each range and each difference is checked before
it is used (`Checked`). With what a window holds none of the checks fails, and what comes of it is
what the window does (`Checked.peek_store`, `Checked.decode_store`, `Checked.discard_store`).
-/

namespace StreamMatch

namespace Utf8.Segment

variable {lead : UInt8} {tail : List UInt8}

theorem of_of_length_lt (hWidth : leadWidth lead ≠ 0) (hTail : tail.length + 1 < leadWidth lead) :
    of lead tail = if tail.all isContinuation then .truncated else .malformed := by
  rw [of, if_neg hWidth, if_pos hTail]

theorem of_of_length_eq (hTail : tail.length + 1 = leadWidth lead) :
    of lead tail =
      (charOf? (lead :: tail)).elim .malformed fun c => .char c (leadWidth lead) := by
  rw [of, if_neg (by omega), if_neg (by omega)]
  cases charOf? (lead :: tail) <;> rfl

end Utf8.Segment

/-- What a window holds, with nothing known of it. -/
structure Store where
  config : Config
  source : Source
  bytes : List UInt8
  head : Nat
  start : Nat
  origin : Location
  carry : List UInt8
  ended : Bool

/-- What a window holds. -/
def Window.store (window : Window) : Store where
  config := window.config
  source := window.source
  bytes := window.bytes.toList
  head := window.head
  start := window.start
  origin := window.origin
  carry := window.carry
  ended := window.ended

/-- Why a checked operation stops. -/
inductive Mishap where
  | fault (fault : Fault)
  /-- An index, a range or a difference is out of range. -/
  | outOfRange

/-- An operation that checks before it uses an index. -/
abbrev Checked := EStateM Mishap Store

namespace Checked

/-- What is left of a number, if the other one is not greater. -/
def difference (whole part : Nat) : Checked Nat :=
  if part ≤ whole then return whole - part else throw .outOfRange

/-- The byte at an index, if there is one. -/
def index (bytes : List UInt8) (place : Nat) : Checked UInt8 :=
  match bytes[place]? with
  | some byte => return byte
  | none => throw .outOfRange

/-- The bytes from `first` to before `last`, if these are in order and not past the end. -/
def range (bytes : List UInt8) (first last : Nat) : Checked (List UInt8) :=
  if first ≤ last ∧ last ≤ bytes.length then return (bytes.take last).drop first
  else throw .outOfRange

theorem length_of_range {bytes room : List UInt8} {first last : Nat} {store after : Store}
    (hRange : range bytes first last store = .ok room after) : room.length = last - first := by
  unfold range at hRange
  split at hRange
  · next hOrder =>
    cases hRange
    rw [List.length_drop, List.length_take, Nat.min_eq_left hOrder.2]
  · cases hRange

/-- The number of bytes retained. -/
def length : Checked Nat := do
  let store ← get
  difference store.bytes.length store.head

/-- The bytes retained. -/
def retained : Checked (List UInt8) := do
  let store ← get
  range store.bytes store.head store.bytes.length

/-- The bytes held, with room for a chunk after them. -/
def grown (store : Store) : List UInt8 :=
  store.bytes ++ List.replicate store.config.chunkSize 0

theorem length_grown (store : Store) :
    (grown store).length = store.bytes.length + store.config.chunkSize := by
  rw [grown, List.length_append, List.length_replicate]

/-- Makes room for a chunk at the end of the bytes, has the source fill it, and gives back what is
left of it, until there is enough. -/
def fill (want : Nat) (store : Store) : EStateM.Result Mishap Store Unit :=
  match length store with
  | .error mishap after => .error mishap after
  | .ok length _ =>
    if length < want ∧ store.ended = false then
      match _hRoom : range (grown store) store.bytes.length (grown store).length store with
      | .error mishap after => .error mishap after
      | .ok room _ =>
        match _hRead : store.source.read room.length with
        | (.bytes [], rest) =>
          .ok () { store with
            source := rest
            bytes := (grown store).take store.bytes.length
            ended := true }
        | (.bytes (byte :: more), rest) =>
          let filled := (grown store).take store.bytes.length ++ (byte :: more) ++
            room.drop (byte :: more).length
          fill want { store with
            source := rest
            bytes := filled.take (store.bytes.length + (byte :: more).length) }
        | (.failed .interrupted _, rest) =>
          fill want { store with source := rest, bytes := (grown store).take store.bytes.length }
        | (.failed kind message, rest) =>
          .error (.fault (.io kind message))
            { store with source := rest, bytes := (grown store).take store.bytes.length }
    else .ok () store
termination_by store.source.size
decreasing_by
  all_goals
    have hLength := length_of_range _hRoom
    have hChunk := store.config.chunkSize_pos
    rw [length_grown] at hLength
    exact Source.size_read_lt (by omega) _hRead (by simp)

/-- Up to `count` bytes from `offset` bytes into the window. -/
def peek (offset count : Nat) : Checked (List UInt8) := do
  fill (offset + count)
  let last := min (offset + count) (← length)
  range (← retained) (min offset last) last

/-- Under the strict policy malformed bytes are a fault. -/
def tolerate (offset : Nat) : Checked Unit := do
  let store ← get
  match store.config.policy with
  | .lenient => return ()
  | .strict => throw (.fault (.invalidUtf8 (store.start + offset)))

/-- The segment that begins at a place with the first byte of a sequence so long, of as much as is
retained of it. -/
def sequence (place width : Nat) : Checked Utf8.Segment := do
  let bytes ← retained
  if (← length) < place + width then
    let tail ← range bytes (place + 1) bytes.length
    return if tail.all Utf8.isContinuation then .truncated else .malformed
  match Utf8.charOf? (← range bytes place (place + width)) with
  | some c => return .char c width
  | none => return .malformed

/-- The segment that stands at a place in the window, or nothing at the end of the stream. -/
def segment (place : Nat) : Checked (Option Utf8.Segment) := do
  fill (place + 1)
  if (← length) ≤ place then return none
  let width := Utf8.leadWidth (← index (← retained) place)
  if width = 0 then return some .malformed
  fill (place + width)
  return some (← sequence place width)

/-- Decodes up to `count` code points from a place on. The result says where that ends. -/
def decodeFrom (place : Nat) : (count : Nat) → Checked (List Char × Nat)
  | 0 => return ([], place)
  | count + 1 => do
    match ← segment place with
    | none => return ([], place)
    | some (.char c width) =>
      let (chars, last) ← decodeFrom (place + width) count
      return (c :: chars, last)
    | some .malformed =>
      tolerate place
      let (chars, last) ← decodeFrom (place + 1) count
      return (Utf8.replacement :: chars, last)
    | some .truncated =>
      tolerate place
      return ([Utf8.replacement], place + 1)

/-- Decodes up to `count` code points from `offset` bytes into the window. -/
def decode (offset count : Nat) : Checked Decoded := do
  let (chars, last) ← decodeFrom offset count
  return ⟨chars, ← difference last offset⟩

/-- Walks backwards from so far before the end to a byte that is no continuation byte, and takes
away the sequence that it begins if that is not complete. -/
def completeLengthFrom (bytes : List UInt8) (back : Nat) : (steps : Nat) → Checked Nat
  | 0 => return bytes.length
  | steps + 1 => do
    let byte ← index bytes (← difference bytes.length back)
    if Utf8.isContinuation byte then completeLengthFrom bytes (back + 1) steps
    else if back < Utf8.leadWidth byte then difference bytes.length back
    else return bytes.length

/-- The length of the bytes without an incomplete sequence at their end. -/
def completeLength (bytes : List UInt8) : Checked Nat :=
  completeLengthFrom bytes 1 (min bytes.length 4)

/-- Drops the discarded bytes once they fill a chunk and are at least half of all bytes held. -/
def compact : Checked Unit := do
  let store ← get
  if store.config.chunkSize ≤ store.head ∧ store.bytes.length ≤ store.head * 2 then
    let kept ← range store.bytes store.head store.bytes.length
    set { store with bytes := kept, head := 0 }

/-- Discards the first `count` retained bytes, or all of them if there are fewer. -/
def discard (count : Nat) : Checked Unit := do
  let store ← get
  let gone := min count (← length)
  if gone = 0 then return ()
  let carry := store.carry ++ (← range store.bytes store.head (store.head + gone))
  let located ← completeLength carry
  let origin := store.origin.after (← range carry 0 located)
  let rest ← range carry located carry.length
  set { store with
    head := store.head + gone
    start := store.start + gone
    origin
    carry := rest }
  compact

/-- What a window has come to, as to what it holds. -/
def image {α : Type} : EStateM.Result Fault Window α → EStateM.Result Mishap Store α
  | .ok value after => .ok value after.store
  | .error fault after => .error (.fault fault) after.store

section Checks

variable {store : Store} {bytes : List UInt8} {first last whole part place : Nat}

theorem difference_eq (hPart : part ≤ whole) :
    difference whole part store = .ok (whole - part) store := by
  rw [difference, if_pos hPart]
  rfl

theorem range_eq (hOrder : first ≤ last) (hLast : last ≤ bytes.length) :
    range bytes first last store = .ok ((bytes.take last).drop first) store := by
  rw [range, if_pos ⟨hOrder, hLast⟩]
  rfl

theorem index_eq {byte : UInt8} (hByte : bytes[place]? = some byte) :
    index bytes place store = .ok byte store := by
  rw [index, hByte]
  rfl

end Checks

variable {window : Window}

theorem length_store (window : Window) : length window.store = .ok window.length window.store := by
  have hHead : window.store.head ≤ window.store.bytes.length := window.head_le
  have hLength : window.store.bytes.length - window.store.head = window.length := rfl
  have hCheck : length window.store =
      .ok (window.store.bytes.length - window.store.head) window.store := difference_eq hHead
  rwa [hLength] at hCheck

theorem retained_store (window : Window) :
    retained window.store = .ok window.retained window.store := by
  have hHead : window.store.head ≤ window.store.bytes.length := window.head_le
  have hCheck : retained window.store =
      .ok ((window.store.bytes.take window.store.bytes.length).drop window.store.head)
        window.store := range_eq hHead (Nat.le_refl _)
  have hRetained : window.store.bytes.drop window.store.head = window.retained :=
    window.retained_eq_drop.symm
  rwa [List.take_length, hRetained] at hCheck

/-- How filling goes on from where a read that returned `delivery` has left it. -/
def refill (want : Nat) (delivery : Delivery) (store : Store) : EStateM.Result Mishap Store Unit :=
  match delivery with
  | .bytes [] => .ok () store
  | .bytes (_ :: _) => fill want store
  | .failed kind message =>
    if kind = .interrupted then fill want store else .error (.fault (.io kind message)) store

/-- The room at the end is as large as a chunk, and nothing of it is left that has not been filled. -/
theorem fill_eq_refill {want : Nat} {delivery : Delivery} {rest : Source}
    (hShort : window.length < want ∧ window.ended = false)
    (hRead : window.source.read window.config.chunkSize = (delivery, rest)) :
    fill want window.store = refill want delivery (window.receive delivery rest).store := by
  have hGrown := length_grown window.store
  have hRoom : range (grown window.store) window.store.bytes.length (grown window.store).length
        window.store =
      .ok (((grown window.store).take (grown window.store).length).drop window.store.bytes.length)
        window.store :=
    range_eq (hGrown ▸ Nat.le_add_right _ _) (Nat.le_refl _)
  have hOld : (grown window.store).take window.store.bytes.length = window.store.bytes := by
    rw [grown, List.take_left]
  have hCondition : window.length < want ∧ window.store.ended = false := hShort
  rw [fill, length_store]
  dsimp only
  rw [if_pos hCondition]
  split
  · next hStops =>
    rw [hRoom] at hStops
    cases hStops
  · next room _ hTaken =>
    have hSize : room.length = window.config.chunkSize := by
      rw [length_of_range hTaken, hGrown, Nat.add_sub_cancel_left]
      rfl
    have hNext : window.store.source.read room.length = (delivery, rest) := by
      rw [hSize]
      exact hRead
    rw [hOld]
    split
    · next hSame =>
      rw [hNext] at hSame
      cases hSame
      rfl
    · next byte more _ hSame =>
      rw [hNext] at hSame
      cases hSame
      have hBytes : (window.receive (.bytes (byte :: more)) rest).store.bytes =
          window.store.bytes ++ (byte :: more) := Array.toList_appendList
      have hLength : window.store.bytes.length + (byte :: more).length =
          (window.store.bytes ++ (byte :: more)).length := List.length_append.symm
      rw [hLength, List.take_left, ← hBytes]
      rfl
    · next hSame =>
      rw [hNext] at hSame
      cases hSame
      rfl
    · next hKind hSame =>
      rw [hNext] at hSame
      cases hSame
      rw [refill, if_neg hKind]
      rfl

/-- What a read does to what a window holds: a chunk is made room for, and what is left of it is
given back. -/
theorem fill_store (want : Nat) (window : Window) :
    fill want window.store = image (Window.fill want window) := by
  fun_induction Window.fill want window with
  | case1 window hShort rest hRead => exact fill_eq_refill hShort hRead
  | case2 window hShort byte more rest hRead ih => exact (fill_eq_refill hShort hRead).trans ih
  | case3 window hShort message rest hRead ih => exact (fill_eq_refill hShort hRead).trans ih
  | case4 window hShort kind message rest hKind hRead =>
    have hFill := fill_eq_refill hShort hRead
    rwa [refill, if_neg hKind] at hFill
  | case5 window hEnough =>
    have hCondition : ¬ (window.length < want ∧ window.store.ended = false) := hEnough
    rw [fill, length_store]
    dsimp only
    rw [if_neg hCondition]
    rfl

section Binds

variable {α β : Type} {checked : Checked α} {next : α → Checked β} {store after : Store} {value : α}

theorem bind_of_eq (hRun : checked store = .ok value after) :
    (checked >>= next) store = next value after := by
  simp only [bind, EStateM.bind, hRun]

/-- Two operations in a row are what a window does if each of them is. -/
theorem bind_image {action : Windowed α} {next' : α → Windowed β}
    (hRun : checked window.store = image (action window))
    (hNext : ∀ value after, action window = .ok value after →
      next value after.store = image (next' value after)) :
    (checked >>= next) window.store = image ((action >>= next') window) := by
  cases hAction : action window with
  | ok value after =>
    rw [hAction] at hRun
    have hBoth := hNext value after hAction
    simp only [bind, EStateM.bind, hRun, hAction, image, hBoth]
  | error fault after =>
    rw [hAction] at hRun
    simp only [bind, EStateM.bind, hRun, hAction, image]

end Binds

/-- The end of the range is put before the end of the bytes, and the beginning before that. -/
theorem peek_store (offset count : Nat) (window : Window) :
    peek offset count window.store = image (Window.peek offset count window) := by
  apply bind_image (fill_store (offset + count) window)
  intro _ after _
  have hLength := after.length_retained
  rw [bind_of_eq (length_store after), bind_of_eq (retained_store after),
    range_eq (Nat.min_le_right _ _) (by omega)]
  have hSlice : (after.retained.take (min (offset + count) after.length)).drop
      (min offset (min (offset + count) after.length)) = after.slice offset count := by
    rcases Nat.le_total (offset + count) after.length with hLong | hShort
    · rw [Nat.min_eq_left hLong, Nat.min_eq_left (Nat.le_add_right _ _), List.drop_take,
        Nat.add_sub_cancel_left, Window.slice_eq_take_drop]
    · rw [Nat.min_eq_right hShort, List.take_of_length_le (by omega), after.slice_eq_drop hShort]
      rcases Nat.le_total offset after.length with hBefore | hPast
      · rw [Nat.min_eq_left hBefore]
      · rw [Nat.min_eq_right hPast, List.drop_of_length_le (by omega),
          List.drop_of_length_le (by omega)]
  rw [hSlice]
  rfl

theorem tolerate_store (offset : Nat) (window : Window) :
    tolerate offset window.store = image (Window.tolerate offset window) := by
  rw [Window.tolerate_eq, tolerate, get_bind_apply]
  have hPolicy : window.store.config.policy = window.config.policy := rfl
  rw [hPolicy]
  cases window.config.policy <;> rfl

theorem peek_bind_eq {β : Type} (offset count : Nat) (next : List UInt8 → Windowed β)
    (window : Window) :
    (Window.peek offset count >>= next) window =
      (do Window.fill (offset + count); fun after : Window => next (after.slice offset count) after :
        Windowed β) window := by
  simp only [Window.peek, bind, EStateM.bind]
  cases Window.fill (offset + count) window <;> rfl

/-- The bytes of a list from one of them on. -/
theorem drop_eq_of_getElem? {bytes : List UInt8} {place : Nat} {lead : UInt8}
    (hLead : bytes[place]? = some lead) : bytes.drop place = lead :: bytes.drop (place + 1) := by
  obtain ⟨hPlace, rfl⟩ := List.getElem?_eq_some_iff.1 hLead
  exact List.drop_eq_getElem_cons hPlace

/-- A byte, with those that are looked at after it. -/
theorem cons_slice_eq (window : Window) {place width : Nat} {lead : UInt8}
    (hLead : window.retained[place]? = some lead) (hWidth : width ≠ 0) :
    lead :: window.slice (place + 1) (width - 1) =
      (window.retained.take (place + width)).drop place := by
  obtain ⟨more, rfl⟩ := Nat.exists_eq_succ_of_ne_zero hWidth
  rw [Window.slice_eq_take_drop, List.drop_take, Nat.add_sub_cancel_left,
    drop_eq_of_getElem? hLead]
  rfl

/-- Once enough is retained, or the stream has ended, a sequence is told from its bytes. -/
theorem sequence_store (window : Window) {place : Nat} {lead : UInt8}
    (hLead : window.retained[place]? = some lead) (hWidth : Utf8.leadWidth lead ≠ 0) :
    sequence place (Utf8.leadWidth lead) window.store =
      .ok (.of lead (window.slice (place + 1) (Utf8.leadWidth lead - 1))) window.store := by
  have hLength := window.length_retained
  have hPlace : place < window.retained.length := (List.getElem?_eq_some_iff.1 hLead).1
  rw [sequence, bind_of_eq (retained_store window), bind_of_eq (length_store window)]
  by_cases hShort : window.length < place + Utf8.leadWidth lead
  · have hTail : window.slice (place + 1) (Utf8.leadWidth lead - 1) =
        window.retained.drop (place + 1) :=
      window.slice_eq_drop (by omega)
    have hFewer : (window.retained.drop (place + 1)).length + 1 < Utf8.leadWidth lead := by
      rw [List.length_drop]
      omega
    rw [if_pos hShort, bind_of_eq (range_eq hPlace (Nat.le_refl _)), List.take_length, hTail,
      Utf8.Segment.of_of_length_lt hWidth hFewer]
    rfl
  · have hEnough : (window.slice (place + 1) (Utf8.leadWidth lead - 1)).length + 1 =
        Utf8.leadWidth lead := by
      rw [Window.slice_eq_take_drop, List.length_take, List.length_drop]
      omega
    rw [if_neg hShort, bind_of_eq (range_eq (Nat.le_add_right _ _) (by omega)),
      Utf8.Segment.of_of_length_eq hEnough, cons_slice_eq window hLead hWidth]
    cases Utf8.charOf? ((window.retained.take (place + Utf8.leadWidth lead)).drop place) <;> rfl

theorem segment_store (place : Nat) (window : Window) :
    segment place window.store = image (Window.segment place window) := by
  rw [Window.segment, peek_bind_eq]
  apply bind_image (fill_store (place + 1) window)
  intro _ middle hMiddle
  have hFilled := ((Window.leads_fill_draws _ _).of_ok hMiddle).2
  have hLength := middle.length_retained
  have hSlice := middle.slice_eq_take_drop place 1
  rw [bind_of_eq (length_store middle)]
  by_cases hEnd : middle.length ≤ place
  · rw [List.drop_of_length_le (by omega)] at hSlice
    rw [if_pos hEnd, hSlice]
    rfl
  obtain ⟨lead, hLead⟩ : ∃ lead, middle.retained[place]? = some lead :=
    ⟨_, List.getElem?_eq_getElem (by omega)⟩
  rw [drop_eq_of_getElem? hLead] at hSlice
  rw [if_neg hEnd, bind_of_eq (retained_store middle), bind_of_eq (index_eq hLead), hSlice]
  dsimp only [List.take_succ_cons]
  rw [peek_bind_eq]
  by_cases hWidth : Utf8.leadWidth lead = 0
  · rw [if_pos hWidth, hWidth, Nat.zero_sub, Nat.add_zero]
    simp only [bind, EStateM.bind]
    rw [Window.fill_of_filled hFilled]
    simp only [Utf8.Segment.of, hWidth]
    rfl
  · have hWant : place + 1 + (Utf8.leadWidth lead - 1) = place + Utf8.leadWidth lead := by omega
    rw [if_neg hWidth, hWant]
    apply bind_image (fill_store _ middle)
    intro _ after hAfter
    -- What has been retained is kept, the first byte of the sequence with it.
    have hKeeps : after.retained[place]? = some lead := by
      obtain ⟨hDraws, -⟩ := (Window.leads_fill_draws _ _).of_ok hAfter
      obtain ⟨more, hMore⟩ := hDraws.keeps_retained
      rw [← hMore, List.getElem?_append_left (by omega)]
      exact hLead
    rw [bind_of_eq (sequence_store after hKeeps hWidth)]
    rfl

/-- What is made of the result of two operations can be made of the second one. -/
theorem map_bind_apply {α β γ : Type} {action : Windowed α} {next : α → Windowed β} (made : β → γ)
    (window : Window) :
    (made <$> (action >>= next)) window = (action >>= fun value => made <$> next value) window := by
  simp only [bind, EStateM.bind, Functor.map, EStateM.map]
  cases action window <;> rfl

/-- Decoding ends as far from where it began as the bytes are long that it spans. -/
theorem decodeFrom_store (place count : Nat) (window : Window) :
    decodeFrom place count window.store =
      image (((fun decoded : Decoded => (decoded.chars, place + decoded.length)) <$>
        Window.decode place count) window) := by
  induction count generalizing place window with
  | zero => rfl
  | succ count ih =>
    have hCons (c : Char) (width : Nat) (after : Window) :
        (do
              let rest ← decodeFrom (place + width) count
              return (c :: rest.1, rest.2)) after.store =
          image (((fun decoded : Decoded => (decoded.chars, place + decoded.length)) <$>
            (do return (← Window.decode (place + width) count).cons c width : Windowed Decoded))
              after) := by
      have hRest := ih (place + width) after
      simp only [Functor.map, EStateM.map] at hRest
      simp only [bind, EStateM.bind, Functor.map, EStateM.map, hRest]
      cases Window.decode (place + width) count after with
      | error fault last => rfl
      | ok decoded last =>
        change EStateM.Result.ok (c :: decoded.chars, place + width + decoded.length) last.store =
          .ok (c :: decoded.chars, place + (width + decoded.length)) last.store
        rw [Nat.add_assoc]
    rw [decodeFrom, Window.decode, map_bind_apply]
    apply bind_image (segment_store place window)
    intro found after _
    cases found with
    | none => rfl
    | some segment =>
      cases segment with
      | char c width => exact hCons c width after
      | malformed =>
        dsimp only
        rw [map_bind_apply]
        apply bind_image (tolerate_store place after)
        exact fun _ last _ => hCons Utf8.replacement 1 last
      | truncated =>
        dsimp only
        rw [map_bind_apply]
        apply bind_image (tolerate_store place after)
        exact fun _ last _ => rfl

theorem decode_store (offset count : Nat) (window : Window) :
    decode offset count window.store = image (Window.decode offset count window) := by
  have hRun := decodeFrom_store offset count window
  rw [decode]
  simp only [bind, EStateM.bind, hRun, Functor.map, EStateM.map]
  cases Window.decode offset count window with
  | error fault after => rfl
  | ok decoded after =>
    have hLength : difference (offset + decoded.length) offset after.store =
        .ok (offset + decoded.length - offset) after.store := difference_eq (Nat.le_add_right _ _)
    simp only [image, hLength, Nat.add_sub_cancel_left]
    rfl

theorem completeLengthFrom_eq {bytes : List UInt8} {passed steps : Nat} (store : Store)
    (hSteps : passed + steps ≤ bytes.length) :
    completeLengthFrom bytes (passed + 1) steps store =
      .ok (bytes.length -
        Utf8.unfinishedFrom (passed + 1) ((bytes.reverse.drop passed).take steps)) store := by
  induction steps generalizing passed with
  | zero => rfl
  | succ steps ih =>
    have hPlace : passed < bytes.reverse.length := by
      rw [List.length_reverse]
      omega
    obtain ⟨byte, hByte⟩ : ∃ byte, bytes.reverse[passed]? = some byte :=
      ⟨_, List.getElem?_eq_getElem hPlace⟩
    have hIndex : bytes[bytes.length - (passed + 1)]? = some byte := by
      rw [← hByte, List.getElem?_reverse (by omega)]
      congr 1
      omega
    rw [completeLengthFrom, bind_of_eq (difference_eq (by omega)), bind_of_eq (index_eq hIndex),
      drop_eq_of_getElem? hByte, List.take_succ_cons, Utf8.unfinishedFrom]
    split
    · exact ih (by omega)
    · split
      · exact difference_eq (by omega)
      · rfl

theorem completeLength_eq (bytes : List UInt8) (store : Store) :
    completeLength bytes store = .ok (Utf8.completeLength bytes) store := by
  have hSteps : 0 + min bytes.length 4 ≤ bytes.length := by omega
  have hTake : bytes.reverse.take (min bytes.length 4) = bytes.reverse.take 4 := by
    rw [← List.length_reverse, Nat.min_comm, ← List.take_eq_take_min]
  rw [completeLength, completeLengthFrom_eq store hSteps, List.drop_zero, hTake]
  rfl

theorem compact_store (window : Window) :
    compact window.store = .ok () window.compact.store := by
  have hHead : window.store.head ≤ window.store.bytes.length := window.head_le
  have hSize : window.store.bytes.length = window.bytes.size := Array.length_toList
  rw [compact, get_bind_apply, Window.compact, hSize]
  by_cases hFull : window.config.chunkSize ≤ window.head ∧ window.bytes.size ≤ window.head * 2
  · have hKept : (window.store.bytes.take window.bytes.size).drop window.store.head =
        (window.bytes.extract window.head).toList := by
      rw [Array.toList_extract, List.extract_eq_take_drop, List.take_of_length_le (Nat.le_of_eq hSize)]
      have hRest : (window.bytes.toList.drop window.head).length =
          window.bytes.toList.length - window.head := List.length_drop
      rw [Array.length_toList] at hRest
      exact (List.take_of_length_le (Nat.le_of_eq hRest)).symm
    have hCondition : window.store.config.chunkSize ≤ window.store.head ∧
        window.bytes.size ≤ window.store.head * 2 := hFull
    rw [if_pos hCondition, if_pos hFull,
      bind_of_eq (range_eq (hSize ▸ hHead) (Nat.le_of_eq hSize.symm)), hKept]
    rfl
  · have hCondition : ¬ (window.store.config.chunkSize ≤ window.store.head ∧
        window.bytes.size ≤ window.store.head * 2) := hFull
    rw [if_neg hCondition, if_neg hFull]
    rfl

theorem discard_store (count : Nat) (window : Window) :
    discard count window.store = .ok () (window.discard count).store := by
  rw [discard, get_bind_apply, bind_of_eq (length_store window), Window.discard]
  by_cases hGone : min count window.length = 0
  · rw [if_pos hGone, if_pos hGone]
    rfl
  · have hHead := window.head_add_le count
    have hSize : window.store.bytes.length = window.bytes.size := Array.length_toList
    have hSlice : (window.store.bytes.take (window.store.head + min count window.length)).drop
        window.store.head = window.slice 0 (min count window.length) := by
      rw [Window.slice_eq_take_drop, Window.retained_eq_drop, List.drop_zero, List.drop_take,
        Nat.add_sub_cancel_left]
      rfl
    have hRange : range window.store.bytes window.store.head
          (window.store.head + min count window.length) window.store =
        .ok (window.slice 0 (min count window.length)) window.store := by
      rw [range_eq (Nat.le_add_right _ _) (hSize ▸ hHead), hSlice]
    have hLocated : Utf8.completeLength (window.carry ++ window.slice 0 (min count window.length)) ≤
        (window.carry ++ window.slice 0 (min count window.length)).length := Nat.sub_le _ _
    have hCarry : window.store.carry = window.carry := rfl
    rw [if_neg hGone, if_neg hGone, bind_of_eq hRange]
    dsimp only
    rw [hCarry, bind_of_eq (completeLength_eq _ _), bind_of_eq (range_eq (Nat.zero_le _) hLocated),
      bind_of_eq (range_eq hLocated (Nat.le_refl _)), List.drop_zero, List.take_length]
    refine Eq.trans ?_ (compact_store _)
    rfl

end Checked

end StreamMatch
