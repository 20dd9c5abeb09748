import StreamMatch.Proofs.Events
import StreamMatch.Proofs.Scanning

/-!
How often a loop is gone through. The loops of reading are recursive functions here; each of them is
a loop with a body that is run again and again until it ends the loop (`LoopRuns`). Every pass but the
last takes at least a byte, or a read of the source, from what is left of it, so that the number of
passes is bounded by what the stream or the source still has.
-/

namespace StreamMatch

/-- Code points, and others behind them. -/
def Decoded.append (decoded rest : Decoded) : Decoded :=
  ⟨decoded.chars ++ rest.chars, decoded.length + rest.length⟩

namespace Decoded

theorem append_nil (decoded : Decoded) : decoded.append nil = decoded := by
  simp [append, nil]

/-- A code point can be put behind those before it, or in front of those behind it. -/
theorem append_cons (decoded rest : Decoded) (c : Char) (width : Nat) :
    (decoded.append (nil.cons c width)).append rest = decoded.append (rest.cons c width) := by
  simp [append, cons, nil, Nat.add_assoc]

end Decoded

section Loops

variable {ε σ α β : Type}

/-- A loop whose body is gone through so many times, with what it comes to. A pass says where to go
on or ends the loop; one that halts is the last. -/
inductive LoopRuns (body : α → EStateM ε σ (α ⊕ β)) :
    α → σ → Nat → EStateM.Result ε σ β → Prop where
  | ends {place : α} {before after : σ} {result : β}
      (hPass : body place before = .ok (.inr result) after) :
      LoopRuns body place before 1 (.ok result after)
  | halts {place : α} {before after : σ} {problem : ε}
      (hPass : body place before = .error problem after) :
      LoopRuns body place before 1 (.error problem after)
  | next {place further : α} {before after : σ} {passes : Nat} {run : EStateM.Result ε σ β}
      (hPass : body place before = .ok (.inl further) after)
      (hRest : LoopRuns body further after passes run) :
      LoopRuns body place before (passes + 1) run

variable {body : α → EStateM ε σ (α ⊕ β)} {place : α} {before : σ} {passes : Nat}
  {run : EStateM.Result ε σ β}

/-- A loop ends if each pass that goes on leaves less to do. -/
theorem exists_passes (left : α → σ → Nat) (kept : α → σ → Prop)
    (hBody : ∀ place before, kept place before →
      Leads (body place) before
        (fun step after => ∀ further, step = .inl further →
          kept further after ∧ left further after < left place before)
        (fun _ _ => True))
    (hKept : kept place before) :
    ∃ passes run, passes ≤ left place before + 1 ∧ LoopRuns body place before passes run := by
  generalize hLeft : left place before = count
  induction count using Nat.strongRecOn generalizing place before with
  | ind count ih =>
    have hPass := hBody place before hKept
    cases hStep : body place before with
    | error problem after => exact ⟨1, _, Nat.le_add_left 1 count, .halts hStep⟩
    | ok step after =>
      cases step with
      | inr result => exact ⟨1, _, Nat.le_add_left 1 count, .ends hStep⟩
      | inl further =>
        obtain ⟨hFurther, hLess⟩ := hPass.of_ok hStep further rfl
        obtain ⟨passes, run, hPasses, hRest⟩ := ih _ (hLeft ▸ hLess) hFurther rfl
        exact ⟨passes + 1, run, by omega, .next hStep hRest⟩

/-- A function that runs the body once, and then goes on or returns, is the loop. -/
def Unrolls (body : α → EStateM ε σ (α ⊕ β)) (loop : α → EStateM ε σ β) : Prop :=
  ∀ place, loop place = do
    match ← body place with
    | .inl further => loop further
    | .inr result => return result

theorem Unrolls.eq_of_passes {loop : α → EStateM ε σ β} (hLoop : Unrolls body loop)
    (hPasses : LoopRuns body place before passes run) : loop place before = run := by
  induction hPasses with
  | ends hPass =>
    rw [hLoop]
    simp only [bind, EStateM.bind, hPass]
    rfl
  | halts hPass =>
    rw [hLoop]
    simp only [bind, EStateM.bind, hPass]
  | next hPass _ ih =>
    rw [hLoop]
    simp only [bind, EStateM.bind, hPass]
    exact ih

/-- A function that is the loop comes to its result in so many passes. -/
theorem Unrolls.exists_passes {loop : α → EStateM ε σ β} (hLoop : Unrolls body loop)
    (left : α → σ → Nat) (kept : α → σ → Prop)
    (hBody : ∀ place before, kept place before →
      Leads (body place) before
        (fun step after => ∀ further, step = .inl further →
          kept further after ∧ left further after < left place before)
        (fun _ _ => True))
    (place : α) (before : σ) (hKept : kept place before) :
    ∃ passes, passes ≤ left place before + 1 ∧
      LoopRuns body place before passes (loop place before) := by
  obtain ⟨passes, run, hBound, hPasses⟩ := StreamMatch.exists_passes left kept hBody hKept
  rw [hLoop.eq_of_passes hPasses]
  exact ⟨passes, hBound, hPasses⟩

end Loops

namespace Window

/-- Reads the source once, if too few bytes are retained. -/
def fillPass (want : Nat) : Unit → Windowed (Unit ⊕ Unit) := fun _ window =>
  if window.Filled want then .ok (.inr ()) window
  else
    let (delivery, rest) := window.source.read window.config.chunkSize
    let after := window.receive delivery rest
    match delivery with
    | .bytes [] => .ok (.inr ()) after
    | .bytes (_ :: _) => .ok (.inl ()) after
    | .failed kind message =>
      if kind = .interrupted then .ok (.inl ()) after else .error (.io kind message) after

theorem unrolls_fill (want : Nat) : Unrolls (fillPass want) fun _ => fill want := by
  intro _
  funext window
  simp only [bind, EStateM.bind, fillPass]
  by_cases hFilled : window.Filled want
  · rw [fill_of_filled hFilled, if_pos hFilled]
    rfl
  · rw [if_neg hFilled]
    cases hRead : window.source.read window.config.chunkSize with
    | mk delivery rest =>
      rw [fill_eq_refill hFilled hRead]
      cases delivery with
      | bytes delivered => cases delivered <;> rfl
      | failed kind message => cases kind <;> rfl

/-- Each read of the source leaves less of it. -/
theorem leads_fillPass (want : Nat) (window : Window) :
    Leads (fillPass want ()) window
      (fun step after => ∀ further, step = .inl further →
        True ∧ after.source.size < window.source.size)
      (fun _ _ => True) := by
  simp only [Leads, fillPass]
  by_cases hFilled : window.Filled want
  · simp [hFilled]
  · rw [if_neg hFilled]
    cases hRead : window.source.read window.config.chunkSize with
    | mk delivery rest =>
      have hLess (hDelivery : delivery ≠ .bytes []) :
          (window.receive delivery rest).source.size < window.source.size := by
        rw [source_receive]
        exact Source.size_read_lt window.config.chunkSize_pos hRead hDelivery
      cases delivery with
      | bytes delivered =>
        cases delivered with
        | nil => simp
        | cons byte more => exact fun _ _ => ⟨trivial, hLess (by simp)⟩
      | failed kind message =>
        dsimp only
        split
        · next hRun =>
          intro _ _
          split at hRun
          · cases hRun
            exact ⟨trivial, hLess (by simp)⟩
          · cases hRun
        · trivial

theorem exists_passes_fill (want : Nat) (window : Window) :
    ∃ passes, passes ≤ window.source.size + 1 ∧
      LoopRuns (fillPass want) () window passes (fill want window) := by
  exact (unrolls_fill want).exists_passes (fun _ window => window.source.size) (fun _ _ => True)
    (fun _ before _ => leads_fillPass want before) () window trivial

/-- Decodes one code point more, behind those that have been found. -/
def decodePass (offset count : Nat) (found : Decoded) : Windowed (Decoded ⊕ Decoded) := do
  if found.chars.length < count then
    match ← segment (offset + found.length) with
    | none => return .inr found
    | some (.char c width) => return .inl (found.append (Decoded.nil.cons c width))
    | some .malformed =>
      tolerate (offset + found.length)
      return .inl (found.append (Decoded.nil.cons Utf8.replacement 1))
    | some .truncated =>
      tolerate (offset + found.length)
      return .inr (found.append (Decoded.nil.cons Utf8.replacement 1))
  else return .inr found

theorem unrolls_decode (offset count : Nat) :
    Unrolls (decodePass offset count) fun found =>
      found.append <$> decode (offset + found.length) (count - found.chars.length) := by
  intro found
  dsimp only
  rw [decodePass]
  split
  · next hFewer =>
    obtain ⟨more, hMore⟩ : ∃ more, count - found.chars.length = more + 1 :=
      ⟨count - found.chars.length - 1, by omega⟩
    have hNext (c : Char) (width : Nat) :
        (fun rest : Decoded => found.append (rest.cons c width)) <$>
            decode (offset + found.length + width) more =
          (found.append (Decoded.nil.cons c width)).append <$>
            decode (offset + (found.append (Decoded.nil.cons c width)).length)
              (count - (found.append (Decoded.nil.cons c width)).chars.length) := by
      have hLength : offset + (found.append (Decoded.nil.cons c width)).length =
          offset + found.length + width := by
        simp only [Decoded.append, Decoded.cons, Decoded.nil, Nat.add_zero, Nat.add_assoc]
      have hCount : count - (found.append (Decoded.nil.cons c width)).chars.length = more := by
        simp only [Decoded.append, Decoded.cons, Decoded.nil, List.length_append,
          List.length_singleton]
        omega
      rw [hLength, hCount]
      congr 1
      funext rest
      exact (found.append_cons rest c width).symm
    simp only [hMore, decode, map_bind, bind_assoc]
    congr 1
    funext segment
    cases segment with
    | none => simp [Decoded.append_nil]
    | some segment =>
      cases segment with
      | char c width => simp [hNext]
      | malformed => simp [hNext]
      | truncated => simp
  · next hEnough =>
    rw [Nat.sub_eq_zero_of_le (Nat.not_lt.1 hEnough), decode, map_pure, Decoded.append_nil,
      pure_bind]

/-- A pass that finds a code point finds it in what is ahead. -/
theorem leads_decodePass (offset count : Nat) (found : Decoded) (window : Window) :
    Leads (decodePass offset count found) window
      (fun step after => ∀ further, step = .inl further → True ∧
        after.ahead.length - (offset + further.length) <
          window.ahead.length - (offset + found.length))
      (fun _ _ => True) := by
  rw [decodePass]
  split
  · apply (leads_segment (offset + found.length) window).bind (fun _ _ _ => trivial)
    intro segment after hSegment
    obtain ⟨hAfter, hFront, hLead, -⟩ := hSegment
    have hLength := after.length_le_length_ahead
    rw [hAfter.ahead_eq] at hLength
    cases segment with
    | none => simp
    | some segment =>
      have hLess {width : Nat} (c : Char) (hWidth : 0 < width) :
          after.ahead.length - (offset + (found.append (Decoded.nil.cons c width)).length) <
            window.ahead.length - (offset + found.length) := by
        have hOne := hLead rfl
        simp only [hAfter.ahead_eq, Decoded.append, Decoded.cons, Decoded.nil]
        omega
      cases segment with
      | char c width =>
        have hWidth : 0 < width := by
          cases hRest : window.ahead.drop (offset + found.length) with
          | nil =>
            rw [hRest] at hFront
            cases hFront
          | cons lead rest =>
            rw [hRest] at hFront
            exact (Utf8.Segment.of_eq_char (Option.some.inj hFront).symm).2.1
        intro further hFurther
        cases hFurther
        exact ⟨trivial, hLess c hWidth⟩
      | malformed =>
        apply (leads_tolerate (offset + found.length) after).bind (fun _ _ _ => trivial)
        intro _ last hLast further hFurther
        obtain ⟨rfl, -⟩ := hLast
        cases hFurther
        exact ⟨trivial, hLess _ Nat.zero_lt_one⟩
      | truncated =>
        apply (leads_tolerate (offset + found.length) after).bind (fun _ _ _ => trivial)
        intro _ last _ further hFurther
        cases hFurther
  · simp

theorem exists_passes_decode (offset count : Nat) (window : Window) :
    ∃ passes, passes ≤ window.ahead.length - offset + 1 ∧
      LoopRuns (decodePass offset count) .nil window passes (decode offset count window) := by
  obtain ⟨passes, hBound, hPasses⟩ :=
    (unrolls_decode offset count).exists_passes
      (fun found window => window.ahead.length - (offset + found.length)) (fun _ _ => True)
      (fun found before _ => leads_decodePass offset count found before) .nil window trivial
  refine ⟨passes, hBound, ?_⟩
  have hNil : Decoded.nil.append = id := by
    funext rest
    simp [Decoded.append, Decoded.nil]
  simp only [hNil, id_map] at hPasses
  exact hPasses

end Window

namespace UnitRun

open Reading

/-- Takes accepted bytes from one chunk more, behind those that have been taken. -/
def bytesPass (run : ByteRun) (taken : List UInt8) : Reading (List UInt8 ⊕ List UInt8) := do
  if taken.length < run.most then
    let want := min (run.most - taken.length) scanChunk
    let accepted := (← peek want).takeWhile run.accepts
    let _ ← advance accepted.length
    if accepted.length < want then return .inr (taken ++ accepted)
    else return .inl (taken ++ accepted)
  else return .inr taken

theorem unrolls_takeBytes (run : ByteRun) :
    Unrolls (bytesPass run) fun taken => (taken ++ ·) <$> takeBytes run taken.length := by
  intro taken
  dsimp only
  rw [bytesPass, takeBytes]
  split
  · simp only [map_bind, bind_assoc]
    congr 1
    funext bytes
    congr 1
    funext _
    split <;> simp
  · simp

/-- A pass that does not end the loop has found a whole chunk. -/
theorem leads_bytesPass (run : ByteRun) (taken : List UInt8) {reader : Reader}
    {stream : List UInt8} (hOver : reader.window.Over stream) :
    Leads (bytesPass run taken) reader
      (fun step after => ∀ further, step = .inl further → after.window.Over stream ∧
        stream.length - after.cursor.position < stream.length - reader.cursor.position)
      (fun _ _ => True) := by
  rw [bytesPass]
  split
  · next hFewer =>
    apply (observes_peek _ reader stream hOver).bind (fun _ _ _ => trivial)
    intro bytes middle hMiddle
    obtain ⟨window, moved, rfl, hWindow, -, hLook, -⟩ := hMiddle
    cases hLook
    have hMiddle := hWindow.lies_over hOver
    apply (observes_advance _ (reader.further window 0) stream hMiddle).bind (fun _ _ _ => trivial)
    intro count after hAfter
    obtain ⟨later, moved, rfl, hLater, -, hLook, -⟩ := hAfter
    cases hLook
    split
    · intro further hFurther
      cases hFurther
    · next hAll =>
      intro further _
      have hChunk : 0 < scanChunk := by decide
      have hPrefix := (List.takeWhile_prefix run.accepts (l := List.take
        (min (run.most - taken.length) scanChunk) (stream.drop reader.cursor.position))).length_le
      rw [List.length_take, List.length_drop] at hPrefix
      refine ⟨hLater.lies_over hMiddle, ?_⟩
      simp only [Reader.further, List.length_take, List.length_drop]
      omega
  · intro further hFurther
    cases hFurther

theorem exists_passes_takeBytes (run : ByteRun) {reader : Reader} {stream : List UInt8}
    (hOver : reader.window.Over stream) :
    ∃ passes, passes ≤ stream.length - reader.cursor.position + 1 ∧
      LoopRuns (bytesPass run) [] reader passes (takeBytes run 0 reader) := by
  obtain ⟨passes, hBound, hPasses⟩ := (unrolls_takeBytes run).exists_passes
    (fun _ reader => stream.length - reader.cursor.position)
    (fun _ reader => reader.window.Over stream) (fun taken _ => leads_bytesPass run taken) []
    reader hOver
  refine ⟨passes, hBound, ?_⟩
  simp only [List.nil_append, List.length_nil, id_map'] at hPasses
  exact hPasses

/-- Takes an accepted code point more, after so many of them with these bytes. -/
def charsPass (run : CharRun) (taken : Nat × List UInt8) :
    Reading ((Nat × List UInt8) ⊕ (Nat × List UInt8)) := do
  if taken.1 < run.most then
    let next ← peekChars 1
    match next.chars with
    | [] => return .inr taken
    | c :: _ =>
      if run.accepts c then
        let bytes ← read next.length
        return .inl (taken.1 + 1, taken.2 ++ bytes)
      else return .inr taken
  else return .inr taken

theorem unrolls_takeChars (run : CharRun) :
    Unrolls (charsPass run) fun taken =>
      (fun found => (taken.1 + found.1, taken.2 ++ found.2)) <$>
        takeChars run (run.most - taken.1) := by
  intro taken
  dsimp only
  rw [charsPass]
  split
  · next hFewer =>
    obtain ⟨more, hMore⟩ : ∃ more, run.most - taken.1 = more + 1 :=
      ⟨run.most - taken.1 - 1, by omega⟩
    simp only [hMore, takeChars, map_bind, bind_assoc]
    congr 1
    funext next
    cases next.chars with
    | nil => simp
    | cons c rest =>
      dsimp only
      split
      · have hCount : run.most - (taken.1 + 1) = more := by omega
        simp [hCount, Nat.add_assoc, Nat.add_comm 1]
      · simp
  · next hEnough =>
    rw [Nat.sub_eq_zero_of_le (Nat.not_lt.1 hEnough)]
    simp [takeChars]

/-- A pass that does not end the loop has found a code point. -/
theorem leads_charsPass (run : CharRun) (taken : Nat × List UInt8) {reader : Reader}
    {stream : List UInt8} (hOver : reader.window.Over stream) :
    Leads (charsPass run taken) reader
      (fun step after => ∀ further, step = .inl further → after.window.Over stream ∧
        stream.length - after.cursor.position < stream.length - reader.cursor.position)
      (fun _ _ => True) := by
  rw [charsPass]
  split
  · apply (observes_peekChars 1 reader stream hOver).bind (fun _ _ _ => trivial)
    intro next middle hMiddle
    obtain ⟨window, moved, rfl, hWindow, -, hLook, -⟩ := hMiddle
    have hMiddle := hWindow.lies_over hOver
    cases hChars : next.chars with
    | nil => simp
    | cons c rest =>
      dsimp only
      split
      · apply (observes_read _ (reader.further window moved) stream hMiddle).bind
          (fun _ _ _ => trivial)
        intro bytes after hAfter further _
        obtain ⟨later, more, rfl, hLater, -, hRead, -⟩ := hAfter
        dsimp only at hLook
        cases hDecode : Utf8.decode reader.window.config.policy reader.cursor.position 1
            (stream.drop reader.cursor.position) with
        | error fault =>
          rw [hDecode] at hLook
          cases hLook
        | ok decoded =>
          rw [hDecode] at hLook
          cases hLook
          cases hRead
          have hSome : next.chars ≠ [] := by simp [hChars]
          have hLength := Utf8.length_pos_of_decode hDecode hSome
          have hWithin := Utf8.length_le_of_decode hDecode
          refine ⟨hLater.lies_over hMiddle, ?_⟩
          simp only [Reader.further, List.length_take, List.length_drop] at hWithin ⊢
          omega
      · simp
  · simp

theorem exists_passes_takeChars (run : CharRun) {reader : Reader} {stream : List UInt8}
    (hOver : reader.window.Over stream) :
    ∃ passes, passes ≤ stream.length - reader.cursor.position + 1 ∧
      LoopRuns (charsPass run) (0, []) reader passes (takeChars run run.most reader) := by
  obtain ⟨passes, hBound, hPasses⟩ := (unrolls_takeChars run).exists_passes
    (fun _ reader => stream.length - reader.cursor.position)
    (fun _ reader => reader.window.Over stream) (fun taken _ => leads_charsPass run taken) (0, [])
    reader hOver
  refine ⟨passes, hBound, ?_⟩
  simp only [List.nil_append, Nat.zero_add, Nat.sub_zero, id_map'] at hPasses
  exact hPasses

end UnitRun

end StreamMatch
