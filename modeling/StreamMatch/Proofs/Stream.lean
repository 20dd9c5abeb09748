import StreamMatch.Proofs.Run
import StreamMatch.Window.Lemmas

/-!
The stream behind a window. A source stands for the bytes that it will deliver before it ends, and
the bytes retained by a window, with those its source will deliver, are what lies ahead of it. A
read of the source leaves what lies ahead as it is (`leads_fill`), and a discard takes from its
front (`ahead_discard`): both keep to one stream (`Over`).
-/

namespace StreamMatch

namespace Source

/-- The bytes that these pieces deliver before the source ends. A failure delivers nothing, and an
empty piece is taken for the end, whatever stands after it. -/
def contentOf : List Piece → List UInt8
  | [] => []
  | .data [] :: _ => []
  | .data (byte :: more) :: rest => byte :: more ++ contentOf rest
  | .failure _ _ :: rest => contentOf rest

/-- The bytes that a source delivers before it ends. -/
def content (source : Source) : List UInt8 :=
  contentOf source.pieces

/-- No read fails for good: the only failures in line are interrupted reads. -/
def Calm (source : Source) : Prop :=
  ∀ kind message, .failure kind message ∈ source.pieces → kind = .interrupted

/-- The failures in line that surface, in this order. -/
def failuresOf : List Piece → List (IoKind × String)
  | [] => []
  | .data _ :: rest => failuresOf rest
  | .failure .interrupted _ :: rest => failuresOf rest
  | .failure kind message :: rest => (kind, message) :: failuresOf rest

def failures (source : Source) : List (IoKind × String) :=
  failuresOf source.pieces

theorem contentOf_data {bytes : List UInt8} {rest : List Piece} (hBytes : bytes ≠ []) :
    contentOf (.data bytes :: rest) = bytes ++ contentOf rest := by
  cases bytes with
  | nil => exact absurd rfl hBytes
  | cons byte more => rfl

theorem length_content_le_size (source : Source) : source.content.length ≤ source.size := by
  obtain ⟨pieces⟩ := source
  simp only [content, size]
  fun_induction contentOf pieces with
  | case1 => simp
  | case2 rest => simp
  | case3 byte more rest ih =>
    simp only [List.length_append, Source.readsOf]
    omega
  | case4 kind message rest ih =>
    simp only [Source.readsOf]
    omega

/-- A read that delivers no bytes is the end of the content. -/
theorem content_of_read_nil {source rest : Source} {limit : Nat} (hLimit : 0 < limit)
    (hRead : source.read limit = (.bytes [], rest)) : source.content = [] := by
  cases delivers_of_read hRead with
  | ended => rfl
  | whole _ more hLength => rfl
  | part _ left more hLength hLeft => exact absurd hLength (Nat.ne_of_lt hLimit)

/-- A read that delivers bytes takes them from the front of the content. -/
theorem content_of_read_bytes {source rest : Source} {limit : Nat} {delivered : List UInt8}
    (hDelivered : delivered ≠ []) (hRead : source.read limit = (.bytes delivered, rest)) :
    source.content = delivered ++ rest.content := by
  cases delivers_of_read hRead with
  | ended => exact absurd rfl hDelivered
  | whole _ more hLength => exact contentOf_data hDelivered
  | part _ left more hLength hLeft =>
    simp only [content]
    rw [contentOf_data (List.append_ne_nil_of_left_ne_nil hDelivered _), contentOf_data hLeft,
      List.append_assoc]

/-- A read that fails takes nothing from the content. -/
theorem content_of_read_failed {source rest : Source} {limit : Nat} {kind : IoKind}
    {message : String} (hRead : source.read limit = (.failed kind message, rest)) :
    source.content = rest.content := by
  cases delivers_of_read hRead with
  | failed _ _ more => rfl

theorem failuresOf_surfacing {kind : IoKind} (hKind : kind ≠ .interrupted) (message : String)
    (rest : List Piece) :
    failuresOf (.failure kind message :: rest) = (kind, message) :: failuresOf rest := by
  cases kind <;> first | rfl | exact absurd rfl hKind

/-- A source is calm if no failure in line surfaces. -/
theorem calm_iff (source : Source) : source.Calm ↔ source.failures = [] := by
  obtain ⟨pieces⟩ := source
  simp only [Calm, failures]
  fun_induction failuresOf pieces with
  | case1 => simp
  | case2 bytes rest ih => simpa using ih
  | case3 message rest ih =>
    rw [← ih]
    constructor
    · exact fun hCalm kind message hMem => hCalm kind message (List.mem_cons_of_mem _ hMem)
    · rintro hCalm kind message (_ | ⟨_, hMem⟩)
      · rfl
      · exact hCalm kind message hMem
  | case4 kind message rest hKind ih =>
    constructor
    · intro hCalm
      exact absurd (hCalm kind message List.mem_cons_self) (by simpa using hKind)
    · intro hNone
      cases hNone

section Reads

variable {source rest : Source} {limit : Nat}

/-- A read that delivers bytes, or none at the end, has nothing to do with failures. -/
theorem failures_of_read_bytes {delivered : List UInt8}
    (hRead : source.read limit = (.bytes delivered, rest)) : rest.failures = source.failures := by
  cases delivers_of_read hRead with
  | ended => rfl
  | whole _ more hLength => rfl
  | part _ left more hLength hLeft => rfl

theorem failures_of_read_interrupted {message : String}
    (hRead : source.read limit = (.failed .interrupted message, rest)) :
    rest.failures = source.failures := by
  cases delivers_of_read hRead with
  | failed _ _ more => rfl

/-- A failure that surfaces is the first of those in line. -/
theorem failures_of_read_failed {kind : IoKind} {message : String} (hKind : kind ≠ .interrupted)
    (hRead : source.read limit = (.failed kind message, rest)) :
    source.failures = (kind, message) :: rest.failures := by
  cases delivers_of_read hRead with
  | failed _ _ more => exact failuresOf_surfacing hKind message more

/-- A read puts no failure in line. -/
theorem failures_of_read {delivery : Delivery} (hRead : source.read limit = (delivery, rest)) :
    rest.failures <:+ source.failures := by
  cases delivery with
  | bytes delivered =>
    exact failures_of_read_bytes hRead ▸ List.suffix_refl _
  | failed kind message =>
    by_cases hKind : kind = .interrupted
    · subst hKind
      exact failures_of_read_interrupted hRead ▸ List.suffix_refl _
    · rw [failures_of_read_failed hKind hRead]
      exact List.suffix_cons _ _

end Reads

end Source

namespace Window

/-- The bytes of the stream from the start of the window on: those retained, and those that the
source will deliver. -/
def ahead (window : Window) : List UInt8 :=
  window.retained ++ if window.ended then [] else window.source.content

/-- The window lies over this stream: what is ahead of it is the stream from its start on. -/
structure Over (window : Window) (stream : List UInt8) : Prop where
  start_le : window.start ≤ stream.length
  drop_start : stream.drop window.start = window.ahead

/-- A window later on, with nothing discarded in between and no byte lost. -/
structure Continues (before after : Window) : Prop extends Extends before after where
  ahead_eq : after.ahead = before.ahead
  failures : after.source.failures <:+ before.source.failures

/-- A window that has just been opened lies over the content of its source. -/
theorem over_content (config : Config) (source : Source) :
    (ofSource source config).Over source.content := by
  refine ⟨Nat.zero_le _, ?_⟩
  simp [ahead, retained_eq_drop, ofSource]

theorem length_le_length_ahead (window : Window) : window.length ≤ window.ahead.length := by
  rw [ahead, List.length_append, length_retained]
  omega

/-- The bytes that are retained lie within the stream. -/
theorem Over.delivered_le {window : Window} {stream : List UInt8} (hOver : window.Over stream) :
    window.start + window.length ≤ stream.length := by
  have hLength := window.length_le_length_ahead
  have hStart := hOver.start_le
  rw [← hOver.drop_start, List.length_drop] at hLength
  omega

namespace Continues

variable {first second third : Window}

theorem refl (window : Window) : Continues window window :=
  ⟨.refl window, rfl, List.suffix_refl _⟩

theorem trans (hFirst : Continues first second) (hSecond : Continues second third) :
    Continues first third :=
  ⟨hFirst.toExtends.trans hSecond.toExtends, hSecond.ahead_eq.trans hFirst.ahead_eq,
    hSecond.failures.trans hFirst.failures⟩

/-- A source stays calm. -/
theorem calm (h : Continues first second) (hCalm : first.source.Calm) : second.source.Calm := by
  have hNone := h.failures
  rw [(Source.calm_iff _).1 hCalm] at hNone
  exact (Source.calm_iff _).2 (List.suffix_nil.1 hNone)

theorem length_le (h : Continues first second) : first.length ≤ second.length := by
  rw [← length_retained, ← length_retained]
  exact h.keeps_retained.length_le

theorem lies_over {stream : List UInt8} (h : Continues first second) (hOver : first.Over stream) :
    second.Over stream := by
  refine ⟨?_, ?_⟩
  · rw [h.start_eq]
    exact hOver.start_le
  · rw [h.start_eq, h.ahead_eq]
    exact hOver.drop_start

/-- Bytes that a read delivers go from the source to the end of those retained. -/
theorem append {window : Window} {rest : Source} {delivered : List UInt8}
    (hEnded : window.ended = false) (hContent : window.source.content = delivered ++ rest.content)
    (hFailures : rest.failures <:+ window.source.failures) :
    Continues window { window with
      source := rest
      bytes := window.bytes ++ delivered
      head_le := window.head_le_append delivered } := by
  have hRetained : retained { window with
      source := rest
      bytes := window.bytes ++ delivered
      head_le := window.head_le_append delivered } = window.retained ++ delivered :=
    window.retained_extend delivered
  refine ⟨⟨?_, rfl, rfl⟩, ?_, hFailures⟩
  · rw [hRetained]
    exact List.prefix_append _ _
  · rw [ahead, ahead, hRetained, hContent, hEnded]
    exact List.append_assoc _ _ _

/-- A read that fails takes nothing. -/
theorem retry {window : Window} {rest : Source} (hContent : window.source.content = rest.content)
    (hFailures : rest.failures <:+ window.source.failures) :
    Continues window { window with source := rest } := by
  refine ⟨⟨List.prefix_refl _, rfl, rfl⟩, ?_, hFailures⟩
  simp only [ahead, hContent]
  rfl

end Continues

open Continues in
/-- Reading the source loses nothing. It stops short of what is wanted only where the stream ends,
and it faults only if a read does. -/
theorem leads_fill (want : Nat) (window : Window) :
    Leads (fill want) window
      (fun _ after => Continues window after ∧
        (want ≤ after.length ∨ after.ahead = after.retained))
      (fun _ after => Continues window after ∧ ¬ window.source.Calm) := by
  unfold Leads
  fun_induction fill want window with
  | case1 window hShort rest hRead =>
    have hNil := Source.content_of_read_nil window.config.chunkSize_pos hRead
    refine ⟨⟨⟨List.prefix_refl _, rfl, rfl⟩, ?_, Source.failures_of_read hRead⟩, .inr ?_⟩
    · simp [ahead, hShort.2, hNil, retained_eq_drop]
    · simp [ahead]
  | case2 window hShort rest byte more hRead ih =>
    have hContent := Source.content_of_read_bytes (List.cons_ne_nil _ _) hRead
    have hStep := append hShort.2 hContent (Source.failures_of_read hRead)
    exact Leads.mono ih (fun _ _ h => ⟨hStep.trans h.1, h.2⟩)
      (fun _ _ h => ⟨hStep.trans h.1, h.2 ∘ hStep.calm⟩)
  | case3 window hShort rest message hRead ih =>
    have hStep := retry (Source.content_of_read_failed hRead) (Source.failures_of_read hRead)
    exact Leads.mono ih (fun _ _ h => ⟨hStep.trans h.1, h.2⟩)
      (fun _ _ h => ⟨hStep.trans h.1, h.2 ∘ hStep.calm⟩)
  | case4 window hShort rest kind message hKind hRead =>
    have hStep := retry (Source.content_of_read_failed hRead) (Source.failures_of_read hRead)
    refine ⟨hStep, fun hCalm => ?_⟩
    have hFailures := Source.failures_of_read_failed hKind hRead
    rw [(Source.calm_iff _).1 hCalm] at hFailures
    cases hFailures
  | case5 window hEnough =>
    refine ⟨refl window, ?_⟩
    by_cases hEnded : window.ended = true
    · exact .inr (by simp [ahead, hEnded])
    · exact .inl (Nat.not_lt.1 fun hLess => hEnough ⟨hLess, Bool.eq_false_iff.2 hEnded⟩)

/-- A peek returns what stands in the stream. It faults only if a read does. -/
theorem leads_peek (offset count : Nat) (window : Window) :
    Leads (peek offset count) window
      (fun bytes after => Continues window after ∧ bytes = (window.ahead.drop offset).take count ∧
        offset + bytes.length ≤ max offset after.length)
      (fun _ after => Continues window after ∧ ¬ window.source.Calm) := by
  refine (leads_fill (offset + count) window).bind (fun _ _ h => h) ?_
  rintro - after ⟨hAfter, hEnough⟩
  simp only [leads_bind, leads_get, leads_pure, slice_eq_take_drop]
  refine ⟨hAfter, ?_, ?_⟩
  · rw [← hAfter.ahead_eq]
    rcases hEnough with hEnough | hEnded
    · have hLength : count ≤ (after.retained.drop offset).length := by
        rw [List.length_drop, length_retained]
        omega
      rw [ahead]
      by_cases hOffset : offset ≤ after.length
      · rw [List.drop_append_of_le_length (by rwa [length_retained]),
          List.take_append_of_le_length hLength]
      · have hCount : count = 0 := by omega
        rw [hCount, List.take_zero, List.take_zero]
    · rw [hEnded]
  · rw [List.length_take, List.length_drop, length_retained]
    omega

/-- A discard takes from the front of what is retained, whatever comes after it. -/
theorem retained_discard_append (window : Window) (count : Nat) (rest : List UInt8)
    (width : Char → Nat := columnWidth) :
    (window.discard count width).retained ++ rest =
      (window.retained ++ rest).drop (min count window.length) := by
  have hLength := window.length_retained
  have hMin : window.retained.drop (min count window.length) = window.retained.drop count := by
    rcases Nat.le_total count window.length with hCount | hCount
    · rw [Nat.min_eq_left hCount]
    · rw [Nat.min_eq_right hCount, List.drop_of_length_le (by omega),
        List.drop_of_length_le (by omega)]
  rw [retained_discard window count width,
    List.drop_append_of_le_length (hLength ▸ Nat.min_le_right _ _), hMin]

/-- A discard takes from the front of what is ahead. -/
theorem ahead_discard (window : Window) (count : Nat) (width : Char → Nat := columnWidth) :
    (window.discard count width).ahead = window.ahead.drop (min count window.length) := by
  obtain ⟨-, hSource, hEnded⟩ := window.rest_discard count width
  rw [ahead, ahead, hSource, hEnded]
  exact window.retained_discard_append count _ width

theorem Over.discard {window : Window} {stream : List UInt8} (hOver : window.Over stream)
    (count : Nat) (width : Char → Nat := columnWidth) :
    (window.discard count width).Over stream := by
  have hDelivered := hOver.delivered_le
  refine ⟨?_, ?_⟩
  · rw [start_discard window count width]
    omega
  · rw [start_discard window count width, ahead_discard window count width, ← hOver.drop_start,
      List.drop_drop]

end Window

end StreamMatch
