import Mathlib
import StreamMatch.Proofs.Locating
import StreamMatch.Proofs.Substitution

/-!
The order of locations. Along any text a location only moves on, and its line moves by the line
feeds (`Location.line_foldl_step`). A line feed is never part of what is replaced, so that the text
has as many of them as the bytes (`Utf8.Substituted.count_lineFeed`). Hence the places of a stream
are located in their order, as long as the earlier one does not stand behind the lead byte of some
character, where the replacement may be wider than the character would have been
(`Window.locations_in_order`).
-/

namespace StreamMatch

namespace Utf8

variable {stretch bytes rest : List UInt8} {text : List Char}

theorem utf8EncodeChar_lineFeed : String.utf8EncodeChar '\n' = [0x0a] := by
  decide

/-- A line feed is spelled by itself, and spells nothing else. -/
theorem count_lineFeed_utf8EncodeChar (c : Char) :
    (String.utf8EncodeChar c).count 0x0a = if c = '\n' then 1 else 0 := by
  split
  · next hLine =>
    rw [hLine, utf8EncodeChar_lineFeed]
    rfl
  · next hOther =>
    obtain ⟨lead, tail, hChar, -, hTail⟩ := utf8EncodeChar_eq_cons c
    rw [List.count_eq_zero, hChar, List.mem_cons]
    rintro (rfl | hMem)
    · have hSame : String.utf8EncodeChar c ++ [] = String.utf8EncodeChar '\n' ++ tail := by
        rw [hChar, utf8EncodeChar_lineFeed, List.append_nil, List.singleton_append]
      exact hOther (eq_of_utf8EncodeChar_append hSame)
    · exact absurd (hTail _ hMem) (by decide)

/-- What is replaced holds no line feed. -/
theorem Stray.count_lineFeed (hStray : Stray stretch rest) : stretch.count 0x0a = 0 := by
  obtain ⟨byte, tail, rfl⟩ := List.exists_cons_of_ne_nil hStray.ne_nil
  rw [List.count_eq_zero, List.mem_cons]
  rintro (rfl | hMem)
  · exact hStray.not_starts ⟨'\n', tail ++ rest, by rw [utf8EncodeChar_lineFeed]; rfl⟩
  · rcases hStray.begins with hOne | ⟨c, more, -, hChar⟩
    · rw [List.length_eq_zero_iff.1 (Nat.succ.inj hOne)] at hMem
      cases hMem
    · obtain ⟨lead, others, hCons, -, hOthers⟩ := utf8EncodeChar_eq_cons c
      rw [hCons, List.cons_append] at hChar
      have hContinues := hOthers 0x0a (by
        rw [(List.cons.inj hChar).2]
        exact List.mem_append_left _ hMem)
      exact absurd hContinues (by decide)

/-- A text has as many line feeds as the bytes that it is made of. -/
theorem Substituted.count_lineFeed (hText : Substituted bytes text) :
    text.count '\n' = bytes.count 0x0a := by
  induction hText with
  | nil => rfl
  | @spelled c rest text hRest ih =>
    rw [List.count_append, count_lineFeed_utf8EncodeChar, List.count_cons, ih, Nat.add_comm]
    simp
  | @replaced stretch rest text hStray hRest ih =>
    rw [List.count_append, hStray.count_lineFeed, Nat.zero_add, ← ih]
    exact List.count_cons_of_ne (by decide)

theorem count_lineFeed_lossy (bytes : List UInt8) : (lossy bytes).count '\n' = bytes.count 0x0a :=
  (substituted_iff.2 rfl).count_lineFeed

end Utf8

namespace Location

variable {first second third : Location} {width : Char → Nat}

/-- On an earlier line, or on the same line and not in a later column. -/
theorem isLE_compare_iff : (Ord.compare first second).isLE = true ↔
    first.line < second.line ∨ first.line = second.line ∧ first.column ≤ second.column := by
  have hCompare : Ord.compare first second =
      (Ord.compare first.line second.line).then (Ord.compare first.column second.column) := rfl
  rw [hCompare, Ordering.isLE_then_iff_or]
  simp only [Nat.isLE_compare, Nat.compare_eq_lt, Nat.compare_eq_eq]

theorem isLE_compare_trans (hFirst : (Ord.compare first second).isLE = true)
    (hSecond : (Ord.compare second third).isLE = true) :
    (Ord.compare first third).isLE = true := by
  rw [isLE_compare_iff] at hFirst hSecond ⊢
  omega

/-- One more character takes a location to the next line or along its own. -/
theorem step_cases (width : Char → Nat) (location : Location) (c : Char) :
    c = '\n' ∧ location.step width c = ⟨location.line + 1, 1⟩ ∨
      c ≠ '\n' ∧ ∃ columns, location.step width c = ⟨location.line, location.column + columns⟩ := by
  unfold step
  split
  · exact .inl ⟨rfl, rfl⟩
  · exact .inr ⟨by decide, 0, rfl⟩
  · exact .inr ⟨by decide, tabWidth, rfl⟩
  · next hLine _ _ => exact .inr ⟨hLine, width c, rfl⟩

theorem isLE_compare_foldl_step (width : Char → Nat) (location : Location) (text : List Char) :
    (Ord.compare location (text.foldl (step width) location)).isLE = true := by
  induction text generalizing location with
  | nil => simp [isLE_compare_iff]
  | cons c text ih =>
    refine isLE_compare_trans ?_ (ih (location.step width c))
    rw [isLE_compare_iff]
    rcases step_cases width location c with ⟨-, hStep⟩ | ⟨-, columns, hStep⟩ <;> simp [hStep]

/-- The line moves by the line feeds. -/
theorem line_foldl_step (width : Char → Nat) (location : Location) (text : List Char) :
    (text.foldl (step width) location).line = location.line + text.count '\n' := by
  induction text generalizing location with
  | nil => rfl
  | cons c text ih =>
    rw [List.foldl_cons, ih, List.count_cons]
    rcases step_cases width location c with ⟨rfl, hStep⟩ | ⟨hOther, columns, hStep⟩
    · simp [hStep]; omega
    · simp [hStep, hOther]

end Location

namespace Window

/-- Places in the window are located in their order, whatever the stream holds, in however many
columns the characters are shown, and however much has been discarded. The earlier place has to be
the end of the stream or stand before a byte that is no continuation byte: then its location does
not come after that of the later place, and as many lines lie between the two as there are line
feeds in the bytes between them. -/
theorem locations_in_order (width : Char → Nat) (config : Config) (source : Source)
    (uses : List Use) {earlier later : Nat} (hOrder : earlier ≤ later)
    (hFront : earlier = source.content.length ∨
      ∃ byte, source.content[earlier]? = some byte ∧ Utf8.isContinuation byte = false) :
    let window := uses.foldl (Use.apply width) (ofSource source config)
    window.start ≤ earlier → later ≤ window.start + window.length →
      ∃ first second, locationAt earlier width window = .ok first window ∧
        locationAt later width window = .ok second window ∧
        (Ord.compare first second).isLE = true ∧
        second.line =
          first.line + ((source.content.drop earlier).take (later - earlier)).count 0x0a := by
  intro window hStart hEnd
  have hLocated := (Located.ofSource width config source).foldl_apply uses
  let first := Location.after {} (source.content.take earlier) width
  let between := (source.content.drop earlier).take (later - earlier)
  have hLater : source.content.take later = source.content.take earlier ++ between := by
    rw [← List.take_add, Nat.add_sub_cancel' hOrder]
  have hSecond : Location.after {} (source.content.take later) width =
      first.after between width := by
    rw [hLater]
    by_cases hNone : between = []
    · rw [hNone, List.append_nil, Location.after_nil]
    · -- The later place lies in the stream, and what is between begins with no continuation byte.
      apply Location.after_append (.inr _)
      rcases hFront with rfl | ⟨byte, hByte, hLead⟩
      · exact absurd (by simp [between]) hNone
      · obtain ⟨hInside, hGet⟩ := List.getElem?_eq_some_iff.1 hByte
        obtain ⟨count, hCount⟩ : ∃ count, later - earlier = count + 1 :=
          Nat.exists_eq_add_one_of_ne_zero fun hZero => hNone (by simp [between, hZero])
        refine ⟨byte, (source.content.drop (earlier + 1)).take count, ?_, hLead⟩
        simp only [between, hCount]
        rw [List.drop_eq_getElem_cons hInside, hGet, List.take_succ_cons]
  refine ⟨first, first.after between width, ?_, ?_, ?_, ?_⟩
  · exact hLocated.locationAt_eq hStart (Nat.le_trans hOrder hEnd)
  · rw [← hSecond]
    exact hLocated.locationAt_eq (Nat.le_trans hStart hOrder) hEnd
  · exact Location.isLE_compare_foldl_step width first _
  · rw [← Utf8.count_lineFeed_lossy]
    exact Location.line_foldl_step width first _

/-- A window over a letter of which the last byte is missing, with its first byte discarded. Letters
that are not ASCII take two columns, and so do replacements. -/
def brokenOff : Window :=
  [Use.peek 0 5, .discard 2].foldl (Use.apply fun c => if c.toNat < 0x80 then 1 else 2)
    (ofSource ⟨[.data [0x61, 0xe4], .data [0xb8, 0x0a, 0x62]]⟩)

/-- The line feed that has broken off the letter ends the line of the replacement. -/
theorem locations_in_order_brokenOff :
    brokenOff.start ≤ 3 ∧ 5 ≤ brokenOff.start + brokenOff.length ∧
      ∃ first second,
        locationAt 3 (fun c => if c.toNat < 0x80 then 1 else 2) brokenOff = .ok first brokenOff ∧
        locationAt 5 (fun c => if c.toNat < 0x80 then 1 else 2) brokenOff = .ok second brokenOff ∧
        (Ord.compare first second).isLE = true ∧ second.line = first.line + 1 := by
  have hStart : brokenOff.start = 2 := by
    cbv
  have hLength : brokenOff.length = 3 := by
    cbv
  have hFirst : brokenOff.start ≤ 3 := by omega
  have hLast : 5 ≤ brokenOff.start + brokenOff.length := by omega
  exact ⟨hFirst, hLast, locations_in_order (fun c => if c.toNat < 0x80 then 1 else 2) default
    ⟨[.data [0x61, 0xe4], .data [0xb8, 0x0a, 0x62]]⟩ [.peek 0 5, .discard 2] (by decide)
    (.inr ⟨0x0a, by decide, by decide⟩) hFirst hLast⟩

end Window

end StreamMatch
