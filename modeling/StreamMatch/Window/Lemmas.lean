import StreamMatch.Window.Basic

/-!
What the operations of a window do to the bytes that it retains. Main statements: a discard takes
bytes from their front (`retained_discard`) and moves the start of the window by as many
(`start_discard`).
-/

namespace StreamMatch.Window

theorem retained_eq_drop (window : Window) :
    window.retained = window.bytes.toList.drop window.head := by
  rw [retained, slice, length, Array.toList_extract, List.extract_eq_take_drop]
  exact List.take_of_length_le (by simp)

theorem slice_eq_take_drop (window : Window) (offset count : Nat) :
    window.slice offset count = (window.retained.drop offset).take count := by
  rw [slice, retained_eq_drop, Array.toList_extract, List.extract_eq_take_drop, List.drop_drop,
    Nat.add_sub_cancel_left]

@[simp]
theorem length_retained (window : Window) : window.retained.length = window.length := by
  rw [retained_eq_drop, List.length_drop, Array.length_toList, length]

/-- Where the window ends before, less is seen. -/
theorem slice_eq_drop (window : Window) {offset count : Nat} (hShort : window.length ≤ offset + count) :
    window.slice offset count = window.retained.drop offset := by
  rw [slice_eq_take_drop]
  apply List.take_of_length_le
  rw [List.length_drop, length_retained]
  omega

/-- The window with these bytes after those that it holds. -/
def extend (window : Window) (delivered : List UInt8) : Window :=
  { window with
    bytes := window.bytes ++ delivered
    head_le := window.head_le_append delivered }

@[simp]
theorem ended_extend (window : Window) (delivered : List UInt8) :
    (window.extend delivered).ended = window.ended :=
  rfl

theorem retained_extend (window : Window) (delivered : List UInt8) :
    (window.extend delivered).retained = window.retained ++ delivered := by
  rw [retained_eq_drop, retained_eq_drop, extend, Array.toList_appendList]
  exact List.drop_append_of_le_length window.head_le

@[simp]
theorem retained_compact (window : Window) : window.compact.retained = window.retained := by
  rw [compact]
  split
  · rw [retained_eq_drop, retained_eq_drop, List.drop_zero, Array.toList_extract,
      List.extract_eq_take_drop]
    exact List.take_of_length_le (by simp)
  · rfl

@[simp]
theorem start_compact (window : Window) : window.compact.start = window.start := by
  rw [compact]
  split <;> rfl

@[simp]
theorem origin_compact (window : Window) : window.compact.origin = window.origin := by
  rw [compact]
  split <;> rfl

@[simp]
theorem carry_compact (window : Window) : window.compact.carry = window.carry := by
  rw [compact]
  split <;> rfl

@[simp]
theorem discard_zero (window : Window) (width : Char → Nat := columnWidth) :
    window.discard 0 width = window := by
  simp [discard]

/-- A discard takes bytes from the front of those retained. -/
@[simp]
theorem retained_discard (window : Window) (count : Nat) (width : Char → Nat := columnWidth) :
    (window.discard count width).retained = window.retained.drop count := by
  have hLength := window.length_retained
  simp only [discard]
  split
  · next hGone =>
    rcases Nat.min_eq_zero_iff.1 hGone with hCount | hEmpty
    · rw [hCount, List.drop_zero]
    · rw [List.drop_of_length_le (by omega), List.length_eq_zero_iff.1 (hLength.trans hEmpty)]
  · rw [retained_compact, retained_eq_drop, ← List.drop_drop, ← retained_eq_drop]
    rcases Nat.le_total count window.length with hCount | hCount
    · rw [Nat.min_eq_left hCount]
    · rw [Nat.min_eq_right hCount, List.drop_of_length_le (by omega),
        List.drop_of_length_le (by omega)]

@[simp]
theorem length_discard (window : Window) (count : Nat) (width : Char → Nat := columnWidth) :
    (window.discard count width).length = window.length - count := by
  rw [← length_retained, retained_discard window count width, List.length_drop, length_retained]

/-- The start of the window moves by as many bytes as are discarded. -/
@[simp]
theorem start_discard (window : Window) (count : Nat) (width : Char → Nat := columnWidth) :
    (window.discard count width).start = window.start + min count window.length := by
  simp only [discard]
  split
  · next hGone => rw [hGone, Nat.add_zero]
  · rw [start_compact]

/-- A discard does not change where the retained bytes end. -/
theorem start_add_length_discard (window : Window) (count : Nat)
    (width : Char → Nat := columnWidth) :
    (window.discard count width).start + (window.discard count width).length =
      window.start + window.length := by
  rw [start_discard window count width, length_discard window count width]
  omega

/-- A discard leaves all else as it is. -/
theorem rest_discard (window : Window) (count : Nat) (width : Char → Nat := columnWidth) :
    (window.discard count width).config = window.config ∧
      (window.discard count width).source = window.source ∧
      (window.discard count width).ended = window.ended := by
  simp only [discard, compact]
  split
  · exact ⟨rfl, rfl, rfl⟩
  · split <;> exact ⟨rfl, rfl, rfl⟩

theorem relative_eq {window : Window} {offset : Nat} (hStart : window.start ≤ offset) :
    relative offset window = .ok (offset - window.start) window := by
  change (if offset < window.start then (throw (.reclaimed offset window.start) : Windowed Nat)
    else return offset - window.start) window = _
  rw [if_neg (Nat.not_lt.2 hStart)]
  rfl

/-- A window later on, with nothing discarded in between. -/
structure Extends (before after : Window) : Prop where
  keeps_retained : before.retained <+: after.retained
  start_eq : after.start = before.start
  config_eq : after.config = before.config

namespace Extends

theorem refl (window : Window) : Extends window window :=
  ⟨List.prefix_refl _, rfl, rfl⟩

theorem trans {first second third : Window} (hFirst : Extends first second)
    (hSecond : Extends second third) : Extends first third :=
  ⟨hFirst.keeps_retained.trans hSecond.keeps_retained,
    hSecond.start_eq.trans hFirst.start_eq, hSecond.config_eq.trans hFirst.config_eq⟩

end Extends

end StreamMatch.Window
