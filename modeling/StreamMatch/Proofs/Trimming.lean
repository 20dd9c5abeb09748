import Mathlib
import StreamMatch.Proofs.DiscardEquivalence
import StreamMatch.Proofs.Locating
import StreamMatch.Proofs.PairedRuns

/-!
A window of which more has been discarded than of another, and nothing else was done to it
(`Window.Trims`). From the start of the second on the same is found in both of them: the same bytes
and characters, the same end, and the same locations. Below the root only the distance of a cursor
from the start of its window tells them apart. So a matcher comes to the same over both, and so does
a script that makes nothing of this distance (`Library.follows_trimming`).
-/

namespace StreamMatch

namespace Window

/-- The second window is the first, but that some more of it has been discarded. -/
structure Trims (windows : Window × Window) : Prop extends Twins windows where
  start_le : windows.1.start ≤ windows.2.start
  /-- What has been discarded of the second one alone is located by now. -/
  located : ∀ rest, windows.2.origin.after (windows.2.carry ++ rest) =
    windows.1.origin.after (windows.1.carry ++
      windows.1.retained.take (windows.2.start - windows.1.start) ++ rest)

namespace Trims

variable {first second left right : Window}

theorem refl (window : Window) : Trims (window, window) := by
  obtain ⟨delivered, hHolds⟩ := window.exists_holds
  refine ⟨⟨rfl, rfl, rfl, delivered, hHolds, hHolds⟩, Nat.le_refl _, fun rest => ?_⟩
  simp only [Nat.sub_self, List.take_zero, List.append_nil]

/-- The first window has retained what has been discarded of the second one alone. -/
theorem sub_le_length (hTrims : Trims (first, second)) :
    second.start - first.start ≤ first.length := by
  have hEnd := hTrims.toTwins.end_eq
  omega

theorem drop_retained (hTrims : Trims (first, second)) :
    first.retained.drop (second.start - first.start) = second.retained := by
  obtain ⟨delivered, hFirst, hSecond⟩ := hTrims.holds
  rw [hFirst.retained_eq, hSecond.retained_eq, List.drop_drop,
    Nat.add_sub_cancel' hTrims.start_le]

/-- Both may be read into, as long as they get equally far. -/
theorem of_draws (hTrims : Trims (first, second)) (hTwins : Twins (left, right))
    (hFirst : first.Draws left) (hSecond : second.Draws right) : Trims (left, right) := by
  have hGone := hTrims.sub_le_length
  obtain ⟨more, hRetained⟩ := hFirst.keeps_retained
  refine ⟨hTwins, ?_, fun rest => ?_⟩
  · exact hFirst.start_eq.trans_le (hTrims.start_le.trans_eq hSecond.start_eq.symm)
  · dsimp only
    rw [hFirst.start_eq, hFirst.origin_eq, hFirst.carry_eq, hSecond.start_eq, hSecond.origin_eq,
      hSecond.carry_eq, ← hRetained, List.take_append_of_le_length (by rwa [length_retained])]
    exact hTrims.located rest

/-- Still more of the second one may be discarded. -/
theorem discard (hTrims : Trims (first, second)) (count : Nat) :
    Trims (first, second.discard count) := by
  have hTwins := hTrims.toTwins.discard 0 count
  rw [discard_zero] at hTwins
  have hStart := start_discard second count
  have hLe := hTrims.start_le
  dsimp only at hLe
  have hGone : (second.discard count).start - first.start =
      (second.start - first.start) + min count second.length := by
    omega
  refine ⟨hTwins, ?_, fun rest => ?_⟩
  · dsimp only
    omega
  · dsimp only
    rw [after_discard, hGone, List.take_add, hTrims.drop_retained, ← length_retained,
      ← List.take_eq_take_min, List.append_assoc, hTrims.located]
    simp only [List.append_assoc]

/-- A place that lies in both windows has one location. -/
theorem location_eq (hTrims : Trims (first, second)) {place : Nat} (hPlace : second.start ≤ place) :
    second.origin.after (second.carry ++ second.slice 0 (place - second.start)) =
      first.origin.after (first.carry ++ first.slice 0 (place - first.start)) := by
  have hLe := hTrims.start_le
  dsimp only at hLe
  have hDistance : place - first.start =
      (second.start - first.start) + (place - second.start) := by
    omega
  rw [hTrims.located, hDistance, slice_eq_take_drop, slice_eq_take_drop, List.drop_zero,
    List.drop_zero, List.take_add, hTrims.drop_retained, List.append_assoc]

end Trims

/-- Whatever has been discarded of two windows, the same characters are found at a place that lies
in both. -/
theorem Twins.runs_decode {windows : Window × Window} {place : Nat} (count : Nat)
    (hAt : twinning.At place windows) :
    Coincide (fun _ => False) (decode (place - windows.1.start) count)
      (decode (place - windows.2.start) count) windows
      (fun decoded other after => decoded = other ∧ Twins after) (fun _ after => Twins after) := by
  induction count generalizing place windows with
  | zero => exact .pure ⟨rfl, hAt.agree⟩
  | succ count ih =>
    rw [decode, decode]
    apply (twinning.segment hAt le_top).bind
    intro found other middle hMiddle
    obtain ⟨rfl, hHere, hLater⟩ := hMiddle
    have hTolerate := twinning.tolerate hHere
    rw [hLater.start_eq, hLater.start_eq'] at hTolerate
    have hFirst := hAt.start_le
    have hSecond := hAt.start_le'
    -- Decoding goes on behind a character or a malformed byte, which lies in both windows as well.
    have hOn (c : Char) (width step : Nat) :
        Coincide (fun _ => False)
          (do return (← decode (place - windows.1.start + step) count).cons c width)
          (do return (← decode (place - windows.2.start + step) count).cons c width) middle
          (fun decoded other after => decoded = other ∧ Twins after)
          (fun _ after => Twins after) := by
      have hNext : twinning.At (place + step) middle :=
        hLater.at hAt trivial (Nat.le_add_right _ _)
      have hRest := ih hNext
      rw [hLater.start_eq, hLater.start_eq', Nat.sub_add_comm hFirst,
        Nat.sub_add_comm hSecond] at hRest
      apply hRest.bind
      intro decoded other after hAfter
      exact .pure ⟨congrArg (·.cons c width) hAfter.1, hAfter.2⟩
    cases found with
    | none => exact .pure ⟨rfl, hLater.agree⟩
    | some segment =>
      cases segment with
      | char c width => exact hOn c width width
      | malformed =>
        apply hTolerate.bind
        rintro - - _ rfl
        exact hOn _ 1 1
      | truncated =>
        apply hTolerate.bind
        rintro - - _ rfl
        exact .pure ⟨rfl, hLater.agree⟩

/-- Windows with these starts, of which the second one is trimmed. -/
structure TrimsFrom (start start' : Nat) (windows : Window × Window) : Prop extends
    Trims windows where
  start_eq : windows.1.start = start
  start_eq' : windows.2.start = start'

namespace TrimsFrom

variable {start start' place : Nat} {windows : Window × Window} {α : Type}

/-- A place from the start of the trimmed window on. -/
theorem at_place (hTrims : TrimsFrom start start' windows) (hPlace : start' ≤ place) :
    twinning.At place windows := by
  have hSecond : windows.2.start ≤ place := hTrims.start_eq'.trans_le hPlace
  exact ⟨hTrims.toTwins, trivial, hTrims.start_le.trans hSecond, hSecond⟩

/-- What only reads into two windows leaves the second one trimmed, if it gets equally far. -/
theorem shared {action : Windowed α} (hLooks : Looks action)
    (hRuns : ∀ windows, TrimsFrom start start' windows →
      Coincide (fun _ => False) action action windows
        (fun value other after => value = other ∧ Twins after) (fun _ after => Twins after)) :
    action.Shared (TrimsFrom start start') := by
  intro windows hTrims
  have hAfter {left right : Window} (hTwins : Twins (left, right))
      (hFirst : windows.1.Draws left) (hSecond : windows.2.Draws right) :
      TrimsFrom start start' (left, right) :=
    ⟨hTrims.toTrims.of_draws hTwins hFirst hSecond, hFirst.start_eq.trans hTrims.start_eq,
      hSecond.start_eq.trans hTrims.start_eq'⟩
  cases hRuns windows hTrims with
  | returns hFirst hSecond hReturned =>
    exact .returns hFirst hSecond ⟨hReturned.1,
      hAfter hReturned.2 ((hLooks _).of_ok hFirst).1 ((hLooks _).of_ok hSecond).1⟩
  | halts hFirst hSecond hHalted =>
    exact .halts hFirst hSecond
      (hAfter hHalted ((hLooks _).of_error hFirst).1 ((hLooks _).of_error hSecond).1)
  | excuses _ hExcused => exact hExcused.elim

theorem shared_peekAt (count : Nat) (hPlace : start' ≤ place) :
    (peekAt place count).Shared (TrimsFrom start start') := by
  apply shared (looks_peekAt place count)
  intro windows hTrims
  have hAt := hTrims.at_place hPlace
  apply runs_relative_bind hAt.start_le hAt.start_le'
  apply (hTrims.toTwins.runs_peek hAt.start_le hAt.start_le' count).imp
  exact fun _ _ _ hAfter => ⟨hAfter.1, hAfter.2.1⟩

theorem shared_decodeAt (count : Nat) (hPlace : start' ≤ place) :
    (decodeAt place count).Shared (TrimsFrom start start') := by
  apply shared (looks_decodeAt place count)
  intro windows hTrims
  have hAt := hTrims.at_place hPlace
  exact runs_relative_bind hAt.start_le hAt.start_le' (Twins.runs_decode count hAt)

theorem shared_locationAt (hPlace : start' ≤ place) :
    (locationAt place).Shared (TrimsFrom start start') := by
  intro windows hTrims
  have hAt := hTrims.at_place hPlace
  have hSecond : windows.2.start ≤ place := hAt.start_le'
  apply runs_relative_bind hAt.start_le hSecond
  exact .returns rfl rfl ⟨(hTrims.toTrims.location_eq hSecond).symm, hTrims⟩

end TrimsFrom

end Window

/-- The answers that the same request is given over a window and over one that is trimmed. They are
the same, but for the distance from the start of the window. -/
def Request.SameButOffset : (request : Request) → request.Answer → request.Answer → Prop
  | offset, _, _ => True
  | _, answer, other => other = answer

/-- Two sides of which the second is over a trimmed window. -/
def trimming (start start' : Nat) : Pairing where
  Agree := Window.TrimsFrom start start'
  least := start'
  extra := 0
  Same := Request.SameButOffset
  remaining_eq hTrims := by rw [hTrims.source_eq, hTrims.toTwins.end_eq]
  peekAt count := Window.TrimsFrom.shared_peekAt count
  decodeAt count := Window.TrimsFrom.shared_decodeAt count
  locationAt := Window.TrimsFrom.shared_locationAt
  same_inspect _ _ := rfl
  same_offset _ _ := trivial
  same_self request _ _ := by
    cases request with
    | offset => trivial
    | _ => rfl

end StreamMatch
