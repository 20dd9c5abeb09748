import Mathlib
import StreamMatch.Proofs.PairedRuns

/-!
How deep a cursor is makes no difference below the root. An action is uniform if it goes the same
way one generation deeper (`Reading.Uniform`). All that matchers are made of is uniform, and so is a
script that only asks whether its cursors are roots, and never how deep they are
(`Library.uniform_call`).
-/

namespace StreamMatch

/-- The reader with its cursor one generation deeper. -/
def Reader.lowered (reader : Reader) : Reader :=
  { reader with cursor := reader.cursor.fork }

/-- Below the root, the second reader is the first one generation deeper. -/
structure Readers.Tiered (readers : Readers) : Prop where
  second_eq : readers.2 = readers.1.lowered
  deep : readers.1.cursor.depth ≠ 0

/-- Below the root, the action comes to the same one generation deeper. -/
def Reading.Uniform {α : Type} (action : Reading α) : Prop :=
  ∀ readers, Readers.Tiered readers → Coincide (fun _ => False) action action readers
    (fun value other after => value = other ∧ Readers.Tiered after)
    (fun _ after => Readers.Tiered after)

/-- The answer below the root and the one that is given one generation deeper. It is the same, but
for the depth of a cursor that is looked at. -/
def Request.Deeper : (request : Request) → request.Answer → request.Answer → Prop
  | inspect, cursor, other => other = cursor.fork ∧ cursor.depth ≠ 0
  | _, answer, other => other = answer

/-- No script lets what it does depend on how deep its cursors are. It may still make a difference
between a root and any other cursor. -/
def Library.Uniform (library : Library) : Prop :=
  library.Respects Request.Deeper

/-- One window for both sides finds the same for both. -/
theorem Windowed.shared_eq {α : Type} (action : Windowed α) :
    action.Shared fun windows => windows.2 = windows.1 := by
  intro windows hSame
  obtain ⟨window, other⟩ := windows
  dsimp only at hSame
  subst hSame
  apply Coincide.refl
  apply Leads.intro
  · exact fun _ _ _ => ⟨rfl, rfl⟩
  · exact fun _ _ _ => rfl

/-- Two sides that differ by one generation alone. -/
def tiers : Pairing where
  Agree windows := windows.2 = windows.1
  least := 0
  extra := 1
  Same := Request.Deeper
  remaining_eq hSame := by rw [hSame]
  peekAt count _ := (Window.peekAt _ count).shared_eq
  decodeAt count _ := (Window.decodeAt _ count).shared_eq
  locationAt _ := (Window.locationAt _).shared_eq
  same_inspect _ hDeep := ⟨rfl, hDeep⟩
  same_offset _ hSame := by rw [hSame]; rfl
  same_self request _ hOther := by
    cases request with
    | inspect => exact absurd rfl hOther
    | _ => rfl

theorem tiered_iff {readers : Readers} : Readers.Tiered readers ↔ tiers.Paired readers := by
  constructor
  · intro hTiered
    obtain ⟨reader, other⟩ := readers
    obtain ⟨hSecond, hDeep⟩ := hTiered
    dsimp only at hSecond hDeep
    subst hSecond
    exact ⟨rfl, rfl, rfl, hDeep, Nat.zero_le _⟩
  · intro hPaired
    refine ⟨?_, hPaired.held.deep⟩
    exact Reader.mk.injEq .. |>.mpr ⟨hPaired.agree, hPaired.cursor_eq, hPaired.reports_eq⟩

theorem Reading.uniform_iff {α : Type} {action : Reading α} :
    Uniform action ↔ tiers.Follows action := by
  simp only [Uniform, Pairing.Follows, tiered_iff]

/-- A matcher is uniform if what the names of rules stand for is. -/
theorem Matcher.uniform_attempt {call : String → Attempt} (hCall : ∀ name, Reading.Uniform (call name))
    (m : Matcher) : Reading.Uniform (m.attempt call) :=
  Reading.uniform_iff.2
    (Pairing.follows_attempt (fun name => Reading.uniform_iff.1 (hCall name)) m)

/-- Whatever a name stands for, it is uniform if the scripts are. -/
theorem Library.uniform_call {library : Library} (hLibrary : library.Uniform) (depth : Nat)
    (name : String) : Reading.Uniform (library.call depth name) :=
  Reading.uniform_iff.2 (Pairing.follows_call (P := tiers) hLibrary depth name)

end StreamMatch
