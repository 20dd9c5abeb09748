import StreamMatch.Proofs.Observation

/-!
What it takes to have read so many bytes. A window that is filled to some length is not read into
any more by a smaller demand, and demands that grow come to the same as the last of them alone
(`fill_fill`). So it can be said of a whole run what it needs: the greatest of its demands.
-/

namespace StreamMatch.Window

/-- A window later on that has only been read into. -/
structure Draws (before after : Window) : Prop extends Continues before after where
  origin_eq : after.origin = before.origin
  carry_eq : after.carry = before.carry

namespace Draws

variable {first second third : Window}

theorem refl (window : Window) : Draws window window :=
  ⟨.refl window, rfl, rfl⟩

theorem trans (hFirst : Draws first second) (hSecond : Draws second third) : Draws first third :=
  ⟨hFirst.toContinues.trans hSecond.toContinues, hSecond.origin_eq.trans hFirst.origin_eq,
    hSecond.carry_eq.trans hFirst.carry_eq⟩

end Draws

/-- So many bytes are retained, or all that there are from the start of the window on. -/
def Filled (want : Nat) (window : Window) : Prop :=
  want ≤ window.length ∨ window.ended = true

instance (want : Nat) (window : Window) : Decidable (window.Filled want) :=
  inferInstanceAs (Decidable (_ ∨ _))

variable {window after : Window} {want less : Nat}

theorem Filled.mono (hFilled : window.Filled want) (hLess : less ≤ want) : window.Filled less :=
  hFilled.imp_left (Nat.le_trans hLess)

/-- How many bytes are retained at least if so many were wanted. -/
def reach (window : Window) (want : Nat) : Nat :=
  min want window.ahead.length

theorem reach_mono (window : Window) (hLess : less ≤ want) : window.reach less ≤ window.reach want := by
  unfold reach
  omega

theorem Filled.reach_le_length (hFilled : window.Filled want) :
    window.reach want ≤ window.length := by
  rcases hFilled with hEnough | hEnded
  · exact Nat.le_trans (Nat.min_le_left _ _) hEnough
  · have hAhead : window.ahead.length = window.length := by
      simp [ahead, hEnded]
    rw [reach, hAhead]
    exact Nat.min_le_right _ _

theorem not_filled_iff : ¬ window.Filled want ↔ window.length < want ∧ window.ended = false := by
  simp [Filled]

/-- What is read next if too few bytes are retained. -/
theorem fill_eq (hShort : ¬ window.Filled want) :
    fill want window =
      match window.source.read window.config.chunkSize with
      | (.bytes [], rest) => .ok () { window with source := rest, ended := true }
      | (.bytes (byte :: more), rest) =>
        fill want { window with
          source := rest
          bytes := window.bytes ++ (byte :: more)
          head_le := window.head_le_append _ }
      | (.failed .interrupted _, rest) => fill want { window with source := rest }
      | (.failed kind message, rest) => .error (.io kind message) { window with source := rest } := by
  rw [fill, if_pos (not_filled_iff.1 hShort)]
  split
  · next hRead => rw [hRead]
  · next hRead => rw [hRead]
  · next hRead => rw [hRead]
  · next hKind hRead =>
    rw [hRead]
    split
    · next hSame => cases hSame
    · next hSame => cases hSame
    · next hSame =>
      cases hSame
      exact absurd rfl hKind
    · next hSame =>
      cases hSame
      rfl

/-- There is nothing to do if there are bytes enough. -/
theorem fill_of_filled (hFilled : window.Filled want) : fill want window = .ok () window := by
  rw [fill, if_neg]
  rwa [← not_filled_iff, Decidable.not_not]

/-- However it ends, filling a window only reads into it; it fails only if the source does. -/
theorem leads_fill_draws (want : Nat) (window : Window) :
    Leads (fill want) window (fun _ after => window.Draws after ∧ after.Filled want)
      (fun fault after => window.Draws after ∧ ∃ kind message, fault = .io kind message) := by
  have hRest : Leads (fill want) window
      (fun _ after => after.origin = window.origin ∧ after.carry = window.carry ∧ after.Filled want)
      (fun fault after => after.origin = window.origin ∧ after.carry = window.carry ∧
        ∃ kind message, fault = .io kind message) := by
    unfold Leads
    fun_induction fill want window with
    | case1 => exact ⟨rfl, rfl, .inr rfl⟩
    | case2 window hShort rest byte more hRead ih => exact ih
    | case3 window hShort rest message hRead ih => exact ih
    | case4 window hShort kind message => exact ⟨rfl, rfl, kind, message, rfl⟩
    | case5 window hEnough =>
      rw [← not_filled_iff, Decidable.not_not] at hEnough
      exact ⟨rfl, rfl, hEnough⟩
  refine ((leads_fill want window).and hRest).mono ?_ ?_
  · intro _ after h
    exact ⟨⟨h.1.1, h.2.1, h.2.2.1⟩, h.2.2.2⟩
  · intro _ after h
    exact ⟨⟨h.1.1, h.2.1, h.2.2.1⟩, h.2.2.2⟩

/-- A demand that is met takes no failure from the source, and one that is not takes the first. -/
theorem leads_fill_failures (want : Nat) (window : Window) :
    Leads (fill want) window
      (fun _ after => after.source.failures = window.source.failures)
      (fun fault after => ∃ kind message, fault = .io kind message ∧
        window.source.failures = (kind, message) :: after.source.failures) := by
  unfold Leads
  fun_induction fill want window with
  | case1 window hShort rest hRead => exact Source.failures_of_read_bytes hRead
  | case2 window hShort rest byte more hRead ih =>
    rw [← Source.failures_of_read_bytes hRead]
    exact ih
  | case3 window hShort rest message hRead ih =>
    rw [← Source.failures_of_read_interrupted hRead]
    exact ih
  | case4 window hShort kind message rest hKind hRead =>
    exact ⟨kind, message, rfl, Source.failures_of_read_failed hKind hRead⟩
  | case5 => rfl

theorem failures_of_fill (hFill : fill want window = .ok () after) :
    after.source.failures = window.source.failures :=
  (leads_fill_failures want window).of_ok hFill

theorem length_failures_lt_of_fill {fault : Fault} (hFill : fill want window = .error fault after) :
    after.source.failures.length < window.source.failures.length := by
  obtain ⟨kind, message, -, hFirst⟩ := (leads_fill_failures want window).of_error hFill
  rw [hFirst, List.length_cons]
  omega

/-- A demand that is followed by a greater one makes no difference. -/
theorem fill_fill (hLess : less ≤ want) (window : Window) :
    (do fill less; fill want : Windowed Unit) window = fill want window := by
  have hMore {window : Window} (hShort : window.length < less ∧ window.ended = false) :
      ¬ window.Filled want :=
    not_filled_iff.2 ⟨Nat.lt_of_lt_of_le hShort.1 hLess, hShort.2⟩
  simp only [bind, EStateM.bind]
  fun_induction fill less window with
  | case1 window hShort rest hRead =>
    rw [fill_eq (hMore hShort), hRead]
    exact fill_of_filled (.inr rfl)
  | case2 window hShort rest byte more hRead ih =>
    rw [fill_eq (hMore hShort), hRead]
    exact ih
  | case3 window hShort rest message hRead ih =>
    rw [fill_eq (hMore hShort), hRead]
    exact ih
  | case4 window hShort kind message rest hKind hRead =>
    rw [fill_eq (hMore hShort), hRead]
    cases kind with
    | interrupted => exact absurd rfl hKind
    | _ => rfl
  | case5 window hEnough => rfl

theorem leads_fill_fill (hLess : less ≤ want) {returned : Unit → Window → Prop}
    {failed : Fault → Window → Prop} :
    Leads (fill want) window returned failed ↔
      Leads (fill less) window (fun _ middle => Leads (fill want) middle returned failed)
        failed := by
  have hSame : Leads (fill want) window returned failed ↔
      Leads (do fill less; fill want : Windowed Unit) window returned failed := by
    simp only [Leads, fill_fill hLess]
  exact hSame.trans leads_bind

/-- Another window over what is ahead of this one. How much of it has been read may differ, and how
the source will deliver the rest. -/
structure Alike (base window : Window) : Prop where
  config_eq : window.config = base.config
  start_eq : window.start = base.start
  origin_eq : window.origin = base.origin
  carry_eq : window.carry = base.carry
  ahead_eq : window.ahead = base.ahead

namespace Alike

variable {base : Window}

theorem refl (window : Window) : Alike window window :=
  ⟨rfl, rfl, rfl, rfl, rfl⟩

theorem of_draws (hAlike : base.Alike window) (hDraws : window.Draws after) : base.Alike after where
  config_eq := hDraws.config_eq.trans hAlike.config_eq
  start_eq := hDraws.start_eq.trans hAlike.start_eq
  origin_eq := hDraws.origin_eq.trans hAlike.origin_eq
  carry_eq := hDraws.carry_eq.trans hAlike.carry_eq
  ahead_eq := hDraws.ahead_eq.trans hAlike.ahead_eq

/-- What is retained of a filled window is no more than what is ahead, and so it is known. -/
theorem slice_eq (hAlike : base.Alike window) {offset count : Nat}
    (hFilled : window.Filled (offset + count)) :
    window.slice offset count = (base.ahead.drop offset).take count := by
  rw [slice_eq_take_drop, ← hAlike.ahead_eq, ahead]
  rcases hFilled with hEnough | hEnded
  · have hLength := window.length_retained
    by_cases hCount : count = 0
    · simp [hCount]
    · rw [List.drop_append_of_le_length (by omega),
        List.take_append_of_le_length (by rw [List.length_drop]; omega)]
  · simp [hEnded]

end Alike

end StreamMatch.Window
