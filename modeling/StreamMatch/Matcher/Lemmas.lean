import StreamMatch.Matcher.Basic

/-!
Matchers by induction: what holds of a matcher if it holds of all those it is built from holds of
every matcher (`Matcher.induction`).
-/

namespace StreamMatch.Matcher

variable {call : String → Attempt}

theorem attempts_eq_map (ms : List Matcher) : attempts call ms = ms.map (attempt call) := by
  induction ms with
  | nil => rfl
  | cons m rest ih => rw [attempts, ih, List.map_cons]

theorem namedAttempts_eq_map (steps : List (String × Matcher)) :
    namedAttempts call steps = steps.map fun step => (step.1, step.2.attempt call) := by
  induction steps with
  | nil => rfl
  | cons step rest ih => rw [namedAttempts, ih, List.map_cons]

theorem attempt?_eq_map (m : Option Matcher) : attempt? call m = m.map (attempt call) := by
  cases m <;> rfl

section

variable {motive : Matcher → Prop} (primitive : ∀ p, motive (.primitive p))
  (seq : ∀ tag steps, (∀ m ∈ steps, motive m) → motive (.seq tag steps))
  (named : ∀ tag steps, (∀ step ∈ steps, motive step.2) → motive (.named tag steps))
  (first : ∀ ms, (∀ m ∈ ms, motive m) → motive (.first ms))
  (longest : ∀ ms, (∀ m ∈ ms, motive m) → motive (.longest ms))
  (many : ∀ tag least most element separator, motive element → (∀ m ∈ separator, motive m) →
    motive (.many tag least most element separator))
  (optional : ∀ inner, motive inner → motive (.optional inner))
  (keep : ∀ inner, motive inner → motive (.keep inner))
  (rule : ∀ name, motive (.rule name))
  (lookahead : ∀ tag wanted inner, motive inner → motive (.lookahead tag wanted inner))
  (endOfInput : ∀ tag, motive (.endOfInput tag))
  (skip : ∀ tag count, motive (.skip tag count))
  (insert : ∀ tag bytes, motive (.insert tag bytes))
  (stray : ∀ count, motive (.stray count))
  (refuse : motive .refuse)

include primitive seq named first longest many optional keep rule lookahead endOfInput skip insert
  stray refuse

set_option linter.unusedSectionVars false in
mutual

/-- A rule by its name counts as built from nothing: what it stands for is not part of it. -/
@[induction_eliminator]
theorem induction : (m : Matcher) → motive m
  | .primitive p => primitive p
  | .seq tag steps => seq tag steps (inductionList steps)
  | .named tag steps => named tag steps (inductionNamed steps)
  | .first ms => first ms (inductionList ms)
  | .longest ms => longest ms (inductionList ms)
  | .many tag least most element separator =>
    many tag least most element separator (induction element) (inductionOption separator)
  | .optional inner => optional inner (induction inner)
  | .keep inner => keep inner (induction inner)
  | .rule name => rule name
  | .lookahead tag wanted inner => lookahead tag wanted inner (induction inner)
  | .endOfInput tag => endOfInput tag
  | .skip tag count => skip tag count
  | .insert tag bytes => insert tag bytes
  | .stray count => stray count
  | .refuse => refuse

private theorem inductionList : (ms : List Matcher) → ∀ m ∈ ms, motive m
  | [] => by simp
  | m :: rest => List.forall_mem_cons.2 ⟨induction m, inductionList rest⟩

private theorem inductionNamed : (steps : List (String × Matcher)) → ∀ step ∈ steps, motive step.2
  | [] => by simp
  | (_, m) :: rest => List.forall_mem_cons.2 ⟨induction m, inductionNamed rest⟩

private theorem inductionOption : (m : Option Matcher) → ∀ inner ∈ m, motive inner
  | none => by simp
  | some m => by
    intro inner hInner
    rw [← Option.some.inj hInner]
    exact induction m

end

end

end StreamMatch.Matcher
