import StreamMatch.Matcher.Lemmas

/-!
Matchers whose primitives stand for other attempts than their own, as they do in a run that is looked
at more closely. With their own attempts this is what matchers stand for anyway
(`Matcher.attemptOf_attempt`).
-/

namespace StreamMatch

namespace Matcher

mutual

/-- The attempt that a matcher stands for, where `leaf` is what primitives stand for and `call` what
the names of rules do. -/
def attemptOf (leaf : Primitive → Attempt) (call : String → Attempt) : Matcher → Attempt
  | .primitive p => leaf p
  | .seq tag steps => .seq tag (attemptsOf leaf call steps)
  | .named tag steps => .seqNamed tag (namedAttemptsOf leaf call steps)
  | .first alternatives => .first (attemptsOf leaf call alternatives)
  | .longest alternatives => .longest (attemptsOf leaf call alternatives)
  | .many tag least most element separator =>
    .many tag least most (attemptOf leaf call element) (attemptOf? leaf call separator)
  | .optional inner => .optional (attemptOf leaf call inner)
  | .keep inner => .keep (attemptOf leaf call inner)
  | .rule name => call name
  | .lookahead tag wanted inner => .lookahead tag wanted (attemptOf leaf call inner)
  | .endOfInput tag => .endOfInput tag
  | .skip tag count => .skip tag count
  | .insert tag bytes => .insert tag bytes
  | .stray count => .stray count
  | .refuse => .refuse

/-- The attempts that several matchers stand for. -/
def attemptsOf (leaf : Primitive → Attempt) (call : String → Attempt) :
    List Matcher → List Attempt
  | [] => []
  | m :: rest => attemptOf leaf call m :: attemptsOf leaf call rest

/-- The attempts that labelled matchers stand for. -/
def namedAttemptsOf (leaf : Primitive → Attempt) (call : String → Attempt) :
    List (String × Matcher) → List (String × Attempt)
  | [] => []
  | (label, m) :: rest => (label, attemptOf leaf call m) :: namedAttemptsOf leaf call rest

/-- The attempt that a matcher stands for, if there is one. -/
def attemptOf? (leaf : Primitive → Attempt) (call : String → Attempt) :
    Option Matcher → Option Attempt
  | none => none
  | some m => some (attemptOf leaf call m)

end

variable {leaf : Primitive → Attempt} {call : String → Attempt}

theorem attemptsOf_eq_map (ms : List Matcher) :
    attemptsOf leaf call ms = ms.map (attemptOf leaf call) := by
  induction ms with
  | nil => rfl
  | cons m rest ih => rw [attemptsOf, ih, List.map_cons]

theorem namedAttemptsOf_eq_map (steps : List (String × Matcher)) :
    namedAttemptsOf leaf call steps =
      steps.map fun step => (step.1, step.2.attemptOf leaf call) := by
  induction steps with
  | nil => rfl
  | cons step rest ih => rw [namedAttemptsOf, ih, List.map_cons]

theorem attemptOf?_eq_map (m : Option Matcher) :
    attemptOf? leaf call m = m.map (attemptOf leaf call) := by
  cases m <;> rfl

theorem attemptOf_attempt (m : Matcher) :
    m.attemptOf Primitive.attempt call = m.attempt call := by
  induction m with
  | seq tag steps ih =>
    rw [attemptOf, attempt, attemptsOf_eq_map, attempts_eq_map, List.map_congr_left ih]
  | named tag steps ih =>
    rw [attemptOf, attempt, namedAttemptsOf_eq_map, namedAttempts_eq_map]
    exact congrArg (Attempt.seqNamed tag)
      (List.map_congr_left fun step hMem => congrArg (Prod.mk step.1) (ih step hMem))
  | first ms ih =>
    rw [attemptOf, attempt, attemptsOf_eq_map, attempts_eq_map, List.map_congr_left ih]
  | longest ms ih =>
    rw [attemptOf, attempt, attemptsOf_eq_map, attempts_eq_map, List.map_congr_left ih]
  | many tag least most element separator hElement hSeparator =>
    rw [attemptOf, attempt, attemptOf?_eq_map, attempt?_eq_map, hElement,
      Option.map_congr hSeparator]
  | optional inner ih => rw [attemptOf, attempt, ih]
  | keep inner ih => rw [attemptOf, attempt, ih]
  | lookahead tag wanted inner ih => rw [attemptOf, attempt, ih]
  | primitive p => rfl
  | rule name => rfl
  | endOfInput tag => rfl
  | skip tag count => rfl
  | insert tag bytes => rfl
  | stray count => rfl
  | refuse => rfl

end Matcher

namespace Grammar

/-- What the name of a rule stands for. -/
def callOf (leaf : Primitive → Attempt) (grammar : Grammar) : (depth : Nat) → String → Attempt
  | 0, _ => throw .exhausted
  | depth + 1, name =>
    match grammar.rules.lookup name with
    | none => return none
    | some m => m.attemptOf leaf (grammar.callOf leaf depth)

/-- An attempt at the cursor itself. -/
def attemptOf (leaf : Primitive → Attempt) (grammar : Grammar) (m : Matcher) : Attempt := do
  m.attemptOf leaf (grammar.callOf leaf (grammar.depthFor (← get)))

/-- An attempt on a fork, so that the cursor only moves on a match. -/
def parseOf (leaf : Primitive → Attempt) (grammar : Grammar) (m : Matcher) : Attempt :=
  (grammar.attemptOf leaf m).keep

theorem callOf_attempt (grammar : Grammar) (depth : Nat) :
    grammar.callOf Primitive.attempt depth = grammar.call depth := by
  induction depth with
  | zero => rfl
  | succ depth ih =>
    funext name
    rw [callOf, call, ih]
    cases grammar.rules.lookup name with
    | none => rfl
    | some m => exact m.attemptOf_attempt

theorem attemptOf_attempt (grammar : Grammar) (m : Matcher) :
    grammar.attemptOf Primitive.attempt m = grammar.attempt m := by
  unfold attemptOf attempt
  simp only [callOf_attempt, Matcher.attemptOf_attempt]

end Grammar

end StreamMatch
