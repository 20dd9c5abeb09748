import StreamMatch.Regex.Search

/-!
How a search comes out when the program stands behind an assertion that the input begins there
(`Program.behindStart`). The ways that have begun at the first index come before all others, so
those that begin later on never take a place from them, and the assertion lets through just these.
What is found is then the preferred leftmost match of the program itself if that begins at the first
index, and nothing otherwise (`Program.find_behindStart`).
-/

namespace StreamMatch.Regex.Program

/-- The program behind an assertion that the input begins there. -/
def behindStart (program : Program) : Program :=
  ⟨program.code.push (.check .textStart program.entry), program.code.size⟩

/-- What a way does at its place: it has matched, or it comes to other places at the same index and
to some at the next one. -/
def move (program : Program) (bytes : Array UInt8) (index : Nat) (char : Option Char) (way : Way) :
    Option (List Way × List Way) :=
  match program.code[way.place]? with
  | none => some ([], [])
  | some .accept => none
  | some (.take set next) =>
    some ([], if char.any set.contains then [⟨way.start, next⟩] else [])
  | some (.check assertion next) =>
    some (if assertion.holds bytes index then [⟨way.start, next⟩] else [], [])
  | some (.split first second) => some ([⟨way.start, first⟩, ⟨way.start, second⟩], [])

/-- How many places no way has come to at the index. -/
def unvisited (index : Nat) (marks : Array Nat) : Nat :=
  marks.countP (· ≠ index + 1)

variable {program : Program} {bytes : Array UInt8} {index rounds : Nat} {char : Option Char}
  {way : Way} {stack ahead : List Way} {marks : Array Nat}

section Step

theorem step_zero : step program bytes index char 0 stack ahead marks =
    ⟨none, ahead.reverse, marks⟩ := by
  rw [step]

theorem step_nil : step program bytes index char rounds [] ahead marks =
    ⟨none, ahead.reverse, marks⟩ := by
  cases rounds <;> rw [step]

theorem step_cons : step program bytes index char (rounds + 1) (way :: stack) ahead marks =
    if marks[way.place]? = some (index + 1) then
      step program bytes index char rounds stack ahead marks
    else
      match program.move bytes index char way with
      | none => ⟨some way.start, ahead.reverse, marks.setIfInBounds way.place (index + 1)⟩
      | some (here, next) =>
        step program bytes index char rounds (here ++ stack) (next ++ ahead)
          (marks.setIfInBounds way.place (index + 1)) := by
  rw [step, move]
  split
  · rfl
  · cases program.code[way.place]? with
    | none => rfl
    | some instruction =>
      cases instruction with
      | accept => rfl
      | take set next => dsimp only; split <;> rfl
      | check assertion next => dsimp only; split <;> rfl
      | split first second => rfl

/-- A way keeps where it began. It comes to two places at the index at most, and to one at the next
one, and to none from outside the program. -/
theorem move_eq_some {here next : List Way}
    (hMove : program.move bytes index char way = some (here, next)) :
    (∀ other ∈ here ++ next, other.start = way.start) ∧ here.length ≤ 2 ∧ next.length ≤ 1 ∧
      (program.code.size ≤ way.place → here = [] ∧ next = []) := by
  rw [move] at hMove
  cases hCode : program.code[way.place]? with
  | none =>
    rw [hCode] at hMove
    cases hMove
    simp
  | some instruction =>
    have hPlace := (Array.getElem?_eq_some_iff.1 hCode).1
    rw [hCode] at hMove
    cases instruction with
    | accept => cases hMove
    | take set target =>
      cases hMove
      split <;> simp [hPlace]
    | check assertion target =>
      cases hMove
      split <;> simp [hPlace]
    | split first second =>
      cases hMove
      simp [hPlace]

theorem size_step :
    (step program bytes index char rounds stack ahead marks).marks.size = marks.size := by
  induction rounds generalizing stack ahead marks with
  | zero => rw [step_zero]
  | succ rounds ih =>
    cases stack with
    | nil => rw [step_nil]
    | cons way stack =>
      rw [step_cons]
      split
      · exact ih
      · cases program.move bytes index char way with
        | none => exact Array.size_setIfInBounds
        | some moved => exact ih.trans Array.size_setIfInBounds

/-- A step marks places with its own index. -/
theorem le_of_mem_marks_step (hMarks : ∀ mark ∈ marks, mark ≤ index + 1) :
    ∀ mark ∈ (step program bytes index char rounds stack ahead marks).marks, mark ≤ index + 1 := by
  induction rounds generalizing stack ahead marks with
  | zero => rwa [step_zero]
  | succ rounds ih =>
    cases stack with
    | nil => rwa [step_nil]
    | cons way stack =>
      have hSet : ∀ mark ∈ marks.setIfInBounds way.place (index + 1), mark ≤ index + 1 := by
        intro mark hMark
        rcases Array.mem_or_eq_of_mem_setIfInBounds hMark with hMark | rfl
        · exact hMarks mark hMark
        · exact Nat.le_refl _
      rw [step_cons]
      split
      · exact ih hMarks
      · cases program.move bytes index char way with
        | none => exact hSet
        | some moved => exact ih hSet

/-- Whatever holds of where the ways on the stack began holds of what the step adds to them. -/
theorem step_starts (program : Program) (bytes : Array UInt8) (index : Nat) (char : Option Char)
    (rounds : Nat) (ahead : List Way) (marks : Array Nat) (property : Nat → Prop)
    (hStack : ∀ way ∈ stack, property way.start) :
    ∃ later, (step program bytes index char rounds stack ahead marks).ahead =
        ahead.reverse ++ later ∧
      (∀ way ∈ later, property way.start) ∧
      ∀ start, (step program bytes index char rounds stack ahead marks).matched = some start →
        property start := by
  induction rounds generalizing stack ahead marks with
  | zero => exact ⟨[], by simp [step_zero]⟩
  | succ rounds ih =>
    cases stack with
    | nil => exact ⟨[], by simp [step_nil]⟩
    | cons way stack =>
      have hWay := hStack way List.mem_cons_self
      have hRest : ∀ other ∈ stack, property other.start :=
        fun other hOther => hStack other (List.mem_cons_of_mem _ hOther)
      rw [step_cons]
      split
      · exact ih _ _ hRest
      · cases hMove : program.move bytes index char way with
        | none =>
          refine ⟨[], (List.append_nil _).symm, by simp, fun start hStart => ?_⟩
          cases hStart
          exact hWay
        | some moved =>
          obtain ⟨here, next⟩ := moved
          have hMoved : ∀ other ∈ here ++ next, property other.start := by
            intro other hOther
            rw [(move_eq_some hMove).1 other hOther]
            exact hWay
          rw [List.forall_mem_append] at hMoved
          obtain ⟨later, hAhead, hLater, hMatched⟩ := ih (next ++ ahead)
            (marks.setIfInBounds way.place (index + 1)) (List.forall_mem_append.2 ⟨hMoved.1, hRest⟩)
          refine ⟨next.reverse ++ later, ?_, ?_, hMatched⟩
          · rw [hAhead, List.reverse_append, List.append_assoc]
          · refine List.forall_mem_append.2 ⟨fun other hOther => ?_, hLater⟩
            exact hMoved.2 other (List.mem_reverse.1 hOther)

/-- Coming to a place for the first time leaves one place less. -/
theorem unvisited_set (hPlace : way.place < marks.size)
    (hFirst : marks[way.place]? ≠ some (index + 1)) :
    unvisited index (marks.setIfInBounds way.place (index + 1)) + 1 = unvisited index marks := by
  have hOpen : marks[way.place] ≠ index + 1 := by
    rwa [Array.getElem?_eq_getElem hPlace, ne_eq, Option.some.injEq] at hFirst
  have hCount := Array.boole_getElem_le_countP (p := (· ≠ index + 1)) hPlace
  rw [if_pos (decide_eq_true hOpen)] at hCount
  rw [unvisited, unvisited, Array.setIfInBounds, dif_pos hPlace, Array.countP_set,
    if_pos (decide_eq_true hOpen), if_neg (by simp)]
  exact Nat.sub_add_cancel hCount

/-- Every way that goes on to the next index has come to a place of its own. -/
theorem length_ahead_step (hSize : marks.size = program.code.size) :
    (step program bytes index char rounds stack ahead marks).ahead.length ≤
      ahead.length + unvisited index marks := by
  induction rounds generalizing stack ahead marks with
  | zero => simp [step_zero]
  | succ rounds ih =>
    cases stack with
    | nil => simp [step_nil]
    | cons way stack =>
      rw [step_cons]
      split
      · exact ih hSize
      · next hFirst =>
        cases hMove : program.move bytes index char way with
        | none => simp
        | some moved =>
          obtain ⟨here, next⟩ := moved
          obtain ⟨-, -, hNext, hOutside⟩ := move_eq_some hMove
          refine Nat.le_trans (ih (Array.size_setIfInBounds.trans hSize)) ?_
          rw [List.length_append]
          by_cases hPlace : way.place < marks.size
          · have := unvisited_set hPlace hFirst
            omega
          · obtain ⟨-, rfl⟩ := hOutside (by omega)
            rw [Array.setIfInBounds_eq_of_size_le (by omega)]
            simp

end Step

section Both

variable {first second : Array Nat}

/-- The marks of a search and those of the search behind the start, at an index: the same places of
the program have been come to. The one place more, that of the assertion, lets no way through. -/
structure Beside (program : Program) (index : Nat) (first second : Array Nat) : Prop where
  size_eq : first.size = program.code.size
  size_eq' : second.size = program.code.size + 1
  visited_iff : ∀ place < program.code.size,
    (first[place]? = some (index + 1) ↔ second[place]? = some (index + 1))
  shut : second[program.code.size]? = some (index + 1) ∨ index ≠ 0

theorem Beside.set (hBeside : Beside program index first second) (place : Nat) :
    Beside program index (first.setIfInBounds place (index + 1))
      (second.setIfInBounds place (index + 1)) where
  size_eq := Array.size_setIfInBounds.trans hBeside.size_eq
  size_eq' := Array.size_setIfInBounds.trans hBeside.size_eq'
  visited_iff other hOther := by
    have hSize := hBeside.size_eq
    have hSize' := hBeside.size_eq'
    rw [Array.getElem?_setIfInBounds, Array.getElem?_setIfInBounds]
    split
    · next hSame => rw [if_pos (by omega), if_pos (by omega)]
    · exact hBeside.visited_iff other hOther
  shut := by
    have hSize' := hBeside.size_eq'
    rw [Array.getElem?_setIfInBounds]
    split
    · exact .inl (if_pos (by omega))
    · exact hBeside.shut

theorem move_behindStart (hPlace : way.place ≠ program.code.size) :
    program.behindStart.move bytes index char way = program.move bytes index char way := by
  rw [move, move, behindStart, Array.getElem?_push, if_neg hPlace]

/-- A way that comes to the assertion goes no further, but at the first index. -/
theorem move_behindStart_shut (hPlace : way.place = program.code.size) (hIndex : index ≠ 0) :
    program.behindStart.move bytes index char way = some ([], []) := by
  rw [move, behindStart, hPlace, Array.getElem?_push_size]
  simp [Assertion.holds, hIndex]

theorem move_outside (hPlace : program.code.size ≤ way.place) :
    program.move bytes index char way = some ([], []) := by
  rw [move, Array.getElem?_eq_none hPlace]

theorem step_outside (hSize : marks.size ≤ way.place) (hPlace : program.code.size ≤ way.place) :
    step program bytes index char (rounds + 1) (way :: stack) ahead marks =
      step program bytes index char rounds stack ahead marks := by
  rw [step_cons, Array.getElem?_eq_none hSize, if_neg (by simp), move_outside hPlace]
  simp only [List.nil_append]
  rw [Array.setIfInBounds_eq_of_size_le hSize]

/-- A way that has left the program is lost also behind the start. -/
theorem Beside.exists_step_outside (hBeside : Beside program index first second)
    (hPlace : program.code.size ≤ way.place) :
    ∃ marks, Beside program index first marks ∧ unvisited index marks ≤ unvisited index second ∧
      step program.behindStart bytes index char (rounds + 1) (way :: stack) ahead second =
        step program.behindStart bytes index char rounds stack ahead marks := by
  have hSize' := hBeside.size_eq'
  by_cases hShut : way.place = program.code.size
  · rw [step_cons]
    split
    · exact ⟨second, hBeside, Nat.le_refl _, rfl⟩
    · next hFirst =>
      have hIndex := hBeside.shut.resolve_left (hShut ▸ hFirst)
      have hSet := hBeside.set way.place
      rw [Array.setIfInBounds_eq_of_size_le (hBeside.size_eq ▸ hPlace)] at hSet
      have hLess := unvisited_set (by omega) hFirst
      rw [move_behindStart_shut hShut hIndex]
      exact ⟨_, hSet, by omega, rfl⟩
  · refine ⟨second, hBeside, Nat.le_refl _, step_outside (by omega) ?_⟩
    rw [behindStart, Array.size_push]
    omega

/-- Two steps come to the same as long as they go through the same ways. Either one of these
matches, or what is behind them on both stacks is left, in `rest` and `others`, with the same
ahead. -/
theorem step_together (bytes : Array UInt8) (char : Option Char) {ways : List Way}
    (rest others : List Way) {start rounds rounds' : Nat}
    (hBeside : Beside program index first second)
    (hWays : ∀ way ∈ ways, way.start = start) (hAhead : ∀ way ∈ ahead, way.start = start)
    (hRounds : ways.length + 2 * unvisited index first ≤ rounds)
    (hRounds' : ways.length + 2 * unvisited index second ≤ rounds') :
    ∃ common first' second', (∀ way ∈ common, way.start = start) ∧
      (step program bytes index char rounds (ways ++ rest) ahead first =
          ⟨some start, common.reverse, first'⟩ ∧
        step program.behindStart bytes index char rounds' (ways ++ others) ahead second =
          ⟨some start, common.reverse, second'⟩ ∨
      ∃ left left', step program bytes index char rounds (ways ++ rest) ahead first =
          step program bytes index char left rest common first' ∧
        step program.behindStart bytes index char rounds' (ways ++ others) ahead second =
          step program.behindStart bytes index char left' others common second') := by
  induction rounds generalizing ways ahead first second rounds' with
  | zero =>
    obtain rfl := List.length_eq_zero_iff.1 (show ways.length = 0 by omega)
    exact ⟨ahead, first, second, hAhead, .inr ⟨0, rounds', rfl, rfl⟩⟩
  | succ rounds ih =>
    cases ways with
    | nil => exact ⟨ahead, first, second, hAhead, .inr ⟨rounds + 1, rounds', rfl, rfl⟩⟩
    | cons way ways =>
      obtain ⟨hStart, hWays⟩ := List.forall_mem_cons.1 hWays
      rw [List.length_cons] at hRounds hRounds'
      obtain ⟨rounds', rfl⟩ := Nat.exists_eq_add_one_of_ne_zero (show rounds' ≠ 0 by omega)
      rw [List.cons_append, List.cons_append]
      have hSize := hBeside.size_eq
      have hSize' := hBeside.size_eq'
      by_cases hPlace : way.place < program.code.size
      · have hVisited := hBeside.visited_iff way.place hPlace
        rw [step_cons, step_cons, move_behindStart (Nat.ne_of_lt hPlace)]
        by_cases hFirst : first[way.place]? = some (index + 1)
        · rw [if_pos hFirst, if_pos (hVisited.1 hFirst)]
          exact ih hBeside hWays hAhead (by omega) (by omega)
        · rw [if_neg hFirst, if_neg (mt hVisited.2 hFirst)]
          have hLess := unvisited_set (by omega) hFirst
          have hLess' := unvisited_set (by omega) (mt hVisited.2 hFirst)
          cases hMove : program.move bytes index char way with
          | none =>
            rw [hStart]
            exact ⟨ahead, _, _, hAhead, .inl ⟨rfl, rfl⟩⟩
          | some moved =>
            obtain ⟨here, next⟩ := moved
            obtain ⟨hMoved, hHere, -, -⟩ := move_eq_some hMove
            rw [hStart] at hMoved
            obtain ⟨hHereStart, hNextStart⟩ := List.forall_mem_append.1 hMoved
            simp only [← List.append_assoc]
            refine ih (hBeside.set way.place) (List.forall_mem_append.2 ⟨hHereStart, hWays⟩)
              (List.forall_mem_append.2 ⟨hNextStart, hAhead⟩) ?_ ?_
            · rw [List.length_append]
              omega
            · rw [List.length_append]
              omega
      · rw [step_outside (by omega) (by omega)]
        obtain ⟨marks, hMarks, hLess, hStep⟩ :=
          hBeside.exists_step_outside (Nat.le_of_not_lt hPlace)
        rw [hStep]
        exact ih hMarks hWays hAhead (by omega) (by omega)

/-- Nothing is marked at an index before the step there. -/
theorem beside_of_le (hSize : first.size = program.code.size)
    (hSize' : second.size = program.code.size + 1) (hFirst : ∀ mark ∈ first, mark ≤ index)
    (hSecond : ∀ mark ∈ second, mark ≤ index) (hIndex : index ≠ 0) :
    Beside program index first second where
  size_eq := hSize
  size_eq' := hSize'
  visited_iff place hPlace := by
    have hNot {marks : Array Nat} (hMarks : ∀ mark ∈ marks, mark ≤ index) :
        marks[place]? ≠ some (index + 1) := by
      intro hMark
      exact absurd (hMarks _ (Array.mem_of_getElem? hMark)) (Nat.not_succ_le_self index)
    exact iff_of_false (hNot hFirst) (hNot hSecond)
  shut := .inr hIndex

/-- A way that begins later on comes no further than the assertion. -/
theorem step_idle (program : Program) (bytes : Array UInt8) (char : Option Char) (rounds : Nat)
    (ahead : List Way) (marks : Array Nat) {idle : List Way}
    (hIdle : idle = [] ∨ idle = [⟨index, program.code.size⟩] ∧ index ≠ 0) :
    (step program.behindStart bytes index char rounds idle ahead marks).matched = none ∧
      (step program.behindStart bytes index char rounds idle ahead marks).ahead =
        ahead.reverse := by
  obtain rfl | ⟨rfl, hIndex⟩ := hIdle
  · rw [step_nil]
    exact ⟨rfl, rfl⟩
  · cases rounds with
    | zero =>
      rw [step_zero]
      exact ⟨rfl, rfl⟩
    | succ rounds =>
      rw [step_cons, move_behindStart_shut rfl hIndex]
      split
      · rw [step_nil]
        exact ⟨rfl, rfl⟩
      · simp only [List.nil_append]
        rw [step_nil]
        exact ⟨rfl, rfl⟩

/-- The step at an index when the ways that have begun at the first one come first. Behind the start
those that have begun later are not there, and at most a way that stands before the assertion is. -/
theorem step_index (bytes : Array UInt8) (char : Option Char) {ways later idle : List Way}
    (hBeside : Beside program index first second)
    (hWays : ∀ way ∈ ways, way.start = 0) (hLater : ∀ way ∈ later, way.start ≠ 0)
    (hIdle : idle = [] ∨ idle = [⟨index, program.code.size⟩] ∧ index ≠ 0)
    (hLength : ways.length ≤ program.code.size + 1) {rounds' : Nat}
    (hRounds : 3 * program.code.size + 3 ≤ rounds)
    (hRounds' : 3 * program.code.size + 3 ≤ rounds') :
    let after := step program bytes index char rounds (ways ++ later) [] first
    let after' := step program.behindStart bytes index char rounds' (ways ++ idle) [] second
    after'.matched = after.matched.filter (· = 0) ∧
      (later = [] → after'.matched = after.matched) ∧
      (∀ way ∈ after'.ahead, way.start = 0) ∧
      ∃ behind, after.ahead = after'.ahead ++ behind ∧ (∀ way ∈ behind, way.start ≠ 0) ∧
        (after'.matched ≠ none ∨ later = [] → behind = []) := by
  intro after after'
  have hCount : unvisited index first ≤ first.size := Array.countP_le_size
  have hCount' : unvisited index second ≤ second.size := Array.countP_le_size
  have hSize := hBeside.size_eq
  have hSize' := hBeside.size_eq'
  obtain ⟨common, first', second', hCommon, ⟨hStep, hStep'⟩ | ⟨left, left', hStep, hStep'⟩⟩ :=
    step_together bytes char later idle hBeside hWays (List.forall_mem_nil _)
      (show _ ≤ rounds by omega) (show _ ≤ rounds' by omega)
  · simp only [after, after', hStep, hStep']
    refine ⟨rfl, fun _ => trivial, ?_, [], (List.append_nil _).symm, by simp, fun _ => rfl⟩
    exact fun way hWay => hCommon way (List.mem_reverse.1 hWay)
  · obtain ⟨hNone, hAhead⟩ := step_idle program bytes char left' common second' hIdle
    obtain ⟨behind, hBehind, hStarts, hMatched⟩ :=
      step_starts program bytes index char left common first' (· ≠ 0) hLater
    simp only [after, after', hStep, hStep', hNone, hAhead, hBehind]
    refine ⟨?_, ?_, fun way hWay => hCommon way (List.mem_reverse.1 hWay), behind, rfl, hStarts, ?_⟩
    · cases hFound : (step program bytes index char left later common first').matched with
      | none => rfl
      | some start =>
        have hStart : start ≠ 0 := hMatched start hFound
        simp [Option.filter, hStart]
    · rintro rfl
      rw [step_nil]
    · rintro (hSome | rfl)
      · exact absurd rfl hSome
      · rw [step_nil] at hBehind
        simpa using hBehind

end Both

section Search

/-- The match found so far after a step at an index. -/
def foundAt (index : Nat) (found : Option (Nat × Nat)) : (matched : Option Nat) → Option (Nat × Nat)
  | none => found
  | some start => some (start, index)

/-- Behind the start the same is found as without it, as far as it starts at the first index. Once
something has been found there, both searches go on to match the same. -/
theorem foundAt_filter {found found' : Option (Nat × Nat)} {matched matched' : Option Nat}
    (hFound : found' = found.filter (·.1 = 0)) (hMatched : matched' = matched.filter (· = 0))
    (hSame : found' ≠ none → matched' = matched) :
    foundAt index found' matched' = (foundAt index found matched).filter (·.1 = 0) := by
  cases matched with
  | none =>
    rw [hMatched]
    exact hFound
  | some start =>
    by_cases hStart : start = 0
    · rw [hMatched, hStart]
      rfl
    · have hNone : matched' = none := by
        rw [hMatched, Option.filter, if_neg (by simp [hStart])]
      have hNothing : found' = none := by
        refine Decidable.byContradiction fun hSome => ?_
        rw [hSame hSome] at hNone
        cases hNone
      rw [hNone, hNothing, foundAt, foundAt, Option.filter, if_neg (by simp [hStart])]

/-- The ways that go through the step at an index: those that have arrived there, and a new one if
nothing has been found. -/
def arrivals (program : Program) (index due : Nat) (ways : List Way)
    (found : Option (Nat × Nat)) : List Way :=
  (if index = due then ways else []) ++ if found.isNone then [⟨index, program.entry⟩] else []

/-- The step at an index. -/
def stepAt (program : Program) (bytes : Array UInt8) (index due : Nat) (ways : List Way)
    (found : Option (Nat × Nat)) (marks : Array Nat) : Step :=
  step program bytes index ((charAt? bytes index).map (·.1)) (3 * program.code.size + 3)
    (arrivals program index due ways found) [] marks

/-- One index of a search: the step there, and the search from the next index on. -/
theorem searchFrom_succ (program : Program) (bytes : Array UInt8) (index due : Nat)
    (ways : List Way) (found : Option (Nat × Nat)) (marks : Array Nat) (more : Nat) :
    searchFrom program bytes index due ways found marks (more + 1) =
      if ways.isEmpty && found.isSome then found
      else
        let after := stepAt program bytes index due ways found marks
        searchFrom program bytes (index + 1)
          (if index = due then index + ((charAt? bytes index).map (·.2)).getD 1 else due)
          (if index = due then after.ahead else ways)
          (foundAt index found after.matched) after.marks more := by
  rw [searchFrom, stepAt, arrivals]
  split
  · rfl
  · dsimp only
    split <;> rfl

/-- Behind the start, a search that has lost the ways from the first index finds nothing. -/
theorem searchFrom_idle {more due : Nat} {second : Array Nat} (hIndex : index ≠ 0) :
    searchFrom program.behindStart bytes index due [] none second more = none := by
  induction more generalizing index due second with
  | zero => rfl
  | succ more ih =>
    have hArrivals : arrivals program.behindStart index due [] none =
        [⟨index, program.code.size⟩] := by
      rw [arrivals, ite_self]
      rfl
    have hIdle := step_idle program bytes ((charAt? bytes index).map (·.1))
      (3 * program.behindStart.code.size + 3) [] second (.inr ⟨hArrivals, hIndex⟩)
    rw [searchFrom_succ, stepAt]
    dsimp only
    rw [hIdle.1, hIdle.2]
    simp only [Option.isSome_none, Bool.and_false, Bool.false_eq_true, if_false, ite_self,
      List.reverse_nil]
    exact ih (Nat.succ_ne_zero _)

/-- A search and the one behind the start, at an index behind the first one. -/
structure Alongside (program : Program) (index : Nat) (ways early : List Way)
    (found found' : Option (Nat × Nat)) (first second : Array Nat) : Prop where
  start_eq : ∀ way ∈ early, way.start = 0
  exists_later : ∃ later, ways = early ++ later ∧ (∀ way ∈ later, way.start ≠ 0) ∧
    (found' ≠ none → later = [])
  length_le : early.length ≤ program.code.size + 1
  found_eq : found' = found.filter (·.1 = 0)
  size_eq : first.size = program.code.size
  size_eq' : second.size = program.code.size + 1
  le_of_mem : ∀ mark ∈ first, mark ≤ index
  le_of_mem' : ∀ mark ∈ second, mark ≤ index

namespace Alongside

variable {ways early : List Way} {found found' : Option (Nat × Nat)}
  {first second : Array Nat}

/-- The ways from the first index go through a step first in both searches. -/
theorem exists_arrivals (due : Nat)
    (hAlongside : Alongside program index ways early found found' first second)
    (hIndex : index ≠ 0) :
    ∃ here others idle, arrivals program index due ways found = here ++ others ∧
      arrivals program.behindStart index due early found' = here ++ idle ∧
      (index ≠ due → here = []) ∧
      (∀ way ∈ here, way.start = 0) ∧ here.length ≤ program.code.size + 1 ∧
      (∀ way ∈ others, way.start ≠ 0) ∧ (found' ≠ none → others = []) ∧
      (idle = [] ∨ idle = [⟨index, program.code.size⟩] ∧ index ≠ 0) := by
  obtain ⟨later, hWays, hLater, hNone⟩ := hAlongside.exists_later
  refine ⟨if index = due then early else [], (if index = due then later else []) ++
    if found.isNone then [⟨index, program.entry⟩] else [], _, ?_, rfl, fun hDue => if_neg hDue, ?_,
    ?_, ?_, ?_, ?_⟩
  · rw [arrivals, hWays, ← List.append_assoc]
    split <;> rfl
  · split
    · exact hAlongside.start_eq
    · exact List.forall_mem_nil _
  · split
    · exact hAlongside.length_le
    · exact Nat.zero_le _
  · refine List.forall_mem_append.2 ⟨?_, ?_⟩
    · split
      · exact hLater
      · exact List.forall_mem_nil _
    · split
      · exact List.forall_mem_singleton.2 hIndex
      · exact List.forall_mem_nil _
  · intro hSome
    have hFound : found.isNone = false := by
      rw [hAlongside.found_eq] at hSome
      cases found with
      | none => exact absurd rfl hSome
      | some found => rfl
    rw [hNone hSome, hFound, ite_self, if_neg Bool.false_ne_true, List.append_nil]
  · cases found' with
    | none => exact .inr ⟨rfl, hIndex⟩
    | some found' => exact .inl rfl

/-- The next index, whether the ways have arrived there or not. -/
theorem next (due : Nat) (hAlongside : Alongside program index ways early found found' first second)
    (hIndex : index ≠ 0) :
    let after := stepAt program bytes index due ways found first
    let after' := stepAt program.behindStart bytes index due early found' second
    Alongside program (index + 1) (if index = due then after.ahead else ways)
      (if index = due then after'.ahead else early) (foundAt index found after.matched)
      (foundAt index found' after'.matched) after.marks after'.marks := by
  intro after after'
  obtain ⟨here, others, idle, hStack, hStack', hEmpty, hHere, hLength, hOthers, hAlone, hIdle⟩ :=
    hAlongside.exists_arrivals due hIndex
  have hBeside := beside_of_le hAlongside.size_eq hAlongside.size_eq' hAlongside.le_of_mem
    hAlongside.le_of_mem' hIndex
  have hMore : program.behindStart.code.size = program.code.size + 1 := Array.size_push _
  have hStep := step_index bytes ((charAt? bytes index).map (·.1)) hBeside hHere hOthers hIdle
    hLength (Nat.le_refl _)
    (show _ ≤ 3 * program.behindStart.code.size + 3 by omega)
  rw [← hStack, ← hStack'] at hStep
  obtain ⟨hMatched : after'.matched = after.matched.filter (· = 0), hSame, hStart, behind, hAhead,
    hBehind, hNothing⟩ := hStep
  -- What has been found behind the start leaves no others.
  have hNew : foundAt index found' after'.matched ≠ none → after'.matched ≠ none ∨ others = [] := by
    intro hSome
    cases hMatch : after'.matched with
    | none =>
      rw [hMatch] at hSome
      exact .inr (hAlone hSome)
    | some start => exact .inl (Option.some_ne_none start)
  refine ⟨?_, ?_, ?_, ?_, ?_, ?_, ?_, ?_⟩
  · split
    · exact hStart
    · exact hAlongside.start_eq
  · split
    · exact ⟨behind, hAhead, hBehind, fun hSome => hNothing (hNew hSome)⟩
    · next hDue =>
      obtain ⟨later, hWays, hLater, hNone⟩ := hAlongside.exists_later
      refine ⟨later, hWays, hLater, fun hSome => hNone ?_⟩
      have hIdle' : arrivals program.behindStart index due early found' = idle := by
        rw [hStack', hEmpty hDue, List.nil_append]
      have hMatched' : after'.matched = none := (step_idle _ _ _ _ _ _ (hIdle' ▸ hIdle)).1
      rwa [hMatched'] at hSome
  · split
    · refine Nat.le_trans (length_ahead_step ?_) ?_
      · exact hAlongside.size_eq'.trans (Array.size_push _).symm
      · rw [List.length_nil, Nat.zero_add, ← hAlongside.size_eq']
        exact Array.countP_le_size
    · exact hAlongside.length_le
  · exact foundAt_filter hAlongside.found_eq hMatched (hSame ∘ hAlone)
  · exact size_step.trans hAlongside.size_eq
  · exact size_step.trans hAlongside.size_eq'
  · exact le_of_mem_marks_step fun mark hMark =>
      Nat.le_succ_of_le (hAlongside.le_of_mem mark hMark)
  · exact le_of_mem_marks_step fun mark hMark =>
      Nat.le_succ_of_le (hAlongside.le_of_mem' mark hMark)

end Alongside

theorem searchFrom_behindStart {more due : Nat} {ways early : List Way}
    {found found' : Option (Nat × Nat)} {first second : Array Nat}
    (hAlongside : Alongside program index ways early found found' first second)
    (hIndex : index ≠ 0) :
    searchFrom program.behindStart bytes index due early found' second more =
      (searchFrom program bytes index due ways found first more).filter (·.1 = 0) := by
  induction more generalizing index due ways early found found' first second with
  | zero => exact hAlongside.found_eq
  | succ more ih =>
    obtain ⟨later, hWays, -, hNone⟩ := hAlongside.exists_later
    by_cases hStop : (ways.isEmpty && found.isSome) = true
    · obtain ⟨hEmpty, -⟩ := Bool.and_eq_true_iff.1 hStop
      rw [searchFrom_succ program, if_pos hStop, ← hAlongside.found_eq]
      obtain ⟨rfl, -⟩ := List.append_eq_nil_iff.1 (hWays.symm.trans (List.isEmpty_iff.1 hEmpty))
      cases hFound' : found' with
      | none => exact searchFrom_idle hIndex
      | some found' => rfl
    · rw [searchFrom_succ, searchFrom_succ program, if_neg hStop, if_neg ?_]
      · exact ih (hAlongside.next due hIndex) (Nat.succ_ne_zero _)
      · intro hStop'
        obtain ⟨hEmpty, hSome⟩ := Bool.and_eq_true_iff.1 hStop'
        have hSome' : found' ≠ none := Option.isSome_iff_ne_none.1 hSome
        rw [hNone hSome', List.append_nil] at hWays
        rw [hAlongside.found_eq] at hSome
        apply hStop
        rw [hWays, hEmpty, Bool.true_and]
        cases found with
        | none => cases hSome
        | some found => rfl

/-- At the first index the assertion lets its only way through. -/
theorem alongside_first (program : Program) (bytes : Array UInt8) :
    let first := Array.replicate program.code.size 0
    let second := Array.replicate program.behindStart.code.size 0
    let after := stepAt program bytes 0 0 [] none first
    let after' := stepAt program.behindStart bytes 0 0 [] none second
    Alongside program 1 after.ahead after'.ahead (foundAt 0 none after.matched)
      (foundAt 0 none after'.matched) after.marks after'.marks := by
  intro first second after after'
  have hMore : program.behindStart.code.size = program.code.size + 1 := Array.size_push _
  have hShut : second[program.code.size]? ≠ some 1 := by
    simp [second, hMore]
  have hMove : program.behindStart.move bytes 0 ((charAt? bytes 0).map (·.1))
      ⟨0, program.code.size⟩ = some ([⟨0, program.entry⟩], []) := by
    rw [move, behindStart, Array.getElem?_push_size]
    rfl
  have hAfter' : after' = step program.behindStart bytes 0 ((charAt? bytes 0).map (·.1))
      (3 * program.behindStart.code.size + 2) ([⟨0, program.entry⟩] ++ []) []
      (second.setIfInBounds program.code.size 1) := by
    have hArrivals : arrivals program.behindStart 0 0 [] none = [⟨0, program.code.size⟩] := rfl
    simp only [after', stepAt, hArrivals]
    rw [step_cons, if_neg hShut, hMove]
    rfl
  have hBeside : Beside program 0 first (second.setIfInBounds program.code.size 1) := by
    refine ⟨Array.size_replicate, ?_, ?_, .inl ?_⟩
    · rw [Array.size_setIfInBounds, Array.size_replicate, hMore]
    · intro place hPlace
      rw [Array.getElem?_setIfInBounds_ne (Nat.ne_of_gt hPlace)]
      simp [first, second, hMore, hPlace, Nat.lt_succ_of_lt hPlace]
    · simp [second, hMore]
  have hStep := step_index bytes ((charAt? bytes 0).map (·.1)) hBeside
    (List.forall_mem_singleton.2 (show (⟨0, program.entry⟩ : Way).start = 0 from rfl))
    (List.forall_mem_nil _) (.inl rfl) (Nat.succ_le_succ (Nat.zero_le _)) (Nat.le_refl _)
    (show _ ≤ 3 * program.behindStart.code.size + 2 by omega)
  rw [← hAfter'] at hStep
  obtain ⟨hMatched : after'.matched = after.matched.filter (· = 0), -, hStart, behind,
    hAhead : after.ahead = after'.ahead ++ behind, -, hNothing⟩ := hStep
  have hUnmarked {count : Nat} : ∀ mark ∈ Array.replicate count 0, mark ≤ 0 + 1 := by
    intro mark hMark
    rw [(Array.mem_replicate.1 hMark).2]
    exact Nat.zero_le _
  refine ⟨hStart, ⟨[], ?_, List.forall_mem_nil _, fun _ => rfl⟩, ?_, ?_, ?_, ?_, ?_, ?_⟩
  · rw [hAhead, hNothing (.inr rfl)]
  · refine Nat.le_trans (length_ahead_step Array.size_replicate) ?_
    rw [List.length_nil, Nat.zero_add, ← hMore]
    exact Nat.le_trans Array.countP_le_size (Nat.le_of_eq Array.size_replicate)
  · exact foundAt_filter rfl hMatched fun hSome => (hSome rfl).elim
  · exact size_step.trans Array.size_replicate
  · exact (size_step.trans Array.size_replicate).trans hMore
  · exact le_of_mem_marks_step hUnmarked
  · exact le_of_mem_marks_step hUnmarked

/-- What is found behind the start is the preferred leftmost match of the program itself, if that
begins at the first index. -/
theorem find_behindStart (program : Program) (bytes : Array UInt8) :
    program.behindStart.find bytes = (program.find bytes).filter (·.1 = 0) := by
  rw [find, find, searchFrom_succ, searchFrom_succ program]
  exact searchFrom_behindStart (alongside_first program bytes) Nat.one_ne_zero

end Search

end StreamMatch.Regex.Program
