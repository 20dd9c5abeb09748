import StreamMatch.Proofs.Regex.Consumption

/-!
How many rounds reading the text of a regular expression needs. Those parts of the reader that go
round take a character at least in each round, so that any number of rounds will do that is greater
than the number of characters that are taken (`Reads.Covers`, `Expr.covers_alternatives`).
-/

namespace StreamMatch.Regex

namespace Reads

variable {α β : Type} {least budget : Nat} {progress : Progress}

/-- The first action comes to what the second one comes to, if that takes fewer characters than the
budget. -/
def Covers (budget : Nat) (first second : Reads α) (progress : Progress) : Prop :=
  ∀ value after, second progress = .ok (value, after) →
    progress.rest.length < after.rest.length + budget → first progress = .ok (value, after)

namespace Covers

theorem refl (action : Reads α) : Covers budget action action progress :=
  fun _ _ hRun _ => hRun

theorem throw (first : Reads α) (defect : Defect) : Covers budget first (throw defect) progress :=
  fun _ _ hRun _ => by cases hRun

theorem of_takes {first second : Reads α} (hTakes : Takes budget second progress) :
    Covers budget first second progress := by
  intro value after hRun hBudget
  have hLength := hTakes.length_le hRun
  omega

/-- A part that both begin with uses some of the budget. -/
theorem spend {action : Reads α} {next next' : α → Reads β}
    (hAction : Takes least action progress)
    (hNext : ∀ value after, Covers budget (next value) (next' value) after) :
    Covers (budget + least) (action >>= next) (action >>= next') progress := by
  intro value last hRun hBudget
  obtain ⟨first, after, hFirst, hSecond⟩ := bind_eq_ok hRun
  have hLength := hAction.length_le hFirst
  rw [bind_of_ok hFirst]
  exact hNext first after value last hSecond (by omega)

theorem andThen {action : Reads α} {next next' : α → Reads β} (hAction : Takes 0 action progress)
    (hNext : ∀ value after, Covers budget (next value) (next' value) after) :
    Covers budget (action >>= next) (action >>= next') progress :=
  spend hAction hNext

/-- Of the budget each part may use what the other one leaves. -/
theorem share {first second : Reads α} {next next' : α → Reads β} {more : Nat}
    (hAction : Covers budget first second progress) (hTakes : Takes least second progress)
    (hMore : ∀ value after, Takes more (next' value) after)
    (hNext : ∀ value after, Covers (budget + more - least) (next value) (next' value) after) :
    Covers (budget + more) (first >>= next) (second >>= next') progress := by
  intro value last hRun hBudget
  obtain ⟨middle, after, hFirst, hSecond⟩ := bind_eq_ok hRun
  have hLength := hTakes.length_le hFirst
  have hLength' := (hMore middle after).length_le hSecond
  rw [bind_of_ok (hAction middle after hFirst (by omega))]
  exact hNext middle after value last hSecond (by omega)

theorem bind {first second : Reads α} {next next' : α → Reads β}
    (hAction : Covers budget first second progress) (hTakes : Takes least second progress)
    (hMore : ∀ value after, Takes 0 (next' value) after)
    (hNext : ∀ value after, Covers (budget - least) (next value) (next' value) after) :
    Covers budget (first >>= next) (second >>= next') progress :=
  share hAction hTakes hMore hNext

theorem rest {next next' : List Char → Reads β}
    (hNext : Covers budget (next progress.rest) (next' progress.rest) progress) :
    Covers budget (Reads.rest >>= next) (Reads.rest >>= next') progress := hNext

theorem flags {next next' : Flags → Reads β}
    (hNext : Covers budget (next progress.flags) (next' progress.flags) progress) :
    Covers budget (Reads.flags >>= next) (Reads.flags >>= next') progress := hNext

theorem ite {condition : Prop} [Decidable condition] {first second first' second' : Reads α}
    (hFirst : Covers budget first first' progress)
    (hSecond : Covers budget second second' progress) :
    Covers budget (if condition then first else second) (if condition then first' else second')
      progress := by
  split
  · exact hFirst
  · exact hSecond

end Covers

end Reads

namespace Escape

open Reads

variable {progress : Progress}

theorem covers_hexBraced {budget : Nat} (value : Nat) (opening : Bool) {rounds rounds' : Nat}
    (hRounds : budget ≤ rounds) (hRounds' : budget ≤ rounds') :
    Covers budget (hexBraced value opening rounds) (hexBraced value opening rounds') progress := by
  induction budget generalizing value opening rounds rounds' progress with
  | zero => exact .of_takes (takes_hexBraced _ _ _)
  | succ budget ih =>
    obtain ⟨rounds, rfl⟩ := Nat.exists_eq_add_one_of_ne_zero (Nat.ne_zero_of_lt hRounds)
    obtain ⟨rounds', rfl⟩ := Nat.exists_eq_add_one_of_ne_zero (Nat.ne_zero_of_lt hRounds')
    rw [hexBraced, hexBraced]
    refine .andThen Takes.skipBlanks fun _ after => .rest ?_
    split
    · exact .refl _
    · exact .refl _
    · exact .spend takes_hexDigit fun _ _ =>
        ih _ _ (Nat.le_of_succ_le_succ hRounds) (Nat.le_of_succ_le_succ hRounds')

end Escape

namespace Bracket

open Reads

variable {progress : Progress}

theorem covers_hyphens {budget : Nat} (first : Items) {rounds rounds' : Nat}
    (hRounds : budget ≤ rounds) (hRounds' : budget ≤ rounds') :
    Covers budget (hyphens first rounds) (hyphens first rounds') progress := by
  induction budget generalizing first rounds rounds' progress with
  | zero => exact .of_takes (takes_hyphens _ _)
  | succ budget ih =>
    obtain ⟨rounds, rfl⟩ := Nat.exists_eq_add_one_of_ne_zero (Nat.ne_zero_of_lt hRounds)
    obtain ⟨rounds', rfl⟩ := Nat.exists_eq_add_one_of_ne_zero (Nat.ne_zero_of_lt hRounds')
    rw [hyphens, hyphens]
    refine .rest ?_
    split
    · exact .spend (Takes.skipWithin _) fun _ _ =>
        ih _ (Nat.le_of_succ_le_succ hRounds) (Nat.le_of_succ_le_succ hRounds')
    · exact .refl _

section Covers

variable {budget rounds rounds' : Nat} {negated : Bool}

theorem covers_fromFirst
    (hItems : ∀ operand progress,
      Covers (budget + 1) (items rounds none operand) (items rounds' none operand) progress)
    (first : Items) :
    Covers (budget + 1) (fromFirst rounds negated first) (fromFirst rounds' negated first)
      progress := by
  have hFrom (first : Items) (progress : Progress) :
      Covers (budget + 1) (fromItems rounds negated first) (fromItems rounds' negated first)
        progress :=
    .bind (hItems _ _) ((takes_class rounds').2.1 _ _ _)
      (fun _ _ => (takes_finish _ _).bind fun _ _ => .pure _) fun _ _ => .refl _
  apply Covers.rest
  split
  · exact .andThen ((Takes.skipWithin _).zero) fun _ _ => hFrom _ _
  · exact hFrom _ _

theorem covers_fromSign (hRounds : budget ≤ rounds) (hRounds' : budget ≤ rounds')
    (hItems : ∀ operand progress,
      Covers (budget + 1) (items rounds none operand) (items rounds' none operand) progress) :
    Covers (budget + 1) (fromSign rounds negated) (fromSign rounds' negated) progress := by
  have hFirst (progress : Progress) : Covers (budget + 1)
      (hyphens {} rounds >>= fromFirst rounds negated)
      (hyphens {} rounds' >>= fromFirst rounds' negated) progress :=
    .share (covers_hyphens _ hRounds hRounds') (takes_hyphens _ _)
      (fun _ _ => takes_fromFirst ((takes_class rounds').2.1 none) _)
      fun _ _ => covers_fromFirst hItems _
  exact .ite (.andThen ((Takes.skipWithin _).zero) fun _ => hFirst) (hFirst _)

theorem covers_nested {text : List Char}
    (hRead : ∀ progress, Covers (budget + 1) (read rounds) (read rounds') progress)
    (hItems : ∀ pending operand progress,
      Covers (budget + 1) (items rounds pending operand) (items rounds' pending operand) progress)
    (hRest : progress.rest = '[' :: text) (pending : Option (Operator × Part)) (operand : Items) :
    Covers (budget + 1 + 1) (nested rounds pending operand (ascii? ('[' :: text)))
      (nested rounds' pending operand (ascii? ('[' :: text))) progress := by
  obtain ⟨hTakesRead, hTakesItems, -⟩ := takes_class rounds'
  cases hClass : ascii? ('[' :: text) with
  | none =>
    exact .share (hRead _) (hTakesRead _) (fun _ _ => hTakesItems _ _ _) fun _ _ => hItems _ _ _
  | some found =>
    exact .spend (takes_ascii hRest hClass) fun _ _ => .andThen (takes_finish _ _) fun _ _ =>
      hItems _ _ _

end Covers

theorem covers_class {budget rounds rounds' : Nat} (hRounds : budget ≤ rounds)
    (hRounds' : budget ≤ rounds') :
    (∀ progress, Covers (budget + 1) (read rounds) (read rounds') progress) ∧
      (∀ pending operand progress,
        Covers (budget + 1) (items rounds pending operand) (items rounds' pending operand)
          progress) ∧
      ∀ op pending operand progress, 2 ≤ progress.rest.length →
        Covers (budget + 2) (operator rounds op pending operand)
          (operator rounds' op pending operand) progress := by
  induction budget generalizing rounds rounds' with
  | zero =>
    obtain ⟨hRead, hItems, -⟩ := takes_class rounds'
    refine ⟨fun _ => .of_takes (hRead _), fun _ _ _ => .of_takes (hItems _ _ _), ?_⟩
    intro op pending operand progress hLength
    cases rounds' with
    | zero => exact .throw _ _
    | succ rounds' =>
      refine .of_takes ((Takes.skip_of_le hLength).bind fun _ _ => ?_)
      exact (takes_close _ _).bind fun _ _ =>
        ((takes_class rounds').2.1 _ _ _).zero
  | succ budget ih =>
    obtain ⟨rounds, rfl⟩ := Nat.exists_eq_add_one_of_ne_zero (Nat.ne_zero_of_lt hRounds)
    obtain ⟨rounds', rfl⟩ := Nat.exists_eq_add_one_of_ne_zero (Nat.ne_zero_of_lt hRounds')
    have hLess := Nat.le_of_succ_le_succ hRounds
    have hLess' := Nat.le_of_succ_le_succ hRounds'
    obtain ⟨hRead, hItems, hOperator⟩ := ih hLess hLess'
    refine ⟨fun progress => ?_, fun pending operand progress => ?_,
      fun op pending operand progress hLength => ?_⟩
    · rw [read_succ, read_succ]
      refine .spend (Takes.skipWithin _) fun _ _ => .rest ?_
      exact covers_fromSign hLess hLess' (hItems none)
    · rw [items, items]
      refine .andThen Takes.skipBlanks fun _ after => .rest ?_
      split
      · exact .refl _
      · exact .refl _
      · next hRest =>
        exact covers_nested hRead hItems hRest pending operand
      · next hRest => exact hOperator _ _ _ _ (by simp [hRest])
      · next hRest => exact hOperator _ _ _ _ (by simp [hRest])
      · next hRest => exact hOperator _ _ _ _ (by simp [hRest])
      · exact .spend takes_interval fun _ _ => hItems _ _ _
    · rw [operator, operator]
      exact .spend (Takes.skip_of_le hLength) fun _ _ => .andThen (takes_close _ _) fun _ _ =>
        hItems _ _ _

end Bracket

namespace Expr

open Reads

variable {progress : Progress}

section Covers

variable {budget rounds rounds' : Nat}

theorem covers_closeGroup
    (hAll : ∀ pieces progress,
      Covers budget (alternatives pieces rounds) (alternatives pieces rounds') progress)
    (pieces : Pieces) (around : Flags) (index : Option Nat) (body : Item) :
    Covers budget (closeGroup pieces rounds around index body)
      (closeGroup pieces rounds' around index body) progress := by
  apply Covers.rest
  split
  · next hRest =>
    exact .andThen (Takes.continueAt_suffix (hRest ▸ List.suffix_cons _ _)) fun _ _ =>
      .andThen (Takes.setFlags _) fun _ _ => hAll _ _
  · exact .throw _ _

theorem covers_goInside
    (hAll : ∀ pieces progress,
      Covers budget (alternatives pieces rounds) (alternatives pieces rounds') progress)
    (pieces : Pieces) (around : Flags) (opened : Opening) :
    Covers budget (goInside pieces rounds around opened)
      (goInside pieces rounds' around opened) progress := by
  cases opened with
  | flags onwards => exact .andThen (Takes.setFlags _) fun _ _ => hAll _ _
  | group index inside =>
    refine .andThen (Takes.setFlags _) fun _ _ => .bind (hAll _ _) (takes_alternatives _ _)
      (fun _ _ => ?_) fun _ _ => covers_closeGroup hAll _ _ _ _
    exact takes_closeGroup (fun _ _ => takes_alternatives _ _) _ _ _ _

theorem covers_goPast
    (hAll : ∀ pieces progress,
      Covers budget (alternatives pieces rounds) (alternatives pieces rounds') progress)
    (pieces : Pieces) (c : Char) :
    Covers (budget + 1) (goPast pieces rounds c) (goPast pieces rounds' c) progress := by
  have hPrimitive (progress : Progress) : Covers (budget + 1)
      (do alternatives (pieces.add { expr := ← primitive }) rounds)
      (do alternatives (pieces.add { expr := ← primitive }) rounds') progress :=
    .spend takes_primitive fun _ _ => hAll _ _
  exact .ite (.andThen (Takes.throw _) fun _ => hPrimitive) (hPrimitive _)

end Covers

/-- A text is read alike in any number of rounds that is greater than the number of characters that
are taken. -/
theorem covers_alternatives {budget rounds rounds' : Nat} (pieces : Pieces)
    (hRounds : budget ≤ rounds) (hRounds' : budget ≤ rounds') :
    Covers budget (alternatives pieces rounds) (alternatives pieces rounds') progress := by
  induction budget generalizing pieces rounds rounds' progress with
  | zero => exact .of_takes (takes_alternatives _ _)
  | succ budget ih =>
    obtain ⟨rounds, rfl⟩ := Nat.exists_eq_add_one_of_ne_zero (Nat.ne_zero_of_lt hRounds)
    obtain ⟨rounds', rfl⟩ := Nat.exists_eq_add_one_of_ne_zero (Nat.ne_zero_of_lt hRounds')
    have hLess := Nat.le_of_succ_le_succ hRounds
    have hLess' := Nat.le_of_succ_le_succ hRounds'
    rw [alternatives, alternatives]
    refine .andThen Takes.skipBlanks fun _ after => .rest ?_
    split
    · exact .refl _
    · exact .refl _
    · next hRest => exact .spend (Takes.skip_of_cons hRest) fun _ _ => ih _ hLess hLess'
    · next hRest =>
      refine .flags (.spend (takes_opening hRest) fun opened progress => ?_)
      exact covers_goInside (fun _ _ => ih _ hLess hLess') pieces after.flags opened
    · obtain ⟨hRead, -, -⟩ := Bracket.covers_class hLess hLess'
      exact .bind (hRead _) ((Bracket.takes_class rounds').1 _)
        (fun _ _ => takes_alternatives _ _) fun _ _ => ih _ hLess hLess'
    · next hRest _ => exact .spend (takes_repeated hRest _ _ _) fun _ _ => ih _ hLess hLess'
    · next hRest _ => exact .spend (takes_repeated hRest _ _ _) fun _ _ => ih _ hLess hLess'
    · next hRest _ => exact .spend (takes_repeated hRest _ _ _) fun _ _ => ih _ hLess hLess'
    · exact .spend (takes_counted _) fun _ _ => ih _ hLess hLess'
    · exact covers_goPast (fun _ _ => ih _ hLess hLess') pieces _

end Expr

end StreamMatch.Regex
