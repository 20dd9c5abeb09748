import StreamMatch.Proofs.Regex.AnchoredSearch
import StreamMatch.Proofs.Regex.Grouping
import StreamMatch.Regex.Engine

/-!
The engine reads groups as it should (`Regex.documented_engine`). What is put around a text leaves
it a group to close, and the parenthesis behind the text does that, unless a comment takes it in.
-/

namespace StreamMatch.Regex

namespace Expr

open Reads

theorem itemOf_of_ok {text : List Char} {item : Item} {progress : Progress}
    (hRun : alternatives {} (text.length + 1) { rest := text } = .ok (item, progress)) :
    itemOf text = if progress.rest = [] then .ok item else .error .unopenedGroup := by
  rw [itemOf, hRun]

theorem itemOf_of_error {text : List Char} {defect : Defect}
    (hRun : alternatives {} (text.length + 1) { rest := text } = .error defect) :
    itemOf text = .error defect := by
  rw [itemOf, hRun]

/-- Any number of rounds that is greater than the length of the text will do, also with the
parenthesis behind it. -/
theorem agree_rounds {text : List Char} {rounds rounds' : Nat} (hRounds : text.length < rounds)
    (hRounds' : text.length < rounds') :
    Agree [] (alternatives {} rounds) (alternatives {} rounds') { rest := text } :=
  (agree_alternatives {} rounds').of_covers (covers_alternatives {} hRounds hRounds')
    (covers_alternatives {} hRounds' hRounds) (Nat.lt_succ_self text.length)

/-- The text around `text` begins with these pieces and an opening parenthesis, and ends with one
that is to close the group. -/
def Encloses (pieces : Pieces) (around text : List Char) : Prop :=
  alternatives {} (around.length + 1) { rest := around } =
    (alternatives {} (text.length + 4) >>= closeGroup pieces (text.length + 4) {} none)
      { rest := text ++ [')'] }

theorem encloses_grouped (text : List Char) : Encloses {} (grouped text) text := by
  have hLength : (grouped text).length + 1 = text.length + 4 + 1 := by simp [grouped]
  rw [Encloses, hLength]
  rfl

/-- What stands before a group behind `^`. -/
def afterStart : Pieces :=
  ({} : Pieces).add { expr := .assert .textStart }

theorem encloses_anchored (text : List Char) :
    Encloses afterStart ('^' :: grouped text) text := by
  have hLength : ('^' :: grouped text).length + 1 = text.length + 4 + 2 := by simp [grouped]
  rw [Encloses, hLength]
  rfl

/-- An item in a group behind these pieces. -/
def Item.behind (pieces : Pieces) (item : Item) : Item :=
  (pieces.add { expr := item.expr, depth := item.depth + 1 }).join

namespace Encloses

variable {pieces : Pieces} {around text : List Char}

/-- Where the parenthesis is left in place it closes the group. -/
theorem itemOf_of_ok (hEncloses : Encloses pieces around text) {item : Item} {after : Progress}
    (hRest : after.rest = [])
    (hRun : alternatives {} (text.length + 4) { rest := text ++ [')'] } =
      .ok (item, after.enclosed)) :
    itemOf around = .ok (item.behind pieces) := by
  obtain ⟨rest, flags, groupNames, groups⟩ := after
  cases hRest
  rw [Encloses, bind_of_ok hRun] at hEncloses
  exact Expr.itemOf_of_ok hEncloses

/-- Where the parenthesis is lost the group is not closed. -/
theorem itemOf_of_lost (hEncloses : Encloses pieces around text)
    (hLeaves : Leaves [] (alternatives {} (text.length + 4)) { rest := text ++ [')'] }) :
    ∃ defect, itemOf around = .error defect := by
  rw [Encloses] at hEncloses
  cases hRun : alternatives {} (text.length + 4) { rest := text ++ [')'] } with
  | error defect =>
    rw [bind_of_error hRun] at hEncloses
    exact ⟨defect, itemOf_of_error hEncloses⟩
  | ok outcome =>
    obtain ⟨item, rest, flags, groupNames, groups⟩ := outcome
    obtain rfl : rest = [] := List.suffix_nil.1 (hLeaves item _ hRun)
    rw [bind_of_ok hRun] at hEncloses
    exact ⟨.unclosedGroup, itemOf_of_error hEncloses⟩

/-- What becomes of a text in a group. -/
theorem itemOf_cases (hEncloses : Encloses pieces around text) :
    itemOf text = .error .unopenedGroup ∨
    (∃ item, itemOf text = .ok item ∧ itemOf (text ++ [')']) = .error .unopenedGroup ∧
      itemOf around = .ok (item.behind pieces)) ∨
    (∃ item, itemOf text = .ok item ∧ itemOf (text ++ [')']) = .ok item ∧
      ∃ defect, itemOf around = .error defect) ∨
    (∃ defect, itemOf text = .error defect) ∧ ∃ defect, itemOf around = .error defect := by
  have hInside : Agree [] (alternatives {} (text.length + 1)) (alternatives {} (text.length + 4))
      { rest := text } := agree_rounds (by omega) (by omega)
  have hBehind (item : Item) (after : Progress)
      (hRun : alternatives {} (text.length + 4) { rest := text ++ [')'] } = .ok (item, after)) :
      itemOf (text ++ [')']) = if after.rest = [] then .ok item else .error .unopenedGroup := by
    have hCovers : Covers (text.length + 2) (alternatives {} ((text ++ [')']).length + 1))
        (alternatives {} (text.length + 4)) { rest := text ++ [')'] } :=
      covers_alternatives {} (by simp) (by omega)
    exact Expr.itemOf_of_ok (hCovers item after hRun (by simp; omega))
  rcases hInside with ⟨item, after, hFirst, hSecond⟩ | ⟨item, after, hFirst, hRest, hSecond⟩ |
    ⟨⟨defect, hFails⟩, hLeaves⟩
  · have hItem := Expr.itemOf_of_ok hFirst
    by_cases hRest : after.rest = []
    · rw [if_pos hRest] at hItem
      refine .inr (.inl ⟨item, hItem, ?_, hEncloses.itemOf_of_ok hRest hSecond⟩)
      rw [hBehind item _ hSecond, if_neg (by simp [Progress.enclosed])]
    · rw [if_neg hRest] at hItem
      exact .inl hItem
  · have hItem := Expr.itemOf_of_ok hFirst
    rw [if_pos hRest] at hItem
    refine .inr (.inr (.inl ⟨item, hItem, ?_, hEncloses.itemOf_of_lost ?_⟩))
    · rw [hBehind item _ hSecond, if_pos hRest]
    · intro value last hRun
      cases hSecond.symm.trans hRun
      exact hRest ▸ List.suffix_refl _
  · exact .inr (.inr (.inr ⟨⟨defect, itemOf_of_error hFails⟩, hEncloses.itemOf_of_lost hLeaves⟩))

end Encloses

theorem takeEach_append (next : Nat) (front back : List Char) :
    Program.takeEach next (front ++ back) =
      Program.takeEach next front >>= fun between => Program.takeEach between back := by
  induction front generalizing next with
  | nil => simp [Program.takeEach]
  | cons c front ih => simp [Program.takeEach, ih]

/-- Of two expressions one after the other the second one is laid out first. -/
theorem layOut_append (first second : Expr) (next : Nat) :
    Program.layOut (append first second) next =
      Program.layOut second next >>= Program.layOut first := by
  fun_induction append first second generalizing next with
  | case1 second => simp [Program.layOut]
  | case2 second first middle ih ih' => simp [Program.layOut, ih, ih']
  | case3 first => simp [Program.layOut]
  | case4 text more => simp [Program.layOut, takeEach_append]
  | case5 text more rest => simp [Program.layOut, takeEach_append]
  | case6 first second => simp [Program.layOut]

/-- What is around the text adds just the assertion to the program. -/
theorem ofExpr_behind_start (item : Item) :
    Program.ofExpr (item.behind afterStart).expr = (Program.ofExpr item.expr).behindStart := by
  have hExpr : (item.behind afterStart).expr = appendAll [.assert .textStart, item.expr] := rfl
  have hLayOut : Program.layOut (item.behind afterStart).expr 0 =
      Program.layOut item.expr 0 >>= fun entry => Program.emit (.check .textStart entry) := by
    simp [hExpr, appendAll, layOut_append, Program.layOut]
  rw [Program.ofExpr, hLayOut]
  rfl

end Expr

/-- The engine treats groups, and what stands behind `^`, as libraries do. -/
theorem documented_engine : engine.Documented where
  group {text expr} hText hClosed := by
    rcases (Expr.encloses_grouped text).itemOf_cases with hError | ⟨item, hItem, -, hGroup⟩ |
      ⟨item, hItem, hComment, -⟩ | ⟨⟨defect, hItem⟩, -⟩
    · cases hError.symm.trans hText
    · cases hItem.symm.trans hText
      exact ⟨_, hGroup, rfl⟩
    · exact absurd ⟨item, hComment⟩ hClosed
    · cases hItem.symm.trans hText
  start {text expr group} hText hGroup := by
    rcases (Expr.encloses_grouped text).itemOf_cases with hError | ⟨item, hItem, hEnd, hInside⟩ |
      ⟨item, hItem, -, defect, hInside⟩ | ⟨⟨defect, hItem⟩, -⟩
    · cases hError.symm.trans hText
    · cases hInside.symm.trans hGroup
      rcases (Expr.encloses_anchored text).itemOf_cases with hError | ⟨item', hItem', -, hBehind⟩ |
        ⟨item', -, hComment, -⟩ | ⟨⟨defect, hItem'⟩, -⟩
      · cases hError.symm.trans hText
      · cases hItem.symm.trans hItem'
        refine ⟨_, hBehind, fun bytes => ?_⟩
        change (Program.ofExpr _).find _ = _
        rw [Expr.ofExpr_behind_start, Program.find_behindStart]
        rfl
      · cases hEnd.symm.trans hComment
      · cases hItem'.symm.trans hText
    · cases hInside.symm.trans hGroup
    · cases hItem.symm.trans hText
  unclosed {text expr} hText hOpen := by
    obtain ⟨behind, hComment⟩ := hOpen
    rcases (Expr.encloses_anchored text).itemOf_cases with hError | ⟨item, -, hEnd, -⟩ |
      ⟨item, -, -, hRefused⟩ | ⟨-, hRefused⟩
    · cases hError.symm.trans hText
    · cases hEnd.symm.trans hComment
    · exact hRefused
    · exact hRefused
  refused {text defect} hText hDefect := by
    rcases (Expr.encloses_anchored text).itemOf_cases with hError | ⟨item, hItem, -⟩ |
      ⟨item, hItem, -⟩ | ⟨-, hRefused⟩
    · cases hError.symm.trans hText
      exact absurd rfl hDefect
    · cases hItem.symm.trans hText
    · cases hItem.symm.trans hText
    · exact hRefused

end StreamMatch.Regex
