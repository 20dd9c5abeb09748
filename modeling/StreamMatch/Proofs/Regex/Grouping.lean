import StreamMatch.Proofs.Regex.Enclosing

/-!
Groups and what they are made of, with a closing parenthesis behind the text. The parenthesis never
changes what is read before it (`Expr.agree_alternatives`).
-/

namespace StreamMatch.Regex

namespace Expr

open Reads

variable {progress : Progress}

theorem agree_nextGroup : Agree [] nextGroup nextGroup progress := .same rfl rfl

theorem agree_groupName : Agree [] groupName groupName progress := by
  rcases closed_or_open progress.rest with hOpen | ⟨rest, hClosed⟩
  · have hOpen' : progress.enclosed.rest.dropWhile (· != '>') = [] := by
      rw [Progress.enclosed, List.dropWhile_append, hOpen]
      rfl
    apply Agree.of_error (groupName_open hOpen)
    intro value after hRun
    cases hRun.symm.trans (groupName_open hOpen')
  · obtain ⟨hTake, hDrop⟩ := takeWhile_append hClosed [')']
    have hRun := groupName_closed hClosed
    have hRun' : groupName progress.enclosed =
        nameGroup (progress.rest.takeWhile (· != '>')) (rest ++ [')']) progress.enclosed := by
      rw [← hTake]
      exact groupName_closed hDrop
    rcases nameGroup_cases (progress.rest.takeWhile (· != '>')) progress with
      ⟨defect, hBad⟩ | ⟨groupNames, hGood⟩
    · apply Agree.of_error (hRun.trans (hBad rest progress.rest))
      intro value after hAfter
      cases hAfter.symm.trans (hRun'.trans (hBad (rest ++ [')']) progress.enclosed.rest))
    · exact .same (hRun.trans (hGood rest progress.rest))
        (hRun'.trans (hGood (rest ++ [')']) progress.enclosed.rest))

/-- Letters that go on to the end of the text end with the parenthesis behind it. -/
theorem flagLetters_append (flags : Flags) (seen letters : List Char) :
    (∃ flags' rest, flagLetters flags seen letters = .ok (flags', rest) ∧
      flagLetters flags seen (letters ++ [')']) = .ok (flags', rest ++ [')'])) ∨
    (∃ defect, flagLetters flags seen letters = .error defect) ∧
      ∀ flags' rest, flagLetters flags seen (letters ++ [')']) = .ok (flags', rest) →
        rest = [')'] := by
  induction letters generalizing flags seen with
  | nil =>
    refine .inr ⟨⟨_, rfl⟩, fun flags' rest hLetters => ?_⟩
    rw [List.nil_append, flagLetters, if_pos (.inr rfl)] at hLetters
    split at hLetters
    · cases hLetters
    · cases hLetters
      rfl
  | cons c letters ih =>
    have hFails (defect : Defect) (flags' : Flags) (rest : List Char)
        (hLetters : (.error defect : Except Defect (Flags × List Char)) = .ok (flags', rest)) :
        rest = [')'] := by
      cases hLetters
    rw [List.cons_append, flagLetters, flagLetters]
    split
    · split
      · exact .inr ⟨⟨_, rfl⟩, hFails _⟩
      · exact .inl ⟨flags, c :: letters, rfl, rfl⟩
    · split
      · exact .inr ⟨⟨_, rfl⟩, hFails _⟩
      · split
        · exact ih flags (c :: seen)
        · cases flags.set? c (!seen.contains '-') with
          | none => exact .inr ⟨⟨_, rfl⟩, hFails _⟩
          | some flags => exact ih flags (c :: seen)

theorem agree_flagGroup (flags : Flags) (letters : List Char) :
    Agree [] (flagGroup flags letters) (flagGroup flags (letters ++ [')'])) progress := by
  have hLetters := flagLetters_append flags [] letters
  rcases flagGroup_cases flags letters with
    ⟨defect, hFlags, hError⟩ | ⟨inside, rest, hFlags, hGroup⟩ | ⟨onwards, rest, hFlags, hGroup⟩
  · obtain ⟨-, hEnds⟩ := hLetters.resolve_left fun ⟨_, _, hOk, _⟩ => by cases hFlags.symm.trans hOk
    apply Agree.of_error (hError progress)
    intro value after hRun
    rcases flagGroup_cases flags (letters ++ [')']) with
      ⟨defect, -, hError⟩ | ⟨inside, rest, hFlags, -⟩ | ⟨onwards, rest, hFlags, hGroup⟩
    · cases hRun.symm.trans (hError progress.enclosed)
    · cases hEnds _ _ hFlags
    · cases hEnds _ _ hFlags
      have hRun := hRun.symm.trans (hGroup progress.enclosed)
      split at hRun
      · cases hRun
      · cases hRun
        exact List.suffix_refl _
  · obtain ⟨_, _, hOk, hOk'⟩ := hLetters.resolve_right fun ⟨⟨_, hError⟩, _⟩ => by
      cases hFlags.symm.trans hError
    cases hFlags.symm.trans hOk
    rcases flagGroup_cases flags (letters ++ [')']) with
      ⟨defect, hFlags', -⟩ | ⟨inside', rest', hFlags', hGroup'⟩ | ⟨onwards, rest', hFlags', -⟩
    · cases hOk'.symm.trans hFlags'
    · cases hOk'.symm.trans hFlags'
      exact .same (hGroup progress) (hGroup' progress.enclosed)
    · cases hOk'.symm.trans hFlags'
  · obtain ⟨_, _, hOk, hOk'⟩ := hLetters.resolve_right fun ⟨⟨_, hError⟩, _⟩ => by
      cases hFlags.symm.trans hError
    cases hFlags.symm.trans hOk
    rcases flagGroup_cases flags (letters ++ [')']) with
      ⟨defect, hFlags', -⟩ | ⟨inside, rest', hFlags', -⟩ | ⟨onwards', rest', hFlags', hGroup'⟩
    · cases hOk'.symm.trans hFlags'
    · cases hOk'.symm.trans hFlags'
    · cases hOk'.symm.trans hFlags'
      cases letters with
      | nil => cases hFlags
      | cons c letters =>
        have hRun := hGroup progress
        have hRun' := hGroup' progress.enclosed
        rw [List.cons_append, List.head?_cons] at hRun'
        rw [List.head?_cons] at hRun
        by_cases hEmpty : some c = some ')'
        · rw [if_pos hEmpty] at hRun hRun'
          apply Agree.of_error hRun
          intro value after hAfter
          cases hAfter.symm.trans hRun'
        · rw [if_neg hEmpty] at hRun hRun'
          exact .same hRun hRun'

theorem agree_namedGroup (flags : Flags) (text : List Char) :
    Agree [] (namedGroup flags text) (namedGroup flags (text ++ [')'])) progress := by
  have hNumber (progress : Progress) : Takes 0
      (do return Opening.group (some (← nextGroup)) flags) progress :=
    takes_nextGroup.bind fun _ _ => .pure _
  refine (Agree.continueAt text).bind (fun _ _ => takes_groupName.bind fun _ => hNumber)
    fun _ _ => ?_
  exact agree_groupName.bind (fun _ => hNumber) fun _ _ =>
    agree_nextGroup.bind (fun _ _ => .pure _) fun _ _ => .pure _

/-- The parenthesis is none of the signs that tell groups apart. -/
theorem agree_openingFrom (flags : Flags) (text : List Char) :
    Agree [] (openingFrom flags text) (openingFrom flags (text ++ [')'])) progress := by
  fun_cases openingFrom flags text with
  | case1 => exact .fail (.throw _)
  | case2 => exact .fail (.throw _)
  | case3 => exact .fail (.throw _)
  | case4 => exact .fail (.throw _)
  | case5 rest => exact agree_namedGroup flags rest
  | case6 rest hLookBehind hNegative =>
    have hEnclosed : openingFrom flags ('?' :: '<' :: (rest ++ [')'])) =
        namedGroup flags (rest ++ [')']) := by
      apply openingFrom.eq_6
      · exact fun _ hFront => false_of_front ['='] (by decide) hFront hLookBehind
      · exact fun _ hFront => false_of_front ['!'] (by decide) hFront hNegative
    rw [List.cons_append, List.cons_append, hEnclosed]
    exact agree_namedGroup flags rest
  | case7 letters hAhead hNotAhead hBehind hNotBehind hNamed hShort =>
    have hEnclosed : openingFrom flags ('?' :: (letters ++ [')'])) =
        flagGroup flags (letters ++ [')']) := by
      apply openingFrom.eq_7
      · exact fun _ hFront => false_of_front ['='] (by decide) hFront hAhead
      · exact fun _ hFront => false_of_front ['!'] (by decide) hFront hNotAhead
      · exact fun _ hFront => false_of_front ['<', '='] (by decide) hFront hBehind
      · exact fun _ hFront => false_of_front ['<', '!'] (by decide) hFront hNotBehind
      · exact fun _ hFront => false_of_front ['P', '<'] (by decide) hFront hNamed
      · exact fun _ hFront => false_of_front ['<'] (by decide) hFront hShort
    rw [List.cons_append, hEnclosed]
    exact agree_flagGroup flags letters
  | case8 _ _ _ _ _ _ _ hPlain =>
    have hEnclosed : openingFrom flags (text ++ [')']) =
        (do return Opening.group (← nextGroup) flags) := by
      apply openingFrom.eq_8
      all_goals exact fun _ hFront => false_of_front ['?'] (by decide) hFront hPlain
    rw [hEnclosed]
    exact agree_nextGroup.bind (fun _ _ => .pure _) fun _ _ => .pure _

theorem agree_opening {rest : List Char} (hRest : progress.rest = '(' :: rest) :
    Agree [] opening opening progress := by
  have hFrom (progress : Progress) : Takes 0
      (do openingFrom (← Reads.flags) (← Reads.rest)) progress :=
    .flags (takes_openingFrom progress.flags progress)
  rw [opening_eq]
  refine (Agree.skip_of_cons hRest).bind (fun _ _ => Takes.skipBlanks.bind fun _ => hFrom)
    fun _ _ => ?_
  exact Agree.skipBlanks.bind (fun _ => hFrom) fun _ after =>
    .flags (.rest (agree_openingFrom after.flags after.rest))

/-- A comment among the digits that goes on to the end of the text takes the parenthesis in. -/
theorem digits_append (spaced inComment : Bool) (text : List Char) :
    digits spaced inComment (text ++ [')']) =
        ((digits spaced inComment text).1, (digits spaced inComment text).2 ++ [')']) ∨
      (digits spaced inComment text).2 = [] ∧
        digits spaced inComment (text ++ [')']) = digits spaced inComment text := by
  induction text generalizing inComment with
  | nil =>
    cases inComment with
    | true => exact .inr ⟨rfl, rfl⟩
    | false =>
      cases spaced with
      | true => exact .inl rfl
      | false => exact .inl rfl
  | cons c text ih =>
    rw [List.cons_append, digits, digits]
    split
    · exact ih _
    · split
      · rcases ih false with hSame | ⟨hEmpty, hSame⟩
        · exact .inl (by rw [hSame])
        · exact .inr ⟨hEmpty, by rw [hSame]⟩
      · split
        · exact ih _
        · split
          · exact ih _
          · exact .inl rfl

theorem agree_countOf (digits : List Char) :
    Agree [] (countOf digits) (countOf digits) progress :=
  .ite (.fail_bind _ _ _) (.ite (.pure _) (.fail (.throw _)))

theorem agree_count : Agree [] count count progress := by
  rw [count_eq]
  refine .rest (.flags ?_)
  rw [dropWhile_isSpace_append]
  have hGoesOn (number : List Char) {rest rest' : List Char}
      (hRest : Agree [] (Reads.continueAt rest) (Reads.continueAt rest') progress) :
      Agree [] (Reads.continueAt rest >>= fun _ => countOf number)
        (Reads.continueAt rest' >>= fun _ => countOf number) progress :=
    hRest.bind (fun _ _ => takes_countOf _) fun _ _ => agree_countOf _
  rcases digits_append progress.flags.spaced false (progress.rest.dropWhile isSpace) with
    hSame | ⟨hEmpty, hSame⟩
  · rw [hSame]
    dsimp only
    rw [dropWhile_isSpace_append]
    exact hGoesOn _ (.continueAt _)
  · rw [hSame]
    dsimp only
    rw [hEmpty]
    exact hGoesOn _ (.swallowed rfl rfl rfl)

theorem agree_isGreedy : Agree [] isGreedy isGreedy progress := by
  apply Agree.rest
  split
  · next hRest =>
    rw [hRest]
    exact (Agree.continueAt _).bind (fun _ _ => .pure _) fun _ _ => .pure _
  · next hOther =>
    split
    · next hFront => exact (false_of_front ['?'] (by decide) hFront hOther).elim
    · exact .pure _

theorem agree_repeated {c : Char} {rest : List Char} (hRest : progress.rest = c :: rest)
    (body : Expr) (least : Nat) (most : Option Nat) :
    Agree [] (repeated body least most) (repeated body least most) progress := by
  refine (Agree.skip_of_cons hRest).bind (fun _ _ => takes_isGreedy.bind fun _ _ => .pure _)
    fun _ _ => ?_
  exact agree_isGreedy.bind (fun _ _ => .pure _) fun _ _ => .pure _

theorem agree_countedTo (body : Expr) (least : Nat) (most : Option Nat) :
    Agree [] (countedTo body least most) (countedTo body least most) progress := by
  have hMore (greedy : Bool) (progress : Progress) : Takes 0
      (do
        if most.any (· < least) then throw .countsOutOfOrder
        return body.times least most greedy) progress :=
    .ite ((Takes.throw _).bind fun _ _ => .pure _) (.pure _)
  apply Agree.rest
  split
  · next hRest =>
    rw [hRest]
    refine (Agree.skip_of_cons hRest).bind (fun _ _ => Takes.skipBlanks.bind fun _ _ =>
      takes_isGreedy.bind hMore) fun _ _ => ?_
    refine Agree.skipBlanks.bind (fun _ _ => takes_isGreedy.bind hMore) fun _ _ => ?_
    refine agree_isGreedy.bind hMore fun _ _ => ?_
    exact .ite (.fail_bind _ _ _) (.pure _)
  · next hOther =>
    split
    · next hFront => exact (false_of_front ['\x7d'] (by decide) hFront hOther).elim
    · exact .fail (.throw _)

theorem agree_countedFrom (body : Expr) (least : Nat) :
    Agree [] (countedFrom body least) (countedFrom body least) progress := by
  have hTakes (most : Option Nat) (progress : Progress) :
      Takes 1 (countedTo body least most) progress :=
    takes_countedTo body least most
  apply Agree.rest
  split
  · next hRest =>
    rw [hRest]
    refine (Agree.skipWithin _).bindEnds (fun _ _ => .rest ?_) fun _ after => .rest ?_
    · split
      · exact hTakes _ _
      · exact takes_count.andThen fun _ _ => hTakes _ _
    · split
      · next hRest =>
        rw [hRest]
        exact agree_countedTo body least none
      · next hOther =>
        split
        · next hFront => exact (false_of_front ['\x7d'] (by decide) hFront hOther).elim
        · exact agree_count.bind (fun _ _ => (hTakes _ _).zero)
            fun _ _ => agree_countedTo _ _ _
  · next hOther =>
    split
    · next hFront => exact (false_of_front [','] (by decide) hFront hOther).elim
    · exact agree_countedTo body least (some least)

theorem agree_counted (body : Expr) : Agree [] (counted body) (counted body) progress := by
  rw [counted_eq]
  have hTakes (least : Nat) (progress : Progress) : Takes 1 (countedFrom body least) progress :=
    takes_countedFrom body least
  refine (Agree.skipWithin _).bindEnds (fun _ _ => takes_count.andThen hTakes) fun _ _ => ?_
  exact agree_count.bind (fun _ _ => (hTakes _ _).zero)
    fun _ _ => agree_countedFrom _ _

theorem agree_ofEscape (escape : Escape) :
    Agree [] (ofEscape escape) (ofEscape escape) progress := by
  cases escape with
  | char c => exact (Agree.underFlags _).bind (fun _ _ => .pure _) fun _ _ => .pure _
  | chars set => exact .pure _
  | assert assertion => exact .pure _

theorem agree_primitiveFrom (c : Char) (flags : Flags) :
    Agree [] (primitiveFrom c flags) (primitiveFrom c flags) progress := by
  fun_cases primitiveFrom c flags with
  | case1 => exact .pure _
  | case2 => exact .pure _
  | case3 => exact .pure _
  | case4 => exact Escape.agree_read.bind (fun _ _ => takes_ofEscape _) fun _ _ => agree_ofEscape _
  | case5 => exact (Agree.underFlags _).bind (fun _ _ => .pure _) fun _ _ => .pure _

theorem agree_primitive : Agree [] primitive primitive progress := by
  rw [primitive_eq]
  exact (Agree.take _).bind (fun c after => .flags (takes_primitiveFrom c after.flags))
    fun c after => .flags (agree_primitiveFrom c after.flags)

section

variable {rounds : Nat}

/-- A group that the text leaves open is closed by the parenthesis, and nothing is left then. -/
theorem agree_closeGroup
    (hAll : ∀ pieces progress,
      Agree [] (alternatives pieces rounds) (alternatives pieces rounds) progress)
    (pieces : Pieces) (around : Flags) (index : Option Nat) (body : Item) :
    Agree [] (closeGroup pieces rounds around index body)
      (closeGroup pieces rounds around index body) progress := by
  have hTakes (pieces : Pieces) (progress : Progress) :
      Takes 0 (alternatives pieces rounds) progress :=
    takes_alternatives pieces rounds
  apply Agree.rest
  split
  · next rest hRest =>
    rw [hRest]
    refine (Agree.continueAt rest).bind (fun _ _ => (Takes.setFlags _).bind fun _ _ => hTakes _ _)
      fun _ _ => ?_
    exact (Agree.setFlags _).bind (fun _ _ => hTakes _ _) fun _ _ => hAll _ _
  · next hOpen =>
    split
    · next rest hFront =>
      have hEmpty : rest = [] := by
        cases hRest : progress.rest with
        | nil =>
          rw [hRest] at hFront
          exact (List.cons.inj hFront).2.symm
        | cons c more =>
          rw [hRest] at hFront
          exact (hOpen more (by rw [hRest, (List.cons.inj hFront).1])).elim
      have hContinue : Leaves [] (Reads.continueAt rest) progress.enclosed := by
        intro value after hRun
        cases hRun
        exact hEmpty ▸ List.suffix_refl _
      exact .fail (hContinue.bind fun _ after hRest =>
        .of_takes ((Takes.setFlags around).bind fun _ _ => hTakes _ _) hRest)
    · exact .fail (.throw _)

theorem agree_goInside
    (hAll : ∀ pieces progress,
      Agree [] (alternatives pieces rounds) (alternatives pieces rounds) progress)
    (pieces : Pieces) (around : Flags) (opened : Opening) :
    Agree [] (goInside pieces rounds around opened) (goInside pieces rounds around opened)
      progress := by
  have hTakes (pieces : Pieces) (progress : Progress) :
      Takes 0 (alternatives pieces rounds) progress :=
    takes_alternatives pieces rounds
  cases opened with
  | flags onwards => exact (Agree.setFlags _).bind (fun _ _ => hTakes _ _) fun _ _ => hAll _ _
  | group index inside =>
    have hClose (body : Item) (progress : Progress) :
        Takes 0 (closeGroup pieces rounds around index body) progress :=
      takes_closeGroup hTakes pieces around index body
    refine (Agree.setFlags _).bind (fun _ _ => (hTakes _ _).bind hClose) fun _ _ => ?_
    exact (hAll _ _).bind hClose fun body _ => agree_closeGroup hAll pieces around index body

theorem agree_goPast
    (hAll : ∀ pieces progress,
      Agree [] (alternatives pieces rounds) (alternatives pieces rounds) progress)
    (pieces : Pieces) (c : Char) :
    Agree [] (goPast pieces rounds c) (goPast pieces rounds c) progress := by
  refine .ite (.fail_bind _ _ _) (agree_primitive.bind (fun _ _ => ?_) fun _ _ => hAll _ _)
  exact takes_alternatives _ _

end

/-- The parenthesis behind a text is read as a part of it only where the text is cut short, and it
is taken in then, or where it ends in a comment. -/
theorem agree_alternatives (pieces : Pieces) (rounds : Nat) :
    Agree [] (alternatives pieces rounds) (alternatives pieces rounds) progress := by
  induction rounds generalizing pieces progress with
  | zero => exact .fail (.throw _)
  | succ rounds ih =>
    have hTakes (pieces : Pieces) (progress : Progress) :
        Takes 0 (alternatives pieces rounds) progress :=
      takes_alternatives pieces rounds
    rw [alternatives]
    refine Agree.blanks (fun _ => takes_alternatives pieces (rounds + 1)) fun after => .rest ?_
    split
    · next hRest =>
      rw [hRest]
      exact .pure _
    · next hRest =>
      rw [hRest]
      exact .pure _
    · next hRest =>
      rw [hRest]
      exact (Agree.skip_of_cons hRest).bind (fun _ _ => hTakes _ _) fun _ _ => ih _
    · next hRest =>
      rw [hRest]
      refine .flags ((agree_opening hRest).bind
        (fun opened _ => takes_goInside hTakes pieces after.flags opened) fun opened _ => ?_)
      exact agree_goInside (fun _ _ => ih _) pieces after.flags opened
    · next hRest =>
      rw [hRest]
      exact ((Bracket.agree_class rounds).1 _).bind (fun _ _ => hTakes _ _) fun _ _ => ih _
    · next last hRest hLast =>
      rw [hRest, hLast]
      exact (agree_repeated hRest last 0 (some 1)).bind (fun _ _ => hTakes _ _) fun _ _ => ih _
    · next last hRest hLast =>
      rw [hRest, hLast]
      exact (agree_repeated hRest last 0 none).bind (fun _ _ => hTakes _ _) fun _ _ => ih _
    · next last hRest hLast =>
      rw [hRest, hLast]
      exact (agree_repeated hRest last 1 none).bind (fun _ _ => hTakes _ _) fun _ _ => ih _
    · next last hRest hLast =>
      rw [hRest, hLast]
      exact (agree_counted last).bind (fun _ _ => hTakes _ _) fun _ _ => ih _
    · next c rest hClose hBar hOpen hBracket hRest hMark hStar hPlus hBrace =>
      rw [hRest, List.cons_append]
      show Agree [] (goPast pieces rounds c) _ after
      split
      · next hFront => cases hFront
      · next hFront => exact (hClose (List.cons.inj hFront).1).elim
      · next hFront => exact (hBar (List.cons.inj hFront).1).elim
      · next hFront => exact (hOpen (List.cons.inj hFront).1).elim
      · next hFront => exact (hBracket (List.cons.inj hFront).1).elim
      · next last hFront hLast => exact (hMark last hLast (List.cons.inj hFront).1).elim
      · next last hFront hLast => exact (hStar last hLast (List.cons.inj hFront).1).elim
      · next last hFront hLast => exact (hPlus last hLast (List.cons.inj hFront).1).elim
      · next last hFront hLast => exact (hBrace last hLast (List.cons.inj hFront).1).elim
      · next hFront _ _ _ _ =>
        obtain ⟨rfl, -⟩ := List.cons.inj hFront
        exact agree_goPast (fun _ _ => ih _) pieces c

end Expr

end StreamMatch.Regex
