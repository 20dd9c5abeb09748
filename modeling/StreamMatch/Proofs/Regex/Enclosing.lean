import StreamMatch.Proofs.Regex.RoundBudget

/-!
Reading the text of a regular expression with a closing parenthesis behind it. What is read is the
same, and the parenthesis is left in place, or it has gone with a comment at the end of the text.
Where the text is cut short, so that nothing comes of it, the parenthesis may be taken for a part of
what is missing (`Reads.Agree`). Escapes and classes are read in this way, as a class that is cut
short takes the parenthesis in.
-/

namespace StreamMatch.Regex

/-- With a closing parenthesis behind the text. -/
def Progress.enclosed (progress : Progress) : Progress :=
  { progress with rest := progress.rest ++ [')'] }

/-- Behind a text that has ended there is just the parenthesis. -/
theorem Progress.enclosed_suffix {progress : Progress} (hRest : progress.rest = []) :
    progress.enclosed.rest <:+ [')'] :=
  ⟨[], by simp [enclosed, hRest]⟩

namespace Reads

variable {α β : Type} {leftover : List Char} {progress : Progress}

/-- What an action leaves of the text, where it comes to a result, is part of this. -/
def Leaves (leftover : List Char) (action : Reads α) (progress : Progress) : Prop :=
  ∀ value after, action progress = .ok (value, after) → after.rest <:+ leftover

/-- The second action, at the text with a closing parenthesis behind it, does what the first one
does at the text, and leaves the parenthesis in place, or loses it in a comment at the end of the
text. Where the first action fails, the second one fails as well, or it comes as far as to what is
left over. -/
def Agree (leftover : List Char) (first second : Reads α) (progress : Progress) : Prop :=
  (∃ value after, first progress = .ok (value, after) ∧
    second progress.enclosed = .ok (value, after.enclosed)) ∨
  (∃ value after, first progress = .ok (value, after) ∧ after.rest = [] ∧
    second progress.enclosed = .ok (value, after)) ∨
  (∃ defect, first progress = .error defect) ∧ Leaves leftover second progress.enclosed

namespace Leaves

theorem of_takes {least : Nat} {action : Reads α} (hTakes : Takes least action progress)
    (hRest : progress.rest <:+ leftover) : Leaves leftover action progress :=
  fun _ _ hRun => (hTakes.suffix hRun).trans hRest

/-- With nothing left but a closing parenthesis, what takes a character takes that. -/
theorem nil_of_takes {action : Reads α} (hTakes : Takes 1 action progress)
    (hRest : progress.rest <:+ [')']) : Leaves [] action progress := by
  intro value after hRun
  have hLength := hTakes.length_le hRun
  have hProgress := hRest.length_le
  rw [List.length_singleton] at hProgress
  have hEmpty : after.rest = [] := List.length_eq_zero_iff.1 (by omega)
  exact hEmpty ▸ List.suffix_refl _

theorem mono {action : Reads α} {between : List Char} (hLeaves : Leaves between action progress)
    (hBetween : between <:+ leftover) : Leaves leftover action progress :=
  fun value after hRun => (hLeaves value after hRun).trans hBetween

theorem throw (defect : Defect) : Leaves leftover (throw defect : Reads α) progress :=
  fun _ _ hRun => by cases hRun

theorem bind {action : Reads α} {next : α → Reads β} {between : List Char}
    (hAction : Leaves between action progress)
    (hNext : ∀ value after, after.rest <:+ between → Leaves leftover (next value) after) :
    Leaves leftover (action >>= next) progress := by
  intro value last hRun
  obtain ⟨first, after, hFirst, hSecond⟩ := bind_eq_ok hRun
  exact hNext first after (hAction first after hFirst) value last hSecond

end Leaves

namespace Agree

variable {first second : Reads α} {next : α → Reads β} {between : List Char}

theorem same {value : α} {after : Progress} (hFirst : first progress = .ok (value, after))
    (hSecond : second progress.enclosed = .ok (value, after.enclosed)) :
    Agree leftover first second progress :=
  .inl ⟨value, after, hFirst, hSecond⟩

theorem swallowed {value : α} {after : Progress} (hFirst : first progress = .ok (value, after))
    (hRest : after.rest = []) (hSecond : second progress.enclosed = .ok (value, after)) :
    Agree leftover first second progress :=
  .inr (.inl ⟨value, after, hFirst, hRest, hSecond⟩)

/-- Where the first action fails it is enough that the second one does not leave more. -/
theorem of_error {defect : Defect} (hFirst : first progress = .error defect)
    (hSecond : Leaves leftover second progress.enclosed) :
    Agree leftover first second progress :=
  .inr (.inr ⟨⟨defect, hFirst⟩, hSecond⟩)

theorem fail {defect : Defect} (hSecond : Leaves leftover second progress.enclosed) :
    Agree leftover (throw defect : Reads α) second progress :=
  of_error rfl hSecond

/-- What follows a failure makes no difference. -/
theorem fail_bind (defect : Defect) (next next' : α → Reads β) :
    Agree leftover (throw defect >>= next) (throw defect >>= next') progress :=
  of_error rfl fun _ _ hRun => by cases hRun

theorem pure (value : α) : Agree leftover (pure value) (pure value) progress :=
  same rfl rfl

theorem mono (hAgree : Agree between first second progress) (hBetween : between <:+ leftover) :
    Agree leftover first second progress :=
  hAgree.imp_right fun hRest => hRest.imp_right fun hFails =>
    ⟨hFails.1, hFails.2.mono hBetween⟩

/-- Two sequences agree if their first parts do, and what follows does from everywhere. Where the
text has ended what follows must stay there, and where the parenthesis is lost it must not leave
more. -/
theorem share (hAction : Agree between first second progress)
    (hEnd : ∀ value after, after.rest = [] → Leaves [] (next value) after)
    (hLost : ∀ value after, after.rest <:+ between → Leaves leftover (next value) after)
    (hNext : ∀ value after, Agree leftover (next value) (next value) after) :
    Agree leftover (first >>= next) (second >>= next) progress := by
  rcases hAction with ⟨value, after, hFirst, hSecond⟩ | ⟨value, after, hFirst, hRest, hSecond⟩ |
    ⟨⟨defect, hFails⟩, hLeaves⟩
  · rw [Agree, bind_of_ok hFirst, Leaves, bind_of_ok hSecond]
    exact hNext value after
  · cases hRun : next value after with
    | error defect =>
      apply of_error ((bind_of_ok hFirst).trans hRun)
      intro result last hResult
      cases hRun.symm.trans ((bind_of_ok hSecond).symm.trans hResult)
    | ok outcome =>
      have hLast := List.suffix_nil.1 (hEnd value after hRest outcome.1 outcome.2 hRun)
      exact swallowed ((bind_of_ok hFirst).trans hRun) hLast ((bind_of_ok hSecond).trans hRun)
  · exact of_error (bind_of_error hFails) (hLeaves.bind hLost)

theorem bind (hAction : Agree leftover first second progress)
    (hMore : ∀ value progress, Takes 0 (next value) progress)
    (hNext : ∀ value after, Agree leftover (next value) (next value) after) :
    Agree leftover (first >>= next) (second >>= next) progress :=
  hAction.share
    (fun value after hRest => .of_takes (hMore value after) (hRest ▸ List.suffix_refl _))
    (fun value after => .of_takes (hMore value after)) hNext

/-- Another action may come first that comes to the same. -/
theorem of_covers {first' : Reads α} {budget : Nat} (hAgree : Agree leftover first second progress)
    (hTo : Covers budget first' first progress) (hFrom : Covers budget first first' progress)
    (hBudget : progress.rest.length < budget) : Agree leftover first' second progress := by
  have hEnough (after : Progress) : progress.rest.length < after.rest.length + budget :=
    Nat.lt_add_left _ hBudget
  rcases hAgree with ⟨value, after, hFirst, hSecond⟩ | ⟨value, after, hFirst, hRest, hSecond⟩ |
    ⟨⟨defect, hFails⟩, hLeaves⟩
  · exact same (hTo value after hFirst (hEnough after)) hSecond
  · exact swallowed (hTo value after hFirst (hEnough after)) hRest hSecond
  · cases hRun : first' progress with
    | error defect => exact of_error hRun hLeaves
    | ok outcome => cases hFails.symm.trans (hFrom outcome.1 outcome.2 hRun (hEnough outcome.2))

/-- After a part that may leave the parenthesis alone, what follows takes it. -/
theorem bindEnds (hAction : Agree [')'] first second progress)
    (hMore : ∀ value progress, Takes 1 (next value) progress)
    (hNext : ∀ value after, Agree [] (next value) (next value) after) :
    Agree [] (first >>= next) (second >>= next) progress :=
  hAction.share
    (fun value after hRest => .of_takes (hMore value after) (hRest ▸ List.suffix_refl _))
    (fun value after => .nil_of_takes (hMore value after)) hNext

theorem rest {next next' : List Char → Reads β}
    (hNext : Agree leftover (next progress.rest) (next' (progress.rest ++ [')'])) progress) :
    Agree leftover (Reads.rest >>= next) (Reads.rest >>= next') progress := hNext

theorem flags {next next' : Flags → Reads β}
    (hNext : Agree leftover (next progress.flags) (next' progress.flags) progress) :
    Agree leftover (Reads.flags >>= next) (Reads.flags >>= next') progress := hNext

theorem ite {condition : Prop} [Decidable condition] {first' second' : Reads α}
    (hFirst : Agree leftover first second progress)
    (hSecond : Agree leftover first' second' progress) :
    Agree leftover (if condition then first else first') (if condition then second else second')
      progress := by
  split
  · exact hFirst
  · exact hSecond

theorem continueAt (rest : List Char) :
    Agree leftover (Reads.continueAt rest) (Reads.continueAt (rest ++ [')'])) progress :=
  same rfl rfl

theorem setFlags (flags : Flags) :
    Agree leftover (Reads.setFlags flags) (Reads.setFlags flags) progress :=
  same rfl rfl

theorem underFlags (set : CharSet) :
    Agree leftover (Reads.underFlags set) (Reads.underFlags set) progress :=
  same rfl rfl

end Agree

/-- Characters in front of the text with the parenthesis, and not that among them, are in front of
the text. -/
theorem front_of_append (front : List Char) {text rest : List Char} (hOther : ')' ∉ front)
    (hFront : text ++ [')'] = front ++ rest) :
    ∃ more, text = front ++ more ∧ rest = more ++ [')'] := by
  induction front generalizing text with
  | nil => exact ⟨text, rfl, hFront.symm⟩
  | cons c front ih =>
    obtain ⟨hChar, hFrontOther⟩ := List.ne_and_not_mem_of_not_mem_cons hOther
    cases text with
    | nil => exact absurd (List.cons.inj hFront).1 hChar
    | cons d text =>
      obtain ⟨rfl, hRest⟩ := List.cons.inj hFront
      obtain ⟨more, rfl, hMore⟩ := ih hFrontOther hRest
      exact ⟨more, rfl, hMore⟩

/-- What the text does not begin with, it does not begin with either with the parenthesis behind
it. -/
theorem false_of_front (front : List Char) {text rest : List Char} (hOther : ')' ∉ front)
    (hFront : text ++ [')'] = front ++ rest) (hNone : ∀ more, text = front ++ more → False) :
    False := by
  obtain ⟨more, hMore, -⟩ := front_of_append front hOther hFront
  exact hNone more hMore

theorem dropWhile_isSpace_append (text : List Char) :
    (text ++ [')']).dropWhile isSpace = text.dropWhile isSpace ++ [')'] := by
  rw [List.dropWhile_append]
  split
  · next hBlank =>
    rw [List.isEmpty_iff.1 hBlank]
    rfl
  · rfl

/-- Where a character is found, what comes behind the text makes no difference before it. -/
theorem takeWhile_append {p : Char → Bool} {text rest : List Char} {c : Char}
    (hDrop : text.dropWhile p = c :: rest) (more : List Char) :
    (text ++ more).takeWhile p = text.takeWhile p ∧
      (text ++ more).dropWhile p = c :: rest ++ more := by
  induction text with
  | nil => cases hDrop
  | cons d text ih =>
    rw [List.dropWhile_cons] at hDrop
    rw [List.cons_append, List.takeWhile_cons, List.takeWhile_cons, List.dropWhile_cons]
    split
    · next hHolds =>
      rw [if_pos hHolds] at hDrop
      rw [(ih hDrop).1]
      exact ⟨rfl, (ih hDrop).2⟩
    · next hFails =>
      rw [if_neg hFails] at hDrop
      rw [← hDrop]
      exact ⟨rfl, rfl⟩

/-- A comment that goes on to the end of the text takes the parenthesis in. -/
theorem afterBlanks_append (inComment : Bool) (text : List Char) :
    afterBlanks inComment (text ++ [')']) = afterBlanks inComment text ++ [')'] ∨
      afterBlanks inComment text = [] ∧ afterBlanks inComment (text ++ [')']) = [] := by
  induction text generalizing inComment with
  | nil =>
    cases inComment with
    | true => exact .inr ⟨rfl, rfl⟩
    | false => exact .inl rfl
  | cons c text ih =>
    rw [List.cons_append, afterBlanks, afterBlanks]
    split
    · exact ih _
    · split
      · exact ih _
      · split
        · exact ih _
        · exact .inl rfl

theorem blank_nil (hRest : progress.rest = []) : progress.blank = progress := by
  obtain ⟨rest, flags, groupNames, groups⟩ := progress
  cases hRest
  exact ite_self _

theorem enclosed_blank (progress : Progress) :
    progress.enclosed.blank = progress.blank.enclosed ∨
      progress.blank.rest = [] ∧ progress.enclosed.blank = progress.blank := by
  have hFlags : progress.enclosed.flags = progress.flags := rfl
  rw [Progress.blank, Progress.blank, hFlags]
  by_cases hSpaced : progress.flags.spaced = true
  · rw [if_pos hSpaced, if_pos hSpaced]
    refine (afterBlanks_append false progress.rest).imp (fun hSame => ?_) fun hLost => ⟨hLost.1, ?_⟩
    · simp only [Progress.enclosed, hSame]
    · simp only [Progress.enclosed, hLost.1, hLost.2]
  · rw [if_neg hSpaced, if_neg hSpaced]
    exact .inl rfl

namespace Agree

theorem skipBlanks : Agree leftover skipBlanks skipBlanks progress := by
  rcases enclosed_blank progress with hSame | ⟨hEmpty, hSame⟩
  · exact same skipBlanks_eq (hSame ▸ skipBlanks_eq)
  · exact swallowed skipBlanks_eq hEmpty (hSame ▸ skipBlanks_eq)

theorem blanks {next : Unit → Reads β}
    (hMore : ∀ progress, Takes 0 (Reads.skipBlanks >>= next) progress)
    (hNext : ∀ after, Agree leftover (next ()) (next ()) after) :
    Agree leftover (Reads.skipBlanks >>= next) (Reads.skipBlanks >>= next) progress := by
  have hEnd (after : Progress) (hRest : after.rest = []) : Leaves [] (next ()) after := by
    intro value last hRun
    have hAll : (Reads.skipBlanks >>= next) after = .ok (value, last) := by
      rw [bind_of_ok skipBlanks_eq, blank_nil hRest, hRun]
    exact hRest ▸ (hMore after).suffix hAll
  have hBlanks : Agree [] Reads.skipBlanks Reads.skipBlanks progress := skipBlanks
  apply hBlanks.share
  · exact fun _ => hEnd
  · exact fun _ after hRest => (hEnd after (List.suffix_nil.1 hRest)).mono List.nil_suffix
  · exact fun _ => hNext

theorem take (defect : Defect) : Agree leftover (take defect) (take defect) progress := by
  obtain ⟨rest, flags, groupNames, groups⟩ := progress
  cases rest with
  | nil =>
    apply of_error (take_eq defect)
    intro value after hRun
    cases hRun.symm.trans (take_eq defect)
    exact List.nil_suffix
  | cons c rest => exact same (take_eq defect) (take_eq defect)

theorem skip_of_le {count : Nat} (hCount : count ≤ progress.rest.length) :
    Agree leftover (skip count) (skip count) progress := by
  have hRun : skip count progress.enclosed =
      .ok ((), { progress with rest := (progress.rest ++ [')']).drop count }) := rfl
  rw [List.drop_append_of_le_length hCount] at hRun
  exact same rfl hRun

theorem skip_of_cons {c : Char} {rest : List Char} (hRest : progress.rest = c :: rest) :
    Agree leftover (skip 1) (skip 1) progress :=
  skip_of_le (by simp [hRest])

/-- At the end of the text it fails, and behind the text it is left with the parenthesis. -/
theorem skipWithin (defect : Defect) :
    Agree [')'] (skipWithin defect) (skipWithin defect) progress := by
  cases hRest : progress.rest with
  | nil =>
    apply of_error (skipWithin_nil hRest)
    exact .of_takes (Takes.skipWithin defect) (Progress.enclosed_suffix hRest)
  | cons c rest =>
    refine (skip_of_cons hRest).bind (fun _ _ => Takes.skipBlanks.bind fun _ _ =>
      .rest (.ite (.throw _) (.pure _))) fun _ _ => ?_
    refine skipBlanks.bind (fun _ _ => .rest (.ite (.throw _) (.pure _)))
      fun _ after => .rest ?_
    cases hAfter : after.rest with
    | nil =>
      apply fail
      intro value last hRun
      cases hRun
      exact Progress.enclosed_suffix hAfter
    | cons d rest => exact .pure ()

end Agree

end Reads

namespace Escape

open Reads

variable {progress : Progress}

theorem agree_hexDigit : Agree [] hexDigit hexDigit progress := by
  refine (Agree.take _).bind (fun c _ => ?_) fun c _ => ?_
  · cases hexValue? c with
    | none => exact .throw _
    | some value => exact Takes.skipBlanks.bind fun _ _ => .pure _
  · cases hexValue? c with
    | none => exact .fail (.throw _)
    | some value => exact Agree.skipBlanks.bind (fun _ _ => .pure _) fun _ _ => .pure _

theorem agree_hexDigits (value count : Nat) :
    Agree [] (hexDigits value count) (hexDigits value count) progress := by
  induction count generalizing value progress with
  | zero => exact .pure _
  | succ count ih =>
    exact agree_hexDigit.bind (fun _ _ => takes_hexDigits _ _) fun _ _ => ih _

theorem agree_hexBraced (value : Nat) (opening : Bool) (rounds : Nat) :
    Agree [] (hexBraced value opening rounds) (hexBraced value opening rounds) progress := by
  induction rounds generalizing value opening progress with
  | zero => exact .fail (.throw _)
  | succ rounds ih =>
    refine Agree.blanks (fun _ => takes_hexBraced value opening (rounds + 1)) fun after => .rest ?_
    split
    · next hRest =>
      rw [hRest]
      apply Agree.fail
      exact .nil_of_takes (takes_hexDigit.bind fun _ _ => takes_hexBraced _ _ _)
        (Progress.enclosed_suffix hRest)
    · next hRest =>
      rw [hRest]
      refine .ite (.fail (.throw _)) ((Agree.skip_of_cons hRest).bind
        (fun _ _ => Takes.skipBlanks.bind fun _ _ => .pure _) fun _ _ => ?_)
      exact Agree.skipBlanks.bind (fun _ _ => .pure _) fun _ _ => .pure _
    · next hFilled hOpen =>
      split
      · next hEmpty => simp at hEmpty
      · next hFront =>
        exact (false_of_front ['\x7d'] (by decide) hFront hOpen).elim
      · exact agree_hexDigit.bind (fun _ _ => takes_hexBraced _ _ _) fun _ _ => ih _ _

theorem agree_codePoint (digits : Nat) :
    Agree [] (codePoint digits) (codePoint digits) progress := by
  have hValue (value : Nat) (progress : Progress) : Agree []
      (if value.isValidChar then pure (Escape.char (Char.ofNat value))
        else throw Defect.badCodePoint : Reads Escape)
      (if value.isValidChar then pure (Escape.char (Char.ofNat value))
        else throw Defect.badCodePoint : Reads Escape) progress :=
    .ite (.pure _) (.fail (.throw _))
  have hTakes (value : Nat) (progress : Progress) : Takes 0
      (if value.isValidChar then pure (Escape.char (Char.ofNat value))
        else throw Defect.badCodePoint : Reads Escape) progress :=
    .ite (.pure _) (.throw _)
  refine Agree.skipBlanks.bind (fun _ progress => .rest ?_) fun _ after => .rest ?_
  · dsimp only
    split
    · next hRest =>
      refine (Takes.continueAt_suffix ?_).bind fun _ _ => (takes_hexBraced _ _ _).bind hTakes
      exact hRest ▸ List.suffix_cons _ _
    · exact (takes_hexDigits _ _).bind hTakes
  · dsimp only
    split
    · next rest hRest =>
      rw [hRest]
      have hBraced : Agree [] (hexBraced 0 true (rest.length + 1))
          (hexBraced 0 true ((rest ++ [')']).length + 1)) { after with rest } :=
        (agree_hexBraced 0 true _).of_covers
          (covers_hexBraced 0 true (Nat.le_refl _) (by simp))
          (covers_hexBraced 0 true (by simp) (Nat.le_refl _)) (Nat.lt_succ_self rest.length)
      exact hBraced.bind hTakes hValue
    · next hOpen =>
      split
      · next hFront =>
        exact (false_of_front ['\x7b'] (by decide) hFront hOpen).elim
      · exact (agree_hexDigits 0 digits).bind hTakes hValue

theorem agree_read : Agree [] read read progress := by
  refine (Agree.take _).bind (fun c _ => ?_) fun c _ => ?_
  · split
    all_goals first
      | exact takes_codePoint _
      | exact .pure _
      | exact .ite (.pure _) (.throw _)
  · split
    all_goals first
      | exact agree_codePoint _
      | exact .pure _
      | exact .ite (.pure _) (.fail (.throw _))

end Escape

namespace Bracket

open Reads

variable {progress : Progress}

theorem agree_finish (negated : Bool) (set : CharSet) :
    Agree [] (finish negated set) (finish negated set) progress :=
  (Agree.underFlags set).bind (fun _ _ => .pure _) fun _ _ => .pure _

theorem agree_close (pending : Option (Operator × Part)) (operand : Part) :
    Agree [] (close pending operand) (close pending operand) progress := by
  cases pending with
  | none => exact .pure _
  | some pending =>
    exact (Agree.underFlags _).bind (fun _ _ => (Takes.underFlags _).bind fun _ _ => .pure _)
      fun _ _ => (Agree.underFlags _).bind (fun _ _ => .pure _) fun _ _ => .pure _

theorem agree_item : Agree [] item item progress := by
  refine (Agree.take _).bind (fun c _ => ?_) fun c _ => ?_
  · split
    · exact Escape.takes_read.zero
    · exact .pure _
  · split
    · exact Escape.agree_read
    · exact .pure _

/-- The character at the front, blanks and the mark of a comment left out where they stand for
nothing. -/
def visible? (spaced : Bool) (text : List Char) : Option Char :=
  if spaced then
    match text.dropWhile isSpace with
    | '#' :: text => (text.dropWhile isSpace).head?
    | text => text.head?
  else text.head?

theorem second?_eq :
    second? progress = .ok (visible? progress.flags.spaced (progress.rest.drop 1), progress) := by
  rw [second?, rest_bind, flags_bind, visible?]
  cases progress.flags.spaced with
  | false => rfl
  | true =>
    simp only [if_true]
    cases (progress.rest.drop 1).dropWhile isSpace with
    | nil => rfl
    | cons c rest =>
      by_cases hComment : c = '#'
      · subst hComment
        rfl
      · simp only [List.cons.injEq, hComment, false_and, imp_self, implies_true]
        rfl

theorem head?_append (text : List Char) : (text ++ [')']).head? = text.head? ∨
    text.head? = none ∧ (text ++ [')']).head? = some ')' := by
  cases text with
  | nil => exact .inr ⟨rfl, rfl⟩
  | cons c text => exact .inl rfl

/-- With a parenthesis behind the text it is that at most which comes into sight. -/
theorem visible?_append (spaced : Bool) (text : List Char) :
    visible? spaced (text ++ [')']) = visible? spaced text ∨
      visible? spaced text = none ∧ visible? spaced (text ++ [')']) = some ')' := by
  cases spaced with
  | false => exact head?_append text
  | true =>
    simp only [visible?, if_true, dropWhile_isSpace_append]
    cases hFront : text.dropWhile isSpace with
    | nil => exact .inr ⟨rfl, rfl⟩
    | cons c rest =>
      by_cases hComment : c = '#'
      · subst hComment
        simpa only [List.cons_append, dropWhile_isSpace_append] using head?_append _
      · refine .inl ?_
        split
        · next hMark => exact absurd (List.cons.inj hMark).1 hComment
        · split
          · next hMark => exact absurd (List.cons.inj hMark).1 hComment
          · rfl

theorem agree_second? {α : Type} {leftover : List Char} {next next' : Option Char → Reads α}
    (hNext : ∀ after, Agree leftover (next after) (next' after) progress)
    (hParenthesis : Agree leftover (next none) (next' (some ')')) progress) :
    Agree leftover (second? >>= next) (second? >>= next') progress := by
  rw [Agree, Leaves, bind_of_ok second?_eq, bind_of_ok second?_eq]
  have hSecond : visible? progress.flags.spaced (progress.enclosed.rest.drop 1) =
        visible? progress.flags.spaced (progress.rest.drop 1) ∨
      visible? progress.flags.spaced (progress.rest.drop 1) = none ∧
        visible? progress.flags.spaced (progress.enclosed.rest.drop 1) = some ')' := by
    rw [Progress.enclosed]
    cases progress.rest with
    | nil => exact .inl rfl
    | cons c rest => exact visible?_append _ rest
  rcases hSecond with hSame | ⟨hNone, hSome⟩
  · rw [show progress.enclosed.flags = progress.flags from rfl, hSame]
    exact hNext _
  · rw [show progress.enclosed.flags = progress.flags from rfl, hNone, hSome]
    exact hParenthesis

theorem agree_span (first last : Escape) :
    Agree [] (span first last) (span first last) progress := by
  fun_cases span first last with
  | case1 => exact .pure _
  | case2 => exact .fail (.throw _)
  | case3 => exact .fail (.throw _)

theorem agree_itemEnd (first : Escape) (front after : Option Char) :
    Agree [')'] (itemEnd first front after) (itemEnd first front after) progress := by
  refine .ite ?_ ?_
  · split
    · exact .pure _
    · exact .pure _
    · exact .fail (.throw _)
  · refine (Agree.skipWithin _).bind (fun _ _ => takes_item.zero.bind
      fun _ _ => takes_span _ _) fun _ _ => ?_
    exact (agree_item.bind (fun _ _ => takes_span _ _) fun _ _ => agree_span _ _).mono
      List.nil_suffix

/-- An item at the end of the text is not closed, and with the parenthesis behind it no more than
that is left. -/
theorem agree_itemRest (first : Escape) :
    Agree [')'] (itemRest first) (itemRest first) progress := by
  have hEnd (front : Option Char) (progress : Progress) :
      Takes 0 (second? >>= itemEnd first front) progress :=
    takes_second?.bind fun _ _ => takes_itemEnd _ _ _
  refine Agree.skipBlanks.bind
    (fun _ _ => .rest (.ite ((Takes.throw _).bind fun _ => hEnd _) (hEnd _ _)))
    fun _ after => .rest ?_
  cases hRest : after.rest with
  | nil =>
    apply Agree.fail
    exact .of_takes (hEnd _ _) (Progress.enclosed_suffix hRest)
  | cons c rest =>
    exact agree_second? (fun _ => agree_itemEnd _ _ _) (agree_itemEnd first (some c) (some ')'))

theorem agree_interval : Agree [')'] interval interval progress :=
  (agree_item.mono List.nil_suffix).bind (fun _ _ => takes_itemRest _) fun _ _ => agree_itemRest _

theorem agree_hyphens (first : Items) (rounds : Nat) :
    Agree [')'] (hyphens first rounds) (hyphens first rounds) progress := by
  induction rounds generalizing first progress with
  | zero => exact .pure _
  | succ rounds ih =>
    rw [hyphens]
    apply Agree.rest
    split
    · next hRest =>
      rw [hRest]
      exact (Agree.skipWithin _).bind (fun _ _ => takes_hyphens _ _) fun _ _ => ih _
    · next hOther =>
      split
      · next hFront =>
        exact (false_of_front ['-'] (by decide) hFront hOther).elim
      · exact .pure _

theorem named?_append (negated : Bool) (text : List Char) :
    named? negated (text ++ [')']) =
      (named? negated text).map fun (negated, set, rest) => (negated, set, rest ++ [')']) := by
  rw [named?, named?]
  cases hDrop : text.dropWhile (· != ':') with
  | nil =>
    rw [List.dropWhile_append, hDrop]
    rfl
  | cons c rest =>
    obtain ⟨hTake, hDrop⟩ := takeWhile_append hDrop [')']
    rw [hTake, hDrop]
    split
    · next hFound =>
      obtain ⟨rfl, hBehind⟩ := List.cons.inj hFound
      cases rest with
      | nil => cases hBehind
      | cons d rest =>
        obtain ⟨rfl, rfl⟩ := List.cons.inj hBehind
        cases hSet : CharSet.ascii? (String.ofList (text.takeWhile (· != ':'))) <;> simp
    · next hNone =>
      split
      · next hFound =>
        cases hFound
        exact (hNone _ rfl).elim
      · rfl

theorem ascii?_append (text : List Char) : ascii? ('[' :: text ++ [')']) =
    (ascii? ('[' :: text)).map fun (negated, set, rest) => (negated, set, rest ++ [')']) := by
  cases text with
  | nil => rfl
  | cons c text =>
    by_cases hColon : c = ':'
    · subst hColon
      cases text with
      | nil => exact named?_append false []
      | cons d text =>
        by_cases hNegated : d = '^'
        · subst hNegated
          exact named?_append true text
        · rw [ascii?_plain (by simp [hNegated]), ← named?_append]
          exact ascii?_plain (by simp [hNegated])
    · have hNone (text : List Char) : ascii? ('[' :: c :: text) = none :=
        ascii?_other (by simp [hColon])
      rw [hNone]
      exact hNone _

theorem isNegated_append (text : List Char) :
    ((text ++ [')']).head? == some '^') = (text.head? == some '^') := by
  rcases head?_append text with hSame | ⟨hNone, hSome⟩
  · rw [hSame]
  · rw [hNone, hSome]
    rfl

section

variable {rounds : Nat} {negated : Bool}

theorem agree_fromItems
    (hItems : ∀ operand progress,
      Agree [] (items rounds none operand) (items rounds none operand) progress)
    (first : Items) :
    Agree [] (fromItems rounds negated first) (fromItems rounds negated first) progress :=
  (hItems _ _).bind (fun _ _ => (takes_finish _ _).bind fun _ _ => .pure _)
    fun _ _ => (agree_finish _ _).bind (fun _ _ => .pure _) fun _ _ => .pure _

theorem agree_fromFirst
    (hItems : ∀ operand progress,
      Agree [] (items rounds none operand) (items rounds none operand) progress)
    (first : Items) :
    Agree [] (fromFirst rounds negated first) (fromFirst rounds negated first) progress := by
  have hTakes := (takes_class rounds).2.1 none
  apply Agree.rest
  split
  · next hCount hRest =>
    rw [hCount, hRest]
    exact (Agree.skipWithin _).bindEnds (fun _ _ => takes_fromItems hTakes _)
      fun _ _ => agree_fromItems hItems _
  · next hOther =>
    split
    · next hFront =>
      exact (false_of_front [']'] (by decide) hFront fun more hMore => hOther more ‹_› hMore).elim
    · exact agree_fromItems hItems _

theorem agree_fromSign
    (hItems : ∀ operand progress,
      Agree [] (items rounds none operand) (items rounds none operand) progress) :
    Agree [] (fromSign rounds negated) (fromSign rounds negated) progress := by
  have hTakes (first : Items) (progress : Progress) :
      Takes 1 (fromFirst rounds negated first) progress :=
    takes_fromFirst ((takes_class rounds).2.1 none) first
  have hFirst (progress : Progress) : Agree [] (hyphens {} rounds >>= fromFirst rounds negated)
      (hyphens {} rounds >>= fromFirst rounds negated) progress :=
    (agree_hyphens _ _).bindEnds hTakes fun _ _ => agree_fromFirst hItems _
  refine .ite ((Agree.skipWithin _).bindEnds (fun _ _ => ?_) fun _ => hFirst) (hFirst _)
  exact (takes_hyphens _ _).andThen hTakes

theorem agree_read
    (hItems : ∀ operand progress,
      Agree [] (items rounds none operand) (items rounds none operand) progress) :
    Agree [] (read (rounds + 1)) (read (rounds + 1)) progress := by
  rw [read_succ]
  refine (Agree.skipWithin _).bindEnds
    (fun _ _ => .rest (takes_fromSign ((takes_class rounds).2.1 none))) fun _ after => .rest ?_
  rw [isNegated_append]
  exact agree_fromSign hItems

theorem agree_nested
    (hRead : ∀ progress, Agree [] (read rounds) (read rounds) progress)
    (hItems : ∀ pending operand progress,
      Agree [] (items rounds pending operand) (items rounds pending operand) progress)
    (pending : Option (Operator × Part)) (operand : Items) (text : List Char) :
    Agree [] (nested rounds pending operand (ascii? ('[' :: text)))
      (nested rounds pending operand (ascii? ('[' :: text ++ [')']))) progress := by
  have hTakes (pending : Option (Operator × Part)) (operand : Items) (progress : Progress) :
      Takes 0 (items rounds pending operand) progress :=
    ((takes_class rounds).2.1 pending operand progress).zero
  rw [ascii?_append]
  cases ascii? ('[' :: text) with
  | none => exact (hRead _).bind (fun _ _ => hTakes _ _ _) fun _ _ => hItems _ _ _
  | some found =>
    obtain ⟨negated, set, rest⟩ := found
    refine (Agree.continueAt rest).bind
      (fun _ _ => (takes_finish _ _).bind fun _ _ => hTakes _ _ _) fun _ _ => ?_
    exact (agree_finish _ _).bind (fun _ _ => hTakes _ _ _) fun _ _ => hItems _ _ _

/-- What an item is can be seen from what the text begins with, and of these beginnings the
parenthesis is no part. -/
theorem agree_items
    (hRead : ∀ progress, Agree [] (read rounds) (read rounds) progress)
    (hItems : ∀ pending operand progress,
      Agree [] (items rounds pending operand) (items rounds pending operand) progress)
    (hOperator : ∀ op pending operand progress, 2 ≤ progress.rest.length →
      Agree [] (operator rounds op pending operand) (operator rounds op pending operand) progress)
    (pending : Option (Operator × Part)) (operand : Items) :
    Agree [] (items (rounds + 1) pending operand) (items (rounds + 1) pending operand)
      progress := by
  have hTakes := (takes_class rounds).2.1
  rw [items]
  refine Agree.blanks (fun progress =>
    ((takes_class (rounds + 1)).2.1 pending operand progress).zero)
    fun after => .rest ?_
  split
  · next hRest =>
    rw [hRest]
    apply Agree.fail
    apply Leaves.nil_of_takes
    · exact takes_interval.bind fun _ _ => (hTakes _ _ _).zero
    · exact Progress.enclosed_suffix hRest
  · next hRest =>
    rw [hRest]
    exact (Agree.skip_of_cons hRest).bind (fun _ _ => takes_close _ _)
      fun _ _ => agree_close _ _
  · next rest hRest =>
    rw [hRest]
    exact agree_nested hRead hItems pending operand rest
  · next hRest =>
    rw [hRest]
    exact hOperator _ _ _ _ (by simp [hRest])
  · next hRest =>
    rw [hRest]
    exact hOperator _ _ _ _ (by simp [hRest])
  · next hRest =>
    rw [hRest]
    exact hOperator _ _ _ _ (by simp [hRest])
  · next hFilled hClosed hNested hInter hDiff hSymm =>
    split
    · next hFront => simp at hFront
    · next hFront => exact (false_of_front [']'] (by decide) hFront hClosed).elim
    · next hFront => exact (false_of_front ['['] (by decide) hFront hNested).elim
    · next hFront => exact (false_of_front ['&', '&'] (by decide) hFront hInter).elim
    · next hFront => exact (false_of_front ['-', '-'] (by decide) hFront hDiff).elim
    · next hFront => exact (false_of_front ['~', '~'] (by decide) hFront hSymm).elim
    · exact agree_interval.bindEnds (fun _ _ => hTakes _ _ _) fun _ _ => hItems _ _ _

theorem agree_operator
    (hItems : ∀ pending operand progress,
      Agree [] (items rounds pending operand) (items rounds pending operand) progress)
    (op : Operator) (pending : Option (Operator × Part)) (operand : Items)
    (hLength : 2 ≤ progress.rest.length) :
    Agree [] (operator (rounds + 1) op pending operand)
      (operator (rounds + 1) op pending operand) progress := by
  have hTakes := (takes_class rounds).2.1
  rw [operator]
  refine (Agree.skip_of_le hLength).bind (fun _ _ => (takes_close _ _).bind fun _ _ =>
    (hTakes _ _ _).zero) fun _ _ => ?_
  exact (agree_close _ _).bind (fun _ _ => (hTakes _ _ _).zero) fun _ _ => hItems _ _ _

end

/-- A class that ends with the text is not closed, and what is read of it with the parenthesis
behind it takes that in. -/
theorem agree_class (rounds : Nat) :
    (∀ progress, Agree [] (read rounds) (read rounds) progress) ∧
      (∀ pending operand progress,
        Agree [] (items rounds pending operand) (items rounds pending operand) progress) ∧
      ∀ op pending operand progress, 2 ≤ progress.rest.length →
        Agree [] (operator rounds op pending operand) (operator rounds op pending operand)
          progress := by
  induction rounds with
  | zero =>
    exact ⟨fun _ => .fail (.throw _), fun _ _ _ => .fail (.throw _),
      fun _ _ _ _ _ => .fail (.throw _)⟩
  | succ rounds ih =>
    obtain ⟨hRead, hItems, hOperator⟩ := ih
    exact ⟨fun _ => agree_read (hItems none), fun pending operand _ =>
        agree_items hRead hItems hOperator pending operand,
      fun op pending operand _ => agree_operator hItems op pending operand⟩

end Bracket

end StreamMatch.Regex
