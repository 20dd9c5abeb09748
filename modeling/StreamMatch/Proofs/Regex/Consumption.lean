import StreamMatch.Regex.Expr.Parser

/-!
What reading the text of a regular expression takes of it. Every part of the reader takes characters
from the front of what is left, and most take one at least (`Reads.Takes`). The parts that are read
in several ways are taken apart here into one action for each way.
-/

namespace StreamMatch.Regex

/-- With the blanks and comments in front skipped, where they stand for nothing. -/
def Progress.blank (progress : Progress) : Progress :=
  if progress.flags.spaced then
    { progress with rest := Reads.afterBlanks false progress.rest }
  else progress

namespace Reads

variable {α β : Type} {least more : Nat} {progress : Progress}

section Equations

theorem rest_bind (next : List Char → Reads β) (progress : Progress) :
    (rest >>= next) progress = next progress.rest progress := rfl

theorem flags_bind (next : Flags → Reads β) (progress : Progress) :
    (flags >>= next) progress = next progress.flags progress := rfl

theorem skip_bind (count : Nat) (next : Unit → Reads β) (progress : Progress) :
    (skip count >>= next) progress =
      next () { progress with rest := progress.rest.drop count } := rfl

theorem bind_of_ok {action : Reads α} {next : α → Reads β} {value : α} {after : Progress}
    (hAction : action progress = .ok (value, after)) :
    (action >>= next) progress = next value after := by
  simp [bind, StateT.bind, hAction, Except.bind]

theorem bind_of_error {action : Reads α} {next : α → Reads β} {defect : Defect}
    (hAction : action progress = .error defect) :
    (action >>= next) progress = .error defect := by
  simp [bind, StateT.bind, hAction, Except.bind]

/-- Where a sequence of two comes to a result, both have. -/
theorem bind_eq_ok {action : Reads α} {next : α → Reads β} {value : β} {last : Progress}
    (hRun : (action >>= next) progress = .ok (value, last)) :
    ∃ first after, action progress = .ok (first, after) ∧ next first after = .ok (value, last) := by
  cases hAction : action progress with
  | error defect =>
    rw [bind_of_error hAction] at hRun
    cases hRun
  | ok outcome =>
    rw [bind_of_ok hAction] at hRun
    exact ⟨outcome.1, outcome.2, rfl, hRun⟩

theorem skipBlanks_eq : skipBlanks progress = .ok ((), progress.blank) := by
  rw [Progress.blank, skipBlanks, flags_bind]
  split <;> rfl

theorem skipWithin_eq (defect : Defect) : skipWithin defect progress =
    let after := Progress.blank { progress with rest := progress.rest.drop 1 }
    if after.rest.isEmpty then .error defect else .ok ((), after) := by
  rw [skipWithin, skip_bind, bind_of_ok skipBlanks_eq, rest_bind]
  dsimp only
  split <;> rfl

theorem skipWithin_nil {defect : Defect} (hRest : progress.rest = []) :
    skipWithin defect progress = .error defect := by
  obtain ⟨rest, flags, groupNames, groups⟩ := progress
  cases hRest
  rw [skipWithin_eq, Progress.blank]
  cases flags.spaced <;> rfl

theorem take_eq (defect : Defect) : take defect progress =
    match progress.rest with
    | [] => .error defect
    | c :: rest => .ok (c, { progress with rest }) := by
  rw [take, rest_bind]
  cases progress.rest <;> rfl

end Equations

theorem afterBlanks_suffix (inComment : Bool) (text : List Char) :
    afterBlanks inComment text <:+ text := by
  induction text generalizing inComment with
  | nil => exact List.suffix_refl _
  | cons c rest ih =>
    rw [afterBlanks]
    split
    · exact (ih _).trans (List.suffix_cons c rest)
    · split
      · exact (ih _).trans (List.suffix_cons c rest)
      · split
        · exact (ih _).trans (List.suffix_cons c rest)
        · exact List.suffix_refl _

theorem blank_suffix (progress : Progress) : progress.blank.rest <:+ progress.rest := by
  rw [Progress.blank]
  split
  · exact afterBlanks_suffix false _
  · exact List.suffix_refl _

/-- Where the action comes to a result, it has taken that many characters at least, from the
front of the text. -/
def Takes (least : Nat) (action : Reads α) (progress : Progress) : Prop :=
  ∀ value after, action progress = .ok (value, after) →
    ∃ front, progress.rest = front ++ after.rest ∧ least ≤ front.length

namespace Takes

theorem suffix {action : Reads α} {value : α} {after : Progress}
    (hTakes : Takes least action progress) (hRun : action progress = .ok (value, after)) :
    after.rest <:+ progress.rest := by
  obtain ⟨front, hFront, -⟩ := hTakes value after hRun
  exact ⟨front, hFront.symm⟩

theorem length_le {action : Reads α} {value : α} {after : Progress}
    (hTakes : Takes least action progress) (hRun : action progress = .ok (value, after)) :
    after.rest.length + least ≤ progress.rest.length := by
  obtain ⟨front, hFront, hLength⟩ := hTakes value after hRun
  rw [hFront, List.length_append]
  omega

theorem pure (value : α) : Takes 0 (pure value) progress := by
  intro result after hRun
  cases hRun
  exact ⟨[], rfl, Nat.le_refl _⟩

theorem throw (defect : Defect) : Takes least (throw defect : Reads α) progress :=
  fun _ _ hRun => by cases hRun

theorem mono {action : Reads α} (hTakes : Takes more action progress) (hLeast : least ≤ more) :
    Takes least action progress := by
  intro value after hRun
  obtain ⟨front, hFront, hLength⟩ := hTakes value after hRun
  exact ⟨front, hFront, Nat.le_trans hLeast hLength⟩

theorem zero {action : Reads α} (hTakes : Takes least action progress) :
    Takes 0 action progress :=
  hTakes.mono (Nat.zero_le _)

/-- In a sequence the first part takes enough already. -/
theorem bind {action : Reads α} {next : α → Reads β} (hAction : Takes least action progress)
    (hNext : ∀ value after, Takes 0 (next value) after) :
    Takes least (action >>= next) progress := by
  intro result last hRun
  obtain ⟨value, after, hFirst, hSecond⟩ := bind_eq_ok hRun
  obtain ⟨front, hFront, hLength⟩ := hAction value after hFirst
  obtain ⟨back, hBack, -⟩ := hNext value after result last hSecond
  refine ⟨front ++ back, ?_, ?_⟩
  · rw [hFront, hBack, List.append_assoc]
  · rw [List.length_append]
    exact Nat.le_add_right_of_le hLength

/-- In a sequence what comes after the first part takes enough. -/
theorem andThen {action : Reads α} {next : α → Reads β} (hAction : Takes 0 action progress)
    (hNext : ∀ value after, Takes least (next value) after) :
    Takes least (action >>= next) progress := by
  intro result last hRun
  obtain ⟨value, after, hFirst, hSecond⟩ := bind_eq_ok hRun
  obtain ⟨front, hFront, -⟩ := hAction value after hFirst
  obtain ⟨back, hBack, hLength⟩ := hNext value after result last hSecond
  refine ⟨front ++ back, ?_, ?_⟩
  · rw [hFront, hBack, List.append_assoc]
  · rw [List.length_append]
    exact Nat.le_add_left_of_le hLength

theorem rest {next : List Char → Reads β} (hNext : Takes least (next progress.rest) progress) :
    Takes least (Reads.rest >>= next) progress := hNext

theorem flags {next : Flags → Reads β} (hNext : Takes least (next progress.flags) progress) :
    Takes least (Reads.flags >>= next) progress := hNext

theorem ite {condition : Prop} [Decidable condition] {first second : Reads α}
    (hFirst : Takes least first progress) (hSecond : Takes least second progress) :
    Takes least (if condition then first else second) progress := by
  split
  · exact hFirst
  · exact hSecond

/-- To go on behind some characters of the front is to take them. -/
theorem continueAt {front rest : List Char} (hRest : progress.rest = front ++ rest) :
    Takes front.length (continueAt rest) progress := by
  intro value after hRun
  cases hRun
  exact ⟨front, hRest, Nat.le_refl _⟩

theorem continueAt_suffix {rest : List Char} (hRest : rest <:+ progress.rest) :
    Takes 0 (Reads.continueAt rest) progress := by
  obtain ⟨front, hFront⟩ := hRest
  exact (continueAt hFront.symm).zero

theorem setFlags (flags : Flags) : Takes 0 (setFlags flags) progress := by
  intro value after hRun
  cases hRun
  exact ⟨[], rfl, Nat.le_refl _⟩

theorem skip (count : Nat) : Takes 0 (skip count) progress := by
  intro value after hRun
  cases hRun
  exact ⟨progress.rest.take count, (List.take_append_drop count _).symm, Nat.zero_le _⟩

theorem skip_of_le {count : Nat} (hCount : count ≤ progress.rest.length) :
    Takes count (Reads.skip count) progress := by
  intro value after hRun
  cases hRun
  refine ⟨progress.rest.take count, (List.take_append_drop count _).symm, Nat.le_of_eq ?_⟩
  rw [List.length_take, Nat.min_eq_left hCount]

theorem skip_of_cons {c : Char} {rest : List Char} (hRest : progress.rest = c :: rest) :
    Takes 1 (Reads.skip 1) progress :=
  skip_of_le (by simp [hRest])

theorem skipBlanks : Takes 0 skipBlanks progress := by
  intro value after hRun
  rw [skipBlanks_eq] at hRun
  cases hRun
  obtain ⟨front, hFront⟩ := blank_suffix progress
  exact ⟨front, hFront.symm, Nat.zero_le _⟩

theorem take (defect : Defect) : Takes 1 (take defect) progress := by
  intro value after hRun
  rw [take_eq] at hRun
  cases hRest : progress.rest with
  | nil =>
    rw [hRest] at hRun
    cases hRun
  | cons c rest =>
    rw [hRest] at hRun
    cases hRun
    exact ⟨[value], rfl, Nat.le_refl _⟩

theorem skipWithin (defect : Defect) : Takes 1 (skipWithin defect) progress := by
  intro value after hRun
  rw [skipWithin_eq] at hRun
  dsimp only at hRun
  split at hRun
  · cases hRun
  · next hSome =>
    cases hRun
    obtain ⟨front, hFront⟩ := blank_suffix { progress with rest := progress.rest.drop 1 }
    cases hRest : progress.rest with
    | nil => simp_all
    | cons c rest =>
      simp only [hRest, List.drop_one, List.tail_cons] at hFront ⊢
      exact ⟨c :: front, congrArg (c :: ·) hFront.symm, Nat.succ_le_succ (Nat.zero_le _)⟩

theorem underFlags (set : CharSet) : Takes 0 (underFlags set) progress := by
  intro value after hRun
  cases hRun
  exact ⟨[], rfl, Nat.le_refl _⟩

end Takes

end Reads

namespace Escape

open Reads

variable {progress : Progress}

theorem takes_hexDigit : Takes 1 hexDigit progress := by
  refine (Takes.take _).bind fun c after => ?_
  cases hexValue? c with
  | none => exact .throw _
  | some value => exact Takes.skipBlanks.bind fun _ _ => .pure _

theorem takes_hexDigits (value count : Nat) : Takes 0 (hexDigits value count) progress := by
  induction count generalizing value progress with
  | zero => exact .pure _
  | succ count ih => exact takes_hexDigit.zero.bind fun _ _ => ih _

theorem takes_hexBraced (value : Nat) (opening : Bool) (rounds : Nat) :
    Takes 0 (hexBraced value opening rounds) progress := by
  induction rounds generalizing value opening progress with
  | zero => exact .throw _
  | succ rounds ih =>
    have hEnd (progress : Progress) : Takes 0
        (do
          Reads.skip 1
          Reads.skipBlanks
          return value) progress :=
      (Takes.skip 1).bind fun _ _ => Takes.skipBlanks.bind fun _ _ => .pure _
    refine Takes.skipBlanks.bind fun _ after => .rest ?_
    split
    · exact .throw _
    · exact .ite ((Takes.throw _).bind fun _ => hEnd) (hEnd _)
    · exact takes_hexDigit.zero.bind fun _ _ => ih _ _

theorem takes_codePoint (digits : Nat) : Takes 0 (codePoint digits) progress := by
  refine Takes.skipBlanks.bind fun _ after => .rest ?_
  have hValue (value : Nat) (progress : Progress) : Takes 0
      (if value.isValidChar then pure (Escape.char (Char.ofNat value))
        else throw Defect.badCodePoint : Reads Escape) progress :=
    .ite (.pure _) (.throw _)
  dsimp only
  split
  · next hRest =>
    refine (Takes.continueAt_suffix ?_).bind fun _ _ => (takes_hexBraced _ _ _).bind hValue
    exact hRest ▸ List.suffix_cons _ _
  · exact (takes_hexDigits _ _).bind hValue

theorem takes_read : Takes 1 read progress := by
  refine (Takes.take _).bind fun c after => ?_
  split
  all_goals first
    | exact takes_codePoint _
    | exact .pure _
    | exact .ite (.pure _) (.throw _)

end Escape

namespace Bracket

open Reads

variable {progress : Progress}

theorem takes_finish (negated : Bool) (set : CharSet) : Takes 0 (finish negated set) progress :=
  (Takes.underFlags set).bind fun _ _ => .pure _

theorem takes_close (pending : Option (Operator × Part)) (operand : Part) :
    Takes 0 (close pending operand) progress := by
  cases pending with
  | none => exact .pure _
  | some pending =>
    exact (Takes.underFlags _).bind fun _ _ => (Takes.underFlags _).bind fun _ _ => .pure _

theorem takes_item : Takes 1 item progress := by
  refine (Takes.take _).bind fun c after => ?_
  split
  · exact Escape.takes_read.zero
  · exact .pure _

theorem takes_second? : Takes 0 second? progress := by
  refine .rest (.flags ?_)
  split
  · split
    · exact .pure _
    · exact .pure _
  · exact .pure _

/-- The interval from one item to another one. -/
def span (first last : Escape) : Reads CharSet :=
  match first, last with
  | .char first, .char last =>
    if first ≤ last then return .interval first last
    else throw .badInterval
  | _, _ => throw .notInClass

/-- What an item makes with the hyphen behind it, if there is one, and what follows that. -/
def itemEnd (first : Escape) (front after : Option Char) : Reads CharSet :=
  if front != some '-' || after == some ']' || after == some '-' then
    match first with
    | .char c => return .single c
    | .chars set => return set
    | .assert _ => throw .notInClass
  else do
    Reads.skipWithin .unclosedClass
    span first (← item)

/-- What an interval is read as behind its first item. -/
def itemRest (first : Escape) : Reads CharSet := do
  Reads.skipBlanks
  let next ← Reads.rest
  if next.isEmpty then throw .unclosedClass
  itemEnd first next.head? (← second?)

theorem takes_span (first last : Escape) : Takes 0 (span first last) progress := by
  fun_cases span first last with
  | case1 => exact .pure _
  | case2 => exact .throw _
  | case3 => exact .throw _

theorem takes_itemEnd (first : Escape) (front after : Option Char) :
    Takes 0 (itemEnd first front after) progress := by
  refine .ite ?_ ?_
  · split
    · exact .pure _
    · exact .pure _
    · exact .throw _
  · exact (Takes.skipWithin _).zero.bind fun _ _ =>
      takes_item.zero.bind fun _ _ => takes_span _ _

theorem takes_itemRest (first : Escape) : Takes 0 (itemRest first) progress := by
  refine Takes.skipBlanks.bind fun _ _ => .rest ?_
  have hEnd (front : Option Char) (progress : Progress) :
      Takes 0 (second? >>= itemEnd first front) progress :=
    takes_second?.bind fun _ _ => takes_itemEnd _ _ _
  exact .ite ((Takes.throw _).bind fun _ => hEnd _) (hEnd _ _)

theorem takes_interval : Takes 1 interval progress :=
  takes_item.bind fun first _ => takes_itemRest first

theorem takes_hyphens (items : Items) (rounds : Nat) : Takes 0 (hyphens items rounds) progress := by
  induction rounds generalizing items progress with
  | zero => exact .pure _
  | succ rounds ih =>
    refine .rest ?_
    split
    · exact (Takes.skipWithin _).zero.bind fun _ _ => ih _
    · exact .pure _

/-- The name of a class and what follows it, behind the bracket, the colon and the negation. -/
def named? (negated : Bool) (text : List Char) : Option (Bool × CharSet × List Char) := do
  let name := text.takeWhile (· != ':')
  let ':' :: ']' :: rest := text.dropWhile (· != ':') | none
  let set ← CharSet.ascii? (String.ofList name)
  return (negated, set, rest)

theorem ascii?_plain {text : List Char} (hPlain : ∀ rest, text ≠ '^' :: rest) :
    ascii? ('[' :: ':' :: text) = named? false text := by
  rw [ascii?]
  · rfl
  · exact hPlain

theorem ascii?_other {text : List Char} (hOther : ∀ rest, text ≠ '[' :: ':' :: rest) :
    ascii? text = none := by
  rw [ascii?]
  exact hOther

theorem named?_eq_some {text rest : List Char} {negated negated' : Bool} {set : CharSet}
    (hClass : named? negated text = some (negated', set, rest)) : rest <:+ text := by
  rw [named?] at hClass
  split at hClass
  · next hDrop =>
    obtain ⟨found, hFound, hRest⟩ := Option.bind_eq_some_iff.1 hClass
    cases hRest
    refine (List.suffix_append [':', ']'] rest).trans ?_
    rw [List.cons_append, List.cons_append, List.nil_append, ← hDrop]
    exact List.dropWhile_suffix _
  · cases hClass

theorem ascii?_eq_some {text rest : List Char} {negated : Bool} {set : CharSet}
    (hClass : ascii? ('[' :: text) = some (negated, set, rest)) : rest <:+ text := by
  cases text with
  | nil => cases hClass
  | cons c text =>
    by_cases hColon : c = ':'
    · subst hColon
      refine List.IsSuffix.trans ?_ (List.suffix_cons _ _)
      cases text with
      | nil =>
        rw [ascii?_plain (by simp)] at hClass
        exact named?_eq_some hClass
      | cons d text =>
        by_cases hNegated : d = '^'
        · subst hNegated
          exact (named?_eq_some hClass).trans (List.suffix_cons _ _)
        · rw [ascii?_plain (by simp [hNegated])] at hClass
          exact named?_eq_some hClass
    · rw [ascii?_other (by simp [hColon])] at hClass
      cases hClass

/-- A class from its items on, of which these have been read. -/
def fromItems (rounds : Nat) (negated : Bool) (first : Items) : Reads Part := do
  let part ← items rounds none first
  return ⟨← finish negated part.set, part.depth + 1⟩

/-- A class behind the hyphens that it begins with. A closing bracket in the first place stands for
itself. -/
def fromFirst (rounds : Nat) (negated : Bool) (first : Items) : Reads Part := do
  match first.count, ← Reads.rest with
  | 0, ']' :: _ =>
    Reads.skipWithin .unclosedClass
    fromItems rounds negated (first.add ⟨.single ']', 0⟩)
  | _, _ => fromItems rounds negated first

/-- A class behind its opening bracket. -/
def fromSign (rounds : Nat) (negated : Bool) : Reads Part := do
  if negated then Reads.skipWithin .unclosedClass
  fromFirst rounds negated (← hyphens {} rounds)

theorem read_succ (rounds : Nat) : read (rounds + 1) = (do
    Reads.skipWithin .unclosedClass
    fromSign rounds ((← Reads.rest).head? == some '^')) := by
  rw [read]
  rfl

/-- What is nested in a class: one of the ASCII classes, or else a class in brackets. -/
def nested (rounds : Nat) (pending : Option (Operator × Part)) (operand : Items)
    (found : Option (Bool × CharSet × List Char)) : Reads Part :=
  match found with
  | some (negated, set, rest) => do
    Reads.continueAt rest
    items rounds pending (operand.add ⟨← finish negated set, 0⟩)
  | none => do
    items rounds pending (operand.add (← read rounds))

section Takes

variable {rounds : Nat} {negated : Bool}

theorem takes_fromItems (hItems : ∀ operand progress, Takes 1 (items rounds none operand) progress)
    (first : Items) : Takes 1 (fromItems rounds negated first) progress :=
  (hItems _ _).bind fun _ _ => (takes_finish _ _).bind fun _ _ => .pure _

theorem takes_fromFirst (hItems : ∀ operand progress, Takes 1 (items rounds none operand) progress)
    (first : Items) : Takes 1 (fromFirst rounds negated first) progress := by
  apply Takes.rest
  split
  · exact (Takes.skipWithin _).zero.andThen fun _ _ => takes_fromItems hItems _
  · exact takes_fromItems hItems _

theorem takes_fromSign (hItems : ∀ operand progress, Takes 1 (items rounds none operand) progress) :
    Takes 1 (fromSign rounds negated) progress := by
  have hFirst (progress : Progress) :
      Takes 1 (hyphens {} rounds >>= fromFirst rounds negated) progress :=
    (takes_hyphens _ _).andThen fun _ _ => takes_fromFirst hItems _
  exact .ite ((Takes.skipWithin _).zero.andThen fun _ => hFirst) (hFirst _)

end Takes

/-- To go on behind one of the ASCII classes is to take its brackets at least. -/
theorem takes_ascii {text rest : List Char} {negated : Bool} {set : CharSet}
    (hRest : progress.rest = '[' :: text)
    (hClass : ascii? ('[' :: text) = some (negated, set, rest)) :
    Takes 1 (Reads.continueAt rest) progress := by
  obtain ⟨front, hFront⟩ := ascii?_eq_some hClass
  have hAll : progress.rest = ('[' :: front) ++ rest := by
    rw [hRest, ← hFront, List.cons_append]
  exact (Takes.continueAt hAll).mono (Nat.succ_le_succ (Nat.zero_le _))

theorem takes_nested {rounds : Nat} {text : List Char}
    (hRead : ∀ progress, Takes 1 (read rounds) progress)
    (hItems : ∀ pending operand progress, Takes 1 (items rounds pending operand) progress)
    (hRest : progress.rest = '[' :: text) (pending : Option (Operator × Part)) (operand : Items) :
    Takes 1 (nested rounds pending operand (ascii? ('[' :: text))) progress := by
  cases hClass : ascii? ('[' :: text) with
  | none => exact (hRead _).bind fun _ _ => (hItems _ _ _).zero
  | some found =>
    exact (takes_ascii hRest hClass).bind fun _ _ => (takes_finish _ _).bind fun _ _ =>
      (hItems _ _ _).zero

/-- A class takes its brackets at least, and so do the items with the closing one. -/
theorem takes_class (rounds : Nat) :
    (∀ progress, Takes 1 (read rounds) progress) ∧
      (∀ pending operand progress, Takes 1 (items rounds pending operand) progress) ∧
      ∀ op pending operand progress, Takes 1 (operator rounds op pending operand) progress := by
  induction rounds with
  | zero => exact ⟨fun _ => .throw _, fun _ _ _ => .throw _, fun _ _ _ _ => .throw _⟩
  | succ rounds ih =>
    obtain ⟨hRead, hItems, hOperator⟩ := ih
    refine ⟨fun progress => ?_, fun pending operand progress => ?_,
      fun op pending operand progress => ?_⟩
    · rw [read_succ]
      refine (Takes.skipWithin _).bind fun _ _ => .rest ?_
      exact (takes_fromSign (hItems none)).zero
    · rw [items]
      refine Takes.skipBlanks.andThen fun _ after => .rest ?_
      split
      · exact .throw _
      · next hRest => exact (Takes.skip_of_cons hRest).bind fun _ _ => takes_close _ _
      · next hRest => exact takes_nested hRead hItems hRest pending operand
      · exact hOperator _ _ _ _
      · exact hOperator _ _ _ _
      · exact hOperator _ _ _ _
      · exact takes_interval.zero.andThen fun _ _ => hItems _ _ _
    · rw [operator]
      exact (Takes.skip 2).andThen fun _ _ => (takes_close _ _).andThen fun _ _ => hItems _ _ _

end Bracket

namespace Expr

open Reads

variable {progress : Progress}

theorem takes_nextGroup : Takes 0 nextGroup progress := by
  intro value after hRun
  cases hRun
  exact ⟨[], rfl, Nat.le_refl _⟩

/-- Gives a group its name, and goes on behind it. -/
def nameGroup (name rest : List Char) : Reads Unit := do
  let first :: more := name | throw .badGroupName
  unless isNameChar true first && more.all (isNameChar false) do throw .badGroupName
  let name := String.ofList name
  if (← get).groupNames.contains name then throw .repeatedGroupName
  modify fun progress => { progress with rest, groupNames := name :: progress.groupNames }

theorem groupName_closed {rest : List Char}
    (hClosed : progress.rest.dropWhile (· != '>') = '>' :: rest) :
    groupName progress = nameGroup (progress.rest.takeWhile (· != '>')) rest progress := by
  rw [groupName, rest_bind, hClosed]
  rfl

theorem groupName_open (hOpen : progress.rest.dropWhile (· != '>') = []) :
    groupName progress = .error .badGroupName := by
  rw [groupName, rest_bind, hOpen]
  rfl

/-- A name ends at the first bracket that closes. -/
theorem closed_or_open (text : List Char) : text.dropWhile (· != '>') = [] ∨
    ∃ rest, text.dropWhile (· != '>') = '>' :: rest := by
  have hHead := List.head?_dropWhile_not (· != '>') text
  cases hDrop : text.dropWhile (· != '>') with
  | nil => exact .inl rfl
  | cons c rest =>
    rw [hDrop] at hHead
    exact .inr ⟨rest, by simpa using hHead⟩

/-- Whether a name is good depends on no more of the text. -/
theorem nameGroup_cases (name : List Char) (progress : Progress) :
    (∃ defect, ∀ rest behind, nameGroup name rest { progress with rest := behind } =
        .error defect) ∨
      ∃ groupNames, ∀ rest behind, nameGroup name rest { progress with rest := behind } =
        .ok ((), { progress with rest, groupNames }) := by
  cases name with
  | nil => exact .inl ⟨.badGroupName, fun _ _ => rfl⟩
  | cons first more =>
    by_cases hName : (isNameChar true first && more.all (isNameChar false)) = true
    · by_cases hKnown : progress.groupNames.contains (String.ofList (first :: more)) = true
      · refine .inl ⟨.repeatedGroupName, fun rest behind => ?_⟩
        simp only [nameGroup, if_pos hName]
        exact congrFun (if_pos hKnown) _
      · refine .inr ⟨String.ofList (first :: more) :: progress.groupNames, fun rest behind => ?_⟩
        simp only [nameGroup, if_pos hName]
        exact congrFun (if_neg hKnown) _
    · refine .inl ⟨.badGroupName, fun rest behind => ?_⟩
      simp only [nameGroup, if_neg hName]
      rfl

theorem takes_groupName : Takes 0 groupName progress := by
  intro value after hRun
  rcases closed_or_open progress.rest with hOpen | ⟨rest, hClosed⟩
  · cases hRun.symm.trans (groupName_open hOpen)
  · have hSuffix : rest <:+ progress.rest := by
      refine (List.suffix_cons '>' rest).trans ?_
      rw [← hClosed]
      exact List.dropWhile_suffix _
    rw [groupName_closed hClosed] at hRun
    rcases nameGroup_cases (progress.rest.takeWhile (· != '>')) progress with
      ⟨defect, hBad⟩ | ⟨groupNames, hGood⟩
    · cases hRun.symm.trans (hBad rest progress.rest)
    · cases hRun.symm.trans (hGood rest progress.rest)
      obtain ⟨front, hFront⟩ := hSuffix
      exact ⟨front, hFront.symm, Nat.zero_le _⟩

/-- What is left of the letters of flags begins with what ends them. -/
theorem flagLetters_eq_ok {flags flags' : Flags} {seen letters rest : List Char}
    (hLetters : flagLetters flags seen letters = .ok (flags', rest)) :
    rest <:+ letters ∧ ∃ c behind, rest = c :: behind ∧ (c = ':' ∨ c = ')') := by
  induction letters generalizing flags seen with
  | nil => cases hLetters
  | cons c letters ih =>
    have hBehind {flags : Flags} {seen : List Char}
        (hLetters : flagLetters flags seen letters = .ok (flags', rest)) :=
      (ih hLetters).imp_left fun hSuffix => hSuffix.trans (List.suffix_cons c letters)
    rw [flagLetters] at hLetters
    split at hLetters
    · next hEnd =>
      split at hLetters
      · cases hLetters
      · cases hLetters
        exact ⟨List.suffix_refl _, c, letters, rfl, hEnd⟩
    · split at hLetters
      · cases hLetters
      · split at hLetters
        · exact hBehind hLetters
        · split at hLetters
          · cases hLetters
          · exact hBehind hLetters

/-- What a question mark begins behind an opening parenthesis, where no name follows. -/
def flagGroup (flags : Flags) (letters : List Char) : Reads Opening := do
  match ← flagLetters flags [] letters with
  | (inside, ':' :: rest) =>
    Reads.continueAt rest
    return .group none inside
  | (onwards, rest) =>
    if letters.head? = some ')' then throw .nothingToRepeat
    Reads.continueAt (rest.drop 1)
    return .flags onwards

theorem flagGroup_cases (flags : Flags) (letters : List Char) :
    (∃ defect, flagLetters flags [] letters = .error defect ∧
      ∀ progress, flagGroup flags letters progress = .error defect) ∨
    (∃ inside rest, flagLetters flags [] letters = .ok (inside, ':' :: rest) ∧
      ∀ progress, flagGroup flags letters progress =
        .ok (.group none inside, { progress with rest })) ∨
    ∃ onwards rest, flagLetters flags [] letters = .ok (onwards, ')' :: rest) ∧
      ∀ progress, flagGroup flags letters progress =
        if letters.head? = some ')' then .error .nothingToRepeat
        else .ok (.flags onwards, { progress with rest }) := by
  cases hLetters : flagLetters flags [] letters with
  | error defect =>
    refine .inl ⟨defect, rfl, fun progress => ?_⟩
    rw [flagGroup, hLetters]
    rfl
  | ok outcome =>
    obtain ⟨flags', rest⟩ := outcome
    obtain ⟨-, c, behind, rfl, rfl | rfl⟩ := flagLetters_eq_ok hLetters
    · refine .inr (.inl ⟨flags', behind, rfl, fun progress => ?_⟩)
      rw [flagGroup, hLetters]
      rfl
    · refine .inr (.inr ⟨flags', behind, rfl, fun progress => ?_⟩)
      rw [flagGroup, hLetters]
      split <;> rfl

theorem takes_flagGroup (flags : Flags) {letters : List Char}
    (hLetters : letters <:+ progress.rest) :
    Takes 0 (flagGroup flags letters) progress := by
  have hSuffix {rest : List Char} (hRest : rest <:+ letters) :
      ∃ front, progress.rest = front ++ rest ∧ 0 ≤ front.length := by
    obtain ⟨front, hFront⟩ := hRest.trans hLetters
    exact ⟨front, hFront.symm, Nat.zero_le _⟩
  intro value last hRun
  rcases flagGroup_cases flags letters with
    ⟨defect, -, hError⟩ | ⟨inside, rest, hFlags, hGroup⟩ | ⟨onwards, rest, hFlags, hGroup⟩
  · cases hRun.symm.trans (hError progress)
  · cases hRun.symm.trans (hGroup progress)
    exact hSuffix ((List.suffix_cons ':' rest).trans (flagLetters_eq_ok hFlags).1)
  · have hRun := hRun.symm.trans (hGroup progress)
    split at hRun
    · cases hRun
    · cases hRun
      exact hSuffix ((List.suffix_cons ')' rest).trans (flagLetters_eq_ok hFlags).1)

/-- A group with a name, which this text begins with. -/
def namedGroup (flags : Flags) (text : List Char) : Reads Opening := do
  Reads.continueAt text
  groupName
  return .group (← nextGroup) flags

theorem takes_namedGroup (flags : Flags) {text : List Char} (hText : text <:+ progress.rest) :
    Takes 0 (namedGroup flags text) progress :=
  (Takes.continueAt_suffix hText).bind fun _ _ => takes_groupName.bind fun _ _ =>
    takes_nextGroup.bind fun _ _ => .pure _

/-- What an opening parenthesis begins, by what follows it. -/
def openingFrom (flags : Flags) (text : List Char) : Reads Opening :=
  match text with
  | '?' :: '=' :: _ => throw .lookAround
  | '?' :: '!' :: _ => throw .lookAround
  | '?' :: '<' :: '=' :: _ => throw .lookAround
  | '?' :: '<' :: '!' :: _ => throw .lookAround
  | '?' :: 'P' :: '<' :: rest => namedGroup flags rest
  | '?' :: '<' :: rest => namedGroup flags rest
  | '?' :: letters => flagGroup flags letters
  | _ => return .group (← nextGroup) flags

theorem opening_eq : opening = (do
    Reads.skip 1
    Reads.skipBlanks
    openingFrom (← Reads.flags) (← Reads.rest)) := rfl

theorem takes_openingFrom (flags : Flags) (progress : Progress) :
    Takes 0 (openingFrom flags progress.rest) progress := by
  unfold openingFrom
  split
  · exact .throw _
  · exact .throw _
  · exact .throw _
  · exact .throw _
  · next rest hText => exact takes_namedGroup flags ⟨['?', 'P', '<'], hText.symm⟩
  · next rest _ _ hText => exact takes_namedGroup flags ⟨['?', '<'], hText.symm⟩
  · next letters _ _ _ _ _ _ hText => exact takes_flagGroup flags ⟨['?'], hText.symm⟩
  · exact takes_nextGroup.bind fun _ _ => .pure _

theorem takes_opening {rest : List Char} (hRest : progress.rest = '(' :: rest) :
    Takes 1 opening progress := by
  rw [opening_eq]
  exact (Takes.skip_of_cons hRest).bind fun _ _ => Takes.skipBlanks.bind fun _ after =>
    .flags (takes_openingFrom after.flags after)

theorem digits_suffix (spaced inComment : Bool) (text : List Char) :
    (digits spaced inComment text).2 <:+ text := by
  induction text generalizing inComment with
  | nil => exact List.suffix_refl _
  | cons c text ih =>
    have hBehind (inComment : Bool) := (ih inComment).trans (List.suffix_cons c text)
    rw [digits]
    split
    · exact hBehind _
    · split
      · exact hBehind _
      · split
        · exact hBehind _
        · split
          · exact hBehind _
          · exact List.suffix_refl _

/-- The number that these digits spell. -/
def countOf (digits : List Char) : Reads Nat := do
  if digits.isEmpty then throw .missingCount
  let value := digits.foldl (fun value c => value * 10 + (c.toNat - '0'.toNat)) 0
  if value < UInt32.size then return value else throw .countTooLarge

theorem count_eq : count = (do
    let text ← Reads.rest
    let number := digits (← Reads.flags).spaced false (text.dropWhile isSpace)
    Reads.continueAt (number.2.dropWhile isSpace)
    countOf number.1) := rfl

theorem takes_countOf (digits : List Char) : Takes 0 (countOf digits) progress :=
  .ite ((Takes.throw _).bind fun _ _ => .ite (.pure _) (.throw _)) (.ite (.pure _) (.throw _))

theorem takes_count : Takes 0 count progress := by
  rw [count_eq]
  refine .rest (.flags ?_)
  have hSuffix := (List.dropWhile_suffix isSpace).trans
    ((digits_suffix progress.flags.spaced false (progress.rest.dropWhile isSpace)).trans
      (List.dropWhile_suffix isSpace))
  exact (Takes.continueAt_suffix hSuffix).bind fun _ _ => takes_countOf _

theorem takes_isGreedy : Takes 0 isGreedy progress := by
  refine .rest ?_
  split
  · next hRest =>
    exact (Takes.continueAt_suffix (hRest ▸ List.suffix_cons _ _)).bind fun _ _ => .pure _
  · exact .pure _

theorem takes_repeated {c : Char} {rest : List Char} (hRest : progress.rest = c :: rest)
    (body : Expr) (least : Nat) (most : Option Nat) :
    Takes 1 (repeated body least most) progress :=
  (Takes.skip_of_cons hRest).bind fun _ _ => takes_isGreedy.bind fun _ _ => .pure _

/-- A repetition behind its numbers. -/
def countedTo (body : Expr) (least : Nat) (most : Option Nat) : Reads Expr := do
  let '\x7d' :: _ ← Reads.rest | throw .unclosedCount
  Reads.skip 1
  Reads.skipBlanks
  let greedy ← isGreedy
  if most.any (· < least) then throw .countsOutOfOrder
  return body.times least most greedy

/-- A repetition behind its first number. -/
def countedFrom (body : Expr) (least : Nat) : Reads Expr := do
  match ← Reads.rest with
  | ',' :: _ =>
    Reads.skipWithin .unclosedCount
    match ← Reads.rest with
    | '\x7d' :: _ => countedTo body least none
    | _ => countedTo body least (some (← count))
  | _ => countedTo body least (some least)

theorem counted_eq (body : Expr) : counted body = (do
    Reads.skipWithin .unclosedCount
    countedFrom body (← count)) := rfl

theorem takes_countedTo (body : Expr) (least : Nat) (most : Option Nat) :
    Takes 1 (countedTo body least most) progress := by
  apply Takes.rest
  split
  · next hRest =>
    refine (Takes.skip_of_cons hRest).bind fun _ _ => Takes.skipBlanks.bind fun _ _ =>
      takes_isGreedy.bind fun _ _ => ?_
    exact .ite ((Takes.throw _).bind fun _ _ => .pure _) (.pure _)
  · exact .throw _

theorem takes_countedFrom (body : Expr) (least : Nat) :
    Takes 1 (countedFrom body least) progress := by
  apply Takes.rest
  split
  · refine (Takes.skipWithin _).zero.andThen fun _ _ => .rest ?_
    split
    · exact takes_countedTo body least none
    · exact takes_count.andThen fun _ _ => takes_countedTo _ _ _
  · exact takes_countedTo body least (some least)

theorem takes_counted (body : Expr) : Takes 1 (counted body) progress := by
  rw [counted_eq]
  exact (Takes.skipWithin _).bind fun _ _ => takes_count.bind fun _ _ =>
    (takes_countedFrom _ _).zero

/-- What an escape stands for outside of classes. -/
def ofEscape (escape : Escape) : Reads Expr :=
  match escape with
  | .char c => return .ofSet (← Reads.underFlags (.single c))
  | .chars set => return .ofSet set
  | .assert assertion => return .assert assertion

/-- What begins with this character. -/
def primitiveFrom (c : Char) (flags : Flags) : Reads Expr :=
  match c with
  | '.' => return .ofSet (if flags.dotAll then .all else .notLineFeed)
  | '^' => return .assert (if flags.multiLine then .lineStart else .textStart)
  | '$' => return .assert (if flags.multiLine then .lineEnd else .textEnd)
  | '\\' => do ofEscape (← Escape.read)
  | c => return .ofSet (← Reads.underFlags (.single c))

theorem primitive_eq : primitive = (do
    let c ← Reads.take .unfinishedEscape
    primitiveFrom c (← Reads.flags)) := rfl

theorem takes_ofEscape (escape : Escape) : Takes 0 (ofEscape escape) progress := by
  cases escape with
  | char c => exact (Takes.underFlags _).bind fun _ _ => .pure _
  | chars set => exact .pure _
  | assert assertion => exact .pure _

theorem takes_primitiveFrom (c : Char) (flags : Flags) :
    Takes 0 (primitiveFrom c flags) progress := by
  fun_cases primitiveFrom c flags with
  | case1 => exact .pure _
  | case2 => exact .pure _
  | case3 => exact .pure _
  | case4 => exact Escape.takes_read.zero.bind fun _ _ => takes_ofEscape _
  | case5 => exact (Takes.underFlags _).bind fun _ _ => .pure _

theorem takes_primitive : Takes 1 primitive progress := by
  rw [primitive_eq]
  exact (Takes.take _).bind fun c after => .flags (takes_primitiveFrom c after.flags)

/-- Goes on behind the body of a group, which has to be closed. -/
def closeGroup (pieces : Pieces) (rounds : Nat) (around : Flags) (index : Option Nat)
    (body : Item) : Reads Item := do
  let ')' :: rest ← Reads.rest | throw .unclosedGroup
  Reads.continueAt rest
  Reads.setFlags around
  let expr :=
    match index with
    | none => body.expr
    | some index => .group index body.expr
  alternatives (pieces.add { expr, depth := body.depth + 1 }) rounds

/-- Goes on behind what an opening parenthesis begins. -/
def goInside (pieces : Pieces) (rounds : Nat) (around : Flags) (opened : Opening) : Reads Item :=
  match opened with
  | .flags onwards => do
    Reads.setFlags onwards
    alternatives (pieces.add { expr := .empty, isRepeatable := false }) rounds
  | .group index inside => do
    Reads.setFlags inside
    closeGroup pieces rounds around index (← alternatives {} rounds)

/-- Goes on with a single character, a dot or an assertion that begins with this character. -/
def goPast (pieces : Pieces) (rounds : Nat) (c : Char) : Reads Item := do
  if c = '?' ∨ c = '*' ∨ c = '+' ∨ c = '\x7b' then throw .nothingToRepeat
  alternatives (pieces.add { expr := ← primitive }) rounds

section Takes

variable {rounds : Nat}

theorem takes_closeGroup
    (hAll : ∀ pieces progress, Takes 0 (alternatives pieces rounds) progress)
    (pieces : Pieces) (around : Flags) (index : Option Nat) (body : Item) :
    Takes 0 (closeGroup pieces rounds around index body) progress := by
  apply Takes.rest
  split
  · next hRest =>
    exact (Takes.continueAt_suffix (hRest ▸ List.suffix_cons _ _)).bind fun _ _ =>
      (Takes.setFlags _).bind fun _ _ => hAll _ _
  · exact .throw _

theorem takes_goInside
    (hAll : ∀ pieces progress, Takes 0 (alternatives pieces rounds) progress)
    (pieces : Pieces) (around : Flags) (opened : Opening) :
    Takes 0 (goInside pieces rounds around opened) progress := by
  cases opened with
  | flags onwards => exact (Takes.setFlags _).bind fun _ _ => hAll _ _
  | group index inside =>
    exact (Takes.setFlags _).bind fun _ _ => (hAll _ _).bind fun _ _ =>
      takes_closeGroup hAll _ _ _ _

theorem takes_goPast (hAll : ∀ pieces progress, Takes 0 (alternatives pieces rounds) progress)
    (pieces : Pieces) (c : Char) : Takes 1 (goPast pieces rounds c) progress := by
  have hPrimitive (progress : Progress) : Takes 1
      (do alternatives (pieces.add { expr := ← primitive }) rounds) progress :=
    takes_primitive.bind fun _ _ => hAll _ _
  exact .ite ((Takes.throw _).bind fun _ _ => (hPrimitive _).zero) (hPrimitive _)

end Takes

theorem takes_alternatives (pieces : Pieces) (rounds : Nat) :
    Takes 0 (alternatives pieces rounds) progress := by
  induction rounds generalizing pieces progress with
  | zero => exact .throw _
  | succ rounds ih =>
    rw [alternatives]
    refine Takes.skipBlanks.bind fun _ after => .rest ?_
    split
    · exact .pure _
    · exact .pure _
    · exact (Takes.skip 1).bind fun _ _ => ih _
    · next hRest =>
      refine .flags (((takes_opening hRest).zero).bind fun opened progress => ?_)
      exact takes_goInside (fun _ _ => ih _) pieces after.flags opened
    · exact (((Bracket.takes_class rounds).1 _).zero).bind fun _ _ => ih _
    · next hRest _ =>
      exact ((takes_repeated hRest _ _ _).zero).bind fun _ _ => ih _
    · next hRest _ =>
      exact ((takes_repeated hRest _ _ _).zero).bind fun _ _ => ih _
    · next hRest _ =>
      exact ((takes_repeated hRest _ _ _).zero).bind fun _ _ => ih _
    · exact ((takes_counted _).zero).bind fun _ _ => ih _
    · exact (takes_goPast (fun _ _ => ih _) pieces _).zero

end Expr

end StreamMatch.Regex
