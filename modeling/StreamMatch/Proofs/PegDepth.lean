import Mathlib.Data.Finset.Card
import Mathlib.Data.Finset.Prod
import Mathlib.Order.Interval.Finset.Nat
import StreamMatch.Matcher.Lemmas
import StreamMatch.Proofs.Peg

/-!
How deep the rules of a grammar have to be followed. A verdict that is found at some depth is found
at every greater one (`Grammar.below_peg`), so that there is at most one (`Grammar.Evaluates.unique`).
There are only so many rules, and only so many offsets where one of them can be tried: from one more
than these together, nothing is gained by going deeper (`Grammar.Evaluates.peg_eq`).
-/

namespace StreamMatch

namespace Peg

variable {α β : Type} {stream : List UInt8} {start : Nat}

/-- A verdict of the first is one of the second too, and what it consumes from this place on is
there. -/
def Settles (stream : List UInt8) (place : Nat) (first second : Option (Verdict α)) : Prop :=
  ∀ verdict, first = some verdict → second = some verdict ∧
    ∀ value consumed, verdict = .matched value consumed → place + consumed ≤ stream.length

/-- From the offset `start` of the stream on, the second settles all that the first does. -/
def Below (stream : List UInt8) (start : Nat) (first second : Peg α) : Prop :=
  ∀ place, start ≤ place → place ≤ stream.length →
    Settles stream place (first place (stream.drop place)) (second place (stream.drop place))

section Settles

variable {place : Nat}

theorem settles_unmatched :
    Settles stream place (some (.unmatched : Verdict α)) (some .unmatched) := by
  intro verdict hVerdict
  cases hVerdict
  exact ⟨rfl, by simp⟩

theorem settles_malformed (offset : Nat) :
    Settles stream place (some (.malformed offset : Verdict α)) (some (.malformed offset)) := by
  intro verdict hVerdict
  cases hVerdict
  exact ⟨rfl, by simp⟩

theorem settles_matched (value : α) {consumed : Nat} (hThere : place + consumed ≤ stream.length) :
    Settles stream place (some (.matched value consumed)) (some (.matched value consumed)) := by
  intro verdict hVerdict
  cases hVerdict
  refine ⟨rfl, fun _ _ hSame => ?_⟩
  cases hSame
  exact hThere

/-- What goes on from a verdict is settled if it is for each verdict there may be. -/
theorem Settles.bind {here : Nat} {first second : Option (Verdict α)}
    {next next' : Verdict α → Option (Verdict β)} (hFirst : Settles stream here first second)
    (hUnmatched : Settles stream place (next .unmatched) (next' .unmatched))
    (hMalformed : ∀ offset,
      Settles stream place (next (.malformed offset)) (next' (.malformed offset)))
    (hMatched : ∀ value consumed, here + consumed ≤ stream.length →
      Settles stream place (next (.matched value consumed)) (next' (.matched value consumed))) :
    Settles stream place (first >>= next) (second >>= next') := by
  intro verdict hVerdict
  obtain ⟨found, hFound, hNext⟩ := Option.bind_eq_some_iff.1 hVerdict
  obtain ⟨hSecond, hConsumed⟩ := hFirst found hFound
  rw [hSecond]
  cases found with
  | unmatched => exact hUnmatched verdict hNext
  | malformed offset => exact hMalformed offset verdict hNext
  | matched value consumed =>
    exact hMatched value consumed (hConsumed value consumed rfl) verdict hNext

end Settles

theorem Below.trans {first second third : Peg α} (hFirst : Below stream start first second)
    (hSecond : Below stream start second third) : Below stream start first third := by
  intro place hStart hEnd verdict hVerdict
  obtain ⟨hMiddle, hConsumed⟩ := hFirst place hStart hEnd verdict hVerdict
  exact ⟨(hSecond place hStart hEnd verdict hMiddle).1, hConsumed⟩

theorem Below.left {first second : Peg α} (hBelow : Below stream start first second) :
    Below stream start first first :=
  fun place hStart hEnd verdict hVerdict =>
    ⟨hVerdict, (hBelow place hStart hEnd verdict hVerdict).2⟩

theorem below_none (second : Peg α) : Below stream start (fun _ _ => none) second := by
  intro place _ _ verdict hVerdict
  cases hVerdict

theorem below_success (value : α) : Below stream start (success value) (success value) :=
  fun _ _ hEnd => settles_matched value hEnd

theorem below_failure : Below stream start (failure : Peg α) failure :=
  fun _ _ _ => settles_unmatched

theorem below_refuse : Below stream start refuse refuse :=
  fun place _ _ => settles_malformed place

namespace Below

variable {first second : Peg α} {next next' : α → Peg β}

theorem andThen (hFirst : Below stream start first second)
    (hNext : ∀ value, Below stream start (next value) (next' value)) :
    Below stream start (first.andThen next) (second.andThen next') := by
  intro place hStart hEnd
  unfold Peg.andThen
  refine (hFirst place hStart hEnd).bind settles_unmatched settles_malformed ?_
  intro value consumed hThere
  simp only [List.drop_drop]
  refine (hNext value (place + consumed) (by omega) hThere).bind settles_unmatched
    settles_malformed ?_
  intro result more hMore
  exact settles_matched result (by omega)

theorem orElse {other other' : Peg α} (hFirst : Below stream start first second)
    (hOther : Below stream start other other') :
    Below stream start (first.orElse other) (second.orElse other') := by
  intro place hStart hEnd
  unfold Peg.orElse
  refine (hFirst place hStart hEnd).bind (hOther place hStart hEnd) settles_malformed ?_
  exact fun value consumed hThere => settles_matched value hThere

end Below

section Combined

variable {ι : Type} {run run' : ι → Peg Match} {items : List ι} {element element' : Peg Match}

theorem below_inTurn (hItems : ∀ item ∈ items, Below stream start (run item) (run' item)) :
    Below stream start (inTurn (items.map run)) (inTurn (items.map run')) := by
  induction items with
  | nil => exact below_success []
  | cons item rest ih =>
    have hRest := ih fun item hMem => hItems item (List.mem_cons_of_mem _ hMem)
    exact (hItems item List.mem_cons_self).andThen fun m =>
      hRest.andThen fun more => below_success (m :: more)

theorem below_seq (tag : Tag)
    (hItems : ∀ item ∈ items, Below stream start (run item) (run' item)) :
    Below stream start (seq tag (items.map run)) (seq tag (items.map run')) := by
  intro place
  simp only [seq]
  exact ((below_inTurn hItems).andThen fun _ => below_success _) place

theorem below_seqNamed (tag : Tag) (label : ι → String)
    (hItems : ∀ item ∈ items, Below stream start (run item) (run' item)) :
    Below stream start (seqNamed tag (items.map fun item => (label item, run item)))
      (seqNamed tag (items.map fun item => (label item, run' item))) := by
  intro place
  simp only [seqNamed, List.map_map, Function.comp_def]
  exact ((below_inTurn hItems).andThen fun _ => below_success _) place

theorem below_first (hItems : ∀ item ∈ items, Below stream start (run item) (run' item)) :
    Below stream start (first (items.map run)) (first (items.map run')) := by
  induction items with
  | nil => exact below_failure
  | cons item rest ih =>
    exact (hItems item List.mem_cons_self).orElse
      (ih fun item hMem => hItems item (List.mem_cons_of_mem _ hMem))

/-- The best so far has to be there too. -/
theorem settles_best (hItems : ∀ item ∈ items, Below stream start (run item) (run' item))
    {place : Nat} (hStart : start ≤ place) (hEnd : place ≤ stream.length)
    {found : Option (Match × Nat)} (hFound : ∀ taken ∈ found, place + taken.2 ≤ stream.length) :
    Settles stream place (best found (items.map run) place (stream.drop place))
      (best found (items.map run') place (stream.drop place)) := by
  induction items generalizing found with
  | nil =>
    cases found with
    | none => exact settles_unmatched
    | some taken => exact settles_matched taken.1 (hFound taken rfl)
  | cons item rest ih =>
    have hRest := fun item hMem => hItems item (List.mem_cons_of_mem _ hMem)
    rw [List.map_cons, List.map_cons, best, best]
    refine (hItems item List.mem_cons_self place hStart hEnd).bind (ih hRest hFound)
      settles_malformed ?_
    intro m consumed hThere
    dsimp only
    split
    · exact ih hRest (by simpa using hThere)
    · exact ih hRest hFound

theorem below_longest (hItems : ∀ item ∈ items, Below stream start (run item) (run' item)) :
    Below stream start (longest (items.map run)) (longest (items.map run')) :=
  fun _ hStart hEnd => settles_best hItems hStart hEnd (by simp)

theorem below_round (hElement : Below stream start element element')
    {separator separator' : Option (Peg Match)}
    (hSeparator : Option.Rel (Below stream start) separator separator') :
    Below stream start (round element separator) (round element' separator') := by
  cases hSeparator with
  | none => exact hElement.andThen fun m => below_success (m.content, m)
  | some hGap =>
    exact hGap.andThen fun gap => hElement.andThen fun m => below_success (gap.content ++ m.content, m)

theorem below_rounds (most : Option Nat) (count : Nat)
    (hElement : Below stream start element element') {separator separator' : Option (Peg Match)}
    (hSeparator : Option.Rel (Below stream start) separator separator') :
    Below stream start (rounds element separator most count)
      (rounds element' separator' most count) := by
  intro place
  -- The induction is on how much of the stream is left.
  induction hLeft : stream.length - place using Nat.strongRecOn generalizing place count with
  | ind left ih =>
    intro hStart hEnd
    have hDue : Option.Rel (Below stream start) (if count = 0 then none else separator)
        (if count = 0 then none else separator') := by
      split
      · exact .none
      · exact hSeparator
    rw [rounds, rounds]
    split
    · exact settles_matched _ hEnd
    · refine (below_round hElement hDue place hStart hEnd).bind (settles_matched _ hEnd)
        settles_malformed ?_
      rintro ⟨content, m⟩ consumed hThere
      simp only [List.drop_drop, List.length_drop]
      split
      · next hLess =>
        have hLater := ih (stream.length - (place + consumed)) (by omega) (count + 1)
          (place + consumed) rfl (by omega) hThere
        refine hLater.bind settles_unmatched settles_malformed ?_
        rintro ⟨later, elements⟩ more hMore
        exact settles_matched _ (by omega)
      · exact settles_matched _ hEnd

theorem below_many (tag : Tag) (least : Nat) (most : Option Nat)
    (hElement : Below stream start element element') {separator separator' : Option (Peg Match)}
    (hSeparator : Option.Rel (Below stream start) separator separator') :
    Below stream start (many tag least most element separator)
      (many tag least most element' separator') := by
  intro place
  refine (below_rounds most 0 hElement hSeparator).andThen (fun found => ?_) place
  dsimp only
  split
  · exact below_failure
  · exact below_success _

theorem below_optional (hInner : Below stream start element element') :
    Below stream start (optional element) (optional element') :=
  fun place => (hInner.orElse (below_success (Match.empty place))) place

theorem below_lookahead (tag : Tag) (wanted : Bool) (hInner : Below stream start element element') :
    Below stream start (lookahead tag wanted element) (lookahead tag wanted element') := by
  intro place hStart hEnd
  have hHere := below_success (Match.leaf tag [] place) place hStart hEnd
  unfold lookahead
  refine (hInner place hStart hEnd).bind ?_ settles_malformed ?_
  · cases wanted with
    | true => exact settles_unmatched
    | false => exact hHere
  · intro value consumed _
    cases wanted with
    | true => exact hHere
    | false => exact settles_unmatched

end Combined

/-- Without other recognizers in it, a recognizer only has to keep to what there is. -/
theorem below_self {p : Peg α} (hThere : ∀ offset rest value consumed,
    p offset rest = some (.matched value consumed) → consumed ≤ rest.length) :
    Below stream start p p := by
  intro place _ hEnd verdict hVerdict
  refine ⟨hVerdict, ?_⟩
  rintro value consumed rfl
  have hConsumed := hThere place (stream.drop place) value consumed hVerdict
  rw [List.length_drop] at hConsumed
  omega

theorem le_length_of_endOfInput {tag : Tag} {offset consumed : Nat} {rest : List UInt8} {m : Match}
    (hFound : endOfInput tag offset rest = some (.matched m consumed)) : consumed ≤ rest.length := by
  rw [endOfInput] at hFound
  split at hFound
  · cases hFound
    exact Nat.zero_le _
  · cases hFound

theorem le_length_of_skip {tag : Tag} {count offset consumed : Nat} {rest : List UInt8} {m : Match}
    (hFound : skip tag count offset rest = some (.matched m consumed)) :
    consumed ≤ rest.length := by
  cases hFound
  exact List.length_take_le' count rest

end Peg

theorem Primitive.le_length_of_peg {primitive : Primitive} {policy : DecodePolicy}
    {offset consumed : Nat} {rest : List UInt8} {m : Match}
    (hFound : primitive.peg policy offset rest = some (.matched m consumed)) :
    consumed ≤ rest.length := by
  rw [peg] at hFound
  split at hFound
  · next content hContent =>
    cases hFound
    exact (prefix_of_recognize hContent).length_le
  · cases hFound
  · cases hFound
  · cases hFound

open Peg

variable {stream : List UInt8} {start : Nat}

/-- What the names of rules stand for decides what a matcher that refers to them stands for. -/
theorem Matcher.below_peg {policy : DecodePolicy} {call call' : String → Peg Match}
    (hCall : ∀ name, Below stream start (call name) (call' name)) (m : Matcher) :
    Below stream start (m.peg policy call) (m.peg policy call') := by
  induction m with
  | primitive p => exact below_self fun _ _ _ _ => Primitive.le_length_of_peg
  | seq tag steps ih =>
    rw [peg, peg, pegs_eq_map, pegs_eq_map]
    exact below_seq tag ih
  | named tag steps ih =>
    rw [peg, peg, namedPegs_eq_map, namedPegs_eq_map]
    exact below_seqNamed tag Prod.fst ih
  | first ms ih =>
    rw [peg, peg, pegs_eq_map, pegs_eq_map]
    exact below_first ih
  | longest ms ih =>
    rw [peg, peg, pegs_eq_map, pegs_eq_map]
    exact below_longest ih
  | many tag least most element separator hElement hSeparator =>
    rw [peg, peg, peg?_eq_map, peg?_eq_map]
    refine below_many tag least most hElement ?_
    cases separator with
    | none => exact .none
    | some separator => exact .some (hSeparator separator rfl)
  | optional inner ih => exact below_optional ih
  | keep inner ih => exact ih
  | rule name => exact hCall name
  | lookahead tag wanted inner ih => exact below_lookahead tag wanted ih
  | endOfInput tag => exact below_self fun _ _ _ _ => le_length_of_endOfInput
  | skip tag count => exact below_self fun _ _ _ _ => le_length_of_skip
  | insert tag bytes => exact fun place => below_success (Match.leaf tag bytes place) place
  | stray count => exact below_failure
  | refuse => exact below_refuse

namespace Grammar

variable {grammar : Grammar} {policy : DecodePolicy}

theorem below_peg_succ (depth : Nat) (name : String) :
    Below stream start (grammar.peg policy depth name) (grammar.peg policy (depth + 1) name) := by
  induction depth generalizing name with
  | zero => exact below_none _
  | succ depth ih =>
    rw [peg, peg]
    split
    · exact below_failure
    · exact Matcher.below_peg ih _

/-- A verdict on a rule stands at every greater depth. -/
theorem below_peg {depth depth' : Nat} (hDepth : depth ≤ depth') (name : String) :
    Below stream start (grammar.peg policy depth name) (grammar.peg policy depth' name) := by
  induction hDepth with
  | refl => exact (below_peg_succ depth name).left
  | step hDepth ih => exact ih.trans (below_peg_succ _ name)

/-- Every offset with the bytes that stand there is one of some stream. -/
theorem peg_of_le {m : Matcher} {depth depth' : Nat} (hDepth : depth ≤ depth') {offset : Nat}
    {rest : List UInt8} {verdict : Verdict Match}
    (hVerdict : m.peg policy (grammar.peg policy depth) offset rest = some verdict) :
    m.peg policy (grammar.peg policy depth') offset rest = some verdict := by
  have hDrop : (List.replicate offset 0 ++ rest).drop offset = rest :=
    List.drop_left' List.length_replicate
  have hBelow : Below (List.replicate offset 0 ++ rest) 0
      (m.peg policy (grammar.peg policy depth)) (m.peg policy (grammar.peg policy depth')) :=
    Matcher.below_peg (below_peg hDepth) m
  have hFound := hBelow offset (Nat.zero_le _) (by simp) verdict
  rw [hDrop] at hFound
  exact (hFound hVerdict).1

/-- There is at most one verdict. -/
theorem Evaluates.unique {m : Matcher} {offset : Nat} {rest : List UInt8}
    {verdict verdict' : Verdict Match}
    (hFirst : grammar.Evaluates policy m offset rest verdict)
    (hSecond : grammar.Evaluates policy m offset rest verdict') : verdict = verdict' := by
  obtain ⟨depth, hDepth⟩ := hFirst
  obtain ⟨depth', hDepth'⟩ := hSecond
  have hDeeper := peg_of_le (Nat.le_max_left depth depth') hDepth
  have hDeeper' := peg_of_le (Nat.le_max_right depth depth') hDepth'
  exact Option.some.inj (hDeeper.symm.trans hDeeper')

theorem Evaluates.decides {m : Matcher} {offset : Nat} {rest : List UInt8} {verdict : Verdict Match}
    (hEvaluates : grammar.Evaluates policy m offset rest verdict) :
    grammar.Decides policy m offset rest (some verdict) := by
  intro verdict'
  constructor
  · exact fun hOther => congrArg some (hEvaluates.unique hOther)
  · exact fun hSame => Option.some.inj hSame ▸ hEvaluates

theorem exists_decides (grammar : Grammar) (policy : DecodePolicy) (m : Matcher) (offset : Nat)
    (rest : List UInt8) : ∃ verdict?, grammar.Decides policy m offset rest verdict? := by
  by_cases hSome : ∃ verdict, grammar.Evaluates policy m offset rest verdict
  · obtain ⟨verdict, hVerdict⟩ := hSome
    exact ⟨some verdict, hVerdict.decides⟩
  · refine ⟨none, fun verdict => ⟨fun hVerdict => (hSome ⟨verdict, hVerdict⟩).elim, by simp⟩⟩

theorem Decides.unique {m : Matcher} {offset : Nat} {rest : List UInt8}
    {verdict? verdict?' : Option (Verdict Match)}
    (hFirst : grammar.Decides policy m offset rest verdict?)
    (hSecond : grammar.Decides policy m offset rest verdict?') : verdict? = verdict?' := by
  apply Option.ext
  intro verdict
  rw [← hFirst verdict, ← hSecond verdict]

end Grammar

/-- A chain of sets that only grow, but never beyond `bound` elements, stands still somewhere. -/
theorem exists_eq_succ_of_card_le {α : Type} {chain : Nat → Finset α} {bound : Nat}
    (hGrows : ∀ index, chain index ⊆ chain (index + 1))
    (hCard : ∀ index, (chain index).card ≤ bound) :
    ∃ index ≤ bound, chain (index + 1) = chain index := by
  by_contra hNone
  have hLarge : ∀ index ≤ bound + 1, index ≤ (chain index).card := by
    intro index
    induction index with
    | zero => exact fun _ => Nat.zero_le _
    | succ index ih =>
      intro hIndex
      have hStrict : chain index ⊂ chain (index + 1) := by
        refine (hGrows index).ssubset_of_ne fun hSame => hNone ⟨index, by omega, hSame.symm⟩
      have hLess := Finset.card_lt_card hStrict
      have hBefore := ih (by omega)
      omega
  have hOver := hLarge (bound + 1) (Nat.le_refl _)
  have hBound := hCard (bound + 1)
  omega

namespace Grammar

variable {grammar : Grammar} {policy : DecodePolicy}

/-- The rules, by their index, and the offsets from `start` on where this depth leads to a
verdict. -/
def settled (grammar : Grammar) (policy : DecodePolicy) (stream : List UInt8) (start depth : Nat) :
    Finset (Nat × Nat) :=
  (Finset.range grammar.rules.length ×ˢ Finset.Icc start stream.length).filter fun point =>
    ∃ rule ∈ grammar.rules[point.1]?,
      (grammar.peg policy depth rule.1 point.2 (stream.drop point.2)).isSome

theorem card_settled_le (depth : Nat) :
    (grammar.settled policy stream start depth).card ≤
      grammar.rules.length * (stream.length + 1 - start) := by
  refine (Finset.card_filter_le _ _).trans_eq ?_
  rw [Finset.card_product, Finset.card_range, Nat.card_Icc]

/-- A point is settled if there is a verdict on the rule there. -/
theorem mem_settled {depth place : Nat} {rule : String × Matcher} {index : Nat}
    (hRule : grammar.rules[index]? = some rule) (hStart : start ≤ place)
    (hEnd : place ≤ stream.length) :
    (index, place) ∈ grammar.settled policy stream start depth ↔
      (grammar.peg policy depth rule.1 place (stream.drop place)).isSome := by
  obtain ⟨hIndex, rfl⟩ := List.getElem?_eq_some_iff.1 hRule
  simp [settled, hIndex, hStart, hEnd]

theorem settled_subset_succ (depth : Nat) :
    grammar.settled policy stream start depth ⊆ grammar.settled policy stream start (depth + 1) := by
  rintro ⟨index, place⟩ hPoint
  have hRange := (Finset.mem_filter.1 hPoint).1
  rw [Finset.mem_product, Finset.mem_range, Finset.mem_Icc] at hRange
  obtain ⟨hIndex, hStart, hEnd⟩ := hRange
  have hRule := List.getElem?_eq_getElem hIndex
  rw [mem_settled hRule hStart hEnd] at hPoint ⊢
  obtain ⟨verdict, hVerdict⟩ := Option.isSome_iff_exists.1 hPoint
  rw [(below_peg_succ depth _ place hStart hEnd verdict hVerdict).1]
  rfl

theorem exists_index_of_lookup {grammar : Grammar} {name : String} {m : Matcher}
    (hLookup : grammar.rules.lookup name = some m) :
    ∃ index : Nat, grammar.rules[index]? = some (name, m) := by
  obtain ⟨before, after, hRules, -⟩ := List.lookup_eq_some_iff.1 hLookup
  exact List.mem_iff_getElem?.1 (hRules ▸ List.mem_append_right _ List.mem_cons_self)

/-- If going one deeper settles no more points, it leads to no other verdicts. -/
theorem below_of_settled_eq {depth : Nat}
    (hSame : grammar.settled policy stream start (depth + 2) =
      grammar.settled policy stream start (depth + 1)) (name : String) :
    Below stream start (grammar.peg policy (depth + 2) name)
      (grammar.peg policy (depth + 1) name) := by
  cases hLookup : grammar.rules.lookup name with
  | none =>
    rw [peg, peg, hLookup]
    exact below_failure
  | some m =>
    obtain ⟨index, hRule⟩ := exists_index_of_lookup hLookup
    intro place hStart hEnd verdict hVerdict
    have hConsumed := ((below_peg_succ (depth + 2) name) place hStart hEnd verdict hVerdict).2
    refine ⟨?_, hConsumed⟩
    have hSettled : (index, place) ∈ grammar.settled policy stream start (depth + 2) := by
      rw [mem_settled hRule hStart hEnd, hVerdict]
      rfl
    rw [hSame, mem_settled hRule hStart hEnd] at hSettled
    obtain ⟨earlier, hEarlier⟩ := Option.isSome_iff_exists.1 hSettled
    have hLater := (below_peg_succ (depth + 1) name place hStart hEnd earlier hEarlier).1
    rw [hEarlier, ← hLater, hVerdict]

/-- Where going one deeper makes no difference, going any deeper makes none. -/
theorem below_of_below_succ {depth : Nat}
    (hStill : ∀ name, Below stream start (grammar.peg policy (depth + 1) name)
      (grammar.peg policy depth name)) (depth' : Nat) (name : String) :
    Below stream start (grammar.peg policy depth' name) (grammar.peg policy depth name) := by
  induction depth' generalizing name with
  | zero => exact below_none _
  | succ depth' ih =>
    refine Below.trans ?_ (hStill name)
    rw [peg, peg]
    split
    · exact below_failure
    · exact Matcher.below_peg ih _

/-- Every verdict on a place from `start` on is found at this depth. -/
theorem Evaluates.peg_eq {m : Matcher} {place depth : Nat} {verdict : Verdict Match}
    (hEvaluates : grammar.Evaluates policy m place (stream.drop place) verdict)
    (hStart : start ≤ place) (hEnd : place ≤ stream.length)
    (hDepth : grammar.rules.length * (stream.length + 1 - start) < depth) :
    m.peg policy (grammar.peg policy depth) place (stream.drop place) = some verdict := by
  obtain ⟨found, hFound⟩ := hEvaluates
  obtain ⟨still, hBound, hStill⟩ : ∃ still ≤ grammar.rules.length * (stream.length + 1 - start),
      grammar.settled policy stream start (still + 2) =
        grammar.settled policy stream start (still + 1) :=
    exists_eq_succ_of_card_le (fun index => settled_subset_succ (index + 1))
      fun index => card_settled_le (index + 1)
  have hBelow : Below stream start (m.peg policy (grammar.peg policy found))
      (m.peg policy (grammar.peg policy (still + 1))) :=
    Matcher.below_peg (below_of_below_succ (below_of_settled_eq hStill) found) m
  exact peg_of_le (by omega) (hBelow place hStart hEnd verdict hFound).1

theorem decides_peg (m : Matcher) {place depth : Nat} (hStart : start ≤ place)
    (hEnd : place ≤ stream.length)
    (hDepth : grammar.rules.length * (stream.length + 1 - start) < depth) :
    grammar.Decides policy m place (stream.drop place)
      (m.peg policy (grammar.peg policy depth) place (stream.drop place)) :=
  fun _ => ⟨fun hEvaluates => hEvaluates.peg_eq hStart hEnd hDepth, fun hPeg => ⟨depth, hPeg⟩⟩

end Grammar

end StreamMatch
