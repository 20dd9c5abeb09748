import Mathlib
import StreamMatch.Proofs.Peg

/-!
Recognizers that find the longest word of a language in front of the bytes at hand (`Peg.Finds`).
Matchers do not go back on what they have taken, so that one after the other finds the longest word of
a product only if a word of the first language never goes on as a word of the second one begins
(`Parts`). Of a repetition this is asked for each round and the next one.
-/

open scoped Computability

namespace StreamMatch

/-- The words of one byte that the predicate accepts. -/
def Predicate.words (accepts : Predicate UInt8) : Language UInt8 :=
  {word | ∃ byte, accepts byte = true ∧ word = [byte]}

/-- The longest word of the language in front of the bytes, if there is one. -/
def LongestIn (L : Language UInt8) (rest : List UInt8) : Option (List UInt8) → Prop
  | none => ∀ word ∈ L, ¬ word <+: rest
  | some word => word ∈ L ∧ word <+: rest ∧
    ∀ other ∈ L, other <+: rest → other.length ≤ word.length

/-- Where a word of the first language goes on to a longer one, no word of the second begins. -/
def Parts (L M : Language UInt8) : Prop :=
  ∀ word byte more rest, word ∈ L → word ++ byte :: more ∈ L → byte :: rest ∉ M

/-- The words of the language are made of such bytes. -/
def MadeOf (accepted : UInt8 → Prop) (L : Language UInt8) : Prop :=
  ∀ word ∈ L, ∀ byte ∈ word, accepted byte

/-- The words of the language begin with such bytes, if they are not empty. -/
def BeginsWith (accepted : UInt8 → Prop) (L : Language UInt8) : Prop :=
  ∀ byte rest, byte :: rest ∈ L → accepted byte

/-- No word of the language goes on to another one. -/
def PrefixFree (L : Language UInt8) : Prop :=
  ∀ word ∈ L, ∀ other ∈ L, word <+: other → word = other

section Languages

variable {L M N : Language UInt8} {accepts : Predicate UInt8} {accepted : UInt8 → Prop}
  {word other rest : List UInt8}

theorem mem_words_pow {count : Nat} :
    word ∈ accepts.words ^ count ↔ word.length = count ∧ ∀ byte ∈ word, accepts byte = true := by
  induction count generalizing word with
  | zero =>
    rw [pow_zero, Language.mem_one]
    constructor
    · rintro rfl
      simp
    · exact fun h => List.length_eq_zero_iff.1 h.1
  | succ count ih =>
    rw [pow_succ', Language.mem_mul]
    constructor
    · rintro ⟨_, ⟨byte, hByte, rfl⟩, more, hMore, rfl⟩
      obtain ⟨rfl, hAll⟩ := ih.1 hMore
      exact ⟨by simp, by simpa [hByte] using hAll⟩
    · rintro ⟨hLength, hAll⟩
      obtain ⟨byte, more, rfl⟩ := List.exists_cons_of_length_eq_add_one hLength
      obtain ⟨hByte, hMore⟩ := List.forall_mem_cons.1 hAll
      exact ⟨[byte], ⟨byte, hByte, rfl⟩, more, ih.2 ⟨by simpa using hLength, hMore⟩, rfl⟩

theorem madeOf_words (accepts : Predicate UInt8) :
    MadeOf (accepts · = true) accepts.words := by
  rintro _ ⟨byte, hByte, rfl⟩ other hOther
  obtain rfl := List.mem_singleton.1 hOther
  exact hByte

theorem MadeOf.mono {accepted' : UInt8 → Prop} (hMade : MadeOf accepted L)
    (hAccepted : ∀ byte, accepted byte → accepted' byte) : MadeOf accepted' L :=
  fun word hWord byte hByte => hAccepted byte (hMade word hWord byte hByte)

theorem MadeOf.mul (hFirst : MadeOf accepted L) (hSecond : MadeOf accepted M) :
    MadeOf accepted (L * M) := by
  rintro _ ⟨first, hWord, second, hNext, rfl⟩ byte hByte
  exact (List.mem_append.1 hByte).elim (hFirst first hWord byte) (hSecond second hNext byte)

theorem MadeOf.kstar (hMade : MadeOf accepted L) : MadeOf accepted L∗ := by
  rintro _ ⟨words, rfl, hWords⟩ byte hByte
  obtain ⟨word, hWord, hMem⟩ := List.mem_flatten.1 hByte
  exact hMade word (hWords word hWord) byte hMem

theorem BeginsWith.mono {accepted' : UInt8 → Prop} (hBegins : BeginsWith accepted L)
    (hAccepted : ∀ byte, accepted byte → accepted' byte) : BeginsWith accepted' L :=
  fun byte rest hWord => hAccepted byte (hBegins byte rest hWord)

theorem MadeOf.beginsWith (hMade : MadeOf accepted L) : BeginsWith accepted L :=
  fun _ _ hWord => hMade _ hWord _ List.mem_cons_self

theorem BeginsWith.mul (hBegins : BeginsWith accepted L) (hNil : [] ∉ L) :
    BeginsWith accepted (L * M) := by
  rintro byte rest ⟨first, hFirst, second, -, hWord⟩
  cases first with
  | nil => exact absurd hFirst hNil
  | cons lead more =>
    obtain ⟨rfl, -⟩ := List.cons.inj hWord
    exact hBegins lead more hFirst

/-- A word of a repetition begins as one of what is repeated. -/
theorem exists_cons_mem_of_kstar {byte : UInt8} (hWord : byte :: rest ∈ M∗) :
    ∃ more, byte :: more ∈ M := by
  obtain ⟨words, hFlat, hWords⟩ := Language.mem_kstar_iff_exists_nonempty.1 hWord
  cases words with
  | nil => cases hFlat
  | cons first others =>
    obtain ⟨hFirst, hNil⟩ := hWords first List.mem_cons_self
    obtain ⟨lead, more, rfl⟩ := List.exists_cons_of_ne_nil hNil
    obtain ⟨rfl, -⟩ := List.cons.inj hFlat
    exact ⟨more, hFirst⟩

theorem nil_notMem_mul (hNil : [] ∉ L) : [] ∉ L * M := by
  rintro ⟨first, hFirst, second, -, hWord⟩
  rw [(List.append_eq_nil_iff.1 hWord).1] at hFirst
  exact hNil hFirst

theorem words_anyOf_nil : (Predicate.anyOf []).words = 0 := by
  ext word
  refine iff_of_false ?_ (Language.notMem_zero word)
  rintro ⟨byte, hByte, -⟩
  cases hByte

theorem words_anyOf_cons (predicate : Predicate UInt8) (predicates : List (Predicate UInt8)) :
    (Predicate.anyOf (predicate :: predicates)).words =
      predicate.words + (Predicate.anyOf predicates).words := by
  ext word
  constructor
  · rintro ⟨byte, hByte, rfl⟩
    rcases Bool.or_eq_true_iff.1 hByte with hByte | hByte
    · exact .inl ⟨byte, hByte, rfl⟩
    · exact .inr ⟨byte, hByte, rfl⟩
  · rintro (⟨byte, hByte, rfl⟩ | ⟨byte, hByte, rfl⟩)
    · exact ⟨byte, Bool.or_eq_true_iff.2 (.inl hByte), rfl⟩
    · exact ⟨byte, Bool.or_eq_true_iff.2 (.inr hByte), rfl⟩

theorem nil_notMem_words (accepts : Predicate UInt8) : [] ∉ accepts.words := by
  rintro ⟨byte, -, hWord⟩
  cases hWord

theorem Parts.of_madeOf (hMade : MadeOf accepted L)
    (hBegins : BeginsWith (fun byte => ¬ accepted byte) M) :
    Parts L M := by
  intro word byte more rest _ hLonger hNext
  exact hBegins byte rest hNext (hMade _ hLonger byte (by simp))

/-- Words of one length do not go on to longer ones. -/
theorem parts_words_pow (accepts : Predicate UInt8) (count : Nat) (M : Language UInt8) :
    Parts (accepts.words ^ count) M := by
  intro word byte more rest hWord hLonger
  have hLength := (mem_words_pow.1 hWord).1
  have hLonger := (mem_words_pow.1 hLonger).1
  rw [List.length_append, List.length_cons] at hLonger
  omega

theorem parts_words (accepts : Predicate UInt8) (M : Language UInt8) : Parts accepts.words M := by
  have hParts := parts_words_pow accepts 1 M
  rwa [pow_one] at hParts

theorem parts_one_add_words (hBegins : BeginsWith (accepts · = false) M) :
    Parts (1 + accepts.words) M := by
  rintro word byte more rest - hLonger hNext
  have hByte : accepts byte = true := by
    rcases hLonger with hNil | ⟨other, hOther, hWord⟩
    · exact absurd ((Language.mem_one _).1 hNil) (by simp)
    · have hMem : byte ∈ [other] := hWord ▸ by simp
      exact List.mem_singleton.1 hMem ▸ hOther
  rw [hBegins byte rest hNext] at hByte
  cases hByte

theorem Parts.kstar (hParts : Parts L M) : Parts L M∗ := by
  intro word byte more rest hWord hLonger hNext
  obtain ⟨later, hNext⟩ := exists_cons_mem_of_kstar hNext
  exact hParts word byte more later hWord hLonger hNext

theorem prefixFree_words_pow (accepts : Predicate UInt8) (count : Nat) :
    PrefixFree (accepts.words ^ count) := by
  intro word hWord other hOther hPrefix
  exact hPrefix.eq_of_length ((mem_words_pow.1 hWord).1.trans (mem_words_pow.1 hOther).1.symm)

/-- Where a word of the second language stands behind one of the first, no longer word of the first
stands there. -/
theorem Parts.eq_nil {more next later : List UInt8} (hParts : Parts L M) (hNil : [] ∉ M)
    (hWord : word ∈ L) (hLonger : word ++ more ∈ L) (hNext : next ∈ M) (hFront : next <+: later)
    (hMore : more <+: later) : more = [] := by
  cases more with
  | nil => rfl
  | cons byte more =>
    obtain ⟨lead, next, rfl⟩ := List.exists_cons_of_ne_nil (ne_of_mem_of_not_mem hNext hNil)
    obtain ⟨rest, rfl⟩ := hMore
    obtain ⟨rfl, -⟩ := List.cons_prefix_cons.1 hFront
    exact absurd hNext (hParts word lead more next hWord hLonger)

theorem PrefixFree.mul (hFree : PrefixFree M) (hParts : Parts L M) (hNil : [] ∉ M) :
    PrefixFree (L * M) := by
  intro word hWord other hOther hPrefix
  obtain ⟨first, hFirst, next, hNext, rfl⟩ := Language.mem_mul.1 hWord
  obtain ⟨first', hFirst', next', hNext', rfl⟩ := Language.mem_mul.1 hOther
  have hSame : first = first' := by
    rcases List.prefix_or_prefix_of_prefix ((List.prefix_append first next).trans hPrefix)
        (List.prefix_append first' next') with ⟨more, rfl⟩ | ⟨more, rfl⟩
    · rw [List.append_assoc, List.prefix_append_right_inj] at hPrefix
      rw [hParts.eq_nil hNil hFirst hFirst' hNext hPrefix (List.prefix_append more next'),
        List.append_nil]
    · rw [List.append_assoc, List.prefix_append_right_inj] at hPrefix
      rw [hParts.eq_nil hNil hFirst' hFirst hNext' (List.prefix_refl next')
        ((List.prefix_append more next).trans hPrefix), List.append_nil]
  subst hSame
  rw [hFree next hNext next' hNext' ((List.prefix_append_right_inj first).1 hPrefix)]

namespace LongestIn

theorem one (rest : List UInt8) : LongestIn 1 rest (some []) :=
  ⟨rfl, List.nil_prefix, fun other hOther _ => by rw [(Language.mem_one other).1 hOther]⟩

theorem eq_of_prefixFree (hLongest : LongestIn L rest (some word)) (hFree : PrefixFree L)
    (hOther : other ∈ L) (hPrefix : other <+: rest) : other = word :=
  hFree other hOther word hLongest.1
    (List.prefix_of_prefix_length_le hPrefix hLongest.2.1 (hLongest.2.2 other hOther hPrefix))

theorem mul_none_left (hFirst : LongestIn L rest none) : LongestIn (L * M) rest none := by
  rintro _ ⟨first, hWord, second, -, rfl⟩ hPrefix
  exact hFirst first hWord ((List.prefix_append first second).trans hPrefix)

/-- Behind the longest word of the first language goes what is in front of it as a word of the
product, or that ends before. -/
theorem exists_of_mem_mul (hParts : Parts L M) (hFirst : LongestIn L rest (some word))
    (hOther : other ∈ L * M) (hPrefix : other <+: rest) :
    ∃ next ∈ M, next <+: rest.drop word.length ∧ other.length ≤ word.length + next.length := by
  obtain ⟨hWord, hFront, hLongest⟩ := hFirst
  obtain ⟨first, hFirst, next, hNext, rfl⟩ := Language.mem_mul.1 hOther
  have hBefore : first <+: rest := (List.prefix_append first next).trans hPrefix
  obtain ⟨more, rfl⟩ :=
    List.prefix_of_prefix_length_le hBefore hFront (hLongest first hFirst hBefore)
  obtain ⟨later, rfl⟩ := hFront
  rw [List.append_assoc, List.prefix_append_right_inj] at hPrefix
  cases more with
  | nil =>
    refine ⟨next, hNext, ?_, ?_⟩
    · simpa using hPrefix
    · simp
  | cons byte more =>
    cases next with
    | nil => exact ⟨[], hNext, List.nil_prefix, by simp⟩
    | cons lead next =>
      obtain ⟨rfl, -⟩ := List.cons_prefix_cons.1 hPrefix
      exact absurd hNext (hParts first lead more next hFirst hWord)

theorem mul_none_right (hParts : Parts L M) (hFirst : LongestIn L rest (some word))
    (hSecond : LongestIn M (rest.drop word.length) none) : LongestIn (L * M) rest none := by
  intro other hOther hPrefix
  obtain ⟨next, hNext, hBehind, -⟩ := hFirst.exists_of_mem_mul hParts hOther hPrefix
  exact hSecond next hNext hBehind

theorem mul {next : List UInt8} (hParts : Parts L M) (hFirst : LongestIn L rest (some word))
    (hSecond : LongestIn M (rest.drop word.length) (some next)) :
    LongestIn (L * M) rest (some (word ++ next)) := by
  obtain ⟨hNext, hBehind, hLongest⟩ := hSecond
  refine ⟨Language.append_mem_mul hFirst.1 hNext, ?_, ?_⟩
  · obtain ⟨later, rfl⟩ := hFirst.2.1
    rw [List.drop_left] at hBehind
    exact (List.prefix_append_right_inj word).2 hBehind
  · intro other hOther hPrefix
    obtain ⟨more, hMore, hAfter, hLength⟩ := hFirst.exists_of_mem_mul hParts hOther hPrefix
    have hLess := hLongest more hMore hAfter
    rw [List.length_append]
    omega

/-- Where a language has a word in front, it makes no difference to allow for the empty word. -/
theorem one_add (hLongest : LongestIn L rest (some word)) :
    LongestIn (1 + L) rest (some word) := by
  refine ⟨.inr hLongest.1, hLongest.2.1, ?_⟩
  rintro other (hNil | hOther) hPrefix
  · rw [(Language.mem_one other).1 hNil]
    exact Nat.zero_le _
  · exact hLongest.2.2 other hOther hPrefix

theorem one_add_none (hNone : LongestIn L rest none) : LongestIn (1 + L) rest (some []) := by
  refine ⟨.inl rfl, List.nil_prefix, ?_⟩
  rintro other (hNil | hOther) hPrefix
  · rw [(Language.mem_one other).1 hNil]
  · exact absurd hPrefix (hNone other hOther)

theorem kstar_none (hNone : LongestIn L rest none) : LongestIn L∗ rest (some []) := by
  rw [← Language.one_add_self_mul_kstar_eq_kstar]
  exact hNone.mul_none_left.one_add_none

theorem kstar_cons {next : List UInt8} (hParts : Parts L L) (hFirst : LongestIn L rest (some word))
    (hSecond : LongestIn L∗ (rest.drop word.length) (some next)) :
    LongestIn L∗ rest (some (word ++ next)) := by
  rw [← Language.one_add_self_mul_kstar_eq_kstar]
  exact (hFirst.mul hParts.kstar hSecond).one_add

end LongestIn

end Languages

/-- What comes of looking for the longest word of a language: something that stands for it. -/
inductive Peg.FindsAt {α : Type} (peg : Peg α) (stands : α → List UInt8 → Prop)
    (L : Language UInt8) (offset : Nat) (rest : List UInt8) : Prop where
  | matched (value : α) (word : List UInt8)
      (hRun : peg offset rest = some (.matched value word.length)) (hStands : stands value word)
      (hLongest : LongestIn L rest (some word))
  | unmatched (hRun : peg offset rest = some .unmatched) (hNone : LongestIn L rest none)

/-- The recognizer finds the longest word of the language, wherever it is looked for. -/
def Peg.Finds {α : Type} (peg : Peg α) (stands : α → List UInt8 → Prop) (L : Language UInt8) :
    Prop :=
  ∀ offset rest, peg.FindsAt stands L offset rest

/-- The word is the content of the match. -/
def Match.Spells (m : Match) (word : List UInt8) : Prop :=
  m.content = word

/-- The verdict on more bytes, of which so many come before those that it is on. -/
def Verdict.behind {α : Type} (consumed : Nat) : Verdict α → Verdict α
  | .matched value more => .matched value (consumed + more)
  | .unmatched => .unmatched
  | .malformed place => .malformed place

namespace Peg

variable {α β : Type} {first : Peg α} {next : α → Peg β} {offset : Nat} {rest : List UInt8}

theorem andThen_of_matched {value : α} {consumed : Nat}
    (hFirst : first offset rest = some (.matched value consumed)) :
    first.andThen next offset rest =
      (next value (offset + consumed) (rest.drop consumed)).map (Verdict.behind consumed) := by
  simp only [andThen, hFirst, Option.bind_eq_bind, Option.bind_some]
  cases next value (offset + consumed) (rest.drop consumed) with
  | none => rfl
  | some verdict => cases verdict <;> rfl

theorem andThen_of_unmatched (hFirst : first offset rest = some .unmatched) :
    first.andThen next offset rest = some .unmatched := by
  simp only [andThen, hFirst, Option.bind_eq_bind, Option.bind_some]
  rfl

theorem andThen_of_malformed {place : Nat} (hFirst : first offset rest = some (.malformed place)) :
    first.andThen next offset rest = some (.malformed place) := by
  simp only [andThen, hFirst, Option.bind_eq_bind, Option.bind_some]
  rfl

theorem andThen_of_none (hFirst : first offset rest = none) :
    first.andThen next offset rest = none := by
  simp only [andThen, hFirst, Option.bind_eq_bind, Option.bind_none]

theorem success_andThen (value : α) : (success value).andThen next = next value := by
  funext offset rest
  have hRun : success value offset rest = some (.matched value 0) := rfl
  rw [andThen_of_matched hRun, Nat.add_zero, List.drop_zero]
  cases next value offset rest with
  | none => rfl
  | some verdict => cases verdict <;> simp [Verdict.behind]

theorem andThen_success (first : Peg α) : first.andThen success = first := by
  funext offset rest
  cases hFirst : first offset rest with
  | none => rw [andThen_of_none hFirst]
  | some verdict =>
    cases verdict with
    | matched value consumed =>
      rw [andThen_of_matched hFirst]
      rfl
    | unmatched => rw [andThen_of_unmatched hFirst]
    | malformed place => rw [andThen_of_malformed hFirst]

theorem andThen_assoc {γ : Type} (first : Peg α) (next : α → Peg β) (last : β → Peg γ) :
    (first.andThen next).andThen last = first.andThen fun value => (next value).andThen last := by
  funext offset rest
  cases hFirst : first offset rest with
  | none => rw [andThen_of_none (andThen_of_none hFirst), andThen_of_none hFirst]
  | some verdict =>
    cases verdict with
    | unmatched => rw [andThen_of_unmatched (andThen_of_unmatched hFirst), andThen_of_unmatched hFirst]
    | malformed place =>
      rw [andThen_of_malformed (andThen_of_malformed hFirst), andThen_of_malformed hFirst]
    | matched value consumed =>
      have hBoth : first.andThen next offset rest =
          (next value (offset + consumed) (rest.drop consumed)).map (Verdict.behind consumed) :=
        andThen_of_matched hFirst
      rw [andThen_of_matched hFirst]
      cases hNext : next value (offset + consumed) (rest.drop consumed) with
      | none => rw [andThen_of_none (hBoth.trans (by rw [hNext]; rfl)), andThen_of_none hNext]; rfl
      | some verdict =>
        rw [hNext] at hBoth
        cases verdict with
        | unmatched => rw [andThen_of_unmatched hBoth, andThen_of_unmatched hNext]; rfl
        | malformed place => rw [andThen_of_malformed hBoth, andThen_of_malformed hNext]; rfl
        | matched result more =>
          rw [andThen_of_matched hBoth, andThen_of_matched hNext, Option.map_map, List.drop_drop,
            Nat.add_assoc]
          congr 1
          funext verdict
          cases verdict <;> simp [Verdict.behind, Nat.add_assoc]

theorem inTurn_singleton {step : Peg Match} {m : Match} {consumed : Nat}
    (hStep : step offset rest = some (.matched m consumed)) :
    inTurn [step] offset rest = some (.matched [m] consumed) :=
  andThen_of_matched hStep

theorem inTurn_append (front back : List (Peg Match)) :
    inTurn (front ++ back) = (inTurn front).andThen fun ms =>
      (inTurn back).andThen fun more => success (ms ++ more) := by
  induction front with
  | nil =>
    rw [inTurn, success_andThen]
    exact (andThen_success _).symm
  | cons step rest ih =>
    rw [List.cons_append, inTurn, inTurn, ih]
    simp only [andThen_assoc, success_andThen]
    rfl

theorem orElse_of_matched {second : Peg α} {value : α} {consumed : Nat}
    (hFirst : first offset rest = some (.matched value consumed)) :
    first.orElse second offset rest = some (.matched value consumed) := by
  simp only [orElse, hFirst, Option.bind_eq_bind, Option.bind_some]
  rfl

theorem orElse_of_unmatched {second : Peg α} (hFirst : first offset rest = some .unmatched) :
    first.orElse second offset rest = second offset rest := by
  simp only [orElse, hFirst, Option.bind_eq_bind, Option.bind_some]

theorem best_of_unmatched {found : Option (Match × Nat)} {alternative : Peg Match}
    {others : List (Peg Match)} (hRun : alternative offset rest = some .unmatched) :
    best found (alternative :: others) offset rest = best found others offset rest := by
  simp only [best, hRun, Option.bind_eq_bind, Option.bind_some]

theorem best_of_matched {found : Option (Match × Nat)} {alternative : Peg Match}
    {others : List (Peg Match)} {m : Match} {consumed : Nat}
    (hRun : alternative offset rest = some (.matched m consumed)) :
    best found (alternative :: others) offset rest =
      if found.all fun current => current.1.length < m.length then
        best (some (m, consumed)) others offset rest
      else best found others offset rest := by
  simp only [best, hRun, Option.bind_eq_bind, Option.bind_some]

section Rounds

variable {element : Peg Match} {separator : Option (Peg Match)} {count : Nat}

theorem rounds_of_unmatched
    (hRound : round element (if count = 0 then none else separator) offset rest = some .unmatched) :
    rounds element separator none count offset rest = some (.matched ([], []) 0) := by
  rw [rounds, hRound]
  rfl

/-- A round whose content is what it consumes is put in front of the rounds behind it. -/
theorem rounds_of_matched {content later : List UInt8} {m : Match} {elements : List Match}
    (hRound : round element (if count = 0 then none else separator) offset rest =
      some (.matched (content, m) content.length))
    (hSome : content ≠ []) (hWithin : content.length ≤ rest.length)
    (hLater : rounds element separator none (count + 1) (offset + content.length)
      (rest.drop content.length) = some (.matched (later, elements) later.length)) :
    rounds element separator none count offset rest =
      some (.matched (content ++ later, m :: elements) (content ++ later).length) := by
  have hMoves : 0 < content.length := List.length_pos_iff.2 hSome
  rw [rounds, hRound]
  simp only [Option.any_none, Bool.false_eq_true, if_false, Option.bind_eq_bind, Option.bind_some,
    hMoves, hWithin, and_self, dite_true, hLater, List.length_append]
  rfl

end Rounds

end Peg

/-- The matches stand for words of these languages, and all together for this one. -/
def SpellEach (Ls : List (Language UInt8)) (ms : List Match) (word : List UInt8) : Prop :=
  List.Forall₂ (fun m L => m.content ∈ L) ms Ls ∧ ms.flatMap (·.content) = word

namespace Peg.Finds

variable {α β γ : Type} {L M : Language UInt8} {accepts : Predicate UInt8}
  {stands : α → List UInt8 → Prop} {stands' : β → List UInt8 → Prop}
  {stands'' : γ → List UInt8 → Prop}

theorem success {value : α} (hStands : stands value []) : (Peg.success value).Finds stands 1 :=
  fun _ rest => .matched value [] rfl hStands (.one rest)

theorem failure : (Peg.failure : Peg α).Finds stands 0 :=
  fun _ _ => .unmatched rfl fun word hWord => absurd hWord (Language.notMem_zero word)

theorem map {first : Peg α} {f : Nat → α → β} (hFirst : first.Finds stands L)
    (hStands : ∀ offset value word, word ∈ L → stands value word → stands' (f offset value) word) :
    Peg.Finds (fun offset => first.andThen (fun value => .success (f offset value)) offset)
      stands' L := by
  intro offset rest
  cases hFirst offset rest with
  | matched value word hRun hValue hLongest =>
    exact .matched (f offset value) word (andThen_of_matched hRun)
      (hStands offset value word hLongest.1 hValue) hLongest
  | unmatched hRun hNone => exact .unmatched (andThen_of_unmatched hRun) hNone

/-- One after the other. -/
theorem pair {first : Peg α} {second : Peg β} {f : α → β → γ} (hFirst : first.Finds stands L)
    (hSecond : second.Finds stands' M) (hParts : Parts L M)
    (hStands : ∀ value other word next, word ∈ L → next ∈ M → stands value word →
      stands' other next → stands'' (f value other) (word ++ next)) :
    (first.andThen fun value => second.andThen fun other => .success (f value other)).Finds stands''
      (L * M) := by
  intro offset rest
  cases hFirst offset rest with
  | matched value word hRun hValue hLongest =>
    cases hSecond (offset + word.length) (rest.drop word.length) with
    | matched other next hNext hOther hBehind =>
      refine .matched (f value other) (word ++ next) ?_
        (hStands value other word next hLongest.1 hBehind.1 hValue hOther)
        (hLongest.mul hParts hBehind)
      rw [andThen_of_matched hRun, andThen_of_matched hNext, List.length_append]
      rfl
    | unmatched hNext hBehind =>
      refine .unmatched ?_ (hLongest.mul_none_right hParts hBehind)
      rw [andThen_of_matched hRun, andThen_of_unmatched hNext]
      rfl
  | unmatched hRun hNone => exact .unmatched (andThen_of_unmatched hRun) hNone.mul_none_left

theorem orElse {first second : Peg α} (hFirst : first.Finds stands L)
    (hSecond : second.Finds stands M)
    (hLonger : ∀ word ∈ L, ∀ other ∈ M, other.length ≤ word.length) :
    (first.orElse second).Finds stands (L + M) := by
  intro offset rest
  cases hFirst offset rest with
  | matched value word hRun hValue hLongest =>
    obtain ⟨hWord, hPrefix, hBound⟩ := hLongest
    refine .matched value word (orElse_of_matched hRun) hValue ⟨.inl hWord, hPrefix, ?_⟩
    rintro other (hOther | hOther) hFront
    · exact hBound other hOther hFront
    · exact hLonger word hWord other hOther
  | unmatched hRun hNone =>
    have hSkip : first.orElse second offset rest = second offset rest := orElse_of_unmatched hRun
    cases hSecond offset rest with
    | matched value word hNext hValue hLongest =>
      obtain ⟨hWord, hPrefix, hBound⟩ := hLongest
      refine .matched value word (hSkip.trans hNext) hValue ⟨.inr hWord, hPrefix, ?_⟩
      rintro other (hOther | hOther) hFront
      · exact absurd hFront (hNone other hOther)
      · exact hBound other hOther hFront
    | unmatched hNext hNone' =>
      refine .unmatched (hSkip.trans hNext) ?_
      rintro other (hOther | hOther)
      · exact hNone other hOther
      · exact hNone' other hOther

/-- A byte that one of the predicates accepts is found by the first of them that does. -/
theorem first_words {step : Predicate UInt8 → Peg Match}
    (hStep : ∀ accepts, (step accepts).Finds Match.Spells accepts.words)
    (predicates : List (Predicate UInt8)) :
    (Peg.first (predicates.map step)).Finds Match.Spells (Predicate.anyOf predicates).words := by
  induction predicates with
  | nil =>
    rw [words_anyOf_nil]
    exact failure
  | cons predicate rest ih =>
    rw [words_anyOf_cons]
    apply (hStep predicate).orElse ih
    rintro _ ⟨byte, -, rfl⟩ _ ⟨other, -, rfl⟩
    exact Nat.le_refl 1

theorem optional {inner : Peg Match} (hInner : inner.Finds Match.Spells L) :
    (Peg.optional inner).Finds Match.Spells (1 + L) := by
  intro offset rest
  cases hInner offset rest with
  | matched m word hRun hWord hLongest =>
    exact .matched m word (orElse_of_matched hRun) hWord hLongest.one_add
  | unmatched hRun hNone =>
    exact .matched (.empty offset) [] (orElse_of_unmatched hRun) rfl hNone.one_add_none

theorem inTurn_nil : (Peg.inTurn []).Finds (SpellEach []) 1 :=
  success ⟨.nil, rfl⟩

theorem inTurn_cons {step : Peg Match} {steps : List (Peg Match)} {Ls : List (Language UInt8)}
    (hStep : step.Finds Match.Spells L) (hSteps : (Peg.inTurn steps).Finds (SpellEach Ls) Ls.prod)
    (hParts : Parts L Ls.prod) :
    (Peg.inTurn (step :: steps)).Finds (SpellEach (L :: Ls)) (L :: Ls).prod := by
  rw [List.prod_cons]
  apply hStep.pair hSteps hParts
  rintro m more _ _ hWord - rfl ⟨hMore, rfl⟩
  exact ⟨.cons hWord hMore, rfl⟩

/-- What is repeated goes on to be found after the first round. -/
theorem rounds {element : Peg Match} {separator : Option (Peg Match)}
    (hRound : (Peg.round element separator).Finds (·.1 = ·) L) (hNil : [] ∉ L)
    (hParts : Parts L L) {count : Nat} (hCount : 0 < count) :
    (Peg.rounds element separator none count).Finds (·.1 = ·) L∗ := by
  intro offset rest
  induction hLength : rest.length using Nat.strong_induction_on generalizing offset rest count with
  | _ length ih =>
    have hSeparator : (if count = 0 then none else separator) = separator := if_neg hCount.ne'
    cases hRound offset rest with
    | unmatched hRun hNone =>
      exact .matched ([], []) [] (rounds_of_unmatched (by rwa [hSeparator])) rfl hNone.kstar_none
    | matched value word hRun hWord hLongest =>
      obtain ⟨content, m⟩ := value
      obtain rfl : content = word := hWord
      have hSome : content ≠ [] := fun hEmpty => hNil (hEmpty ▸ hLongest.1)
      have hMoves : 0 < content.length := List.length_pos_iff.2 hSome
      have hBound : content.length ≤ rest.length := hLongest.2.1.length_le
      have hDrop : (rest.drop content.length).length < length := by
        rw [List.length_drop]
        omega
      cases ih _ hDrop (Nat.succ_pos count) (offset + content.length) _ rfl with
      | unmatched hNext hNone => exact absurd List.nil_prefix (hNone [] (Language.nil_mem_kstar L))
      | matched value next hNext hOther hBehind =>
        obtain ⟨later, elements⟩ := value
        obtain rfl : later = next := hOther
        exact .matched (content ++ later, m :: elements) (content ++ later)
          (rounds_of_matched (by rwa [hSeparator]) hSome hBound hNext) rfl
          (hLongest.kstar_cons hParts hBehind)

/-- One round, and then as many as there are. -/
theorem many (tag : Tag) {element : Peg Match} {separator : Option (Peg Match)}
    (hFirst : (Peg.round element none).Finds (·.1 = ·) L) (hNil : [] ∉ L)
    (hRound : (Peg.round element separator).Finds (·.1 = ·) M) (hNilRound : [] ∉ M)
    (hParts : Parts L M) (hPartsRound : Parts M M) :
    (Peg.many tag 1 none element separator).Finds Match.Spells (L * M∗) := by
  intro offset rest
  cases hFirst offset rest with
  | unmatched hRun hNone =>
    refine .unmatched ?_ hNone.mul_none_left
    have hRounds : Peg.rounds element separator none 0 offset rest =
        some (.matched ([], []) 0) := rounds_of_unmatched hRun
    simp only [Peg.many, andThen, hRounds]
    rfl
  | matched value word hRun hWord hLongest =>
    obtain ⟨content, m⟩ := value
    obtain rfl : content = word := hWord
    have hSome : content ≠ [] := fun hEmpty => hNil (hEmpty ▸ hLongest.1)
    have hBound : content.length ≤ rest.length := hLongest.2.1.length_le
    cases hRound.rounds hNilRound hPartsRound Nat.one_pos (offset + content.length)
      (rest.drop content.length) with
    | unmatched hNext hNone => exact absurd List.nil_prefix (hNone [] (Language.nil_mem_kstar M))
    | matched value next hNext hOther hBehind =>
      obtain ⟨later, elements⟩ := value
      obtain rfl : later = next := hOther
      have hRounds : Peg.rounds element separator none 0 offset rest =
          some (.matched (content ++ later, m :: elements) (content ++ later).length) :=
        rounds_of_matched hRun hSome hBound hNext
      refine .matched (.composite tag offset (content ++ later) (m :: elements))
        (content ++ later) ?_ rfl (hLongest.mul hParts.kstar hBehind)
      simp only [Peg.many, andThen, hRounds]
      rfl

end Peg.Finds

end StreamMatch
