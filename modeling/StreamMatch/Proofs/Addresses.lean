import Mathlib
import StreamMatch.Contact
import StreamMatch.Proofs.Agreement
import StreamMatch.Proofs.Languages

/-!
The languages of e-mail addresses and telephone numbers, and what the grammar of contacts finds of them
in front of its input.
-/

open scoped Computability

namespace StreamMatch.Contact

/-- The kinds of characters in words. -/
def atomKinds : List (Predicate UInt8) :=
  [.asciiAlpha, .asciiDigit, .inSet (asciiBytes "!#$%&'*+-/=?^_\x60\x7b|\x7d~")]

def atom : Predicate UInt8 :=
  .anyOf atomKinds

def atoms : Language UInt8 :=
  atom.words * atom.words∗

/-- Words with dots between them. -/
def dotAtoms : Language UInt8 :=
  atoms * ({asciiBytes "."} * atoms)∗

def addresses : Language UInt8 :=
  dotAtoms * {asciiBytes "@"} * dotAtoms

def hyphen : Language UInt8 :=
  1 + {asciiBytes "-"}

/-- Telephone numbers without an extension. -/
def numbers : Language UInt8 :=
  Predicate.asciiDigit.words ^ 3 * hyphen * Predicate.asciiDigit.words ^ 3 * hyphen *
    Predicate.asciiDigit.words ^ 4

/-- What the pattern finds in the bytes that it sees of these, if it finds something. -/
def extensionIn (extension : Pattern) (rest : List UInt8) : List UInt8 :=
  ((extension.matchLength? (rest.take extension.window)).map rest.take).getD []

section Words

theorem asciiBytes_dot : asciiBytes "." = [46] := rfl

theorem asciiBytes_at : asciiBytes "@" = [64] := rfl

theorem asciiBytes_hyphen : asciiBytes "-" = [45] := rfl

theorem words_inSet_singleton (byte : UInt8) : (Predicate.inSet [byte]).words = {[byte]} := by
  ext word
  constructor
  · rintro ⟨other, hOther, rfl⟩
    have hSame : other = byte := by simpa [Predicate.inSet] using hOther
    rw [hSame]
    exact Set.mem_singleton _
  · rintro rfl
    exact ⟨byte, by simp [Predicate.inSet], rfl⟩

theorem parts_singleton (byte : UInt8) (M : Language UInt8) : Parts {[byte]} M := by
  rw [← words_inSet_singleton]
  exact parts_words _ M

theorem beginsWith_singleton_mul (byte : UInt8) (M : Language UInt8) :
    BeginsWith (· = byte) ({[byte]} * M) := by
  rintro lead rest ⟨_, rfl, next, -, hWord⟩
  exact (List.cons.inj hWord).1.symm

theorem atom_dot : atom 46 = false := by decide

theorem atom_at : atom 64 = false := by decide

theorem digit_hyphen : Predicate.asciiDigit 45 = false := by decide

theorem madeOf_atoms : MadeOf (atom · = true) atoms :=
  (madeOf_words atom).mul (madeOf_words atom).kstar

theorem madeOf_dotAtoms : MadeOf (fun byte => atom byte = true ∨ byte = 46) dotAtoms := by
  have hAtoms : MadeOf (fun byte => atom byte = true ∨ byte = 46) atoms :=
    madeOf_atoms.mono fun _ => .inl
  have hDot : MadeOf (fun byte => atom byte = true ∨ byte = 46) {asciiBytes "."} := by
    rintro _ rfl byte hByte
    rw [asciiBytes_dot] at hByte
    exact .inr (List.mem_singleton.1 hByte)
  exact hAtoms.mul (hDot.mul hAtoms).kstar

theorem nil_notMem_atoms : [] ∉ atoms :=
  nil_notMem_mul (nil_notMem_words atom)

theorem parts_atoms : Parts atoms ({asciiBytes "."} * atoms) := by
  apply Parts.of_madeOf madeOf_atoms
  rw [asciiBytes_dot]
  intro byte rest hWord
  rw [beginsWith_singleton_mul 46 atoms byte rest hWord, atom_dot]
  exact Bool.false_ne_true

/-- Behind a dot come atoms. -/
theorem parts_dot_atoms :
    Parts ({asciiBytes "."} * atoms) ({asciiBytes "."} * atoms) := by
  rw [asciiBytes_dot]
  intro word byte more rest hWord hLonger hNext
  obtain ⟨_, rfl, next, -, rfl⟩ := Language.mem_mul.1 hWord
  obtain ⟨_, rfl, next', hAtoms, hSame⟩ := Language.mem_mul.1 hLonger
  have hByte : byte ∈ next' := by
    have hTail : next' = next ++ byte :: more := (List.cons.inj hSame).2
    rw [hTail]
    simp
  have hAtom := madeOf_atoms next' hAtoms byte hByte
  rw [beginsWith_singleton_mul 46 atoms byte rest hNext, atom_dot] at hAtom
  exact Bool.false_ne_true hAtom

theorem parts_dotAtoms (M : Language UInt8) : Parts dotAtoms ({asciiBytes "@"} * M) := by
  apply Parts.of_madeOf madeOf_dotAtoms
  rw [asciiBytes_at]
  intro byte rest hWord
  rw [beginsWith_singleton_mul 64 M byte rest hWord, atom_at]
  simp

theorem beginsWith_digits (count : Nat) (M : Language UInt8) :
    BeginsWith (Predicate.asciiDigit · = true) (Predicate.asciiDigit.words ^ (count + 1) * M) := by
  rw [pow_succ', mul_assoc]
  exact (madeOf_words _).beginsWith.mul (nil_notMem_words _)

theorem parts_hyphen (count : Nat) (M : Language UInt8) :
    Parts hyphen (Predicate.asciiDigit.words ^ (count + 1) * M) := by
  rw [hyphen, asciiBytes_hyphen, ← words_inSet_singleton]
  apply parts_one_add_words
  refine (beginsWith_digits count M).mono fun byte hDigit => ?_
  by_contra hHyphen
  obtain rfl : byte = 45 := by simpa [Predicate.inSet] using hHyphen
  rw [digit_hyphen] at hDigit
  exact Bool.false_ne_true hDigit

theorem nil_notMem_digits (count : Nat) (M : Language UInt8) :
    [] ∉ Predicate.asciiDigit.words ^ (count + 1) * M := by
  rw [pow_succ', mul_assoc]
  exact nil_notMem_mul (nil_notMem_words _)

theorem parts_digits (count : Nat) (M : Language UInt8) :
    Parts (Predicate.asciiDigit.words ^ count) M :=
  parts_words_pow _ count M

/-- A hyphen may stand there or not, but digits follow. -/
theorem prefixFree_hyphen_mul {count : Nat} {M : Language UInt8}
    (hFree : PrefixFree (Predicate.asciiDigit.words ^ (count + 1) * M)) :
    PrefixFree (hyphen * (Predicate.asciiDigit.words ^ (count + 1) * M)) :=
  hFree.mul (parts_hyphen count M) (nil_notMem_digits count M)

theorem nil_notMem_hyphen_mul (count : Nat) (M : Language UInt8) :
    [] ∉ hyphen * (Predicate.asciiDigit.words ^ (count + 1) * M) := by
  intro hWord
  obtain ⟨first, -, next, hNext, hNil⟩ := Language.mem_mul.1 hWord
  rw [(List.append_eq_nil_iff.1 hNil).2] at hNext
  exact nil_notMem_digits count M hNext

/-- The parts of a number, one after the other. -/
theorem numbers_eq :
    numbers = Predicate.asciiDigit.words ^ 3 * (hyphen * (Predicate.asciiDigit.words ^ 3 *
      (hyphen * (Predicate.asciiDigit.words ^ 4 * 1)))) := by
  simp only [numbers, mul_assoc, mul_one]

theorem prefixFree_numbers : PrefixFree numbers := by
  rw [numbers_eq]
  have hLast : PrefixFree (Predicate.asciiDigit.words ^ 4 * 1) := by
    rw [mul_one]
    exact prefixFree_words_pow _ 4
  have hLocal := (prefixFree_hyphen_mul hLast).mul (parts_digits 3 _) (nil_notMem_hyphen_mul 3 1)
  exact (prefixFree_hyphen_mul hLocal).mul (parts_digits 3 _) (nil_notMem_hyphen_mul 2 _)

end Words

section Recognizers

variable {policy : DecodePolicy} {call : String → Peg Match}

/-- A run of a fixed number of bytes. -/
theorem finds_bytes {run : ByteRun} (hExact : run.most = run.least) :
    (Primitive.peg policy (.bytes run)).Finds Match.Spells (run.accepts.words ^ run.least) := by
  intro offset rest
  have hTaken : (rest.takeWhile run.accepts).take run.most <+: rest :=
    (List.take_prefix _ _).trans (List.takeWhile_prefix _)
  by_cases hShort : ((rest.takeWhile run.accepts).take run.most).length < run.least
  · refine .unmatched ?_ ?_
    · simp only [Primitive.peg, Primitive.recognize, hShort, if_true]
      rfl
    · intro word hWord hPrefix
      obtain ⟨hLength, hAll⟩ := mem_words_pow.1 hWord
      obtain ⟨later, rfl⟩ := hPrefix
      rw [List.takeWhile_append_of_pos hAll, List.length_take, List.length_append] at hShort
      omega
  · have hLength : ((rest.takeWhile run.accepts).take run.most).length = run.least := by
      have hLess := List.length_take_le run.most (rest.takeWhile run.accepts)
      omega
    refine .matched (.leaf run.tag ((rest.takeWhile run.accepts).take run.most) offset) _ ?_ rfl
      ⟨?_, hTaken, ?_⟩
    · simp only [Primitive.peg, Primitive.recognize, hShort, if_false]
      rfl
    · exact mem_words_pow.2 ⟨hLength, fun byte hByte =>
        List.mem_takeWhile_imp (List.mem_of_mem_take hByte)⟩
    · intro other hOther _
      exact ((mem_words_pow.1 hOther).1.trans hLength.symm).le

theorem finds_oneByte (accepts : Predicate UInt8) :
    ((oneByte accepts).peg policy call).Finds Match.Spells accepts.words := by
  have hFinds : (Primitive.peg policy (.bytes (.one .literal accepts))).Finds Match.Spells
      (accepts.words ^ 1) := finds_bytes rfl
  rwa [pow_one] at hFinds

theorem finds_oneOf {text : String} {byte : UInt8} (hText : asciiBytes text = [byte]) :
    ((oneOf text).peg policy call).Finds Match.Spells {asciiBytes text} := by
  rw [oneOf, hText, ← words_inSet_singleton]
  exact finds_oneByte _

theorem finds_digits (tag : Tag) (count : Nat) :
    ((digits tag count).peg policy call).Finds Match.Spells
      (Predicate.asciiDigit.words ^ count) :=
  finds_bytes (max_self count)

theorem finds_atomCharacter : (atomCharacter.peg policy call).Finds Match.Spells atom.words := by
  have hByte (accepts : Predicate UInt8) :
      ((oneByte accepts).peg policy call).Finds Match.Spells accepts.words := finds_oneByte accepts
  exact Peg.Finds.first_words hByte atomKinds

theorem finds_round {element : Peg Match} {L : Language UInt8}
    (hElement : element.Finds Match.Spells L) :
    (Peg.round element none).Finds (·.1 = ·) L :=
  hElement.map fun _ _ _ _ hWord => hWord

theorem finds_atoms :
    ((Matcher.atLeast .literal 1 atomCharacter).peg policy call).Finds Match.Spells atoms := by
  have hRound : (Peg.round (atomCharacter.peg policy call) none).Finds (·.1 = ·) atom.words :=
    finds_round finds_atomCharacter
  exact hRound.many .literal (nil_notMem_words atom) hRound (nil_notMem_words atom)
    (parts_words atom _) (parts_words atom _)

theorem finds_dotAtom (symbols : Symbols) :
    ((dotAtom symbols).peg policy call).Finds Match.Spells dotAtoms := by
  have hAtoms : ((Matcher.atLeast .literal 1 atomCharacter).peg policy call).Finds
      Match.Spells atoms := finds_atoms
  have hDot : ((oneOf ".").peg policy call).Finds Match.Spells {asciiBytes "."} :=
    finds_oneOf asciiBytes_dot
  have hRound : (Peg.round ((Matcher.atLeast .literal 1 atomCharacter).peg policy call)
      (some ((oneOf ".").peg policy call))).Finds (·.1 = ·) ({asciiBytes "."} * atoms) := by
    apply hDot.pair hAtoms (parts_singleton _ _)
    rintro gap m _ _ - - rfl rfl
    rfl
  have hNil : [] ∉ ({asciiBytes "."} : Language UInt8) := by
    rw [asciiBytes_dot, ← words_inSet_singleton]
    exact nil_notMem_words _
  exact (finds_round hAtoms).many symbols.dotAtom nil_notMem_atoms hRound (nil_notMem_mul hNil)
    parts_atoms parts_dot_atoms

/-- An address with its two groups. -/
structure IsAddress (symbols : Symbols) (m : Match) (word : List UInt8) : Prop where
  tag_eq : m.tag = symbols.emailAddress
  content_eq : m.content = word
  exists_groups : ∃ name domain, m.group? "local" = some name ∧ m.group? "domain" = some domain ∧
    name.content ∈ dotAtoms ∧ domain.content ∈ dotAtoms ∧
    word = name.content ++ asciiBytes "@" ++ domain.content

theorem addresses_eq : addresses = [dotAtoms, {asciiBytes "@"}, dotAtoms].prod := by
  simp only [addresses, List.prod_cons, List.prod_nil, mul_assoc, mul_one]

theorem namesFrom_address :
    Match.namesFrom 0 [] ["local", "", "domain"] = [("domain", 2), ("local", 0)] := by
  decide

theorem group?_address (tag : Tag) (offset : Nat) (name sign domain : Match) :
    let m := Match.named tag offset (["local", "", "domain"].zip [name, sign, domain])
    m.group? "local" = some name ∧ m.group? "domain" = some domain := by
  intro m
  have hNames : m.names = [("domain", 2), ("local", 0)] := by
    simp only [m, Match.named, List.zip_cons_cons, List.zip_nil_right, List.map_cons, List.map_nil]
    exact namesFrom_address
  simp only [Match.group?, hNames]
  exact ⟨rfl, rfl⟩

theorem finds_emailAddress (symbols : Symbols) :
    ((emailAddress symbols).peg policy call).Finds (IsAddress symbols) addresses := by
  have hWords : ((dotAtom symbols).peg policy call).Finds Match.Spells dotAtoms :=
    finds_dotAtom symbols
  have hAt : ((oneOf "@").peg policy call).Finds Match.Spells {asciiBytes "@"} :=
    finds_oneOf asciiBytes_at
  have hParts : Parts dotAtoms 1 := by
    intro word byte more rest _ _ hNext
    cases hNext
  have hDomain := hWords.inTurn_cons .inTurn_nil hParts
  have hSteps := hWords.inTurn_cons (hAt.inTurn_cons hDomain (parts_singleton _ _)) (parts_dotAtoms _)
  rw [addresses_eq]
  have hEmail : ((emailAddress symbols).peg policy call) = fun offset =>
      (Peg.inTurn [(dotAtom symbols).peg policy call, (oneOf "@").peg policy call,
        (dotAtom symbols).peg policy call]).andThen (fun ms => .success
          (.named symbols.emailAddress offset (["local", "", "domain"].zip ms))) offset := rfl
  rw [hEmail]
  apply hSteps.map
  rintro offset ms _ - ⟨hEach, rfl⟩
  obtain ⟨name, _, hName, hRest, rfl⟩ := List.forall₂_cons_right_iff.1 hEach
  obtain ⟨sign, _, hSign, hLast, rfl⟩ := List.forall₂_cons_right_iff.1 hRest
  obtain ⟨domain, _, hDomain, hNone, rfl⟩ := List.forall₂_cons_right_iff.1 hLast
  obtain rfl := List.forall₂_nil_right_iff.1 hNone
  have hSign : sign.content = asciiBytes "@" := hSign
  obtain ⟨hLocal, hGroup⟩ := group?_address symbols.emailAddress offset name sign domain
  refine ⟨rfl, ?_, name, domain, hLocal, hGroup, hName, hDomain, ?_⟩
  · simp [Match.named]
  · simp [hSign]

theorem finds_hyphen :
    ((Matcher.optional (oneOf "-")).peg policy call).Finds Match.Spells hyphen := by
  have hByte : ((oneOf "-").peg policy call).Finds Match.Spells {asciiBytes "-"} :=
    finds_oneOf asciiBytes_hyphen
  exact hByte.optional

/-- The steps of a number that come before the extension. -/
def numberSteps (symbols : Symbols) : List Matcher :=
  [digits symbols.areaCode 3, .optional (oneOf "-"), digits symbols.localCode 3,
    .optional (oneOf "-"), digits symbols.personalCode 4]

theorem finds_numberSteps (symbols : Symbols) :
    (Peg.inTurn ((numberSteps symbols).map (Matcher.peg policy call))).Finds
      (SpellEach [Predicate.asciiDigit.words ^ 3, hyphen, Predicate.asciiDigit.words ^ 3, hyphen,
        Predicate.asciiDigit.words ^ 4]) numbers := by
  have hDigits (tag : Tag) (count : Nat) :
      ((digits tag count).peg policy call).Finds Match.Spells
        (Predicate.asciiDigit.words ^ count) := finds_digits tag count
  have hHyphen : ((Matcher.optional (oneOf "-")).peg policy call).Finds Match.Spells hyphen :=
    finds_hyphen
  rw [numbers_eq]
  have hPersonal := (hDigits symbols.personalCode 4).inTurn_cons .inTurn_nil (parts_digits 4 _)
  have hAfter := hHyphen.inTurn_cons hPersonal (parts_hyphen 3 _)
  have hLocal := (hDigits symbols.localCode 3).inTurn_cons hAfter (parts_digits 3 _)
  have hBefore := hHyphen.inTurn_cons hLocal (parts_hyphen 2 _)
  exact (hDigits symbols.areaCode 3).inTurn_cons hBefore (parts_digits 3 _)

/-- Whether there is an extension or not, this step matches. -/
theorem exists_extension (extension : Pattern) (offset : Nat) (rest : List UInt8) :
    ∃ m : Match, (Matcher.optional (.primitive (.pattern extension))).peg policy call offset rest =
        some (.matched m (extensionIn extension rest).length) ∧
      m.content = extensionIn extension rest := by
  have hPattern : (Matcher.primitive (.pattern extension)).peg policy call offset rest =
      match (extension.matchLength? (rest.take extension.window)).map rest.take with
      | some content => some (.matched (.leaf extension.tag content offset) content.length)
      | none => some .unmatched := by
    simp only [Matcher.peg, Primitive.peg, Primitive.recognize]
    cases extension.matchLength? (rest.take extension.window) <;> rfl
  rw [extensionIn]
  cases hFound : (extension.matchLength? (rest.take extension.window)).map rest.take with
  | none =>
    rw [hFound] at hPattern
    exact ⟨.empty offset, Peg.orElse_of_unmatched hPattern, rfl⟩
  | some content =>
    rw [hFound] at hPattern
    exact ⟨_, Peg.orElse_of_matched hPattern, rfl⟩

/-- A number with what follows it as an extension. -/
structure IsNumber (symbols : Symbols) (extension : Pattern) (rest : List UInt8) (m : Match)
    (number : List UInt8) : Prop where
  tag_eq : m.tag = symbols.phoneNumber
  content_eq : m.content = number ++ extensionIn extension (rest.drop number.length)

variable (policy call) in
theorem phoneNumber_cases (symbols : Symbols) (extension : Pattern) (offset : Nat)
    (rest : List UInt8) :
    (∃ m number, LongestIn numbers rest (some number) ∧ IsNumber symbols extension rest m number ∧
        (phoneNumber symbols extension).peg policy call offset rest =
          some (.matched m m.content.length)) ∨
      LongestIn numbers rest none ∧
        (phoneNumber symbols extension).peg policy call offset rest = some .unmatched := by
  have hPhone : (phoneNumber symbols extension).peg policy call = fun offset =>
      (Peg.inTurn ((numberSteps symbols).map (Matcher.peg policy call) ++
        [(Matcher.optional (.primitive (.pattern extension))).peg policy call])).andThen (fun ms =>
          .success (.composite symbols.phoneNumber offset (ms.flatMap (·.content)) ms)) offset := rfl
  have hSteps : (Peg.inTurn ((numberSteps symbols).map (Matcher.peg policy call))).Finds
      (SpellEach [Predicate.asciiDigit.words ^ 3, hyphen, Predicate.asciiDigit.words ^ 3, hyphen,
        Predicate.asciiDigit.words ^ 4]) numbers := finds_numberSteps symbols
  rw [hPhone]
  dsimp only
  rw [Peg.inTurn_append, Peg.andThen_assoc]
  cases hSteps offset rest with
  | unmatched hRun hNone => exact .inr ⟨hNone, Peg.andThen_of_unmatched hRun⟩
  | matched ms number hRun hStands hLongest =>
    obtain ⟨m, hExtension, hContent⟩ : ∃ m : Match,
        (Matcher.optional (.primitive (.pattern extension))).peg policy call
            (offset + number.length) (rest.drop number.length) =
          some (.matched m (extensionIn extension (rest.drop number.length)).length) ∧
        m.content = extensionIn extension (rest.drop number.length) :=
      exists_extension extension _ _
    have hWord : (ms ++ [m]).flatMap (·.content) =
        number ++ extensionIn extension (rest.drop number.length) := by
      simp [hStands.2, hContent]
    refine .inl ⟨.composite symbols.phoneNumber offset ((ms ++ [m]).flatMap (·.content)) (ms ++ [m]),
      number, hLongest, ⟨rfl, hWord⟩, ?_⟩
    rw [Peg.andThen_of_matched hRun, Peg.andThen_assoc,
      Peg.andThen_of_matched (Peg.inTurn_singleton hExtension), Peg.success_andThen]
    simp only [Peg.success, Option.map_some, Verdict.behind, Match.composite, hWord,
      List.length_append, Nat.add_zero]

end Recognizers

/-- What is to be found in front of an input. -/
structure Recognized (extension : Pattern) (input : List UInt8) (found : Option Match) : Prop where
  isSome_iff : found.isSome = true ↔ ∃ word, word <+: input ∧ (word ∈ addresses ∨ word ∈ numbers)
  tag_eq : ∀ m, found = some m → m.tag = symbols.1.emailAddress ∨ m.tag = symbols.1.phoneNumber
  /-- An address is the longest one, and its groups are what stands before and after the one `@`. -/
  address : ∀ m, found = some m → m.tag = symbols.1.emailAddress →
    LongestIn addresses input (some m.content) ∧ m.content.count 64 = 1 ∧
      ∃ name domain, m.group? "local" = some name ∧ m.group? "domain" = some domain ∧
        m.content = name.content ++ asciiBytes "@" ++ domain.content
  /-- A number is the only one, with its extension if it has one. -/
  number : ∀ m, found = some m → m.tag = symbols.1.phoneNumber →
    ∃ number ∈ numbers, number <+: input ∧ (∀ other ∈ numbers, other <+: input → other = number) ∧
      m.content = number ++ extensionIn extension (input.drop number.length)
  /-- A number is preferred if it is at least as long as the longest address. -/
  number_iff : (∃ m, found = some m ∧ m.tag = symbols.1.phoneNumber) ↔
    ∃ number ∈ numbers, number <+: input ∧ ∀ address ∈ addresses, address <+: input →
      address.length ≤ (number ++ extensionIn extension (input.drop number.length)).length

section Results

variable {extension : Pattern} {input : List UInt8}

theorem tags_ne : symbols.1.emailAddress ≠ symbols.1.phoneNumber := by decide

theorem count_at_address {symbols : Symbols} {m : Match} {word : List UInt8}
    (hAddress : IsAddress symbols m word) : word.count 64 = 1 := by
  obtain ⟨name, domain, -, -, hName, hDomain, rfl⟩ := hAddress.exists_groups
  have hNone {part : List UInt8} (hPart : part ∈ dotAtoms) : part.count 64 = 0 := by
    rw [List.count_eq_zero]
    intro hMem
    have hAt : atom 64 = true ∨ (64 : UInt8) = 46 := madeOf_dotAtoms part hPart 64 hMem
    simp [atom_at] at hAt
  rw [List.count_append, List.count_append, hNone hName, hNone hDomain, asciiBytes_at]
  rfl

theorem Recognized.of_none (hNumber : LongestIn numbers input none)
    (hAddress : LongestIn addresses input none) : Recognized extension input none where
  isSome_iff := by
    refine iff_of_false Bool.false_ne_true ?_
    rintro ⟨word, hPrefix, hWord | hWord⟩
    · exact hAddress word hWord hPrefix
    · exact hNumber word hWord hPrefix
  tag_eq m hFound := by cases hFound
  address m hFound := by cases hFound
  number m hFound := by cases hFound
  number_iff := by
    refine iff_of_false ?_ ?_
    · rintro ⟨m, hFound, -⟩
      cases hFound
    · rintro ⟨number, hWord, hPrefix, -⟩
      exact hNumber number hWord hPrefix

theorem Recognized.of_number {m : Match} {number : List UInt8}
    (hLongest : LongestIn numbers input (some number))
    (hNumber : IsNumber symbols.1 extension input m number)
    (hAddress : ∀ address ∈ addresses, address <+: input → address.length ≤ m.content.length) :
    Recognized extension input (some m) where
  isSome_iff := iff_of_true rfl ⟨number, hLongest.2.1, .inr hLongest.1⟩
  tag_eq m' hFound := by
    obtain rfl := Option.some.inj hFound
    exact .inr hNumber.tag_eq
  address m' hFound hTag := by
    obtain rfl := Option.some.inj hFound
    exact absurd (hTag.symm.trans hNumber.tag_eq) tags_ne
  number m' hFound _ := by
    obtain rfl := Option.some.inj hFound
    exact ⟨number, hLongest.1, hLongest.2.1,
      fun other hOther hPrefix => hLongest.eq_of_prefixFree prefixFree_numbers hOther hPrefix,
      hNumber.content_eq⟩
  number_iff := by
    refine iff_of_true ⟨m, rfl, hNumber.tag_eq⟩ ⟨number, hLongest.1, hLongest.2.1, ?_⟩
    rw [← hNumber.content_eq]
    exact hAddress

theorem Recognized.of_address {m : Match} {word : List UInt8}
    (hLongest : LongestIn addresses input (some word)) (hAddress : IsAddress symbols.1 m word)
    (hNumber : ∀ number ∈ numbers, number <+: input →
      (number ++ extensionIn extension (input.drop number.length)).length < word.length) :
    Recognized extension input (some m) where
  isSome_iff := iff_of_true rfl ⟨word, hLongest.2.1, .inl hLongest.1⟩
  tag_eq m' hFound := by
    obtain rfl := Option.some.inj hFound
    exact .inl hAddress.tag_eq
  address m' hFound _ := by
    obtain rfl := Option.some.inj hFound
    obtain ⟨name, domain, hLocal, hDomain, -, -, hWord⟩ := hAddress.exists_groups
    rw [hAddress.content_eq]
    exact ⟨hLongest, count_at_address hAddress, name, domain, hLocal, hDomain, hWord⟩
  number m' hFound hTag := by
    obtain rfl := Option.some.inj hFound
    exact absurd (hAddress.tag_eq.symm.trans hTag) tags_ne
  number_iff := by
    refine iff_of_false ?_ ?_
    · rintro ⟨m', hFound, hTag⟩
      obtain rfl := Option.some.inj hFound
      exact tags_ne (hAddress.tag_eq.symm.trans hTag)
    · rintro ⟨number, hWord, hPrefix, hLonger⟩
      exact absurd (hLonger word hLongest.1 hLongest.2.1)
        (Nat.not_le.2 (hNumber number hWord hPrefix))

theorem exists_recognized (policy : DecodePolicy) (call : String → Peg Match) (extension : Pattern)
    (offset : Nat) (input : List UInt8) :
    ∃ found : Option Match, Recognized extension input found ∧
      (contact symbols.1 extension).peg policy call offset input =
        some (found.elim .unmatched fun m => .matched m m.content.length) := by
  have hAddress : ((emailAddress symbols.1).peg policy call).Finds (IsAddress symbols.1) addresses :=
    finds_emailAddress symbols.1
  have hContact : (contact symbols.1 extension).peg policy call =
      Peg.best none [(phoneNumber symbols.1 extension).peg policy call,
        (emailAddress symbols.1).peg policy call] := rfl
  rw [hContact]
  rcases phoneNumber_cases policy call symbols.1 extension offset input with
    ⟨m, number, hNumber, hIsNumber, hRun⟩ | ⟨hNone, hRun⟩
  · rw [Peg.best_of_matched hRun, Option.all_none, if_pos rfl]
    cases hAddress offset input with
    | matched m' word hRun' hIsAddress hLongest =>
      obtain rfl := hIsAddress.content_eq
      rw [Peg.best_of_matched hRun']
      by_cases hLess : m.content.length < m'.content.length
      · refine ⟨some m', .of_address hLongest hIsAddress ?_, if_pos (decide_eq_true hLess)⟩
        intro other hOther hPrefix
        obtain rfl := hNumber.eq_of_prefixFree prefixFree_numbers hOther hPrefix
        rwa [← hIsNumber.content_eq]
      · refine ⟨some m, .of_number hNumber hIsNumber ?_,
          if_neg fun hLonger => hLess (of_decide_eq_true hLonger)⟩
        intro address hMem hPrefix
        exact (hLongest.2.2 address hMem hPrefix).trans (Nat.not_lt.1 hLess)
    | unmatched hRun' hNone =>
      refine ⟨some m, .of_number hNumber hIsNumber ?_, Peg.best_of_unmatched hRun'⟩
      exact fun address hMem hPrefix => absurd hPrefix (hNone address hMem)
  · rw [Peg.best_of_unmatched hRun]
    cases hAddress offset input with
    | matched m word hRun' hIsAddress hLongest =>
      obtain rfl := hIsAddress.content_eq
      rw [Peg.best_of_matched hRun', Option.all_none, if_pos rfl]
      refine ⟨some m, .of_address hLongest hIsAddress ?_, rfl⟩
      exact fun number hMem hPrefix => absurd hPrefix (hNone number hMem)
    | unmatched hRun' hNone' =>
      exact ⟨none, .of_none hNone hNone', Peg.best_of_unmatched hRun'⟩

/-- The window of the pattern that the grammar is built with. -/
theorem window_of_extension {library : Regex.Library} {symbols : Symbols}
    (hExtension : Contact.extension library symbols = .ok extension) :
    extension.window = 16 := by
  rw [Contact.extension, Pattern.compile] at hExtension
  generalize library.compile _ = compiled at hExtension
  cases compiled with
  | error defect => cases hExtension
  | ok regex =>
    cases hExtension
    rfl

/-- What the grammar of contacts makes of the start of a source, however this delivers its content,
whatever the library that its pattern is compiled by. It finds something if and only if an address
or a number stands there. -/
theorem recognized_contact {library : Regex.Library}
    (hExtension : Contact.extension library symbols.1 = .ok extension) (config : Config)
    {source : Source} (hCalm : source.Calm) (traced : Bool) :
    extension.window = 16 ∧
      Leads (Grammar.parse {} (contact symbols.1 extension))
        { window := .ofSource source config, cursor := { position := 0, traced } }
        (fun found _ => Recognized extension source.content found) (fun _ _ => False) := by
  refine ⟨window_of_extension hExtension, ?_⟩
  have hReady : Reader.Ready source.content config.policy
      { window := .ofSource source config, cursor := { position := 0, traced } } :=
    ⟨Window.over_content config source, hCalm, rfl, Nat.le_refl _, Nat.zero_le _⟩
  obtain ⟨found, hRecognized, hRun⟩ := exists_recognized config.policy
    (({} : Grammar).peg config.policy 0) extension 0 source.content
  apply (({} : Grammar).leads_parse_found _ hReady hRun).mono
  · rintro result - rfl
    exact hRecognized
  · exact fun _ _ h => h

theorem exists_extension_ok :
    ∃ extension, Contact.extension Regex.engine symbols.1 = .ok extension := by
  have hOk : (Contact.extension Regex.engine symbols.1).isOk = true := by cbv
  cases hExtension : Contact.extension Regex.engine symbols.1 with
  | error defect =>
    rw [hExtension] at hOk
    cases hOk
  | ok extension => exact ⟨extension, rfl⟩

/-- An address that ends before a dot, in a stream that is delivered with an interruption. -/
theorem recognized_contact_address :
    ∃ extension, Contact.extension Regex.engine symbols.1 = .ok extension ∧
      Leads (Grammar.parse {} (contact symbols.1 extension))
        { window := .ofSource ⟨[.data [97, 64], .failure .interrupted "again", .data [98, 46]]⟩
          cursor := { position := 0, traced := true } }
        (fun found _ => Recognized extension [97, 64, 98, 46] found ∧
          found.map (·.content) = some [97, 64, 98])
        (fun _ _ => False) := by
  obtain ⟨extension, hExtension⟩ := exists_extension_ok
  have hCalm : Source.Calm ⟨[.data [97, 64], .failure .interrupted "again", .data [98, 46]]⟩ := by
    simp [Source.Calm]
  have hRun : Leads (Grammar.parse {} (contact symbols.1 extension))
      { window := .ofSource ⟨[.data [97, 64], .failure .interrupted "again", .data [98, 46]]⟩
        cursor := { position := 0, traced := true } }
      (fun found _ => found.map (·.content) = some [97, 64, 98]) (fun _ _ => False) := by
    unfold Leads
    cbv
  obtain ⟨-, hRecognized⟩ := recognized_contact hExtension default hCalm true
  exact ⟨extension, hExtension, (hRecognized.and hRun).mono (fun _ _ h => h) fun _ _ h => h.1⟩

end Results

end StreamMatch.Contact
