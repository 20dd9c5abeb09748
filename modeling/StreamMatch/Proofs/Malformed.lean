import StreamMatch.Proofs.DecodingStops

/-!
Where the two policies differ. The strict one refuses the first byte that the lenient one replaces,
and makes the same of bytes of which none is replaced (`Utf8.sifted_decode`). So it is with runs of
code points, which decode one at a time (`UnitRun.sifted_acceptedChars`). A replacement that stands
in the stream as a character of its own is none that is made.
-/

namespace StreamMatch

/-- The first of the places that are marked. -/
structure IsFirst (marked : Nat → Prop) (place : Nat) : Prop where
  marks : marked place
  le : ∀ other, marked other → place ≤ other

/-- What the strict policy makes of bytes of which the lenient one makes `value`: the same, if there
are no places that are marked, and otherwise it refuses the first of them. -/
inductive Sifted {α : Type} (marked : Nat → Prop) (offset : Nat) (value : α) :
    Except Fault α → Prop where
  | clean (hClean : ∀ place, ¬ marked place) : Sifted marked offset value (.ok value)
  | refused {place : Nat} (hFirst : IsFirst marked place) :
    Sifted marked offset value (.error (.invalidUtf8 (offset + place)))

namespace Utf8

variable {passed : List Char → Prop} {offset count place length : Nat} {byte : UInt8}
  {bytes rest : List UInt8} {c : Char} {chars : List Char}

/-- Behind characters of which `passed` holds there is a byte at this place at which no character
starts. -/
def MalformedAfter (passed : List Char → Prop) (bytes : List UInt8) (place : Nat) : Prop :=
  ∃ chars, passed chars ∧ Segmented bytes chars place ∧ place < bytes.length ∧
    ¬ StartsCharacter (bytes.drop place)

/-- Among these characters, decoded from these bytes, there is a replacement for the byte at this
place. -/
def ReplacedAt (chars : List Char) (bytes : List UInt8) (place : Nat) : Prop :=
  MalformedAfter (fun front => ∃ behind, chars = front ++ replacement :: behind) bytes place

/-- What is decoded of bytes that begin with a character begins with it. -/
theorem Segmented.character_cases
    (hSegmented : Segmented (String.utf8EncodeChar c ++ rest) chars length) :
    chars = [] ∧ length = 0 ∨
      ∃ others more, chars = c :: others ∧ length = (String.utf8EncodeChar c).length + more ∧
        Segmented rest others more := by
  generalize hBytes : String.utf8EncodeChar c ++ rest = bytes at hSegmented
  cases hSegmented with
  | nil => exact .inl ⟨rfl, rfl⟩
  | @spelled other rest' others more hRest =>
    obtain rfl := eq_of_utf8EncodeChar_append hBytes
    obtain rfl := List.append_cancel_left hBytes
    exact .inr ⟨others, more, rfl, rfl, hRest⟩
  | replaced hMalformed hRest => exact absurd ⟨c, rest, hBytes.symm⟩ hMalformed

theorem not_malformedAfter_nil : ¬ MalformedAfter passed [] place := by
  intro hMalformed
  obtain ⟨chars, -, -, hPlace, -⟩ := hMalformed
  cases hPlace

theorem malformedAfter_character :
    MalformedAfter passed (String.utf8EncodeChar c ++ rest) place ↔
      ∃ more, place = (String.utf8EncodeChar c).length + more ∧
        MalformedAfter (fun chars => passed (c :: chars)) rest more := by
  constructor
  · intro hMalformed
    obtain ⟨chars, hPassed, hChars, hPlace, hNone⟩ := hMalformed
    rcases hChars.character_cases with ⟨rfl, rfl⟩ | ⟨others, more, rfl, rfl, hOthers⟩
    · exact absurd ⟨c, rest, rfl⟩ hNone
    · rw [List.length_append] at hPlace
      rw [List.drop_length_add_append] at hNone
      exact ⟨more, rfl, others, hPassed, hOthers, by omega, hNone⟩
  · intro hMalformed
    obtain ⟨more, rfl, others, hPassed, hOthers, hPlace, hNone⟩ := hMalformed
    refine ⟨c :: others, hPassed, .spelled c hOthers, ?_, ?_⟩
    · rw [List.length_append]
      omega
    · rwa [List.drop_length_add_append]

section Sifting

variable {α β : Type} {value : α} {result : Except Fault α}

theorem sifted_nil : Sifted (MalformedAfter passed []) offset value (.ok value) :=
  .clean fun _ => not_malformedAfter_nil

/-- A byte that is malformed is the first one, if nothing comes before it. -/
theorem sifted_malformed (hPassed : passed []) (hMalformed : ¬ StartsCharacter (byte :: rest)) :
    Sifted (MalformedAfter passed (byte :: rest)) offset value (.error (.invalidUtf8 offset)) := by
  have hFirst : IsFirst (MalformedAfter passed (byte :: rest)) 0 :=
    ⟨⟨[], hPassed, .nil _, Nat.zero_lt_succ _, hMalformed⟩, fun _ _ => Nat.zero_le _⟩
  exact .refused hFirst

/-- A character in front moves all places on. -/
theorem sifted_character (change : α → β)
    (hRest : Sifted (MalformedAfter (fun chars => passed (c :: chars)) rest)
      (offset + (String.utf8EncodeChar c).length) value result) :
    Sifted (MalformedAfter passed (String.utf8EncodeChar c ++ rest)) offset (change value)
      (change <$> result) := by
  cases hRest with
  | clean hClean =>
    apply Sifted.clean
    intro place hPlace
    obtain ⟨more, -, hMore⟩ := malformedAfter_character.1 hPlace
    exact hClean more hMore
  | @refused place hFirst =>
    have hHere : IsFirst (MalformedAfter passed (String.utf8EncodeChar c ++ rest))
        ((String.utf8EncodeChar c).length + place) := by
      constructor
      · exact malformedAfter_character.2 ⟨place, rfl, hFirst.marks⟩
      · intro other hOther
        obtain ⟨more, rfl, hMore⟩ := malformedAfter_character.1 hOther
        exact Nat.add_le_add_left (hFirst.le more hMore) _
    rw [Nat.add_assoc]
    exact .refused hHere

end Sifting

/-- The strict policy refuses the first byte that the lenient one replaces. Where there is none,
both decode the characters that the bytes spell. -/
theorem sifted_decode (offset count : Nat) (bytes : List UInt8) :
    ∃ decoded, decode .lenient offset count bytes = .ok decoded ∧
      Sifted (ReplacedAt decoded.chars bytes) offset decoded (decode .strict offset count bytes) ∧
      ((∀ place, ¬ ReplacedAt decoded.chars bytes place) →
        encode decoded.chars = bytes.take decoded.length) := by
  induction count generalizing offset bytes with
  | zero =>
    refine ⟨.nil, rfl, .clean ?_, fun _ => by simp [Decoded.nil]⟩
    intro place hPlace
    obtain ⟨front, ⟨behind, hChars⟩, -⟩ := hPlace
    simp [Decoded.nil] at hChars
  | succ count ih =>
    cases Front.of bytes with
    | nil => exact ⟨.nil, rfl, sifted_nil, fun _ => rfl⟩
    | character c rest =>
      obtain ⟨later, hLater, hSifted, hSpelled⟩ :=
        ih (offset + (String.utf8EncodeChar c).length) rest
      have hHead (chars : List Char) :
          (fun front => ∃ behind, c :: chars = c :: front ++ replacement :: behind) =
            fun front => ∃ behind, chars = front ++ replacement :: behind := by
        simp
      refine ⟨later.cons c (String.utf8EncodeChar c).length, ?_, ?_, ?_⟩
      · rw [decode_character, hLater]
        rfl
      · rw [decode_character]
        apply sifted_character (Decoded.cons c (String.utf8EncodeChar c).length)
        simp only [Decoded.cons, hHead]
        exact hSifted
      · intro hClean
        have hRest : ∀ place, ¬ ReplacedAt later.chars rest place := by
          intro place hPlace
          apply hClean ((String.utf8EncodeChar c).length + place)
          apply malformedAfter_character.2
          simp only [Decoded.cons, hHead]
          exact ⟨place, rfl, hPlace⟩
        simp only [Decoded.cons, encode_cons, hSpelled hRest, List.take_length_add_append]
    | @malformed byte rest hMalformed =>
      obtain ⟨behind, length, hDecode⟩ := exists_decode_malformed offset count hMalformed
      have hPassed : ∃ after, replacement :: behind = [] ++ replacement :: after := ⟨behind, rfl⟩
      refine ⟨_, hDecode, ?_, ?_⟩
      · rw [decode_strict_malformed hMalformed]
        exact sifted_malformed hPassed hMalformed
      · intro hClean
        exact absurd ⟨[], hPassed, .nil _, Nat.zero_lt_succ _, hMalformed⟩ (hClean 0)

/-- The longest run of accepted code points in front of these bytes, but of no more than `most` of
them. -/
structure LongestRun (accepts : Predicate Char) (most : Nat) (bytes : List UInt8)
    (chars : List Char) (length : Nat) : Prop where
  segmented : Segmented bytes chars length
  accepted : ∀ c ∈ chars, accepts c = true
  le_most : chars.length ≤ most
  ends : chars.length = most ∨
    ∀ c more, Segmented bytes (chars ++ [c]) more → accepts c = false

theorem Segmented.length_le (hSegmented : Segmented bytes chars length) :
    length ≤ bytes.length := by
  induction hSegmented with
  | nil bytes => exact Nat.zero_le _
  | spelled c hRest ih =>
    rw [List.length_append]
    omega
  | replaced hMalformed hRest ih =>
    rw [List.length_cons]
    omega

theorem Segmented.eq_nil (hSegmented : Segmented [] chars length) : chars = [] := by
  generalize hBytes : ([] : List UInt8) = bytes at hSegmented
  cases hSegmented with
  | nil => rfl
  | spelled c hRest =>
    exact absurd (List.append_eq_nil_iff.1 hBytes.symm).1 String.utf8EncodeChar_ne_nil
  | replaced hMalformed hRest => cases hBytes

/-- A byte at which no character starts is replaced, if anything is decoded. -/
theorem Segmented.malformed_cases (hMalformed : ¬ StartsCharacter (byte :: rest))
    (hSegmented : Segmented (byte :: rest) chars length) :
    chars = [] ∧ length = 0 ∨
      ∃ others more, chars = replacement :: others ∧ length = 1 + more ∧
        Segmented rest others more := by
  generalize hBytes : byte :: rest = bytes at hSegmented
  cases hSegmented with
  | nil => exact .inl ⟨rfl, rfl⟩
  | spelled c hRest => exact absurd ⟨c, _, hBytes⟩ hMalformed
  | @replaced other rest' others more hNone hRest =>
    obtain ⟨rfl, rfl⟩ := List.cons.inj hBytes
    exact .inr ⟨others, more, rfl, rfl, hRest⟩

/-- The first code point that is decoded of these bytes: it spans `width` of them, and what is
decoded behind it is what is decoded of `rest`. -/
structure Opens (c : Char) (width : Nat) (rest bytes : List UInt8) : Prop where
  segmented : ∀ {chars : List Char} {length : Nat}, Segmented rest chars length →
    Segmented bytes (c :: chars) (width + length)
  cases : ∀ {chars : List Char} {length : Nat}, Segmented bytes chars length →
    chars = [] ∧ length = 0 ∨
      ∃ others more, chars = c :: others ∧ length = width + more ∧ Segmented rest others more

theorem opens_character (c : Char) (rest : List UInt8) :
    Opens c (String.utf8EncodeChar c).length rest (String.utf8EncodeChar c ++ rest) :=
  ⟨.spelled c, Segmented.character_cases⟩

theorem opens_malformed (hMalformed : ¬ StartsCharacter (byte :: rest)) :
    Opens replacement 1 rest (byte :: rest) :=
  ⟨.replaced hMalformed, Segmented.malformed_cases hMalformed⟩

namespace Opens

variable {accepts : Predicate Char} {most width : Nat}

/-- A run ends in front of the first code point, if that one is not accepted. -/
theorem longestRun_nil (hOpens : Opens c width rest bytes) (hRejects : ¬ accepts c = true) :
    LongestRun accepts most bytes [] 0 := by
  refine ⟨.nil bytes, by simp, Nat.zero_le most, .inr ?_⟩
  intro other more hOther
  rcases hOpens.cases hOther with ⟨hNil, -⟩ | ⟨others, further, hOthers, -, -⟩
  · cases hNil
  · obtain rfl := (List.cons.inj hOthers).1
    exact Bool.eq_false_iff.2 hRejects

/-- A run takes the first code point, if that one is accepted, and goes on behind it. -/
theorem longestRun_cons (hOpens : Opens c width rest bytes) (hAccepts : accepts c = true)
    (hLongest : LongestRun accepts most rest chars length) :
    LongestRun accepts (most + 1) bytes (c :: chars) (width + length) := by
  refine ⟨hOpens.segmented hLongest.segmented, ?_, Nat.succ_le_succ hLongest.le_most, ?_⟩
  · simpa [hAccepts] using hLongest.accepted
  · apply hLongest.ends.imp (congrArg Nat.succ)
    intro hEnds other more hOther
    rcases hOpens.cases hOther with ⟨hNil, -⟩ | ⟨others, further, hOthers, -, hRest⟩
    · cases hNil
    · obtain rfl := (List.cons.inj hOthers).2
      exact hEnds other further hRest

end Opens

end Utf8

namespace UnitRun

open Utf8

variable {run : CharRun} {offset allowed count length : Nat} {byte : UInt8}
  {bytes rest : List UInt8} {c : Char} {chars : List Char}

section Steps

theorem acceptedChars_nil (run : CharRun) (policy : DecodePolicy) (offset allowed : Nat) :
    run.acceptedChars policy offset allowed [] = .ok (0, []) := by
  cases allowed <;> rfl

theorem acceptedChars_character (run : CharRun) (policy : DecodePolicy) (offset allowed : Nat)
    (c : Char) (rest : List UInt8) :
    run.acceptedChars policy offset (allowed + 1) (String.utf8EncodeChar c ++ rest) =
      if run.accepts c then
        counted (String.utf8EncodeChar c) <$>
          run.acceptedChars policy (offset + (String.utf8EncodeChar c).length) allowed rest
      else .ok (0, []) := by
  have hDecode : decode policy offset 1 (String.utf8EncodeChar c ++ rest) =
      .ok ⟨[c], (String.utf8EncodeChar c).length⟩ := by
    rw [decode_character]
    rfl
  rw [acceptedChars, hDecode]
  simp only [bind, Except.bind, List.drop_left, List.take_left]
  split
  · cases run.acceptedChars policy (offset + (String.utf8EncodeChar c).length) allowed rest <;> rfl
  · rfl

theorem acceptedChars_malformed (run : CharRun) (offset allowed : Nat)
    (hMalformed : ¬ StartsCharacter (byte :: rest)) :
    run.acceptedChars .lenient offset (allowed + 1) (byte :: rest) =
      if run.accepts replacement then
        counted [byte] <$> run.acceptedChars .lenient (offset + 1) allowed rest
      else .ok (0, []) := by
  rw [acceptedChars, decode_one_malformed offset hMalformed]
  simp only [bind, Except.bind, List.drop_succ_cons, List.drop_zero, List.take_succ_cons,
    List.take_zero]
  split
  · cases run.acceptedChars .lenient (offset + 1) allowed rest <;> rfl
  · rfl

theorem acceptedChars_strict_malformed (run : CharRun) (offset allowed : Nat)
    (hMalformed : ¬ StartsCharacter (byte :: rest)) :
    run.acceptedChars .strict offset (allowed + 1) (byte :: rest) =
      .error (.invalidUtf8 offset) := by
  rw [acceptedChars, decode_strict_malformed hMalformed]
  rfl

end Steps

/-- Under the lenient policy a run takes as many code points as there are. -/
theorem exists_longestRun (run : CharRun) (offset allowed : Nat) (bytes : List UInt8) :
    ∃ chars length,
      run.acceptedChars .lenient offset allowed bytes = .ok (chars.length, bytes.take length) ∧
      LongestRun run.accepts allowed bytes chars length := by
  induction allowed generalizing offset bytes with
  | zero => exact ⟨[], 0, rfl, .nil _, by simp, Nat.le_refl _, .inl rfl⟩
  | succ allowed ih =>
    cases Front.of bytes with
    | nil =>
      refine ⟨[], 0, acceptedChars_nil run .lenient offset _, .nil _, by simp, Nat.zero_le _,
        .inr ?_⟩
      intro c more hMore
      cases hMore.eq_nil
    | character c rest =>
      rw [acceptedChars_character]
      split
      · next hAccepts =>
        obtain ⟨chars, length, hChars, hLongest⟩ :=
          ih (offset + (String.utf8EncodeChar c).length) rest
        refine ⟨c :: chars, (String.utf8EncodeChar c).length + length, ?_,
          (opens_character c rest).longestRun_cons hAccepts hLongest⟩
        rw [hChars, List.take_length_add_append]
        rfl
      · next hRejects => exact ⟨[], 0, rfl, (opens_character c rest).longestRun_nil hRejects⟩
    | @malformed byte rest hMalformed =>
      rw [acceptedChars_malformed run offset allowed hMalformed]
      split
      · next hAccepts =>
        obtain ⟨chars, length, hChars, hLongest⟩ := ih (offset + 1) rest
        refine ⟨replacement :: chars, 1 + length, ?_,
          (opens_malformed hMalformed).longestRun_cons hAccepts hLongest⟩
        rw [hChars, Nat.add_comm 1 length, List.take_succ_cons]
        rfl
      · next hRejects => exact ⟨[], 0, rfl, (opens_malformed hMalformed).longestRun_nil hRejects⟩

/-- A run that has taken these characters may take another one. -/
def Passes (run : CharRun) (allowed : Nat) (chars : List Char) : Prop :=
  chars.length < allowed ∧ ∀ c ∈ chars, run.accepts c = true

/-- The strict policy refuses the first byte that a run decodes as a replacement under the lenient
one, whether or not the run takes it. -/
theorem sifted_acceptedChars (run : CharRun) (offset allowed : Nat) (bytes : List UInt8) :
    ∃ found, run.acceptedChars .lenient offset allowed bytes = .ok found ∧
      Sifted (MalformedAfter (run.Passes allowed) bytes) offset found
        (run.acceptedChars .strict offset allowed bytes) := by
  induction allowed generalizing offset bytes with
  | zero =>
    refine ⟨(0, []), rfl, .clean ?_⟩
    intro place hPlace
    obtain ⟨chars, ⟨hLess, -⟩, -⟩ := hPlace
    cases hLess
  | succ allowed ih =>
    cases Front.of bytes with
    | nil => exact ⟨(0, []), rfl, sifted_nil⟩
    | character c rest =>
      rw [acceptedChars_character, acceptedChars_character]
      split
      · next hAccepts =>
        obtain ⟨later, hLater, hSifted⟩ := ih (offset + (String.utf8EncodeChar c).length) rest
        have hHead : (fun chars => run.Passes (allowed + 1) (c :: chars)) = run.Passes allowed := by
          funext chars
          simp [Passes, hAccepts]
        refine ⟨counted (String.utf8EncodeChar c) later, by rw [hLater]; rfl, ?_⟩
        apply sifted_character (counted (String.utf8EncodeChar c))
        rw [hHead]
        exact hSifted
      · next hRejects =>
        refine ⟨(0, []), rfl, .clean ?_⟩
        intro place hPlace
        obtain ⟨more, -, chars, ⟨-, hAll⟩, -⟩ := malformedAfter_character.1 hPlace
        exact hRejects (hAll c List.mem_cons_self)
    | @malformed byte rest hMalformed =>
      have hPassed : run.Passes (allowed + 1) [] := ⟨Nat.zero_lt_succ allowed, by simp⟩
      obtain ⟨chars, length, hFound, -⟩ := exists_longestRun run offset (allowed + 1) (byte :: rest)
      refine ⟨_, hFound, ?_⟩
      rw [acceptedChars_strict_malformed run offset allowed hMalformed]
      exact sifted_malformed hPassed hMalformed

/-- A run takes characters that it accepts, if there may be so many. -/
theorem acceptedChars_of_segmented (offset : Nat) (hChars : Segmented bytes chars length)
    (hAccepts : ∀ c ∈ chars, run.accepts c = true) :
    run.acceptedChars .lenient offset chars.length bytes =
      .ok (chars.length, bytes.take length) := by
  induction hChars generalizing offset with
  | nil bytes => rfl
  | @spelled c rest chars length hRest ih =>
    have hLater := ih (offset + (String.utf8EncodeChar c).length)
      fun other hOther => hAccepts other (List.mem_cons_of_mem _ hOther)
    rw [List.length_cons, acceptedChars_character, if_pos (hAccepts c List.mem_cons_self), hLater,
      List.take_length_add_append]
    rfl
  | @replaced byte rest chars length hMalformed hRest ih =>
    have hLater := ih (offset + 1)
      fun other hOther => hAccepts other (List.mem_cons_of_mem _ hOther)
    rw [List.length_cons, acceptedChars_malformed run offset _ hMalformed,
      if_pos (hAccepts replacement List.mem_cons_self), hLater, Nat.add_comm 1 length,
      List.take_succ_cons]
    rfl

end UnitRun

section Runs

open Utf8

variable {run : CharRun} {stream : List UInt8} {reader : Reader}

/-- A run at this reader comes to decode a byte of the stream at which no character starts: it may
take one more code point, and the next one is there. -/
def Reader.Replaces (run : CharRun) (stream : List UInt8) (reader : Reader) (place : Nat) : Prop :=
  place < stream.length ∧ ¬ StartsCharacter (stream.drop place) ∧
    ∃ count bytes after, count < run.most ∧ run.takeChars count reader = .ok (count, bytes) after ∧
      after.cursor.position = place

namespace Reader

/-- What a run takes at a reader is what the bytes of the stream say. -/
theorem Ready.leads_takeChars {policy : DecodePolicy} (hReady : reader.Ready stream policy)
    (run : CharRun) (allowed : Nat) :
    Leads (run.takeChars allowed) reader
      (fun found after =>
        run.acceptedChars policy reader.cursor.position allowed
          (stream.drop reader.cursor.position) = .ok found ∧
        after.cursor.position = reader.cursor.position + found.2.length)
      (fun halt _ => ∃ fault, halt = .fault fault ∧
        run.acceptedChars policy reader.cursor.position allowed
          (stream.drop reader.cursor.position) = .error fault) := by
  have hScan := (run.scans_takeChars allowed).leads_calm hReady.lies_over hReady.calm
    hReady.start_le
  rw [hReady.policy_eq] at hScan
  cases hAccepted : run.acceptedChars policy reader.cursor.position allowed
    (stream.drop reader.cursor.position) with
  | error fault =>
    rw [hAccepted] at hScan
    apply hScan.mono
    · intro found after hFound
      obtain ⟨moved, hLook, -⟩ := hFound
      cases hLook
    · intro halt after hHalts
      obtain ⟨other, rfl, hFault⟩ := hHalts
      cases hFault
      exact ⟨fault, rfl, rfl⟩
  | ok found =>
    rw [hAccepted] at hScan
    apply hScan.mono
    · intro other after hFound
      obtain ⟨moved, hLook, hMoved⟩ := hFound
      cases hLook
      exact ⟨rfl, hMoved⟩
    · intro halt after hHalts
      obtain ⟨fault, -, hFault⟩ := hHalts
      cases hFault

/-- A run comes to decode just the malformed bytes that stand behind what it may take. -/
theorem Ready.replaces_iff (hReady : reader.Ready stream .lenient) (run : CharRun) (place : Nat) :
    reader.Replaces run stream place ↔
      ∃ more, place = reader.cursor.position + more ∧
        MalformedAfter (run.Passes run.most) (stream.drop reader.cursor.position) more := by
  constructor
  · intro hReplaces
    obtain ⟨hPlace, hMalformed, count, bytes, after, hCount, hRun, rfl⟩ := hReplaces
    obtain ⟨hTaken, hMoved⟩ := (hReady.leads_takeChars run count).of_ok hRun
    obtain ⟨chars, length, hFound, hLongest⟩ :=
      run.exists_longestRun reader.cursor.position count (stream.drop reader.cursor.position)
    cases hTaken.symm.trans hFound
    rw [List.length_take, Nat.min_eq_left hLongest.segmented.length_le] at hMoved
    rw [hMoved] at hPlace hMalformed
    refine ⟨length, hMoved, chars, ⟨hCount, hLongest.accepted⟩, hLongest.segmented, ?_, ?_⟩
    · rw [List.length_drop]
      omega
    · rwa [List.drop_drop]
  · intro hAfter
    obtain ⟨more, rfl, chars, ⟨hCount, hAccepts⟩, hChars, hPlace, hMalformed⟩ := hAfter
    have hTaken := UnitRun.acceptedChars_of_segmented reader.cursor.position hChars hAccepts
    have hRun := hReady.leads_takeChars run chars.length
    rw [hTaken] at hRun
    rw [List.length_drop] at hPlace
    rw [List.drop_drop] at hMalformed
    cases hOutcome : run.takeChars chars.length reader with
    | error halt after =>
      obtain ⟨fault, -, hFault⟩ := hRun.of_error hOutcome
      cases hFault
    | ok found after =>
      obtain ⟨hFound, hMoved⟩ := hRun.of_ok hOutcome
      cases hFound
      rw [List.length_take, List.length_drop, Nat.min_eq_left (by omega)] at hMoved
      exact ⟨by omega, hMalformed, chars.length, _, after, hCount, hOutcome, hMoved⟩

/-- The first place at which a run comes to decode a malformed byte. -/
theorem Ready.isFirst_replaces (hReady : reader.Ready stream .lenient) {run : CharRun} {place : Nat}
    (hFirst : IsFirst (MalformedAfter (run.Passes run.most) (stream.drop reader.cursor.position))
      place) :
    IsFirst (reader.Replaces run stream) (reader.cursor.position + place) := by
  constructor
  · exact (hReady.replaces_iff run _).2 ⟨place, rfl, hFirst.marks⟩
  · intro other hOther
    obtain ⟨more, rfl, hMore⟩ := (hReady.replaces_iff run other).1 hOther
    exact Nat.add_le_add_left (hFirst.le more hMore) _

end Reader

namespace Primitive

/-- An attempt at a cursor in the window comes to what is recognized there, and no read fails. -/
theorem leads_attempt_ready {policy : DecodePolicy} (primitive : Primitive)
    (hReady : reader.Ready stream policy) :
    Leads primitive.attempt reader
      (fun found after => ∃ content?,
        primitive.recognize policy reader.cursor.position (stream.drop reader.cursor.position) =
          .ok content? ∧
        found = content?.map (Match.leaf primitive.tag · reader.cursor.position) ∧
        after.cursor.position = reader.cursor.position + (content?.getD []).length)
      (fun halt _ => ∃ fault, halt = .fault fault ∧
        primitive.recognize policy reader.cursor.position (stream.drop reader.cursor.position) =
          .error fault) := by
  rw [← hReady.policy_eq]
  apply (primitive.leads_attempt hReady.lies_over).mono
  · intro found after hFound
    obtain ⟨content?, hContent, hMatch, hCursor, -⟩ := hFound
    exact ⟨content?, hContent, hMatch, by rw [hCursor]⟩
  · intro halt after hHalts
    obtain ⟨fault, hHalt, hCases⟩ := hHalts
    refine ⟨fault, hHalt, ?_⟩
    rcases hCases with hStale | hFails | hFault
    · exact absurd hReady.start_le (Nat.not_le.2 hStale)
    · exact absurd hReady.calm hFails
    · exact hFault

/-- Where no byte is replaced a run is the same under both policies. -/
theorem sifted_recognize (run : CharRun) (offset : Nat) (bytes : List UInt8) :
    ∃ content?, (Primitive.chars run).recognize .lenient offset bytes = .ok content? ∧
      Sifted (MalformedAfter (run.Passes run.most) bytes) offset content?
        ((Primitive.chars run).recognize .strict offset bytes) := by
  obtain ⟨found, hFound, hSifted⟩ := run.sifted_acceptedChars offset run.most bytes
  refine ⟨if found.1 < run.least then none else some found.2, ?_, ?_⟩
  · rw [recognize, hFound]
    rfl
  · rw [recognize]
    generalize run.acceptedChars .strict offset run.most bytes = result at hSifted
    cases hSifted with
    | clean hClean => exact .clean hClean
    | refused hFirst => exact .refused hFirst

end Primitive

/-- The strict policy refuses the first byte that the lenient one replaces, and where none is
replaced both come to the same. In a window this is said of the characters that are decoded, which
spell the bytes if none of them is a replacement that was made. Of a run of code points it is said
of all that the run decodes, also of the code point that it does not take. -/
theorem strict_refuses_replaced {strict lenient : Reader} (hStrict : strict.Ready stream .strict)
    (hLenient : lenient.Ready stream .lenient) (hStart : strict.window.start = lenient.window.start)
    (hPosition : strict.cursor.position = lenient.cursor.position) :
    (∀ offset count,
      let bytes := stream.drop (lenient.window.start + offset)
      Leads (Window.decode offset count) strict.window
        (fun decoded _ => encode decoded.chars = bytes.take decoded.length ∧
          Leads (Window.decode offset count) lenient.window
            (fun other _ => other = decoded ∧ ∀ place, ¬ ReplacedAt other.chars bytes place)
            (fun _ _ => False))
        (fun fault _ => ∃ place, fault = .invalidUtf8 (lenient.window.start + offset + place) ∧
          Leads (Window.decode offset count) lenient.window
            (fun other _ => IsFirst (ReplacedAt other.chars bytes) place) (fun _ _ => False))) ∧
    ∀ run : CharRun,
      Leads (Primitive.chars run).attempt strict
        (fun found after => (∀ place, ¬ lenient.Replaces run stream place) ∧
          Leads (Primitive.chars run).attempt lenient
            (fun other last => other = found ∧ last.cursor.position = after.cursor.position)
            (fun _ _ => False))
        (fun halt _ => ∃ place, halt = .fault (.invalidUtf8 place) ∧
          IsFirst (lenient.Replaces run stream) place ∧
          Leads (Primitive.chars run).attempt lenient (fun _ _ => True) (fun _ _ => False)) := by
  constructor
  · intro offset count bytes
    obtain ⟨decoded, hDecoded, hSifted, hSpelled⟩ :=
      sifted_decode (lenient.window.start + offset) count bytes
    have hOther := Window.leads_decode_lenient hLenient.lies_over hLenient.calm hLenient.policy_eq
      offset count
    have hRun := Window.leads_decode_calm hStrict.lies_over hStrict.calm offset count
    rw [hStrict.policy_eq, hStart] at hRun
    generalize decode .strict (lenient.window.start + offset) count bytes = result at hSifted hRun
    cases hSifted with
    | clean hClean =>
      apply hRun.mono
      · intro found after hFound
        cases hFound
        refine ⟨hSpelled hClean, hOther.mono ?_ fun _ _ hHalts => hHalts⟩
        intro other last hLast
        cases hDecoded.symm.trans hLast
        exact ⟨rfl, hClean⟩
      · intro fault after hFault
        cases hFault
    | @refused place hFirst =>
      apply hRun.mono
      · intro found after hFound
        cases hFound
      · intro fault after hFault
        cases hFault
        refine ⟨place, rfl, hOther.mono ?_ fun _ _ hHalts => hHalts⟩
        intro other last hLast
        cases hDecoded.symm.trans hLast
        exact hFirst
  · intro run
    obtain ⟨content?, hContent, hSifted⟩ := Primitive.sifted_recognize run lenient.cursor.position
      (stream.drop lenient.cursor.position)
    have hOther := (Primitive.chars run).leads_attempt_ready hLenient
    have hRun := (Primitive.chars run).leads_attempt_ready hStrict
    rw [hContent] at hOther
    rw [hPosition] at hRun
    generalize (Primitive.chars run).recognize .strict lenient.cursor.position
      (stream.drop lenient.cursor.position) = result at hSifted hRun
    cases hSifted with
    | clean hClean =>
      apply hRun.mono
      · intro found after hFound
        obtain ⟨other?, hSame, rfl, hAfter⟩ := hFound
        cases hSame
        constructor
        · intro place hReplaces
          obtain ⟨more, -, hMore⟩ := (hLenient.replaces_iff run place).1 hReplaces
          exact hClean more hMore
        · apply hOther.mono
          · intro other last hLast
            obtain ⟨last?, hLast?, rfl, hLastPosition⟩ := hLast
            cases hLast?
            exact ⟨rfl, hLastPosition.trans hAfter.symm⟩
          · intro halt last hHalts
            obtain ⟨fault, -, hFault⟩ := hHalts
            cases hFault
      · intro halt after hHalts
        obtain ⟨fault, -, hFault⟩ := hHalts
        cases hFault
    | @refused place hFirst =>
      apply hRun.mono
      · intro found after hFound
        obtain ⟨other?, hSame, -⟩ := hFound
        cases hSame
      · intro halt after hHalts
        obtain ⟨fault, rfl, hFault⟩ := hHalts
        cases hFault
        refine ⟨_, rfl, hLenient.isFirst_replaces hFirst, hOther.mono (fun _ _ _ => trivial) ?_⟩
        intro halt last hHalts
        obtain ⟨fault, -, hFault⟩ := hHalts
        cases hFault

end Runs

/-- A letter, a replacement that the stream spells out, and a byte that is in no character. -/
def marred : Source :=
  ⟨[.data [0x41, 0xef], .failure .interrupted "", .data [0xbf, 0xbd, 0xff]]⟩

/-- At the start of the marred stream, read under this policy. -/
def Reader.marred (policy : DecodePolicy) : Reader where
  window := .ofSource StreamMatch.marred { (default : Config) with policy }
  cursor := { position := 0 }

theorem Reader.ready_marred (policy : DecodePolicy) :
    (Reader.marred policy).Ready StreamMatch.marred.content policy := by
  have hCalm : StreamMatch.marred.Calm := by
    simp [StreamMatch.marred, Source.Calm]
  exact ⟨Window.over_content _ _, hCalm, rfl, Nat.le_refl _, Nat.zero_le _⟩

/-- The strict policy refuses the last byte, which stands at offset 4, and not the replacement
before it. A run of at most two code points does not come to that byte. -/
theorem strict_refuses_replaced_marred :
    let strict := Reader.marred .strict
    let lenient := Reader.marred .lenient
    let run := UnitRun.between .literal 1 2 Predicate.always
    Leads (Window.decode 0 3) strict.window (fun _ _ => False)
      (fun fault _ => fault = .invalidUtf8 4 ∧ ∃ place, fault = .invalidUtf8 (0 + 0 + place) ∧
        Leads (Window.decode 0 3) lenient.window
          (fun other _ => IsFirst (Utf8.ReplacedAt other.chars marred.content) place)
          (fun _ _ => False)) ∧
    Leads (Primitive.chars run).attempt strict
      (fun found after => found.map (·.content) = some [0x41, 0xef, 0xbf, 0xbd] ∧
        (∀ place, ¬ lenient.Replaces run marred.content place) ∧
        Leads (Primitive.chars run).attempt lenient
          (fun other last => other = found ∧ last.cursor.position = after.cursor.position)
          (fun _ _ => False))
      (fun _ _ => False) := by
  intro strict lenient run
  obtain ⟨hWindow, hRun⟩ :=
    strict_refuses_replaced (Reader.ready_marred .strict) (Reader.ready_marred .lenient) rfl rfl
  have hDecode : Utf8.decode .strict 0 3 marred.content = .error (.invalidUtf8 4) := rfl
  have hTaken : (Primitive.chars run).recognize .strict 0 marred.content =
      .ok (some [0x41, 0xef, 0xbf, 0xbd]) := rfl
  constructor
  · apply ((Window.leads_decode_calm (Reader.ready_marred .strict).lies_over
      (Reader.ready_marred .strict).calm 0 3).and (hWindow 0 3)).mono
    · intro decoded after hDecoded
      cases hDecode.symm.trans hDecoded.1
    · intro fault after hFault
      cases hDecode.symm.trans hFault.1
      exact ⟨rfl, hFault.2⟩
  · apply (((Primitive.chars run).leads_attempt_ready (Reader.ready_marred .strict)).and
      (hRun run)).mono
    · intro found after hFound
      obtain ⟨⟨content?, hContent, hMatch, -⟩, hSame⟩ := hFound
      cases hTaken.symm.trans hContent
      exact ⟨by rw [hMatch]; rfl, hSame⟩
    · intro halt after hHalts
      obtain ⟨⟨fault, -, hFault⟩, -⟩ := hHalts
      cases hTaken.symm.trans hFault

end StreamMatch
