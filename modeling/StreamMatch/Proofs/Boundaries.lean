import StreamMatch.Utf8.Lemmas
import StreamMatch.Utf8.Lossy

/-!
Where a byte string can be cut without a change to its text. A cut is safe if the decoder is between
two characters there, or if what comes next is no continuation byte, so that it ends whatever was
entered before (`lossy_append`). The complete length of a byte string is always a safe cut
(`breaks_completeLength`), and fewer than four bytes are left after it.
-/

namespace StreamMatch.Utf8

/-- How many bytes are still to come until the decoder is between two characters. -/
def owed : Option Pending → Nat
  | none => 0
  | some pending => pending.owed

/-- What a decoder that has entered a sequence can be waiting for: continuation bytes, of which at
least one is still to come and never more than three. -/
structure Pending.Sound (pending : Pending) : Prop where
  low : 0x80 ≤ pending.low.toNat
  high : pending.high.toNat ≤ 0xbf
  owed_pos : 0 < pending.owed
  owed_le : pending.owed ≤ 3

/-- Every state that the decoder can get into. -/
def Sound (state : Option Pending) : Prop :=
  ∀ pending, state = some pending → pending.Sound

theorem sound_none : Sound none := by
  intro pending hPending
  cases hPending

theorem sound_some {pending : Pending} (hPending : pending.Sound) : Sound (some pending) := by
  intro other hOther
  obtain rfl := Option.some.inj hOther
  exact hPending

theorem eq_none_of_owed {state : Option Pending} (hSound : Sound state) (hOwed : owed state = 0) :
    state = none := by
  cases state with
  | none => rfl
  | some pending =>
    have hPos := (hSound pending rfl).owed_pos
    rw [owed] at hOwed
    omega

theorem leadWidth_le (byte : UInt8) : leadWidth byte ≤ 4 := by
  grind [leadWidth_eq]

theorem leadWidth_of_isContinuation {byte : UInt8} (hByte : isContinuation byte = true) :
    leadWidth byte = 0 := by
  grind [leadWidth_eq, isContinuation_iff]

theorem secondRange_bounds (lead : UInt8) :
    0x80 ≤ (secondRange lead).1.toNat ∧ (secondRange lead).2.toNat ≤ 0xbf := by
  unfold secondRange
  repeat' split
  all_goals decide

/-- Entering a byte, the decoder owes what the byte announces. -/
theorem owed_enter (byte : UInt8) : owed (enter byte).2 = leadWidth byte - 1 := by
  unfold enter
  split
  · next hWidth => simp [owed, hWidth]
  · next hWidth => simp [owed, hWidth]
  · rfl

theorem sound_enter (byte : UInt8) : Sound (enter byte).2 := by
  have hWidth := leadWidth_le byte
  obtain ⟨hLow, hHigh⟩ := secondRange_bounds byte
  unfold enter
  split
  · exact sound_none
  · exact sound_none
  · next hZero hOne =>
    have hPos : leadWidth byte ≠ 0 ∧ leadWidth byte ≠ 1 := ⟨hZero, hOne⟩
    exact sound_some ⟨hLow, hHigh, by simp only; omega, by simp only; omega⟩

theorem sound_accept {state : Option Pending} (hSound : Sound state) (byte : UInt8) :
    Sound (accept state byte).2 := by
  cases state with
  | none => exact sound_enter byte
  | some pending =>
    have hPending := hSound pending rfl
    have hOwed := hPending.owed_le
    simp only [accept]
    split
    · split
      · exact sound_none
      · next hMore =>
        have hLess : 0 < pending.owed - 1 ∧ pending.owed - 1 ≤ 3 := by omega
        exact sound_some ⟨Nat.le_refl 0x80, Nat.le_refl 0xbf, hLess.1, hLess.2⟩
    · exact sound_enter byte

theorem sound_feed {state : Option Pending} (hSound : Sound state) (bytes : List UInt8) :
    Sound (feed state bytes).2 := by
  induction bytes generalizing state with
  | nil => exact hSound
  | cons byte rest ih => exact ih (sound_accept hSound byte)

/-- A continuation byte never goes with a greater debt than was there before it, less one. -/
theorem owed_accept_continuation (state : Option Pending) {byte : UInt8}
    (hByte : isContinuation byte = true) : owed (accept state byte).2 ≤ owed state - 1 := by
  have hEnter : owed (enter byte).2 = 0 := by
    rw [owed_enter, leadWidth_of_isContinuation hByte]
  cases state with
  | none => simp [accept, hEnter]
  | some pending =>
    simp only [accept]
    split
    · split
      · exact Nat.zero_le _
      · exact Nat.le_refl _
    · simp [hEnter]

/-- Any other byte ends what was entered before, with a replacement, and is then taken on its own. -/
theorem accept_of_not_isContinuation {state : Option Pending} (hSound : Sound state) {byte : UInt8}
    (hByte : isContinuation byte = false) :
    accept state byte = (lossyFrom state [] ++ (enter byte).1, (enter byte).2) := by
  cases state with
  | none => rfl
  | some pending =>
    have hPending := hSound pending rfl
    have hOutside : ¬ (pending.low ≤ byte && byte ≤ pending.high) = true := by
      have hLow := hPending.low
      have hHigh := hPending.high
      have hNot : ¬ (0x80 ≤ byte.toNat ∧ byte.toNat ≤ 0xbf) := by
        rw [← isContinuation_iff, hByte]
        exact Bool.false_ne_true
      simp only [Bool.and_eq_true, decide_eq_true_eq, UInt8.le_iff_toNat_le]
      omega
    simp only [accept, if_neg hOutside]
    rfl

theorem owed_feed_continuation {bytes : List UInt8} (hBytes : ∀ byte ∈ bytes, isContinuation byte)
    (state : Option Pending) : owed (feed state bytes).2 ≤ owed state - bytes.length := by
  induction bytes generalizing state with
  | nil => exact Nat.le_refl _
  | cons byte rest ih =>
    have hRest := ih (fun other hMem => hBytes other (List.mem_cons_of_mem _ hMem))
      (accept state byte).2
    have hByte := owed_accept_continuation state (hBytes byte List.mem_cons_self)
    simp only [feed, List.length_cons]
    omega

/-- As many continuation bytes as are owed bring the decoder between two characters. -/
theorem feed_continuation_eq_none {state : Option Pending} (hSound : Sound state)
    {bytes : List UInt8} (hBytes : ∀ byte ∈ bytes, isContinuation byte)
    (hOwed : owed state ≤ bytes.length) : (feed state bytes).2 = none := by
  have hLess := owed_feed_continuation hBytes state
  exact eq_none_of_owed (sound_feed hSound bytes) (by omega)

/-- A lead byte and as many continuation bytes as it announces, or more, bring the decoder between
two characters, whatever it was in before. -/
theorem feed_lead_eq_none {state : Option Pending} (hSound : Sound state) {lead : UInt8}
    (hLead : isContinuation lead = false) {bytes : List UInt8}
    (hBytes : ∀ byte ∈ bytes, isContinuation byte) (hWidth : leadWidth lead ≤ bytes.length + 1) :
    (feed state (lead :: bytes)).2 = none := by
  have hEntered : (accept state lead).2 = (enter lead).2 := by
    rw [accept_of_not_isContinuation hSound hLead]
  simp only [feed, hEntered]
  apply feed_continuation_eq_none (sound_enter lead) hBytes
  rw [owed_enter]
  omega

/-- A new character can begin between these two: either the decoder is between two characters after
the first, or the second begins with what is no continuation byte. -/
def Breaks (before rest : List UInt8) : Prop :=
  (feed none before).2 = none ∨ ∃ lead more, rest = lead :: more ∧ isContinuation lead = false

theorem Breaks.append {before rest : List UInt8} (hBreaks : Breaks before rest)
    (more : List UInt8) : Breaks before (rest ++ more) := by
  rcases hBreaks with hNone | ⟨lead, tail, rfl, hLead⟩
  · exact .inl hNone
  · exact .inr ⟨lead, tail ++ more, rfl, hLead⟩

theorem Breaks.take {before rest : List UInt8} (hBreaks : Breaks before rest) {count : Nat}
    (hCount : 0 < count) : Breaks before (rest.take count) := by
  rcases hBreaks with hNone | ⟨lead, tail, rfl, hLead⟩
  · exact .inl hNone
  · obtain ⟨less, rfl⟩ : ∃ less, count = less + 1 := ⟨count - 1, by omega⟩
    exact .inr ⟨lead, tail.take less, rfl, hLead⟩

/-- A cut where a new character can begin does not change the text. -/
theorem lossy_append {before rest : List UInt8} (hBreaks : Breaks before rest) :
    lossy (before ++ rest) = lossy before ++ lossy rest := by
  have hBefore : lossy before = (feed none before).1 ++ lossyFrom (feed none before).2 [] := by
    have hAll := lossyFrom_append none before []
    rwa [List.append_nil] at hAll
  rw [hBefore, lossy, lossyFrom_append, List.append_assoc]
  congr 1
  rcases hBreaks with hNone | ⟨lead, more, rfl, hLead⟩
  · rw [hNone]
    rfl
  · have hSound := sound_feed sound_none before
    simp only [lossy, lossyFrom, accept_of_not_isContinuation hSound hLead, List.append_assoc]
    rfl

/-- Walking backwards over continuation bytes, the search either finds nothing else or stops at the
first other byte, and takes it if it announces more than was passed. -/
theorem unfinishedFrom_cases (passed : Nat) (earlier : List UInt8) :
    (∀ byte ∈ earlier, isContinuation byte) ∧ unfinishedFrom passed earlier = 0 ∨
      ∃ conts lead rest, earlier = conts ++ lead :: rest ∧ (∀ byte ∈ conts, isContinuation byte) ∧
        isContinuation lead = false ∧
        unfinishedFrom passed earlier =
          if passed + conts.length < leadWidth lead then passed + conts.length else 0 := by
  induction earlier generalizing passed with
  | nil => exact .inl ⟨by simp, rfl⟩
  | cons byte earlier ih =>
    by_cases hByte : isContinuation byte = true
    · rw [unfinishedFrom, if_pos hByte]
      rcases ih (passed + 1) with ⟨hAll, hZero⟩ | ⟨conts, lead, rest, rfl, hConts, hLead, hFrom⟩
      · exact .inl ⟨List.forall_mem_cons.2 ⟨hByte, hAll⟩, hZero⟩
      · refine .inr ⟨byte :: conts, lead, rest, rfl, List.forall_mem_cons.2 ⟨hByte, hConts⟩, hLead, ?_⟩
        rw [hFrom, List.length_cons, Nat.add_assoc, Nat.add_comm 1]
    · refine .inr ⟨[], byte, earlier, rfl, by simp, Bool.eq_false_iff.2 hByte, ?_⟩
      rw [unfinishedFrom, if_neg hByte, List.length_nil, Nat.add_zero]

/-- What the complete length leaves: nothing, if the decoder is between two characters at the end, or
else a lead byte that announces more than the continuation bytes after it, which are all there is. -/
theorem completeLength_cases (bytes : List UInt8) :
    completeLength bytes = bytes.length ∧ (feed none bytes).2 = none ∨
      ∃ before lead conts, bytes = before ++ lead :: conts ∧ isContinuation lead = false ∧
        (∀ byte ∈ conts, isContinuation byte) ∧ conts.length + 1 < leadWidth lead ∧
        completeLength bytes = before.length := by
  have hReverse : bytes.reverse = bytes.reverse.take 4 ++ bytes.reverse.drop 4 :=
    (List.take_append_drop 4 _).symm
  have hBytes := congrArg List.reverse hReverse
  rw [List.reverse_reverse, List.reverse_append] at hBytes
  simp only [completeLength]
  rcases unfinishedFrom_cases 1 (bytes.reverse.take 4) with
    ⟨hAll, hZero⟩ | ⟨conts, lead, rest, hEnd, hConts, hLead, hFrom⟩
  · -- Nothing but continuation bytes, either four of them or all that there are.
    refine .inl ⟨by rw [hZero, Nat.sub_zero], ?_⟩
    have hSound := sound_feed sound_none (bytes.reverse.drop 4).reverse
    rw [hBytes, feed_append]
    refine feed_continuation_eq_none hSound (fun byte hMem => hAll byte (List.mem_reverse.1 hMem)) ?_
    by_cases hFour : 4 ≤ bytes.length
    · have hOwed : owed (feed none (bytes.reverse.drop 4).reverse).2 ≤ 3 := by
        cases hState : (feed none (bytes.reverse.drop 4).reverse).2 with
        | none => exact Nat.zero_le _
        | some pending => exact (hSound pending hState).owed_le
      simp only [List.length_reverse, List.length_take]
      omega
    · rw [List.drop_of_length_le (by simp; omega)]
      exact Nat.zero_le _
  · rw [hEnd] at hBytes
    simp only [List.reverse_append, List.reverse_cons, List.append_assoc, List.singleton_append]
      at hBytes
    have hConts' : ∀ byte ∈ conts.reverse, isContinuation byte := fun byte hMem =>
      hConts byte (List.mem_reverse.1 hMem)
    generalize hBefore : (bytes.reverse.drop 4).reverse ++ rest.reverse = before
    rw [← List.append_assoc, hBefore] at hBytes
    by_cases hWidth : 1 + conts.length < leadWidth lead
    · rw [if_pos hWidth] at hFrom
      refine .inr ⟨before, lead, conts.reverse, hBytes, hLead, hConts', by simp; omega, ?_⟩
      rw [hFrom, hBytes]
      simp
      omega
    · rw [if_neg hWidth] at hFrom
      refine .inl ⟨by rw [hFrom, Nat.sub_zero], ?_⟩
      rw [hBytes, feed_append]
      exact feed_lead_eq_none (sound_feed sound_none before) hLead hConts' (by simp; omega)

/-- An incomplete sequence is shorter than the longest sequence. -/
theorem length_le_completeLength_add (bytes : List UInt8) :
    bytes.length ≤ completeLength bytes + 3 := by
  rcases completeLength_cases bytes with ⟨hAll, -⟩ | ⟨before, lead, conts, rfl, -, -, hWidth, hLength⟩
  · omega
  · have hLead := leadWidth_le lead
    rw [hLength, List.length_append, List.length_cons]
    omega

/-- The complete length is where a new character can begin, also if other bytes come before. -/
theorem Breaks.completeLength {before bytes : List UInt8} (hBreaks : Breaks before bytes) :
    Breaks (before ++ bytes.take (completeLength bytes)) (bytes.drop (completeLength bytes)) := by
  rcases completeLength_cases bytes with ⟨hAll, hNone⟩ | ⟨front, lead, conts, rfl, hLead, -, -, hLength⟩
  · left
    rw [hAll, List.take_length, feed_append]
    rcases hBreaks with hBetween | ⟨lead, more, rfl, hLead⟩
    · rw [hBetween]
      exact hNone
    · -- The lead byte makes no difference between this state and the one at the start.
      have hSound := sound_feed sound_none before
      rw [feed, accept_of_not_isContinuation sound_none hLead] at hNone
      rw [feed, accept_of_not_isContinuation hSound hLead]
      exact hNone
  · right
    refine ⟨lead, conts, ?_, hLead⟩
    rw [hLength, List.drop_left]

end StreamMatch.Utf8
