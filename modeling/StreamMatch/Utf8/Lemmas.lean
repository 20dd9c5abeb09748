import StreamMatch.Utf8.Basic

/-!
Bytes of UTF-8 as numbers: the tables of lead bytes and of the bytes that may follow them, read as
bounds on numbers. What spells a code point is one well-formed sequence, which spells no other
(`charOf?_utf8EncodeChar`), and no other sequence spells it (`utf8EncodeChar_of_charOf?`).
-/

namespace StreamMatch.Utf8

theorem leadWidth_eq (byte : UInt8) :
    leadWidth byte =
      if byte.toNat ≤ 0x7f then 1
      else if byte.toNat < 0xc2 then 0
      else if byte.toNat ≤ 0xdf then 2
      else if byte.toNat ≤ 0xef then 3
      else if byte.toNat ≤ 0xf4 then 4
      else 0 := by
  simp [leadWidth, UInt8.le_iff_toNat_le, UInt8.lt_iff_toNat_lt]

theorem leadBits_eq (byte : UInt8) :
    leadBits byte =
      if byte.toNat ≤ 0x7f then byte.toNat
      else if byte.toNat ≤ 0xdf then byte.toNat - 0xc0
      else if byte.toNat ≤ 0xef then byte.toNat - 0xe0
      else byte.toNat - 0xf0 := by
  simp [leadBits, UInt8.le_iff_toNat_le]

theorem isContinuation_iff (byte : UInt8) :
    isContinuation byte = true ↔ 0x80 ≤ byte.toNat ∧ byte.toNat ≤ 0xbf := by
  simp [isContinuation, UInt8.le_iff_toNat_le]

theorem isSecond_iff (lead second : UInt8) :
    isSecond lead second = true ↔
      0x80 ≤ second.toNat ∧ second.toNat ≤ 0xbf ∧
      (lead.toNat = 0xe0 → 0xa0 ≤ second.toNat) ∧ (lead.toNat = 0xed → second.toNat ≤ 0x9f) ∧
      (lead.toNat = 0xf0 → 0x90 ≤ second.toNat) ∧ (lead.toNat = 0xf4 → second.toNat ≤ 0x8f) := by
  simp only [isSecond, secondRange, ← UInt8.toNat_inj, Bool.and_eq_true, decide_eq_true_eq,
    UInt8.le_iff_toNat_le, UInt8.reduceToNat]
  repeat' split
  all_goals simp only [UInt8.reduceToNat]; omega

section Spelling

variable {a b c d : UInt8} {n : Nat}

theorem charOf?_one (hNat : n ≤ 0x7f) (hLead : a.toNat = n) :
    charOf? [a] = some (Char.ofNat n) := by
  simp [charOf?, leadWidth_eq, leadBits_eq, hLead, hNat]

theorem charOf?_two (hNat : 0x80 ≤ n ∧ n ≤ 0x7ff) (hLead : a.toNat = n / 64 + 0xc0)
    (hLast : b.toNat = n % 64 + 0x80) : charOf? [a, b] = some (Char.ofNat n) := by
  have hWidth : leadWidth a = 2 := by grind [leadWidth_eq]
  have hSecond : isSecond a b := by grind [isSecond_iff]
  have hBits : appendBits (leadBits a) b = n := by
    have hHigh : leadBits a = n / 64 := by grind [leadBits_eq]
    unfold appendBits
    omega
  simp [charOf?, hWidth, hSecond, hBits]

theorem charOf?_three (hNat : 0x800 ≤ n ∧ n ≤ 0xffff) (hScalar : n < 0xd800 ∨ 0xdfff < n)
    (hLead : a.toNat = n / 4096 + 0xe0) (hMiddle : b.toNat = n / 64 % 64 + 0x80)
    (hLast : c.toNat = n % 64 + 0x80) : charOf? [a, b, c] = some (Char.ofNat n) := by
  have hWidth : leadWidth a = 3 := by grind [leadWidth_eq]
  have hSecond : isSecond a b := by grind [isSecond_iff]
  have hThird : isContinuation c := by grind [isContinuation_iff]
  have hBits : appendBits (appendBits (leadBits a) b) c = n := by
    have hHigh : leadBits a = n / 4096 := by grind [leadBits_eq]
    unfold appendBits
    omega
  simp [charOf?, hWidth, hSecond, hThird, hBits]

theorem charOf?_four (hNat : 0x10000 ≤ n ∧ n ≤ 0x10ffff) (hLead : a.toNat = n / 262144 + 0xf0)
    (hNext : b.toNat = n / 4096 % 64 + 0x80) (hMiddle : c.toNat = n / 64 % 64 + 0x80)
    (hLast : d.toNat = n % 64 + 0x80) : charOf? [a, b, c, d] = some (Char.ofNat n) := by
  have hWidth : leadWidth a = 4 := by grind [leadWidth_eq]
  have hSecond : isSecond a b := by grind [isSecond_iff]
  have hThird : isContinuation c := by grind [isContinuation_iff]
  have hFourth : isContinuation d := by grind [isContinuation_iff]
  have hBits : appendBits (appendBits (appendBits (leadBits a) b) c) d = n := by
    have hHigh : leadBits a = n / 262144 := by grind [leadBits_eq]
    unfold appendBits
    omega
  simp [charOf?, hWidth, hSecond, hThird, hFourth, hBits]

/-- A code point is no surrogate and not beyond the last one, so that its sequence is well formed. -/
theorem charOf?_utf8EncodeChar (c : Char) : charOf? (String.utf8EncodeChar c) = some c := by
  have hScalar : c.val.toNat < 0xd800 ∨ 0xdfff < c.val.toNat ∧ c.val.toNat < 0x110000 := c.valid
  have hChar : Char.ofNat c.val.toNat = c := c.ofNat_toNat
  fun_cases String.utf8EncodeChar c with
  | case1 n hOne => rw [charOf?_one hOne (by simp; omega), hChar]
  | case2 n hOne hTwo =>
    rw [charOf?_two (n := n) (by omega) (by simp; omega) (by simp; omega), hChar]
  | case3 n hOne hTwo hThree =>
    rw [charOf?_three (n := n) (by omega) (by omega) (by simp; omega) (by simp; omega)
      (by simp; omega), hChar]
  | case4 n hOne hTwo hThree =>
    rw [charOf?_four (n := n) (by omega) (by simp; omega) (by simp; omega) (by simp; omega)
      (by simp; omega), hChar]

end Spelling

section Spelled

variable {a b c d : UInt8} {n : Nat} {x : Char}

theorem val_ofNat (hScalar : n < 0xd800 ∨ 0xdfff < n ∧ n < 0x110000) :
    (Char.ofNat n).val.toNat = n := by
  have hValid : n.isValidChar := hScalar
  rw [Char.ofNat, dif_pos hValid]
  exact UInt32.toNat_ofNatLT

theorem ofNat_of_eq_toNat (hNat : n = a.toNat) : UInt8.ofNat n = a := by
  rw [hNat, UInt8.ofNat_toNat]

theorem utf8EncodeChar_one (hBits : x.val.toNat = a.toNat) (hNat : a.toNat ≤ 0x7f) :
    String.utf8EncodeChar x = [a] := by
  have hByte : UInt8.ofNat x.val.toNat = a := ofNat_of_eq_toNat hBits
  simp [String.utf8EncodeChar, hBits, hNat]

theorem utf8EncodeChar_two (hNat : 0x80 ≤ x.val.toNat ∧ x.val.toNat ≤ 0x7ff)
    (hLead : a.toNat = x.val.toNat / 64 % 32 + 0xc0) (hLast : b.toNat = x.val.toNat % 64 + 0x80) :
    String.utf8EncodeChar x = [a, b] := by
  unfold String.utf8EncodeChar
  dsimp only
  rw [if_neg (by omega), if_pos hNat.2, ofNat_of_eq_toNat hLead.symm, ofNat_of_eq_toNat hLast.symm]

theorem utf8EncodeChar_three (hNat : 0x800 ≤ x.val.toNat ∧ x.val.toNat ≤ 0xffff)
    (hLead : a.toNat = x.val.toNat / 4096 % 16 + 0xe0)
    (hMiddle : b.toNat = x.val.toNat / 64 % 64 + 0x80) (hLast : c.toNat = x.val.toNat % 64 + 0x80) :
    String.utf8EncodeChar x = [a, b, c] := by
  unfold String.utf8EncodeChar
  dsimp only
  rw [if_neg (by omega), if_neg (by omega), if_pos hNat.2, ofNat_of_eq_toNat hLead.symm,
    ofNat_of_eq_toNat hMiddle.symm, ofNat_of_eq_toNat hLast.symm]

theorem utf8EncodeChar_four (hNat : 0x10000 ≤ x.val.toNat)
    (hLead : a.toNat = x.val.toNat / 262144 % 8 + 0xf0)
    (hNext : b.toNat = x.val.toNat / 4096 % 64 + 0x80)
    (hMiddle : c.toNat = x.val.toNat / 64 % 64 + 0x80) (hLast : d.toNat = x.val.toNat % 64 + 0x80) :
    String.utf8EncodeChar x = [a, b, c, d] := by
  unfold String.utf8EncodeChar
  dsimp only
  rw [if_neg (by omega), if_neg (by omega), if_neg (by omega), ofNat_of_eq_toNat hLead.symm,
    ofNat_of_eq_toNat hNext.symm, ofNat_of_eq_toNat hMiddle.symm, ofNat_of_eq_toNat hLast.symm]

/-- What spells a character is the encoding of it: there are no overlong forms. -/
theorem utf8EncodeChar_of_charOf? {bytes : List UInt8} (hChar : charOf? bytes = some x) :
    String.utf8EncodeChar x = bytes := by
  unfold charOf? at hChar
  split at hChar
  · next a =>
    split at hChar
    · next hWidth =>
      have hLead : leadBits a = a.toNat ∧ a.toNat ≤ 0x7f := by grind [leadBits_eq, leadWidth_eq]
      have hBits : x.val.toNat = leadBits a := by
        rw [← Option.some.inj hChar, val_ofNat (by omega)]
      exact utf8EncodeChar_one (by omega) (by omega)
    · cases hChar
  · next a b =>
    split at hChar
    · next hWell =>
      simp only [Bool.and_eq_true, decide_eq_true_eq, isSecond_iff] at hWell
      have hLead : leadBits a = a.toNat - 0xc0 ∧ 0xc2 ≤ a.toNat ∧ a.toNat ≤ 0xdf := by
        grind [leadBits_eq, leadWidth_eq]
      have hBits : x.val.toNat = appendBits (leadBits a) b := by
        rw [← Option.some.inj hChar]
        exact val_ofNat (by unfold appendBits; omega)
      unfold appendBits at hBits
      apply utf8EncodeChar_two <;> omega
    · cases hChar
  · next a b c =>
    split at hChar
    · next hWell =>
      simp only [Bool.and_eq_true, decide_eq_true_eq, isSecond_iff, isContinuation_iff] at hWell
      have hLead : leadBits a = a.toNat - 0xe0 ∧ 0xe0 ≤ a.toNat ∧ a.toNat ≤ 0xef := by
        grind [leadBits_eq, leadWidth_eq]
      have hBits : x.val.toNat = appendBits (appendBits (leadBits a) b) c := by
        rw [← Option.some.inj hChar]
        exact val_ofNat (by unfold appendBits; omega)
      unfold appendBits at hBits
      apply utf8EncodeChar_three <;> omega
    · cases hChar
  · next a b c d =>
    split at hChar
    · next hWell =>
      simp only [Bool.and_eq_true, decide_eq_true_eq, isSecond_iff, isContinuation_iff] at hWell
      have hLead : leadBits a = a.toNat - 0xf0 ∧ 0xf0 ≤ a.toNat ∧ a.toNat ≤ 0xf4 := by
        grind [leadBits_eq, leadWidth_eq]
      have hBits : x.val.toNat = appendBits (appendBits (appendBits (leadBits a) b) c) d := by
        rw [← Option.some.inj hChar]
        exact val_ofNat (by unfold appendBits; omega)
      unfold appendBits at hBits
      apply utf8EncodeChar_four <;> omega
    · cases hChar
  · cases hChar

end Spelled

/-- A well-formed sequence has the width that its lead byte announces. -/
theorem leadWidth_of_charOf? {lead : UInt8} {tail : List UInt8} {c : Char}
    (hChar : charOf? (lead :: tail) = some c) : leadWidth lead = tail.length + 1 := by
  unfold charOf? at hChar
  split at hChar <;> simp_all

theorem isContinuation_of_isSecond {lead second : UInt8} (hSecond : isSecond lead second = true) :
    isContinuation second = true := by
  rw [isSecond_iff] at hSecond
  rw [isContinuation_iff]
  exact ⟨hSecond.1, hSecond.2.1⟩

/-- Inside a well-formed sequence there are continuation bytes only. -/
theorem isContinuation_of_charOf? {lead byte : UInt8} {tail : List UInt8} {c : Char}
    (hChar : charOf? (lead :: tail) = some c) (hByte : byte ∈ tail) : isContinuation byte = true := by
  unfold charOf? at hChar
  split at hChar <;> grind [isContinuation_of_isSecond]

end StreamMatch.Utf8
