import FlavorTable.Text.Utf8

/-!
# Decoding what was encoded

The decoder is fed one byte at a time, so its law is stated for the bytes of
one character with any bytes behind them: it reads the character and goes on
at the next position.  A character has one to four bytes; the first announces
how many follow, and each of the others carries six bits.

That the second byte is accepted is where the narrowed bounds matter.  They
keep out what no character is encoded as: overlong forms, values beyond the
last character, and the surrogates, which are no characters at all.

## Main results

* `decodeFrom_utf8EncodeChar` — the bytes of a character are read as it.
* `decode_encode` — the bytes of a text are read as it.
-/

namespace FlavorTable.Text.Utf8

/-- The bytes of a text. -/
def encode (s : String) : List UInt8 := s.toUTF8.data.toList

theorem encode_eq_flatMap (s : String) : encode s = s.toList.flatMap String.utf8EncodeChar := by
  have hBytes : s.toUTF8 = s.toList.utf8Encode := String.utf8Encode_toList.symm
  rw [encode, hBytes]
  exact List.toList_data_toByteArray

/-! ## One byte -/

variable {position : Nat} {pending : Pending} {byte : UInt8}

/-- A byte that begins a character of several bytes puts it under way. -/
theorem decodeFrom_lead (h : Pending.ofLead? position byte = some pending) (rest : List UInt8) :
    decodeFrom position none (byte :: rest) = decodeFrom (position + 1) (some pending) rest := by
  have hMulti : ¬byte.toNat < 0x80 := by
    intro hLow
    have hNone : Pending.ofLead? position byte = none := by
      simp only [Pending.ofLead?]
      rw [if_neg (by omega), if_neg (by omega), if_neg (by omega)]
    rw [hNone] at h
    cases h
  simp [decodeFrom, hMulti, h]

/-- The last byte of a character completes it. -/
theorem decodeFrom_last (hLow : pending.low ≤ byte.toNat) (hHigh : byte.toNat ≤ pending.high)
    (hMissing : pending.missing = 0) (rest : List UInt8) :
    decodeFrom position (some pending) (byte :: rest) =
      (decodeFrom (position + 1) none rest).map (Char.ofNat (pending.extend byte) :: ·) := by
  have hBounds : ¬(byte.toNat < pending.low ∨ pending.high < byte.toNat) := by omega
  simp only [decodeFrom, hMissing]
  rw [if_neg hBounds]

/-- A byte before the last one leaves the character under way. -/
theorem decodeFrom_more (hLow : pending.low ≤ byte.toNat) (hHigh : byte.toNat ≤ pending.high)
    {missing : Nat} (hMissing : pending.missing = missing + 1) (rest : List UInt8) :
    decodeFrom position (some pending) (byte :: rest) =
      decodeFrom (position + 1)
        (some ⟨pending.lead, pending.start, pending.seen + 1, missing, 0x80, 0xBF,
          pending.extend byte⟩) rest := by
  have hBounds : ¬(byte.toNat < pending.low ∨ pending.high < byte.toNat) := by omega
  simp only [decodeFrom, hMissing]
  rw [if_neg hBounds]

/-! ## One character -/

/-- The byte that carries the last six bits of a number. -/
def tail (n : Nat) : UInt8 := UInt8.ofNat (n % 64 + 128)

theorem toNat_tail (n : Nat) : (tail n).toNat = n % 64 + 128 := by
  rw [tail, UInt8.toNat_ofNat_of_lt' (by simp only [UInt8.size]; omega)]

theorem extend_tail (pending : Pending) (n : Nat) :
    pending.extend (tail n) = pending.code * 64 + n % 64 := by
  unfold Pending.extend
  rw [toNat_tail, Nat.add_sub_cancel]

theorem decodeFrom_two {n : Nat} (hLow : 0x7F < n) (hHigh : n ≤ 0x7FF) (rest : List UInt8) :
    decodeFrom position none (UInt8.ofNat (n / 64 % 32 + 192) :: tail n :: rest) =
      (decodeFrom (position + 2) none rest).map (Char.ofNat n :: ·) := by
  have hByte : (UInt8.ofNat (n / 64 % 32 + 192)).toNat = n / 64 + 192 := by
    rw [UInt8.toNat_ofNat_of_lt' (by simp only [UInt8.size]; omega)]
    omega
  have hLead : Pending.ofLead? position (UInt8.ofNat (n / 64 % 32 + 192)) =
      some ⟨UInt8.ofNat (n / 64 % 32 + 192), position, 1, 0, 0x80, 0xBF, n / 64⟩ := by
    simp only [Pending.ofLead?, hByte]
    rw [if_pos (by omega), Nat.add_sub_cancel]
  have hTail := toNat_tail n
  have hCode : n / 64 * 64 + n % 64 = n := by omega
  rw [decodeFrom_lead hLead, decodeFrom_last (by simp only; omega) (by simp only; omega) rfl,
    extend_tail, hCode]

theorem decodeFrom_three {n : Nat} (hLow : 0x7FF < n) (hHigh : n ≤ 0xFFFF)
    (hValid : n.isValidChar) (rest : List UInt8) :
    decodeFrom position none
        (UInt8.ofNat (n / 4096 % 16 + 224) :: tail (n / 64) :: tail n :: rest) =
      (decodeFrom (position + 3) none rest).map (Char.ofNat n :: ·) := by
  have hByte : (UInt8.ofNat (n / 4096 % 16 + 224)).toNat = n / 4096 + 224 := by
    rw [UInt8.toNat_ofNat_of_lt' (by simp only [UInt8.size]; omega)]
    omega
  have hLead : Pending.ofLead? position (UInt8.ofNat (n / 4096 % 16 + 224)) =
      some ⟨UInt8.ofNat (n / 4096 % 16 + 224), position, 1, 1,
        if n / 4096 + 224 = 0xE0 then 0xA0 else 0x80,
        if n / 4096 + 224 = 0xED then 0x9F else 0xBF, n / 4096⟩ := by
    simp only [Pending.ofLead?, hByte]
    rw [if_neg (by omega), if_pos (by omega), Nat.add_sub_cancel]
  have hSecond := toNat_tail (n / 64)
  have hThird := toNat_tail n
  have hCode : (n / 4096 * 64 + n / 64 % 64) * 64 + n % 64 = n := by omega
  -- The bounds of the second byte keep out overlong forms and surrogates.
  have hSecondLow : (if n / 4096 + 224 = 0xE0 then 0xA0 else 0x80) ≤ (tail (n / 64)).toNat := by
    split <;> omega
  have hSecondHigh : (tail (n / 64)).toNat ≤ if n / 4096 + 224 = 0xED then 0x9F else 0xBF := by
    split <;> omega
  rw [decodeFrom_lead hLead, decodeFrom_more hSecondLow hSecondHigh rfl,
    decodeFrom_last (by simp only; omega) (by simp only; omega) rfl, extend_tail, extend_tail,
    hCode]

theorem decodeFrom_four {n : Nat} (hLow : 0xFFFF < n) (hValid : n.isValidChar)
    (rest : List UInt8) :
    decodeFrom position none
        (UInt8.ofNat (n / 262144 % 8 + 240) :: tail (n / 4096) :: tail (n / 64) :: tail n ::
          rest) =
      (decodeFrom (position + 4) none rest).map (Char.ofNat n :: ·) := by
  have hByte : (UInt8.ofNat (n / 262144 % 8 + 240)).toNat = n / 262144 + 240 := by
    rw [UInt8.toNat_ofNat_of_lt' (by simp only [UInt8.size]; omega)]
    omega
  have hLead : Pending.ofLead? position (UInt8.ofNat (n / 262144 % 8 + 240)) =
      some ⟨UInt8.ofNat (n / 262144 % 8 + 240), position, 1, 2,
        if n / 262144 + 240 = 0xF0 then 0x90 else 0x80,
        if n / 262144 + 240 = 0xF4 then 0x8F else 0xBF, n / 262144⟩ := by
    simp only [Pending.ofLead?, hByte]
    rw [if_neg (by omega), if_neg (by omega), if_pos (by omega), Nat.add_sub_cancel]
  have hSecond := toNat_tail (n / 4096)
  have hThird := toNat_tail (n / 64)
  have hFourth := toNat_tail n
  have hCode : ((n / 262144 * 64 + n / 4096 % 64) * 64 + n / 64 % 64) * 64 + n % 64 = n := by
    omega
  -- The bounds of the second byte keep out overlong forms and values beyond the last character.
  have hSecondLow : (if n / 262144 + 240 = 0xF0 then 0x90 else 0x80) ≤
      (tail (n / 4096)).toNat := by
    split <;> omega
  have hSecondHigh : (tail (n / 4096)).toNat ≤
      if n / 262144 + 240 = 0xF4 then 0x8F else 0xBF := by
    split <;> omega
  rw [decodeFrom_lead hLead, decodeFrom_more hSecondLow hSecondHigh rfl,
    decodeFrom_more (by simp only; omega) (by simp only; omega) rfl,
    decodeFrom_last (by simp only; omega) (by simp only; omega) rfl, extend_tail, extend_tail,
    extend_tail, hCode]

theorem utf8EncodeChar_eq (c : Char) :
    String.utf8EncodeChar c =
      if c.toNat ≤ 0x7F then [UInt8.ofNat c.toNat]
      else if c.toNat ≤ 0x7FF then [UInt8.ofNat (c.toNat / 64 % 32 + 192), tail c.toNat]
      else if c.toNat ≤ 0xFFFF then
        [UInt8.ofNat (c.toNat / 4096 % 16 + 224), tail (c.toNat / 64), tail c.toNat]
      else
        [UInt8.ofNat (c.toNat / 262144 % 8 + 240), tail (c.toNat / 4096), tail (c.toNat / 64),
          tail c.toNat] :=
  rfl

/-- The bytes of a character are read as the character. -/
theorem decodeFrom_utf8EncodeChar (position : Nat) (c : Char) (rest : List UInt8) :
    decodeFrom position none (String.utf8EncodeChar c ++ rest) =
      (decodeFrom (position + (String.utf8EncodeChar c).length) none rest).map (c :: ·) := by
  have hValid : c.toNat.isValidChar := c.valid
  have hChar : Char.ofNat c.toNat = c := Char.ofNat_toNat c
  rw [utf8EncodeChar_eq]
  split
  case isTrue hOne =>
    have hByte : (UInt8.ofNat c.toNat).toNat = c.toNat := by
      rw [UInt8.toNat_ofNat_of_lt' (by simp only [UInt8.size]; omega)]
    rw [List.singleton_append, decodeFrom_ascii position rest (by omega), hByte, hChar]
    rfl
  case isFalse hOne =>
    split
    case isTrue hTwo =>
      rw [List.cons_append, List.singleton_append, decodeFrom_two (by omega) hTwo, hChar]
      rfl
    case isFalse hTwo =>
      split
      case isTrue hThree =>
        rw [List.cons_append, List.cons_append, List.singleton_append,
          decodeFrom_three (by omega) hThree hValid, hChar]
        rfl
      case isFalse hThree =>
        rw [List.cons_append, List.cons_append, List.cons_append, List.singleton_append,
          decodeFrom_four (by omega) hValid, hChar]
        rfl

/-! ## A text -/

theorem decodeFrom_flatMap (position : Nat) (s : List Char) :
    decodeFrom position none (s.flatMap String.utf8EncodeChar) = .ok s := by
  induction s generalizing position with
  | nil => rfl
  | cons c s ih =>
      rw [List.flatMap_cons, decodeFrom_utf8EncodeChar, ih]
      rfl

/-- The bytes of a text are read as the text. -/
theorem decode_encode (s : String) : decode (encode s) = .ok s := by
  rw [decode, encode_eq_flatMap, decodeFrom_flatMap]
  exact congrArg Except.ok String.ofList_toList

end FlavorTable.Text.Utf8
