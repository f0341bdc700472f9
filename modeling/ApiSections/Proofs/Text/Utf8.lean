import ApiSections.Text.Utf8

/-!
The bytes of a text decode to that text.
-/

namespace ApiSections.Text

theorem decodeFrom_ascii {b : UInt8} (low : b.toNat < 0x80) (rest : List UInt8) :
    decodeFrom none (b :: rest) = some (Char.ofNat b.toNat) :: decodeFrom none rest := by
  have small : b < 0x80 := UInt8.lt_iff_toNat_lt.mpr low
  rw [decodeFrom]
  simp [small]

theorem decodeFrom_lead {b low high : UInt8} {count : Nat} (large : 0x80 ≤ b.toNat)
    (lead : announced? b = some (count, low, high)) (rest : List UInt8) :
    decodeFrom none (b :: rest) =
      decodeFrom (some ⟨count, low, high, leadBits count b⟩) rest := by
  have some_more : ¬ b < 0x80 := by
    rw [UInt8.lt_iff_toNat_lt]
    exact Nat.not_lt.mpr large
  rw [decodeFrom]
  simp [some_more, lead]

theorem announced?_eq (b : UInt8) : announced? b =
    if 0xC2 ≤ b.toNat ∧ b.toNat ≤ 0xDF then some (1, 0x80, 0xBF)
    else if b.toNat = 0xE0 then some (2, 0xA0, 0xBF)
    else if b.toNat = 0xED then some (2, 0x80, 0x9F)
    else if 0xE1 ≤ b.toNat ∧ b.toNat ≤ 0xEF then some (2, 0x80, 0xBF)
    else if b.toNat = 0xF0 then some (3, 0x90, 0xBF)
    else if 0xF1 ≤ b.toNat ∧ b.toNat ≤ 0xF3 then some (3, 0x80, 0xBF)
    else if b.toNat = 0xF4 then some (3, 0x80, 0x8F)
    else none := by
  simp [announced?, UInt8.le_iff_toNat_le, ← UInt8.toNat_inj]

theorem toNat_byte {n : Nat} (small : n < 256) : (UInt8.ofNat n).toNat = n :=
  UInt8.toNat_ofNat_of_lt small

/-- The byte that carries the last six bits of a number. -/
def continuation (n : Nat) : UInt8 := UInt8.ofNat (n % 0x40 + 0x80)

theorem toNat_continuation (n : Nat) : (continuation n).toNat = n % 0x40 + 0x80 :=
  toNat_byte (by omega)

theorem decodeFrom_continuation {low high : UInt8} {count bits n : Nat}
    (from_low : low.toNat ≤ n % 0x40 + 0x80) (to_high : n % 0x40 + 0x80 ≤ high.toNat)
    (rest : List UInt8) :
    decodeFrom (some ⟨count + 1, low, high, bits⟩) (continuation n :: rest) =
      match count with
      | 0 => some (Char.ofNat (bits * 64 + n % 64)) :: decodeFrom none rest
      | count + 1 => decodeFrom (some ⟨count + 1, 0x80, 0xBF, bits * 64 + n % 64⟩) rest := by
  have after : low ≤ continuation n := by
    rw [UInt8.le_iff_toNat_le, toNat_continuation]
    exact from_low
  have before : continuation n ≤ high := by
    rw [UInt8.le_iff_toNat_le, toNat_continuation]
    exact to_high
  have payload : (continuation n).toNat % 64 = n % 64 := by
    rw [toNat_continuation]
    omega
  rw [decodeFrom]
  cases count with
  | zero => simp [after, before, payload]
  | succ count => simp [after, before, payload]

theorem decodeFrom_two {v : Nat} (low : 0x80 ≤ v) (high : v ≤ 0x7ff) (rest : List UInt8) :
    decodeFrom none (UInt8.ofNat (v / 64 % 0x20 + 0xc0) :: continuation v :: rest) =
      some (Char.ofNat v) :: decodeFrom none rest := by
  have byte : (UInt8.ofNat (v / 64 % 0x20 + 0xc0)).toNat = v / 64 % 0x20 + 0xc0 :=
    toNat_byte (by omega)
  have lead : announced? (UInt8.ofNat (v / 64 % 0x20 + 0xc0)) = some (1, 0x80, 0xBF) := by
    rw [announced?_eq, byte, if_pos (by omega)]
  have bits : leadBits 1 (UInt8.ofNat (v / 64 % 0x20 + 0xc0)) * 64 + v % 64 = v := by
    rw [leadBits, byte, show Nat.pow 2 (6 - 1) = 32 from rfl]
    omega
  rw [decodeFrom_lead (by omega) lead, decodeFrom_continuation (Nat.le_add_left _ _) ?_]
  · simp only [bits]
  · change v % 0x40 + 0x80 ≤ 0xBF
    omega

theorem decodeFrom_three {v : Nat} (low : 0x800 ≤ v) (high : v ≤ 0xffff)
    (valid : v < 0xD800 ∨ 0xDFFF < v) (rest : List UInt8) :
    decodeFrom none (UInt8.ofNat (v / 4096 % 0x10 + 0xe0) :: continuation (v / 64) ::
      continuation v :: rest) = some (Char.ofNat v) :: decodeFrom none rest := by
  have byte : (UInt8.ofNat (v / 4096 % 0x10 + 0xe0)).toNat = v / 4096 % 0x10 + 0xe0 :=
    toNat_byte (by omega)
  obtain ⟨least, most, lead, from_least, to_most⟩ : ∃ least most : UInt8,
      announced? (UInt8.ofNat (v / 4096 % 0x10 + 0xe0)) = some (2, least, most) ∧
      least.toNat ≤ v / 64 % 0x40 + 0x80 ∧ v / 64 % 0x40 + 0x80 ≤ most.toNat := by
    rw [announced?_eq, byte, if_neg (by omega)]
    split
    · exact ⟨0xA0, 0xBF, rfl, by change 0xA0 ≤ _; omega, by change _ ≤ 0xBF; omega⟩
    · split
      · exact ⟨0x80, 0x9F, rfl, by change 0x80 ≤ _; omega, by change _ ≤ 0x9F; omega⟩
      · rw [if_pos (by omega)]
        exact ⟨0x80, 0xBF, rfl, by change 0x80 ≤ _; omega, by change _ ≤ 0xBF; omega⟩
  have bits : (leadBits 2 (UInt8.ofNat (v / 4096 % 0x10 + 0xe0)) * 64 + v / 64 % 64) * 64 + v % 64 =
      v := by
    rw [leadBits, byte, show Nat.pow 2 (6 - 2) = 16 from rfl]
    omega
  rw [decodeFrom_lead (by omega) lead, decodeFrom_continuation from_least to_most]
  simp only
  rw [decodeFrom_continuation (Nat.le_add_left _ _) ?_]
  · simp only [bits]
  · change v % 0x40 + 0x80 ≤ 0xBF
    omega

theorem decodeFrom_four {v : Nat} (low : 0x10000 ≤ v) (high : v < 0x110000) (rest : List UInt8) :
    decodeFrom none (UInt8.ofNat (v / 262144 % 0x08 + 0xf0) :: continuation (v / 4096) ::
      continuation (v / 64) :: continuation v :: rest) =
      some (Char.ofNat v) :: decodeFrom none rest := by
  have byte : (UInt8.ofNat (v / 262144 % 0x08 + 0xf0)).toNat = v / 262144 % 0x08 + 0xf0 :=
    toNat_byte (by omega)
  obtain ⟨least, most, lead, from_least, to_most⟩ : ∃ least most : UInt8,
      announced? (UInt8.ofNat (v / 262144 % 0x08 + 0xf0)) = some (3, least, most) ∧
      least.toNat ≤ v / 4096 % 0x40 + 0x80 ∧ v / 4096 % 0x40 + 0x80 ≤ most.toNat := by
    rw [announced?_eq, byte, if_neg (by omega), if_neg (by omega), if_neg (by omega),
      if_neg (by omega)]
    split
    · exact ⟨0x90, 0xBF, rfl, by change 0x90 ≤ _; omega, by change _ ≤ 0xBF; omega⟩
    · split
      · exact ⟨0x80, 0xBF, rfl, by change 0x80 ≤ _; omega, by change _ ≤ 0xBF; omega⟩
      · rw [if_pos (by omega)]
        exact ⟨0x80, 0x8F, rfl, by change 0x80 ≤ _; omega, by change _ ≤ 0x8F; omega⟩
  have bits : ((leadBits 3 (UInt8.ofNat (v / 262144 % 0x08 + 0xf0)) * 64 + v / 4096 % 64) * 64 +
      v / 64 % 64) * 64 + v % 64 = v := by
    rw [leadBits, byte, show Nat.pow 2 (6 - 3) = 8 from rfl]
    omega
  have middle : v / 64 % 0x40 + 0x80 ≤ (0xBF : UInt8).toNat := by
    change _ ≤ 0xBF
    omega
  have last : v % 0x40 + 0x80 ≤ (0xBF : UInt8).toNat := by
    change _ ≤ 0xBF
    omega
  rw [decodeFrom_lead (by omega) lead, decodeFrom_continuation from_least to_most]
  simp only
  rw [decodeFrom_continuation (Nat.le_add_left _ _) middle]
  simp only
  rw [decodeFrom_continuation (Nat.le_add_left _ _) last]
  simp only [bits]

/-- A character is read back from its bytes, whatever follows them. -/
theorem decodeFrom_char (c : Char) (rest : List UInt8) :
    decodeFrom none (String.utf8EncodeChar c ++ rest) = some c :: decodeFrom none rest := by
  have valid : c.val.toNat < 0xD800 ∨ 0xDFFF < c.val.toNat ∧ c.val.toNat < 0x110000 := c.valid
  have same : Char.ofNat c.val.toNat = c := Char.ofNat_toNat c
  rw [String.utf8EncodeChar]
  split
  · have byte : (UInt8.ofNat c.val.toNat).toNat = c.val.toNat := toNat_byte (by omega)
    have read := decodeFrom_ascii (b := UInt8.ofNat c.val.toNat) (by omega) rest
    rw [byte, same] at read
    exact read
  · split
    · have read := decodeFrom_two (v := c.val.toNat) (by omega) (by omega) rest
      rw [same] at read
      exact read
    · split
      · have read := decodeFrom_three (v := c.val.toNat) (by omega) (by omega) (by omega) rest
        rw [same] at read
        exact read
      · have read := decodeFrom_four (v := c.val.toNat) (by omega) (by omega) rest
        rw [same] at read
        exact read

theorem decode_bytes (text : List Char) :
    decode (text.flatMap String.utf8EncodeChar) = text.map some := by
  rw [decode]
  induction text with
  | nil => rfl
  | cons c text ih => rw [List.flatMap_cons, decodeFrom_char, ih, List.map_cons]

theorem encode_ofList (text : List Char) :
    encode (String.ofList text) = text.flatMap String.utf8EncodeChar := by
  rw [encode, String.toUTF8_eq_toByteArray, String.toByteArray_ofList, List.utf8Encode,
    List.toList_data_toByteArray]

theorem decodeStrict?_encode (text : List Char) :
    decodeStrict? (encode (String.ofList text)) = some text := by
  rw [encode_ofList, decodeStrict?, decode_bytes]
  induction text with
  | nil => rfl
  | cons c text ih =>
    rw [List.map_cons, List.mapM_cons, ih]
    rfl

end ApiSections.Text
