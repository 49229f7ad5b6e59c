import Sen66Accessory.Sen66.Protocol

namespace Sen66

/-- The three wire bytes of a payload word: the word itself, most significant
    byte first, and the CRC of those two bytes. -/
def wireByte (payload : UInt16) : Fin kWordSize → UInt8
  | 0 => (payload >>> 8).toUInt8
  | 1 => payload.toUInt8
  | 2 => crc [(payload >>> 8).toUInt8, payload.toUInt8]

/-- A response carrying the given payload words. -/
def encodeWords {words : Nat} (payload : Fin words → UInt16) : Vector UInt8 (words * kWordSize) :=
  Vector.ofFn fun j =>
    wireByte (payload ⟨j / kWordSize, Nat.div_lt_of_lt_mul (by simp [Nat.mul_comm])⟩)
      ⟨j % kWordSize, Nat.mod_lt _ (by decide)⟩

theorem wordByte_encodeWords {words : Nat} (payload : Fin words → UInt16) (i : Fin words)
    (k : Fin kWordSize) : wordByte (encodeWords payload) i k = wireByte (payload i) k := by
  have hk : (k : Nat) < 3 := k.isLt
  have hdiv : ((i : Nat) * 3 + k) / 3 = i := by omega
  have hmod : ((i : Nat) * 3 + k) % 3 = k := by omega
  simp [wordByte, wordIndex, encodeWords, hdiv, hmod]

/-- An encoded response passes its own CRC check. -/
theorem checkWordsCrc_encodeWords {words : Nat} (payload : Fin words → UInt16) :
    checkWordsCrc words (encodeWords payload) = true := by
  rw [checkWordsCrc_iff]
  intro i
  simp only [wordByte_encodeWords]
  rfl

/-- Reading a word of an encoded response gives back its payload. -/
@[simp] theorem word_encodeWords {words : Nat} (payload : Fin words → UInt16) (i : Fin words) :
    word (encodeWords payload) i = payload i := by
  have hlt := (payload i).toNat_lt
  apply UInt16.toNat_inj.mp
  rw [toNat_word, wordByte_encodeWords, wordByte_encodeWords]
  simp only [wireByte, UInt16.toNat_toUInt8, UInt16.toNat_shiftRight]
  simp [Nat.shiftRight_eq_div_pow]
  omega

/-- Encoding the words of a response that passes its CRC check gives back the
    same bytes. -/
theorem encodeWords_word {words : Nat} {raw : Vector UInt8 (words * kWordSize)}
    (hcrc : checkWordsCrc words raw = true) : encodeWords (word raw) = raw := by
  rw [checkWordsCrc_iff] at hcrc
  apply wordByte_ext
  intro i k
  rw [wordByte_encodeWords]
  match k with
  | 0 => exact toUInt8_bigEndian_shiftRight _ _
  | 1 => exact toUInt8_bigEndian _ _
  | 2 =>
    change crc [(word raw i >>> 8).toUInt8, (word raw i).toUInt8] = wordByte raw i 2
    rw [← hcrc i, word, toUInt8_bigEndian_shiftRight, toUInt8_bigEndian]

/-- A measurement response whose every CRC matches. -/
structure Frame where
  raw : Vector UInt8 kMeasurementBytes
  crc : checkWordsCrc kMeasurementWords raw = true

def Frame.measurement (frame : Frame) : Measurement := decodeMeasurement frame.raw

/-- The frame that carries the given payload words. -/
def Frame.encode (payload : Fin kMeasurementWords → UInt16) : Frame :=
  ⟨encodeWords payload, checkWordsCrc_encodeWords payload⟩

/-- The frame of a sensor with no reading on any channel. -/
def Frame.warmUp : Frame := .encode fun i => if 4 ≤ i ∧ i ≤ 7 then 0x7FFF else 0xFFFF

end Sen66
