import Sen66Accessory.BitPolynomial
import Sen66Accessory.Sen66.Crc

open Polynomial BitPolynomial

namespace Sen66

/-- The generator of the CRC: `kPolynomial` with the leading coefficient that
    does not fit the register. -/
def crcGenerator : Generator where
  width := 8
  low := 0x31
  low_lt := by decide
  low_odd := by decide

/-- The polynomial of a byte string, the most significant bit of its first byte
    being the leading coefficient. -/
noncomputable def messagePolynomial (data : List UInt8) : (ZMod 2)[X] :=
  ofSymbols 8 (data.map UInt8.toNat)

theorem polynomial_crcGenerator : crcGenerator.polynomial = X ^ 8 + X ^ 5 + X ^ 4 + 1 := by
  have hlow : (0x31 : Nat) = 2 ^ 5 ^^^ 2 ^ 4 ^^^ 2 ^ 0 := by decide
  change X ^ 8 + ofNat 0x31 = _
  rw [hlow, ofNat_xor, ofNat_xor, ofNat_two_pow, ofNat_two_pow, ofNat_two_pow]
  ring

theorem ofNat_kInit :
    ofNat kInit.toNat = X ^ 7 + X ^ 6 + X ^ 5 + X ^ 4 + X ^ 3 + X ^ 2 + X + 1 := by
  have hinit : kInit.toNat =
      2 ^ 7 ^^^ 2 ^ 6 ^^^ 2 ^ 5 ^^^ 2 ^ 4 ^^^ 2 ^ 3 ^^^ 2 ^ 2 ^^^ 2 ^ 1 ^^^ 2 ^ 0 := by decide
  rw [hinit]
  simp only [ofNat_xor, ofNat_two_pow, -Nat.reducePow]
  rw [pow_one, pow_zero]

/-- A bit step of the code is a turn of the shift register. -/
theorem toNat_crcBit (crc : UInt8) : (crcBit crc).toNat = crcGenerator.shift crc.toNat := by
  have hbit : (crc &&& 0x80 != 0) = crc.toNat.testBit 7 := by
    have hmask : (crc &&& 0x80).toNat = (crc.toNat.testBit 7).toNat * 2 ^ 7 := by
      rw [UInt8.toNat_and]
      exact Nat.and_two_pow crc.toNat 7
    rw [bne, Bool.eq_iff_iff, Bool.not_eq_true', beq_eq_false_iff_ne, Ne, ← UInt8.toNat_inj, hmask]
    cases crc.toNat.testBit 7 <;> simp
  have hshift : (crc <<< 1).toNat = 2 * crc.toNat % 2 ^ 8 := by
    rw [UInt8.toNat_shiftLeft, show (1 : UInt8).toNat % 8 = 1 from rfl, Nat.shiftLeft_eq,
      Nat.mul_comm, pow_one]
  rw [crcBit, hbit, Generator.shift]
  change _ = if crc.toNat.testBit 7 then 2 * crc.toNat % 2 ^ 8 ^^^ 0x31 else 2 * crc.toNat % 2 ^ 8
  split
  · rw [UInt8.toNat_xor, hshift]
    rfl
  · exact hshift

/-- Absorbing a byte takes it into the register as one symbol. -/
theorem toNat_crcByte (crc byte : UInt8) :
    (crcByte crc byte).toNat = crcGenerator.absorb crc.toNat byte.toNat := by
  have hsteps : Function.Semiconj UInt8.toNat crcBit crcGenerator.shift := toNat_crcBit
  rw [crcByte, (hsteps.iterate_right 8).eq, UInt8.toNat_xor]
  rfl

/-- The loop over the bytes runs the register over the message. -/
theorem toNat_foldl_crcByte (crc : UInt8) (data : List UInt8) :
    (data.foldl crcByte crc).toNat = crcGenerator.run crc.toNat (data.map UInt8.toNat) := by
  induction data generalizing crc with
  | nil => rfl
  | cons byte data ih => rw [List.foldl_cons, ih, toNat_crcByte, List.map_cons]; rfl

private theorem map_toNat_zipWith_xor (a b : List UInt8) :
    (List.zipWith (· ^^^ ·) a b).map UInt8.toNat =
      List.zipWith (· ^^^ ·) (a.map UInt8.toNat) (b.map UInt8.toNat) := by
  rw [List.map_zipWith, List.zipWith_map]
  simp only [UInt8.toNat_xor]

/-- The polynomial of a difference is the difference of the polynomials. -/
theorem messagePolynomial_zipWith_xor {a b : List UInt8} (hlength : a.length = b.length) :
    messagePolynomial (List.zipWith (· ^^^ ·) a b) =
      messagePolynomial a - messagePolynomial b := by
  rw [messagePolynomial, map_toNat_zipWith_xor, ofSymbols_zipWith_xor 8 (by simpa using hlength),
    CharTwo.sub_eq_add]
  rfl

/-- The symbols of a message are bytes. -/
theorem symbols_lt (data : List UInt8) :
    ∀ symbol ∈ data.map UInt8.toNat, symbol < 2 ^ 8 := by
  intro symbol hsymbol
  obtain ⟨byte, _, rfl⟩ := List.mem_map.mp hsymbol
  exact byte.toNat_lt

/-- A byte behind a message empties the register exactly when it is the CRC of
    the message. -/
theorem crc_concat_eq_zero_iff (data : List UInt8) (byte : UInt8) :
    crc (data ++ [byte]) = 0 ↔ crc data = byte := by
  rw [crc, List.foldl_append, List.foldl_cons, List.foldl_nil, ← UInt8.toNat_inj, toNat_crcByte,
    ← UInt8.toNat_inj]
  exact crcGenerator.absorb_eq_zero_iff (UInt8.toNat_lt _) byte.toNat_lt

/-- Messages of one length have the same CRC exactly when the generator divides
    the difference of their polynomials. -/
theorem crc_eq_iff_dvd {a b : List UInt8} (hlength : a.length = b.length) :
    crc a = crc b ↔ crcGenerator.polynomial ∣ messagePolynomial a - messagePolynomial b := by
  rw [← UInt8.toNat_inj, crc, crc, toNat_foldl_crcByte, toNat_foldl_crcByte]
  exact crcGenerator.run_eq_iff_dvd kInit.toNat_lt (by simpa using hlength) (symbols_lt a)
    (symbols_lt b)

/-- The CRC of two messages of one length differs by what the loop computes from
    an empty register on their difference. -/
theorem crc_xor_crc {a b : List UInt8} (hlength : a.length = b.length) :
    crc a ^^^ crc b = (List.zipWith (· ^^^ ·) a b).foldl crcByte 0 := by
  rw [← UInt8.toNat_inj, UInt8.toNat_xor, crc, crc, toNat_foldl_crcByte, toNat_foldl_crcByte,
    toNat_foldl_crcByte, map_toNat_zipWith_xor]
  exact crcGenerator.run_xor_run kInit.toNat_lt (by simpa using hlength) (symbols_lt a)
    (symbols_lt b)

/-- The CRC is the remainder of the message, with the initial value in front of
    it, by the generator, and is not inverted. So a message followed by its CRC
    leaves zero, and the CRC of two messages of one length differs by a function
    of their difference, which is zero exactly on the multiples of the
    generator. -/
theorem crc_eq_remainder :
    (∀ data : List UInt8, ofNat (crc data).toNat =
      (messagePolynomial data * X ^ 8 +
        (X ^ 7 + X ^ 6 + X ^ 5 + X ^ 4 + X ^ 3 + X ^ 2 + X + 1) * X ^ (8 * data.length)) %ₘ
          (X ^ 8 + X ^ 5 + X ^ 4 + 1)) ∧
    (∀ data : List UInt8, crc (data ++ [crc data]) = 0) ∧
    (∀ a b : List UInt8, a.length = b.length →
      crc a ^^^ crc b = (List.zipWith (· ^^^ ·) a b).foldl crcByte 0 ∧
      (crc a ^^^ crc b = 0 ↔
        X ^ 8 + X ^ 5 + X ^ 4 + 1 ∣ messagePolynomial (List.zipWith (· ^^^ ·) a b))) := by
  refine ⟨fun data => ?_, fun data => ?_, fun a b hlength => ⟨crc_xor_crc hlength, ?_⟩⟩
  · rw [crc, toNat_foldl_crcByte, crcGenerator.ofNat_run kInit.toNat_lt (symbols_lt data),
      ofNat_kInit, polynomial_crcGenerator, List.length_map]
    rfl
  · exact (crc_concat_eq_zero_iff data (crc data)).mpr rfl
  · rw [UInt8.xor_eq_zero_iff, messagePolynomial_zipWith_xor hlength, ← polynomial_crcGenerator]
    exact crc_eq_iff_dvd hlength

end Sen66
