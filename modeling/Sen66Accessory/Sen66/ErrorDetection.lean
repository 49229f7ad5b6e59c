import Sen66Accessory.BitPolynomial.Detection
import Sen66Accessory.Sen66.CrcPolynomial
import Sen66Accessory.Sen66.Encoding
import Sen66Accessory.Sen66.Serial

open Polynomial BitPolynomial

namespace Sen66

/-- A response with the bits of an error pattern flipped. -/
def corrupt {n : Nat} (raw error : Vector UInt8 n) : Vector UInt8 n :=
  Vector.zipWith (· ^^^ ·) raw error

/-- Whether an error pattern flips bit `p` on the wire, where every byte travels
    most significant bit first. -/
def flips {n : Nat} (error : Vector UInt8 n) (p : Nat) : Bool :=
  (error.toList.getD (p / 8) 0).toNat.testBit (7 - p % 8)

/-- How many of the 24 bits of word `i` an error pattern flips. -/
def flipsInWord {words : Nat} (error : Vector UInt8 (words * kWordSize)) (i : Fin words) : Nat :=
  ((Finset.range 24).filter fun p => flips error (24 * i + p)).card

/-- The errors the CRC is there to find. -/
inductive Detectable {words : Nat} (error : Vector UInt8 (words * kWordSize)) : Prop where
  /-- Some word suffers one, two or three flips, or any odd number of them. -/
  | word (i : Fin words)
      (hflips : flipsInWord error i = 1 ∨ flipsInWord error i = 2 ∨ flipsInWord error i = 3 ∨
        Odd (flipsInWord error i))
  /-- All flips lie within eight consecutive bits. -/
  | burst (start : Nat) (hnear : ∀ p, flips error p = true → start ≤ p ∧ p < start + 8)

/-- The bytes of a word in wire order. -/
def wordBytes {words : Nat} (buf : Vector UInt8 (words * kWordSize)) (i : Fin words) :
    List UInt8 :=
  [wordByte buf i 0, wordByte buf i 1, wordByte buf i 2]

theorem wordByte_corrupt {words : Nat} (raw error : Vector UInt8 (words * kWordSize))
    (i : Fin words) (k : Fin kWordSize) :
    wordByte (corrupt raw error) i k = wordByte raw i k ^^^ wordByte error i k := by
  simp [wordByte, corrupt]

/-- A word passes its check exactly when its three bytes together leave zero. -/
theorem crc_wordBytes_eq_zero_iff {words : Nat} (buf : Vector UInt8 (words * kWordSize))
    (i : Fin words) :
    crc (wordBytes buf i) = 0 ↔ crc [wordByte buf i 0, wordByte buf i 1] = wordByte buf i 2 :=
  crc_concat_eq_zero_iff [wordByte buf i 0, wordByte buf i 1] (wordByte buf i 2)

/-- The difference between a corrupted word and the word is the error. -/
theorem zipWith_wordBytes_corrupt {words : Nat} (raw error : Vector UInt8 (words * kWordSize))
    (i : Fin words) :
    List.zipWith (· ^^^ ·) (wordBytes (corrupt raw error) i) (wordBytes raw i) =
      wordBytes error i := by
  have hcancel (a b : UInt8) : a ^^^ b ^^^ a = b := by
    rw [UInt8.xor_comm a b, UInt8.xor_assoc, UInt8.xor_self, UInt8.xor_zero]
  simp only [wordBytes, List.zipWith_cons_cons, List.zipWith_nil_left, wordByte_corrupt, hcancel]

/-- An error goes unnoticed exactly when it changes the CRC of no word. -/
theorem checkWordsCrc_corrupt_iff_crc_eq {words : Nat}
    {raw error : Vector UInt8 (words * kWordSize)} (hraw : checkWordsCrc words raw = true) :
    checkWordsCrc words (corrupt raw error) = true ↔
      ∀ i, crc (wordBytes (corrupt raw error) i) = crc (wordBytes raw i) := by
  rw [checkWordsCrc_iff] at hraw ⊢
  refine forall_congr' fun i => ?_
  rw [(crc_wordBytes_eq_zero_iff raw i).mpr (hraw i), crc_wordBytes_eq_zero_iff]

/-- An error goes unnoticed exactly when the generator divides it in every word,
    whatever the response was. -/
theorem checkWordsCrc_corrupt_iff {words : Nat} {raw error : Vector UInt8 (words * kWordSize)}
    (hraw : checkWordsCrc words raw = true) :
    checkWordsCrc words (corrupt raw error) = true ↔
      ∀ i, crcGenerator.polynomial ∣ messagePolynomial (wordBytes error i) := by
  rw [checkWordsCrc_corrupt_iff_crc_eq hraw]
  refine forall_congr' fun i => ?_
  have hlength : (wordBytes (corrupt raw error) i).length = (wordBytes raw i).length := rfl
  rw [crc_eq_iff_dvd hlength, ← messagePolynomial_zipWith_xor hlength, zipWith_wordBytes_corrupt]

theorem getD_wordBytes {words : Nat} (buf : Vector UInt8 (words * kWordSize)) (i : Fin words)
    (k : Fin kWordSize) :
    ((wordBytes buf i).map UInt8.toNat).getD k 0 = (wordByte buf i k).toNat := by
  match k with
  | 0 | 1 | 2 => rfl

theorem getD_toList {words : Nat} (buf : Vector UInt8 (words * kWordSize)) (i : Fin words)
    (k : Fin kWordSize) : buf.toList.getD (i * 3 + k) 0 = wordByte buf i k := by
  have hlt : (i : Nat) * 3 + k < buf.toList.length := by
    rw [Vector.length_toList]
    exact (wordIndex i k).isLt
  rw [List.getD_eq_getElem _ _ hlt]
  rfl

/-- The wire bits of a response are those of its words. -/
theorem flips_word {words : Nat} (error : Vector UInt8 (words * kWordSize)) (i : Fin words) {p : Nat}
    (hp : p < 24) :
    flips error (24 * i + p) = wireBit 8 ((wordBytes error i).map UInt8.toNat) p := by
  have hdiv : (24 * i + p) / 8 = i * 3 + p / 8 := by omega
  have hmod : (24 * i + p) % 8 = p % 8 := by omega
  have hbyte : p / 8 < kWordSize := Nat.div_lt_of_lt_mul hp
  obtain ⟨k, hk⟩ : ∃ k : Fin kWordSize, (k : Nat) = p / 8 := ⟨⟨p / 8, hbyte⟩, rfl⟩
  rw [flips, wireBit, hdiv, hmod, ← hk, getD_toList, getD_wordBytes]

/-- The first of the wire bits of a byte is its most significant one. -/
theorem flips_byte {words : Nat} (error : Vector UInt8 (words * kWordSize)) (i : Fin words)
    (k : Fin kWordSize) {j : Nat} (hj : j < 8) :
    flips error (24 * i + (8 * k + (7 - j))) = (wordByte error i k).toNat.testBit j := by
  have hdiv : (24 * (i : Nat) + (8 * k + (7 - j))) / 8 = i * 3 + k := by omega
  have hmod : 7 - (24 * (i : Nat) + (8 * k + (7 - j))) % 8 = j := by omega
  rw [flips, hdiv, hmod, getD_toList]

/-- The flips of a word are the terms of its error polynomial. -/
theorem card_support_wordBytes {words : Nat} (error : Vector UInt8 (words * kWordSize))
    (i : Fin words) :
    (messagePolynomial (wordBytes error i)).support.card = flipsInWord error i := by
  rw [messagePolynomial, card_support_ofSymbols (symbols_lt (wordBytes error i))]
  refine congrArg Finset.card (Finset.filter_congr fun p hp => ?_)
  rw [flips_word error i (Finset.mem_range.mp hp)]

theorem mem_support_wordBytes {words : Nat} (error : Vector UInt8 (words * kWordSize))
    (i : Fin words) (j : Nat) :
    j ∈ (messagePolynomial (wordBytes error i)).support ↔
      j < 24 ∧ flips error (24 * i + (23 - j)) = true := by
  rw [messagePolynomial, mem_support_ofSymbols (symbols_lt (wordBytes error i))]
  change j < 24 ∧ wireBit 8 _ (23 - j) = true ↔ _
  rw [flips_word error i (by omega)]

/-- A non-zero error flips some bit of some word. -/
theorem exists_flips {words : Nat} {error : Vector UInt8 (words * kWordSize)}
    (hne : error ≠ Vector.replicate _ 0) :
    ∃ (i : Fin words) (p : Nat), p < 24 ∧ flips error (24 * i + p) = true := by
  by_contra hnone
  push Not at hnone
  refine hne (wordByte_ext fun i k => ?_)
  have hzero : wordByte (Vector.replicate (words * kWordSize) (0 : UInt8)) i k = 0 := by
    simp [wordByte]
  have hk : (k : Nat) < 3 := k.isLt
  rw [hzero, ← UInt8.toNat_inj]
  apply Nat.eq_of_testBit_eq
  intro j
  rw [UInt8.toNat_zero, Nat.zero_testBit]
  by_cases hj : j < 8
  · rw [← flips_byte error i k hj, ← Bool.not_eq_true]
    exact hnone i _ (by omega)
  · have hlarge : (wordByte error i k).toNat < 2 ^ j :=
      (wordByte error i k).toNat_lt.trans_le (Nat.pow_le_pow_right (by decide) (by omega))
    exact Nat.testBit_lt_two_pow hlarge

/-- The generator has the factor `X + 1`. -/
theorem eval_one_crcGenerator : crcGenerator.polynomial.eval 1 = 0 := by
  rw [polynomial_crcGenerator]
  simp
  rfl

/-- It takes the register more turns than a word has bits to come back to one. -/
theorem crcGenerator_order : ∀ d < 24, 0 < d → crcGenerator.shift^[d] 1 ≠ 1 := by
  decide

/-- A detectable error is noticed in one of the words. -/
theorem Detectable.exists_not_dvd {words : Nat} {error : Vector UInt8 (words * kWordSize)}
    (hne : error ≠ Vector.replicate _ 0) (herror : Detectable error) :
    ∃ i, ¬ crcGenerator.polynomial ∣ messagePolynomial (wordBytes error i) := by
  cases herror with
  | word i hflips =>
    refine ⟨i, ?_⟩
    rw [← card_support_wordBytes] at hflips
    have hdegree : (messagePolynomial (wordBytes error i)).degree < (24 : Nat) := by
      rw [degree_lt_iff_coeff_zero]
      intro j hj
      by_contra hcoeff
      have hlt := ((mem_support_wordBytes error i j).mp (mem_support_iff.mpr hcoeff)).1
      omega
    rcases hflips with hone | htwo | hthree | hodd
    · exact crcGenerator.not_dvd_of_odd eval_one_crcGenerator (by simp [hone])
    · exact crcGenerator.not_dvd_of_pair crcGenerator_order hdegree htwo
    · exact crcGenerator.not_dvd_of_odd eval_one_crcGenerator (by rw [hthree]; decide)
    · exact crcGenerator.not_dvd_of_odd eval_one_crcGenerator hodd
  | burst start hnear =>
    -- A burst that spans two words is still one in whichever of them it reaches.
    obtain ⟨i, p, hp, hflip⟩ := exists_flips hne
    have hterm : 23 - p ∈ (messagePolynomial (wordBytes error i)).support := by
      rw [mem_support_wordBytes, show 23 - (23 - p) = p by omega]
      exact ⟨by omega, hflip⟩
    have hnonzero : messagePolynomial (wordBytes error i) ≠ 0 := by
      intro hzero
      simp [hzero] at hterm
    refine ⟨i, crcGenerator.not_dvd_of_burst hnonzero (24 * i + 23 - (start + 7)) ?_⟩
    intro j hj
    obtain ⟨hlt, hflip⟩ := (mem_support_wordBytes error i j).mp hj
    obtain ⟨hfrom, hto⟩ := hnear _ hflip
    change _ ∧ j < _ + 8
    omega

/-- A detectable error on a response that passes its CRC check makes it fail. -/
theorem checkWordsCrc_corrupt {words : Nat} {raw error : Vector UInt8 (words * kWordSize)}
    (hraw : checkWordsCrc words raw = true) (hne : error ≠ Vector.replicate _ 0)
    (herror : Detectable error) : checkWordsCrc words (corrupt raw error) = false := by
  obtain ⟨i, hi⟩ := herror.exists_not_dvd hne
  rw [← Bool.not_eq_true, checkWordsCrc_corrupt_iff hraw]
  exact fun h => hi (h i)

/-- The responses of the sensor are rejected when they are corrupted by a
    detectable error, and the out-parameter is left alone. -/
theorem corrupted_responses_rejected :
    (∀ (raw error : Vector UInt8 kMeasurementBytes) (previous out : Measurement),
      (parseMeasurement raw previous).1 = true → error ≠ Vector.replicate _ 0 →
      Detectable error → parseMeasurement (corrupt raw error) out = (false, out)) ∧
    (∀ (raw error : Vector UInt8 kSerialBytes) (previous out : CharBuffer),
      (parseSerialNumber raw previous).1 = true → error ≠ Vector.replicate _ 0 →
      Detectable error → parseSerialNumber (corrupt raw error) out = (false, out)) := by
  refine ⟨fun raw error previous out hraw hne herror => ?_,
    fun raw error previous out hraw hne herror => ?_⟩
  · rw [parseMeasurement_eq] at hraw
    rw [parseMeasurement, checkWordsCrc_corrupt hraw hne herror]
    rfl
  · rw [parseSerialNumber_eq] at hraw
    rw [parseSerialNumber, checkWordsCrc_corrupt hraw hne herror]
    rfl

/-- The first and the last bit of the first word flipped in a frame without
    readings. -/
theorem corrupted_responses_rejected_twoFlips :
    parseMeasurement
        (corrupt Frame.warmUp.raw (Vector.ofFn fun j => if j = 0 then 0x80 else if j = 2 then 1 else 0))
        {} = (false, {}) :=
  corrupted_responses_rejected.1 _ _ {} {} (by decide +kernel) (by decide +kernel)
    (.word 0 (.inr (.inl (by decide +kernel))))

end Sen66
