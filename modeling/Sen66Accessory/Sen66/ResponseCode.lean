import Sen66Accessory.Sen66.ErrorDetection
import Mathlib.SetTheory.Cardinal.Finite

open Polynomial BitPolynomial

namespace Sen66

variable {words : Nat}

/-- The accepted responses carry their payload words one to one. -/
def acceptedEquiv (words : Nat) : (Fin words → UInt16) ≃
    {raw : Vector UInt8 (words * kWordSize) // checkWordsCrc words raw = true} where
  toFun payload := ⟨encodeWords payload, checkWordsCrc_encodeWords payload⟩
  invFun raw := word raw.1
  left_inv payload := funext fun i => word_encodeWords payload i
  right_inv raw := Subtype.ext (encodeWords_word raw.2)

theorem card_uint16 : Nat.card UInt16 = 65536 := by
  have hfin : UInt16 ≃ Fin (2 ^ 16) :=
    ⟨UInt16.toFin, UInt16.ofFin, fun _ => rfl, fun _ => rfl⟩
  exact (Nat.card_congr hfin).trans (Nat.card_fin _)

theorem card_accepted (words : Nat) :
    Nat.card {raw : Vector UInt8 (words * kWordSize) // checkWordsCrc words raw = true} =
      65536 ^ words := by
  rw [← Nat.card_congr (acceptedEquiv words), Nat.card_fun, card_uint16, Nat.card_fin]

/-- The same flips undo a corruption. -/
theorem corrupt_corrupt {n : Nat} (raw error : Vector UInt8 n) :
    corrupt raw (corrupt raw error) = error := by
  ext i hi
  simp [corrupt]

/-- For any response the errors that lead to an accepted one are as many as there
    are accepted responses. -/
theorem card_undetected (raw : Vector UInt8 (words * kWordSize)) :
    Nat.card {error // checkWordsCrc words (corrupt raw error) = true} = 65536 ^ words := by
  rw [← card_accepted words]
  refine Nat.card_congr ⟨fun error => ⟨corrupt raw error.1, error.2⟩,
    fun other => ⟨corrupt raw other.1, by rw [corrupt_corrupt]; exact other.2⟩, ?_, ?_⟩
  · exact fun error => Subtype.ext (corrupt_corrupt raw error.1)
  · exact fun other => Subtype.ext (corrupt_corrupt raw other.1)

/-- An error goes unnoticed exactly when every word of it leaves an empty register
    empty. -/
theorem checkWordsCrc_corrupt_iff_foldl {raw error : Vector UInt8 (words * kWordSize)}
    (hraw : checkWordsCrc words raw = true) :
    checkWordsCrc words (corrupt raw error) = true ↔
      ∀ i, (wordBytes error i).foldl crcByte 0 = 0 := by
  rw [checkWordsCrc_corrupt_iff_crc_eq hraw]
  refine forall_congr' fun i => ?_
  have hlength : (wordBytes (corrupt raw error) i).length = (wordBytes raw i).length := rfl
  rw [← UInt8.xor_eq_zero_iff, crc_xor_crc hlength, zipWith_wordBytes_corrupt]

theorem degree_messagePolynomial_lt (error : Vector UInt8 (words * kWordSize)) (i : Fin words) :
    (messagePolynomial (wordBytes error i)).degree < (24 : Nat) := by
  rw [degree_lt_iff_coeff_zero]
  intro j hj
  by_contra hcoeff
  have hlt := ((mem_support_wordBytes error i j).mp (mem_support_iff.mpr hcoeff)).1
  omega

/-- An unnoticed error flips an even number of bits in each word, and never two. -/
theorem flipsInWord_of_dvd {error : Vector UInt8 (words * kWordSize)} {i : Fin words}
    (hdvd : crcGenerator.polynomial ∣ messagePolynomial (wordBytes error i)) :
    flipsInWord error i = 0 ∨ 4 ≤ flipsInWord error i ∧ Even (flipsInWord error i) := by
  have heven : Even (flipsInWord error i) := by
    rw [← Nat.not_odd_iff_even, ← card_support_wordBytes]
    exact fun hodd => crcGenerator.not_dvd_of_odd eval_one_crcGenerator hodd hdvd
  have hpair : flipsInWord error i ≠ 2 := by
    rw [← card_support_wordBytes]
    exact fun htwo => crcGenerator.not_dvd_of_pair crcGenerator_order
      (degree_messagePolynomial_lt error i) htwo hdvd
  obtain ⟨half, hhalf⟩ := heven
  rcases Nat.eq_zero_or_pos (flipsInWord error i) with hzero | hpos
  · exact Or.inl hzero
  · exact Or.inr ⟨by omega, half, hhalf⟩

/-- An error with the given bytes in one word and nothing in the others. -/
def errorInWord (i : Fin words) (bytes : Nat → UInt8) : Vector UInt8 (words * kWordSize) :=
  Vector.ofFn fun j => if (j : Nat) / kWordSize = i then bytes (j % kWordSize) else 0

theorem wordByte_errorInWord (i j : Fin words) (bytes : Nat → UInt8) (k : Fin kWordSize) :
    wordByte (errorInWord i bytes) j k = if j = i then bytes k else 0 := by
  have hk : (k : Nat) < 3 := k.isLt
  have hdiv : ((j : Nat) * 3 + k) / 3 = j := by omega
  have hmod : ((j : Nat) * 3 + k) % 3 = k := by omega
  simp [wordByte, wordIndex, errorInWord, hdiv, hmod, Fin.ext_iff]

/-- The bits flipped in a word depend on its bytes alone. -/
theorem flipsInWord_congr {words' : Nat} {error : Vector UInt8 (words * kWordSize)}
    {error' : Vector UInt8 (words' * kWordSize)} {i : Fin words} {i' : Fin words'}
    (hbytes : wordBytes error i = wordBytes error' i') :
    flipsInWord error i = flipsInWord error' i' := by
  rw [← card_support_wordBytes, ← card_support_wordBytes, hbytes]

/-- The bytes of the generator. -/
def generatorBytes : Nat → UInt8
  | 1 => 0x01
  | 2 => 0x31
  | _ => 0x00

/-- A response of one word for them, and one of empty bytes. -/
def generatorError : Vector UInt8 (1 * kWordSize) := #v[0x00, 0x01, 0x31]

def noError : Vector UInt8 (1 * kWordSize) := #v[0x00, 0x00, 0x00]

/-- What the CRC lets through. Whatever response was sent, one error pattern in 256
    for each of its words leads to an accepted response; a pattern that does flips
    at least four bits, and an even number of them, in every word it touches; and
    four flips in a single word can be enough, in whichever word. -/
theorem undetected_errors {raw : Vector UInt8 (words * kWordSize)}
    (hraw : checkWordsCrc words raw = true) :
    Nat.card {error // checkWordsCrc words (corrupt raw error) = true} = 65536 ^ words ∧
    (∀ error, checkWordsCrc words (corrupt raw error) = true → ∀ i,
      flipsInWord error i = 0 ∨ 4 ≤ flipsInWord error i ∧ Even (flipsInWord error i)) ∧
    ∀ i : Fin words, ∃ error, checkWordsCrc words (corrupt raw error) = true ∧
      flipsInWord error i = 4 ∧ ∀ j, j ≠ i → flipsInWord error j = 0 := by
  refine ⟨card_undetected raw, fun error herror i => ?_, fun i => ?_⟩
  · exact flipsInWord_of_dvd ((checkWordsCrc_corrupt_iff hraw).mp herror i)
  · have hself : wordBytes (errorInWord i generatorBytes) i =
        wordBytes generatorError 0 := by
      simp only [wordBytes, wordByte_errorInWord, if_true]
      rfl
    have hother (j : Fin words) (hj : j ≠ i) : wordBytes (errorInWord i generatorBytes) j =
        wordBytes noError 0 := by
      simp only [wordBytes, wordByte_errorInWord, hj, if_false]
      rfl
    refine ⟨errorInWord i generatorBytes, ?_, ?_, fun j hj => ?_⟩
    · rw [checkWordsCrc_corrupt_iff_foldl hraw]
      intro j
      by_cases hj : j = i
      · rw [hj, hself]
        decide +kernel
      · rw [hother j hj]
        decide +kernel
    · rw [flipsInWord_congr hself]
      decide +kernel
    · rw [flipsInWord_congr (hother j hj)]
      decide +kernel

/-- In a frame without readings. -/
theorem undetected_errors_warmUp :
    ∃ error, checkWordsCrc kMeasurementWords (corrupt Frame.warmUp.raw error) = true ∧
      flipsInWord error 8 = 4 ∧ ∀ j, j ≠ 8 → flipsInWord error j = 0 :=
  (undetected_errors Frame.warmUp.crc).2.2 8

end Sen66
