import Mathlib.Data.Rat.Floor
import Mathlib.Tactic.Linarith
import Mathlib.Tactic.NormNum
import Mathlib.Tactic.Positivity
import Mathlib.Tactic.Ring

open Float.Model Float.Model.UnpackedFloat

namespace Binary32

@[simp] theorem mantissaBits_binary32 : Format.binary32.mantissaBits = 24 := rfl
@[simp] theorem minExponent_binary32 : Format.binary32.minExponent = -149 := rfl

/-- The mantissa, with its implicit bit, and the exponent of a normal number. -/
structure Normal (m : Nat) (e : Int) : Prop where
  mantissa_ge : 2 ^ 23 ≤ m
  mantissa_lt : m < 2 ^ 24
  exponent_ge : -149 ≤ e
  exponent_le : e ≤ 104

section

variable {m : Nat} {e : Int}

theorem Normal.pos (h : Normal m e) : 0 < m :=
  Nat.lt_of_lt_of_le (Nat.two_pow_pos 23) h.mantissa_ge

theorem Normal.value_pos (h : Normal m e) : (0 : Rat) < m * 2 ^ e :=
  mul_pos (Nat.cast_pos.mpr h.pos) (zpow_pos two_pos e)

theorem log2_of_lt (hge : 2 ^ 23 ≤ m) (hlt : m < 2 ^ 24) : m.log2 = 23 :=
  (Nat.log2_eq_iff (by omega)).mpr ⟨hge, hlt⟩

theorem unpackSign_positive (exponent : BitVec 8) (mantissa : BitVec 23) :
    unpackSign (packComponents Format.binary32 .positive exponent mantissa) = 0#1 := by
  change ((0#1 ++ exponent ++ mantissa : BitVec 32).extractLsb 31 31) = 0#1
  rw [BitVec.extractLsb, BitVec.extractLsb'_append_eq_of_le (by omega),
    BitVec.extractLsb'_append_eq_of_le (by omega)]
  rfl

/-- A normal number is packed with its exponent biased and its implicit bit cut. -/
theorem pack_normal (h : Normal m e) {biased : Nat} (hbiased : (biased : Int) = e + 150) :
    UnpackedFloat.pack Format.binary32 (.finite .positive m e h.pos) =
      packComponents Format.binary32 .positive (BitVec.ofNat 8 biased) (BitVec.ofNat 23 m) := by
  have hexponent : (e + (127 : Nat) + (23 : Nat)).toNat = biased := by omega
  have hhigh := h.exponent_le
  have hlarge : ¬ 2 ^ 8 ≤ (e + (127 : Nat) + (23 : Nat)).toNat + 1 := by omega
  have hlog : m.log2 + 1 = 24 := by rw [log2_of_lt h.mantissa_ge h.mantissa_lt]
  rw [← hexponent]
  exact (if_neg hlarge).trans (if_pos hlog)

/-- What is not zero, subnormal or special is unpacked as a normal number. -/
theorem unpack_packComponents {exponent : BitVec 8} {mantissa : BitVec 23} (hpos : 0 < m)
    (hones : exponent ≠ -1#8) (hzero : exponent ≠ 0#8) (hmantissa : (1#1 ++ mantissa).toNat = m)
    (hexponent : (exponent.toNat : Int) - ((127 : Nat) + (23 : Nat)) = e) :
    UnpackedFloat.unpack Format.binary32
      (packComponents Format.binary32 .positive exponent mantissa) = .finite .positive m e hpos := by
  have hexponent' :
      unpackExponent (packComponents Format.binary32 .positive exponent mantissa) = exponent :=
    unpackExponent_packComponents
  have hmantissa' :
      unpackMantissa (packComponents Format.binary32 .positive exponent mantissa) = mantissa :=
    unpackMantissa_packComponents
  have hsign := unpackSign_positive exponent mantissa
  generalize packComponents Format.binary32 .positive exponent mantissa = bits at *
  subst hexponent' hmantissa' hmantissa hexponent
  refine (if_neg hones).trans ((if_neg hzero).trans ?_)
  rw [hsign]
  rfl

/-- A normal number survives being packed. -/
theorem unpack_pack (h : Normal m e) :
    (Float32.Model.pack (.finite .positive m e h.pos)).unpack = .finite .positive m e h.pos := by
  obtain ⟨biased, hbiased⟩ : ∃ biased : Nat, (biased : Int) = e + 150 :=
    ⟨(e + 150).toNat, by have := h.exponent_ge; omega⟩
  have hlow := h.exponent_ge
  have hhigh := h.exponent_le
  have hge := h.mantissa_ge
  have hlt := h.mantissa_lt
  have hones : BitVec.ofNat 8 biased ≠ -1#8 := by
    rw [Ne, ← BitVec.toNat_inj, BitVec.toNat_ofNat]
    change ¬ biased % 256 = 255
    omega
  have hzero : BitVec.ofNat 8 biased ≠ 0#8 := by
    rw [Ne, ← BitVec.toNat_inj, BitVec.toNat_ofNat]
    change ¬ biased % 256 = 0
    omega
  have hmantissa : (1#1 ++ BitVec.ofNat 23 m).toNat = m := by
    rw [BitVec.toNat_append, BitVec.toNat_ofNat, BitVec.toNat_ofNat,
      ← Nat.shiftLeft_add_eq_or_of_lt (Nat.mod_lt _ (Nat.two_pow_pos 23)), Nat.shiftLeft_eq]
    omega
  have hexponent : ((BitVec.ofNat 8 biased).toNat : Int) - ((127 : Nat) + (23 : Nat)) = e := by
    rw [BitVec.toNat_ofNat]
    omega
  calc (Float32.Model.pack (.finite .positive m e h.pos)).unpack
    _ = UnpackedFloat.unpack Format.binary32
        (UnpackedFloat.pack Format.binary32 (.finite .positive m e h.pos)) := rfl
    _ = UnpackedFloat.unpack Format.binary32 (packComponents Format.binary32 .positive
        (BitVec.ofNat 8 biased) (BitVec.ofNat 23 m)) := by rw [pack_normal h hbiased]
    _ = .finite .positive m e h.pos :=
      unpack_packComponents h.pos hones hzero hmantissa hexponent

/-- What an accuracy says of an exact value with a given integer part. -/
def Describes (m : Nat) (v : Rat) : Accuracy → Prop
  | .exact => v = m
  | .inexact .lt => m < v ∧ v < m + 1 / 2
  | .inexact .eq => v = m + 1 / 2
  | .inexact .gt => m + 1 / 2 < v ∧ v < m + 1

theorem Describes.of_inexact {v : Rat} {order : Ordering} (h : Describes m v (.inexact order)) :
    m < v ∧ v < m + 1 := by
  cases order with
  | lt => exact ⟨h.1, by linarith [h.2]⟩
  | eq =>
    have h : v = m + 1 / 2 := h
    constructor <;> linarith
  | gt => exact ⟨by linarith [h.1], h.2⟩

theorem Describes.le {v : Rat} {acc : Accuracy} (h : Describes m v acc) : m ≤ v := by
  cases acc with
  | exact => exact ge_of_eq h
  | inexact order => exact h.of_inexact.1.le

/-- Rounding moves a value by half a unit at most. -/
theorem Describes.rounded {v : Rat} {acc : Accuracy} (h : Describes m v acc) :
    |(acc.roundToNearestEven m : Rat) - v| ≤ 1 / 2 ∧
    m ≤ acc.roundToNearestEven m ∧ acc.roundToNearestEven m ≤ m + 1 := by
  match acc, h with
  | .exact, h =>
    rw [Accuracy.roundToNearestEven, show v = m from h]
    exact ⟨by norm_num, le_refl _, by omega⟩
  | .inexact .lt, ⟨hlow, hhigh⟩ =>
    rw [Accuracy.roundToNearestEven]
    exact ⟨abs_le.mpr ⟨by linarith, by linarith⟩, le_refl _, by omega⟩
  | .inexact .eq, h =>
    rw [Accuracy.roundToNearestEven, show v = m + 1 / 2 from h]
    refine ⟨?_, by omega, by omega⟩
    rcases Nat.mod_two_eq_zero_or_one m with hbit | hbit <;> rw [hbit] <;> norm_num [abs_of_nonneg]
  | .inexact .gt, ⟨hlow, hhigh⟩ =>
    rw [Accuracy.roundToNearestEven]
    push_cast
    exact ⟨abs_le.mpr ⟨by linarith, by linarith⟩, by omega, le_refl _⟩

theorem accuracy_ofMantissaAndAccuracy (m : Nat) (acc : Accuracy) :
    (ExtendedMantissa.ofMantissaAndAccuracy m acc).mantissa = m ∧
    (ExtendedMantissa.ofMantissaAndAccuracy m acc).accuracy = acc := by
  match acc with
  | .exact | .inexact .lt | .inexact .eq | .inexact .gt => exact ⟨rfl, rfl⟩

theorem mantissa_shiftRightOne (m : Nat) (acc : Accuracy) :
    (ExtendedMantissa.ofMantissaAndAccuracy m acc).shiftRightOne.mantissa = m / 2 := by
  rw [ExtendedMantissa.shiftRightOne, (accuracy_ofMantissaAndAccuracy m acc).1]

theorem accuracy_shiftRightOne_exact (m : Nat) :
    (ExtendedMantissa.ofMantissaAndAccuracy m .exact).shiftRightOne.accuracy =
      if m % 2 = 0 then .exact else .inexact .eq := by
  rcases Nat.mod_two_eq_zero_or_one m with hbit | hbit <;>
    simp [ExtendedMantissa.ofMantissaAndAccuracy, ExtendedMantissa.shiftRightOne,
      ExtendedMantissa.accuracy, hbit]

theorem accuracy_shiftRightOne_inexact (m : Nat) (order : Ordering) :
    (ExtendedMantissa.ofMantissaAndAccuracy m (.inexact order)).shiftRightOne.accuracy =
      if m % 2 = 0 then .inexact .lt else .inexact .gt := by
  rcases Nat.mod_two_eq_zero_or_one m with hbit | hbit <;> cases order <;>
    simp [ExtendedMantissa.ofMantissaAndAccuracy, ExtendedMantissa.shiftRightOne,
      ExtendedMantissa.accuracy, hbit]

/-- A shift halves the value. -/
theorem Describes.shiftRightOne {v : Rat} {acc : Accuracy} (h : Describes m v acc) :
    Describes (m / 2) (v / 2)
      (ExtendedMantissa.ofMantissaAndAccuracy m acc).shiftRightOne.accuracy := by
  have hhalves : (m : Rat) = 2 * (m / 2 : Nat) + (m % 2 : Nat) := by
    exact_mod_cast (Nat.div_add_mod m 2).symm
  cases acc with
  | exact =>
    have h : v = m := h
    rw [accuracy_shiftRightOne_exact]
    rcases Nat.mod_two_eq_zero_or_one m with hbit | hbit <;> rw [hbit] at hhalves ⊢ <;>
      simp only [Nat.cast_zero, Nat.cast_one] at hhalves
    · change v / 2 = (m / 2 : Nat)
      linarith
    · change v / 2 = (m / 2 : Nat) + 1 / 2
      linarith
  | inexact order =>
    obtain ⟨hlow, hhigh⟩ := h.of_inexact
    rw [accuracy_shiftRightOne_inexact]
    rcases Nat.mod_two_eq_zero_or_one m with hbit | hbit <;> rw [hbit] at hhalves ⊢ <;>
      simp only [Nat.cast_zero, Nat.cast_one] at hhalves
    · exact ⟨by linarith, by linarith⟩
    · exact ⟨by linarith, by linarith⟩

end

/-- A quotient with its remainder describes the exact one. -/
theorem describes_accuracyOfFraction {n d : Nat} (hd : 0 < d) :
    Describes (n / d) (n / d : Rat) (accuracyOfFraction (n % d) d) := by
  have hden : (0 : Rat) < d := by exact_mod_cast hd
  have hlt : ((n % d : Nat) : Rat) < d := by exact_mod_cast Nat.mod_lt n hd
  have hquotient : (n / d : Rat) = (n / d : Nat) + ((n % d : Nat) : Rat) / d := by
    rw [eq_comm, ← eq_sub_iff_add_eq, eq_comm, ← sub_div, div_eq_iff hden.ne', sub_eq_iff_eq_add]
    exact_mod_cast (Nat.div_add_mod' n d).symm
  rw [hquotient, accuracyOfFraction]
  generalize n % d = rest at hlt ⊢
  split
  · rename_i hzero
    rw [hzero, Nat.cast_zero, zero_div, add_zero]
    rfl
  · rename_i hzero
    have hpos : (0 : Rat) < rest / d := div_pos (by exact_mod_cast Nat.pos_of_ne_zero hzero) hden
    have hone : (rest / d : Rat) < 1 := (div_lt_one hden).mpr hlt
    cases horder : compare (2 * rest) d with
    | lt =>
      have htwice : (2 * rest : Rat) < d := by exact_mod_cast Nat.compare_eq_lt.mp horder
      have hhalf : (rest / d : Rat) < 1 / 2 := (div_lt_iff₀ hden).mpr (by linarith)
      exact ⟨by linarith, by linarith⟩
    | eq =>
      have htwice : (2 * rest : Rat) = d := by exact_mod_cast Nat.compare_eq_eq.mp horder
      have hhalf : (rest / d : Rat) = 1 / 2 := (div_eq_iff hden.ne').mpr (by linarith)
      rw [hhalf]
      rfl
    | gt =>
      have htwice : (d : Rat) < 2 * rest := by exact_mod_cast Nat.compare_eq_gt.mp horder
      have hhalf : (1 / 2 : Rat) < rest / d := (lt_div_iff₀ hden).mpr (by linarith)
      exact ⟨by linarith, by linarith⟩

section

variable {m : Nat} {e : Int} {acc : Accuracy}

theorem log2_of_ge (hge : 2 ^ 24 ≤ m) (hlt : m < 2 ^ 25) : m.log2 = 24 :=
  (Nat.log2_eq_iff (by omega)).mpr ⟨hge, hlt⟩

theorem targetExponent_eq {t : Int} (ht : -125 ≤ t) :
    Format.binary32.targetExponent t = t - 24 := by
  rw [Format.targetExponent, minExponent_binary32, mantissaBits_binary32]
  omega

theorem shiftToTargetExponent_of_lt (hge : 2 ^ 23 ≤ m) (hlt : m < 2 ^ 24) (he : -149 ≤ e) :
    shiftToTargetExponent Format.binary32 m e acc =
      (ExtendedMantissa.ofMantissaAndAccuracy m acc, e) := by
  have hshift : ((23 : Nat) + 1 + e - 24 - e).toNat = 0 := by omega
  rw [shiftToTargetExponent, totalExponent, log2_of_lt hge hlt, targetExponent_eq (by omega)]
  simp only [shiftToExponent, hshift]
  exact Prod.ext rfl (by omega)

theorem shiftToTargetExponent_of_ge (hge : 2 ^ 24 ≤ m) (hlt : m < 2 ^ 25) (he : -149 ≤ e) :
    shiftToTargetExponent Format.binary32 m e acc =
      ((ExtendedMantissa.ofMantissaAndAccuracy m acc).shiftRightOne, e + 1) := by
  have hshift : ((24 : Nat) + 1 + e - 24 - e).toNat = 1 := by omega
  rw [shiftToTargetExponent, totalExponent, log2_of_ge hge hlt, targetExponent_eq (by omega)]
  simp only [shiftToExponent, hshift]
  exact Prod.ext rfl rfl

/-- What the last shift of a rounding makes of a rounded mantissa. -/
theorem roundWithAccuracy_of_shift {em : ExtendedMantissa} {e' : Int}
    (hshift : shiftToTargetExponent Format.binary32 m e acc = (em, e'))
    (hge : 2 ^ 23 ≤ em.roundedMantissa) (hle : em.roundedMantissa ≤ 2 ^ 24)
    (hlow : -149 ≤ e') (hhigh : e' < 104) :
    ∃ m' e'', ∃ h : Normal m' e'',
      roundWithAccuracy Format.binary32 .positive m e acc = .finite .positive m' e'' h.pos ∧
      (m' * 2 ^ e'' : Rat) = em.roundedMantissa * 2 ^ e' := by
  rw [roundWithAccuracy, hshift]
  dsimp only
  rcases hle.lt_or_eq with hlt | htop
  · rw [shiftToTargetExponent_of_lt hge hlt hlow]
    have h : Normal em.roundedMantissa e' := ⟨hge, hlt, hlow, by omega⟩
    exact ⟨_, _, h, dif_neg h.pos.ne', rfl⟩
  · rw [htop, shiftToTargetExponent_of_ge (le_refl _) (by decide) hlow]
    have h : Normal (2 ^ 23) (e' + 1) := ⟨le_refl _, by decide, by omega, by omega⟩
    refine ⟨_, _, h, dif_neg h.pos.ne', ?_⟩
    rw [zpow_add_one₀ two_ne_zero]
    norm_num
    ring

/-- A mantissa with one bit too many at most is rounded to a normal number, half a
    unit of its last place away from the exact value at most. -/
theorem roundWithAccuracy_normal {v : Rat} (hdescribes : Describes m v acc) (hge : 2 ^ 23 ≤ m)
    (hlt : m < 2 ^ 25) (hlow : -149 ≤ e) (hhigh : e ≤ 102) :
    ∃ m' e', ∃ h : Normal m' e',
      roundWithAccuracy Format.binary32 .positive m e acc = .finite .positive m' e' h.pos ∧
      |(m' * 2 ^ e' : Rat) - v * 2 ^ e| ≤ v * 2 ^ e / 2 ^ 24 := by
  obtain ⟨em, e', hshift, hem, hem', hlow', hhigh', v', hdescribes', hv⟩ :
      ∃ em e', shiftToTargetExponent Format.binary32 m e acc = (em, e') ∧
        2 ^ 23 ≤ em.mantissa ∧ em.mantissa < 2 ^ 24 ∧ -149 ≤ e' ∧ e' < 104 ∧
        ∃ v' : Rat, Describes em.mantissa v' em.accuracy ∧ v' * 2 ^ e' = v * 2 ^ e := by
    rcases Nat.lt_or_ge m (2 ^ 24) with hshort | hlong
    · obtain ⟨hmantissa, haccuracy⟩ := accuracy_ofMantissaAndAccuracy m acc
      refine ⟨_, _, shiftToTargetExponent_of_lt hge hshort hlow, ?_, ?_, hlow, by omega, v, ?_, rfl⟩
      · omega
      · omega
      · rwa [hmantissa, haccuracy]
    · have hmantissa := mantissa_shiftRightOne m acc
      refine ⟨_, _, shiftToTargetExponent_of_ge hlong hlt hlow, ?_, ?_, by omega, by omega, v / 2,
        ?_, ?_⟩
      · omega
      · omega
      · rw [hmantissa]
        exact hdescribes.shiftRightOne
      · rw [zpow_add_one₀ two_ne_zero]
        ring
  obtain ⟨herror, hround, hround'⟩ := hdescribes'.rounded
  have hlarge : (2 ^ 23 : Rat) ≤ v' :=
    le_trans (by exact_mod_cast hem) hdescribes'.le
  obtain ⟨m', e'', h, hresult, hvalue⟩ := roundWithAccuracy_of_shift hshift (hem.trans hround)
    (hround'.trans (by omega)) hlow' hhigh'
  refine ⟨m', e'', h, hresult, ?_⟩
  have hunit : (0 : Rat) < 2 ^ e' := zpow_pos two_pos e'
  rw [hvalue, ← hv, ← sub_mul, abs_mul, abs_of_pos hunit, mul_div_right_comm]
  refine mul_le_mul_of_nonneg_right (herror.trans ?_) hunit.le
  rw [le_div_iff₀ (by positivity)]
  linarith

/-- A mantissa that fits is left as it is. -/
theorem roundWithAccuracy_exact (h : Normal m e) :
    roundWithAccuracy Format.binary32 .positive m e .exact = .finite .positive m e h.pos := by
  have hshift : shiftToTargetExponent Format.binary32 m e .exact =
      (ExtendedMantissa.ofMantissaAndAccuracy m .exact, e) :=
    shiftToTargetExponent_of_lt h.mantissa_ge h.mantissa_lt h.exponent_ge
  rw [roundWithAccuracy, hshift]
  dsimp only
  rw [show (ExtendedMantissa.ofMantissaAndAccuracy m .exact).roundedMantissa = m from rfl, hshift]
  exact dif_neg h.pos.ne'

end

end Binary32
