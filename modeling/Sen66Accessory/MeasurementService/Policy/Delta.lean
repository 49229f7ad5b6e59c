import Sen66Accessory.MeasurementService.Policy
import Mathlib.Data.Fintype.Defs
import Mathlib.Data.Finset.Filter
import Mathlib.Data.Finset.Empty

open Sen66

namespace Sen66

instance : Fintype Field where
  elems := ⟨Field.all, by decide⟩
  complete := Field.mem_all

/-- The validity mask naming exactly the channels of a set. -/
def Field.maskOf (fields : Finset Field) : UInt16 :=
  Flags.collect Field.all fun f => decide (f ∈ fields)

@[simp] theorem Field.has_maskOf (fields : Finset Field) (f : Field) :
    Flags.has (Field.maskOf fields) f = decide (f ∈ fields) := by
  rw [Field.maskOf, Flags.has_collect]
  simp [Field.mem_all]

theorem Field.within_maskOf (fields : Finset Field) : Flags.Within Field (Field.maskOf fields) :=
  Flags.within_collect _ _

end Sen66

namespace MeasurementService

/-- The unsigned difference is exact over the whole 16-bit range. -/
theorem toNat_absDeltaU16 (a b : UInt16) :
    (absDeltaU16 a b).toNat = ((b.toNat : Int) - a.toNat).natAbs := by
  unfold absDeltaU16
  split
  · rename_i hgt
    have hlt : b.toNat < a.toNat := UInt16.lt_iff_toNat_lt.mp hgt
    rw [UInt16.toNat_sub_of_le _ _ (UInt16.le_iff_toNat_le.mpr hlt.le)]
    omega
  · rename_i hle
    have hle : a.toNat ≤ b.toNat := by
      have := mt UInt16.lt_iff_toNat_lt.mpr hle
      omega
    rw [UInt16.toNat_sub_of_le _ _ (UInt16.le_iff_toNat_le.mpr hle)]
    omega

/-- The signed difference, taken in 32 bits and at most 65535, fits its 16-bit
    result exactly. -/
theorem toNat_absDeltaS16 (a b : Int16) :
    (absDeltaS16 a b).toNat = (b.toInt - a.toInt).natAbs := by
  have ha := a.le_toInt
  have ha' := a.toInt_lt
  have hb := b.le_toInt
  have hb' := b.toInt_lt
  have hdiff : (a.toInt32 - b.toInt32).toInt = a.toInt - b.toInt := by
    rw [Int32.toInt_sub, Int16.toInt_toInt32, Int16.toInt_toInt32]
    exact Int.bmod_eq_of_le (by omega) (by omega)
  have hfits (x : Int32) (hx : x.toInt = (b.toInt - a.toInt).natAbs) :
      x.toUInt32.toUInt16.toNat = (b.toInt - a.toInt).natAbs := by
    have hpos : 0 ≤ x := Int32.le_iff_toInt_le.mpr (by rw [hx]; simp)
    rw [UInt32.toNat_toUInt16, Int32.toNat_toUInt32_of_le hpos, ← Int32.toNat_toInt, hx]
    omega
  unfold absDeltaS16
  apply hfits
  split
  · rename_i hneg
    have hneg : a.toInt - b.toInt < 0 := by
      have := Int32.lt_iff_toInt_lt.mp hneg
      rw [hdiff] at this
      simpa using this
    rw [Int32.toInt_neg, hdiff, Int.bmod_eq_of_le (by omega) (by omega)]
    omega
  · rename_i hneg
    have hneg : ¬ a.toInt - b.toInt < 0 := by
      intro h
      apply hneg
      rw [Int32.lt_iff_toInt_lt, hdiff]
      simpa using h
    omega

/-- Every channel's difference is the exact integer distance of its registers. -/
theorem toNat_absDelta (prev fresh : Measurement) (f : Field) :
    (absDelta prev fresh f).toNat = (fresh.raw f - prev.raw f).natAbs := by
  cases f <;> first | exact toNat_absDeltaU16 _ _ | exact toNat_absDeltaS16 _ _

theorem has_deltaMask (prev fresh : Measurement) (t : ChangeThresholds) (f : Field) :
    Flags.has (deltaMask prev fresh t) f = true ↔
      prev.has f = true ∧ fresh.has f = true ∧
        (t.of f).toNat ≤ (fresh.raw f - prev.raw f).natAbs := by
  simp only [deltaMask, Flags.has_collect, Flags.has_and, Field.mem_all, decide_true,
    Bool.true_and, Bool.and_eq_true, decide_eq_true_eq, ge_iff_le, UInt16.le_iff_toNat_le,
    toNat_absDelta, Measurement.has, and_assoc]

theorem within_deltaMask (prev fresh : Measurement) (t : ChangeThresholds) :
    Flags.Within Field (deltaMask prev fresh t) :=
  Flags.within_collect _ _

/-- The mask a fresh frame is judged by: validity flips and significant moves
    against the last notified snapshot. -/
def changeMask (t : ChangeThresholds) (prev fresh : Measurement) : UInt16 :=
  (fresh.valid ^^^ prev.valid) ||| deltaMask prev fresh t

/-- The channels that flipped validity, or are valid in both frames and moved
    by at least their threshold. -/
def changes (t : ChangeThresholds) (prev fresh : Measurement) : Finset Field :=
  Finset.univ.filter fun f =>
    prev.has f ≠ fresh.has f ∨
      prev.has f = true ∧ fresh.has f = true ∧
        (t.of f).toNat ≤ (fresh.raw f - prev.raw f).natAbs

theorem mem_changes {t : ChangeThresholds} {prev fresh : Measurement} {f : Field} :
    f ∈ changes t prev fresh ↔
      prev.has f ≠ fresh.has f ∨
        prev.has f = true ∧ fresh.has f = true ∧
          (t.of f).toNat ≤ (fresh.raw f - prev.raw f).natAbs := by
  simp [changes]

/-- The computed mask names exactly the changed channels. -/
theorem changeMask_eq_maskOf (t : ChangeThresholds) {prev fresh : Measurement}
    (hprev : Flags.Within Field prev.valid) (hfresh : Flags.Within Field fresh.valid) :
    changeMask t prev fresh = Field.maskOf (changes t prev fresh) := by
  apply ((hfresh.xor hprev).or (within_deltaMask prev fresh t)).ext (Field.within_maskOf _)
  intro f
  rw [Field.has_maskOf, Bool.eq_iff_iff, decide_eq_true_eq, mem_changes, Flags.has_or,
    Flags.has_xor, Bool.or_eq_true, has_deltaMask]
  simp only [Measurement.has]
  cases Flags.has prev.valid f <;> cases Flags.has fresh.valid f <;> simp

/-- A frame that shows nothing new against an earlier one: the same channels
    are valid and each of them moved by less than its threshold. -/
structure Settled (t : ChangeThresholds) (prev fresh : Measurement) : Prop where
  valid_eq : fresh.valid = prev.valid
  raw_lt : ∀ f, prev.has f = true → (fresh.raw f - prev.raw f).natAbs < (t.of f).toNat

theorem changeMask_eq_zero_iff (t : ChangeThresholds) (prev fresh : Measurement) :
    changeMask t prev fresh = 0 ↔ Settled t prev fresh := by
  rw [changeMask, UInt16.or_eq_zero_iff, UInt16.xor_eq_zero_iff,
    (within_deltaMask prev fresh t).eq_zero_iff]
  constructor
  · rintro ⟨hvalid, hdelta⟩
    refine ⟨hvalid, fun f hf => ?_⟩
    have hfresh : fresh.has f = true := by simpa only [Measurement.has, hvalid] using hf
    by_contra hlarge
    have hmoved := (has_deltaMask prev fresh t f).mpr ⟨hf, hfresh, by omega⟩
    rw [hdelta f] at hmoved
    cases hmoved
  · rintro ⟨hvalid, hraw⟩
    refine ⟨hvalid, fun f => ?_⟩
    by_contra hset
    obtain ⟨hf, _, hlarge⟩ := (has_deltaMask prev fresh t f).mp (by simpa using hset)
    have := hraw f hf
    omega

/-- Two frames with no valid channel differ in nothing that is notified. -/
theorem changeMask_of_invalid (t : ChangeThresholds) {prev fresh : Measurement}
    (hprev : prev.valid = 0) (hfresh : fresh.valid = 0) : changeMask t prev fresh = 0 := by
  rw [changeMask_eq_zero_iff]
  exact ⟨hfresh.trans hprev.symm, fun f hf => by simp [Measurement.has, hprev] at hf⟩

end MeasurementService
