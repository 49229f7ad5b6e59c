import Mathlib.Tactic.FieldSimp
import Sen66Accessory.Binary32

open Float.Model Float.Model.UnpackedFloat

namespace Binary32

section

variable {m₁ m₂ : Nat} {e₁ e₂ : Int}

/-- A quotient of normal numbers is rounded to a normal number. -/
theorem div_normal (h₁ : Normal m₁ e₁) (h₂ : Normal m₂ e₂)
    (hlow : -125 ≤ e₁ - e₂) (hhigh : e₁ - e₂ ≤ 126) :
    ∃ m e, ∃ h : Normal m e,
      UnpackedFloat.div Format.binary32 (.finite .positive m₁ e₁ h₁.pos)
        (.finite .positive m₂ e₂ h₂.pos) = .finite .positive m e h.pos ∧
      |(m * 2 ^ e : Rat) - m₁ * 2 ^ e₁ / (m₂ * 2 ^ e₂)| ≤
        m₁ * 2 ^ e₁ / (m₂ * 2 ^ e₂) / 2 ^ 24 := by
  have hm₁ := h₁.mantissa_ge
  have hm₁' := h₁.mantissa_lt
  have hm₂ := h₂.mantissa_ge
  have hm₂' := h₂.mantissa_lt
  have hcore : divCore Format.binary32 m₁ e₁ m₂ e₂ =
      (m₁ * 2 ^ 24 / m₂, e₁ - e₂ - 24, accuracyOfFraction (m₁ * 2 ^ 24 % m₂) m₂) := by
    have htotal : totalExponent m₁ e₁ - totalExponent m₂ e₂ = e₁ - e₂ := by
      rw [totalExponent, totalExponent, log2_of_lt hm₁ hm₁', log2_of_lt hm₂ hm₂']
      omega
    have hmin : min (e₁ - e₂) (e₁ - e₂ - 24) = e₁ - e₂ - 24 := by omega
    have hshift : (e₁ - e₂ - (e₁ - e₂ - 24)).toNat = 24 := by omega
    rw [divCore, htotal, targetExponent_eq hlow, hmin, hshift, Nat.shiftLeft_eq]
  have hge : 2 ^ 23 ≤ m₁ * 2 ^ 24 / m₂ := (Nat.le_div_iff_mul_le h₂.pos).mpr (by omega)
  have hlt : m₁ * 2 ^ 24 / m₂ < 2 ^ 25 := (Nat.div_lt_iff_lt_mul h₂.pos).mpr (by omega)
  obtain ⟨m, e, h, hround, herror⟩ := roundWithAccuracy_normal
    (describes_accuracyOfFraction (n := m₁ * 2 ^ 24) h₂.pos) hge hlt
    (show -149 ≤ e₁ - e₂ - 24 by omega) (by omega)
  refine ⟨m, e, h, ?_, ?_⟩
  · change roundWithAccuracy Format.binary32 .positive (divCore Format.binary32 m₁ e₁ m₂ e₂).1
      (divCore Format.binary32 m₁ e₁ m₂ e₂).2.1 (divCore Format.binary32 m₁ e₁ m₂ e₂).2.2 = _
    rw [hcore]
    exact hround
  · have hquotient : ((m₁ * 2 ^ 24 : Nat) / m₂ * 2 ^ (e₁ - e₂ - 24) : Rat) =
        m₁ * 2 ^ e₁ / (m₂ * 2 ^ e₂) := by
      rw [zpow_sub₀ two_ne_zero, zpow_sub₀ two_ne_zero]
      push_cast
      have hdivisor : (m₂ : Rat) ≠ 0 := by exact_mod_cast h₂.pos.ne'
      field_simp
    rwa [hquotient] at herror

/-- Converting a small number is exact. -/
theorem ofNat_normal {n : Nat} (hpos : 0 < n) (hlt : n < 2 ^ 24) :
    ∃ m e, ∃ h : Normal m e,
      UnpackedFloat.ofNat Format.binary32 n = .finite .positive m e h.pos ∧
      (m * 2 ^ e : Rat) = n := by
  have hlog : n.log2 < 24 := (Nat.log2_lt hpos.ne').mpr hlt
  obtain ⟨k, hk⟩ : ∃ k, n.log2 + k = 23 := ⟨23 - n.log2, by omega⟩
  have hge : 2 ^ 23 ≤ n * 2 ^ k := by
    rw [← hk, Nat.pow_add]
    exact Nat.mul_le_mul_right _ (Nat.log2_self_le hpos.ne')
  have hlt : n * 2 ^ k < 2 ^ 24 := by
    rw [show 24 = (n.log2 + 1) + k by omega, Nat.pow_add]
    exact Nat.mul_lt_mul_of_pos_right Nat.lt_log2_self (Nat.two_pow_pos k)
  have h : Normal (n * 2 ^ k) (-k) := ⟨hge, hlt, by omega, by omega⟩
  refine ⟨_, _, h, ?_, ?_⟩
  · have hshift : ((0 : Int) - ((n.log2 : Int) + 1 + 0 - 24)).toNat = k := by omega
    have hcompare : compare (n : Int) 0 = .gt := Int.compare_eq_gt.mpr (by omega)
    rw [UnpackedFloat.ofNat, UnpackedFloat.ofInt, UnpackedFloat.normalize, hcompare]
    dsimp only
    rw [UnpackedFloat.round, totalExponent, Int.toNat_natCast, targetExponent_eq (by omega),
      decreaseExponent, hshift, Nat.shiftLeft_eq, Int.zero_sub]
    exact roundWithAccuracy_exact h
  · push_cast
    rw [zpow_neg, zpow_natCast]
    field_simp

/-- With a smaller exponent a normal number is smaller. -/
theorem Normal.value_lt (h₁ : Normal m₁ e₁) (h₂ : Normal m₂ e₂) (hlt : e₁ < e₂) :
    (m₁ * 2 ^ e₁ : Rat) < m₂ * 2 ^ e₂ := by
  have hm₁ : (m₁ : Rat) < 2 ^ 24 := by exact_mod_cast h₁.mantissa_lt
  have hm₂ : (2 ^ 23 : Rat) ≤ m₂ := by exact_mod_cast h₂.mantissa_ge
  calc (m₁ * 2 ^ e₁ : Rat)
    _ < 2 ^ 24 * 2 ^ e₁ := mul_lt_mul_of_pos_right hm₁ (zpow_pos two_pos e₁)
    _ = 2 ^ 23 * 2 ^ (e₁ + 1) := by
      rw [zpow_add_one₀ two_ne_zero]
      ring
    _ ≤ 2 ^ 23 * 2 ^ e₂ := by
      have hstep := zpow_le_zpow_right₀ (one_le_two (α := Rat)) (show e₁ + 1 ≤ e₂ from hlt)
      exact mul_le_mul_of_nonneg_left hstep (by positivity)
    _ ≤ m₂ * 2 ^ e₂ := mul_le_mul_of_nonneg_right hm₂ (zpow_pos two_pos e₂).le

/-- Normal numbers are compared by value. -/
theorem le_normal (h₁ : Normal m₁ e₁) (h₂ : Normal m₂ e₂) :
    UnpackedFloat.le (.finite .positive m₁ e₁ h₁.pos) (.finite .positive m₂ e₂ h₂.pos) = true ↔
      (m₁ * 2 ^ e₁ : Rat) ≤ m₂ * 2 ^ e₂ := by
  change ((compare e₁ e₂).then (compare m₁ m₂)).isLE = true ↔ _
  rcases lt_trichotomy e₁ e₂ with hlt | rfl | hgt
  · rw [Int.compare_eq_lt.mpr hlt]
    exact iff_of_true rfl (h₁.value_lt h₂ hlt).le
  · have hunit : (0 : Rat) < 2 ^ e₁ := zpow_pos two_pos e₁
    rw [Int.compare_eq_eq.mpr rfl, mul_le_mul_iff_of_pos_right hunit, Nat.cast_le]
    exact Nat.isLE_compare
  · rw [Int.compare_eq_gt.mpr hgt]
    exact iff_of_false Bool.false_ne_true (h₂.value_lt h₁ hgt).not_ge

/-- The exponents of two normal numbers are about as far apart as their quotient
    says. -/
theorem exponents_of_quotient (h₁ : Normal m₁ e₁) (h₂ : Normal m₂ e₂)
    (hlow : (2 ^ (-124 : Int) : Rat) ≤ m₁ * 2 ^ e₁ / (m₂ * 2 ^ e₂))
    (hhigh : (m₁ * 2 ^ e₁ / (m₂ * 2 ^ e₂) : Rat) ≤ 2 ^ (126 : Int)) :
    -125 ≤ e₁ - e₂ ∧ e₁ - e₂ ≤ 126 := by
  have hm₂ : (0 : Rat) < m₂ := by exact_mod_cast h₂.pos
  have hunit : (0 : Rat) < 2 ^ (e₁ - e₂) := zpow_pos two_pos _
  have hsplit : (m₁ * 2 ^ e₁ / (m₂ * 2 ^ e₂) : Rat) = m₁ / m₂ * 2 ^ (e₁ - e₂) := by
    rw [zpow_sub₀ two_ne_zero]
    field_simp
  have hsmaller : (m₁ / m₂ * 2 ^ (e₁ - e₂) : Rat) < 2 ^ (e₁ - e₂ + 1) := by
    have hratio : m₁ < 2 * m₂ := by
      have := h₁.mantissa_lt
      have := h₂.mantissa_ge
      omega
    rw [zpow_add_one₀ two_ne_zero, mul_comm _ (2 : Rat)]
    exact mul_lt_mul_of_pos_right ((div_lt_iff₀ hm₂).mpr (by exact_mod_cast hratio)) hunit
  have hlarger : (2 ^ (e₁ - e₂ - 1) : Rat) < m₁ / m₂ * 2 ^ (e₁ - e₂) := by
    have hratio : m₂ < m₁ * 2 := by
      have := h₁.mantissa_ge
      have := h₂.mantissa_lt
      omega
    have hhalf : (1 / 2 : Rat) < m₁ / m₂ := by
      rw [div_lt_div_iff₀ two_pos hm₂, one_mul]
      exact_mod_cast hratio
    rw [zpow_sub_one₀ two_ne_zero, mul_comm, inv_eq_one_div]
    exact mul_lt_mul_of_pos_right hhalf hunit
  rw [hsplit] at hlow hhigh
  have hlow := (zpow_lt_zpow_iff_right₀ (one_lt_two (α := Rat))).mp (hlow.trans_lt hsmaller)
  have hhigh := (zpow_lt_zpow_iff_right₀ (one_lt_two (α := Rat))).mp (hlarger.trans_le hhigh)
  omega

end

/-- The number a float stands for, with zero in place of the special values. -/
def toRat (x : Float32) : Rat :=
  match x.toModel.unpack with
  | .finite sign m e _ => sign.apply m * 2 ^ e
  | _ => 0

/-- Zero, or a positive normal number. -/
def Regular (x : Float32) : Prop :=
  x.toModel.unpack = .zero .positive ∨
    ∃ m e, ∃ h : Normal m e, x.toModel.unpack = .finite .positive m e h.pos

theorem toRat_zero {x : Float32} (hx : x.toModel.unpack = .zero .positive) : toRat x = 0 := by
  rw [toRat, hx]

theorem toRat_normal {x : Float32} {m : Nat} {e : Int} {h : 0 < m}
    (hx : x.toModel.unpack = .finite .positive m e h) : toRat x = m * 2 ^ e := by
  rw [toRat, hx]
  rfl

theorem Regular.nonneg {x : Float32} (hx : Regular x) : 0 ≤ toRat x := by
  rcases hx with hx | ⟨m, e, h, hx⟩
  · exact (toRat_zero hx).ge
  · rw [toRat_normal hx]
    exact h.value_pos.le

/-- Regular floats are compared by value. -/
theorem Regular.le_iff {x y : Float32} (hx : Regular x) (hy : Regular y) :
    x ≤ y ↔ toRat x ≤ toRat y := by
  have hle : x ≤ y ↔ UnpackedFloat.le x.toModel.unpack y.toModel.unpack = true := by
    change decide (UnpackedFloat.le x.toModel.unpack y.toModel.unpack = true) = true ↔ _
    rw [decide_eq_true_iff]
  rw [hle]
  rcases hx with hx | ⟨m, e, h, hx⟩
  · rw [toRat_zero hx, hx]
    refine iff_of_true ?_ hy.nonneg
    rcases hy with hy | ⟨_, _, _, hy⟩ <;> rw [hy] <;> rfl
  · rw [toRat_normal hx, hx]
    rcases hy with hy | ⟨m', e', h', hy⟩
    · rw [toRat_zero hy, hy]
      exact iff_of_false Bool.false_ne_true h.value_pos.not_ge
    · rw [toRat_normal hy, hy]
      exact le_normal h h'

/-- A register converts to its own value. -/
theorem regular_toFloat32 (n : UInt16) : Regular n.toFloat32 ∧ toRat n.toFloat32 = n.toNat := by
  have hmodel : n.toFloat32.toModel =
      Float32.Model.pack (UnpackedFloat.ofNat Format.binary32 n.toNat) := rfl
  rcases Nat.eq_zero_or_pos n.toNat with hzero | hpos
  · have hunpack : n.toFloat32.toModel.unpack = .zero .positive := by
      rw [hmodel, hzero]
      rfl
    exact ⟨Or.inl hunpack, by rw [toRat_zero hunpack, hzero, Nat.cast_zero]⟩
  · obtain ⟨m, e, h, hconvert, hvalue⟩ := ofNat_normal hpos (n.toNat_lt.trans (by decide))
    have hunpack : n.toFloat32.toModel.unpack = .finite .positive m e h.pos := by
      rw [hmodel, hconvert, unpack_pack h]
    exact ⟨Or.inr ⟨m, e, h, hunpack⟩, by rw [toRat_normal hunpack, hvalue]⟩

/-- A quotient of regular floats is within half a unit of its last place, where it
    is neither too small nor too large for a normal number. -/
theorem Regular.div {x y : Float32} (hx : Regular x) (hy : Regular y) (hpos : 0 < toRat y)
    (hrange : toRat x = 0 ∨
      2 ^ (-124 : Int) ≤ toRat x / toRat y ∧ toRat x / toRat y ≤ 2 ^ (126 : Int)) :
    Regular (x / y) ∧ |toRat (x / y) - toRat x / toRat y| ≤ toRat x / toRat y / 2 ^ 24 := by
  have hmodel : (x / y).toModel = Float32.Model.pack
      (UnpackedFloat.div Format.binary32 x.toModel.unpack y.toModel.unpack) := rfl
  rcases hy with hy | ⟨m₂, e₂, h₂, hy⟩
  · exact absurd hpos (toRat_zero hy).le.not_gt
  rcases hx with hx | ⟨m₁, e₁, h₁, hx⟩
  · have hunpack : (x / y).toModel.unpack = .zero .positive := by
      have hzero : UnpackedFloat.div Format.binary32 (.zero .positive)
          (.finite .positive m₂ e₂ h₂.pos) = .zero .positive := rfl
      rw [hmodel, hx, hy, hzero]
      rfl
    refine ⟨Or.inl hunpack, ?_⟩
    rw [toRat_zero hunpack, toRat_zero hx]
    norm_num
  · rw [toRat_normal hx, toRat_normal hy] at hrange ⊢
    obtain ⟨hlow, hhigh⟩ := hrange.resolve_left h₁.value_pos.ne'
    have hdiff := exponents_of_quotient h₁ h₂ hlow hhigh
    obtain ⟨m, e, h, hdiv, herror⟩ := div_normal h₁ h₂ hdiff.1 hdiff.2
    have hunpack : (x / y).toModel.unpack = .finite .positive m e h.pos := by
      rw [hmodel, hx, hy, hdiv, unpack_pack h]
    exact ⟨Or.inr ⟨m, e, h, hunpack⟩, by rwa [toRat_normal hunpack]⟩

end Binary32
