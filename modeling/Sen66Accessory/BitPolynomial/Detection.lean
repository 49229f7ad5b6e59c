import Sen66Accessory.BitPolynomial
import Mathlib.Algebra.Polynomial.EraseLead

open Polynomial

namespace BitPolynomial

/-- Bit `p` of a message on the wire. -/
def wireBit (w : Nat) (symbols : List Nat) (p : Nat) : Bool :=
  (symbols.getD (p / w) 0).testBit (w - 1 - p % w)

theorem wireBit_concat_of_lt {w : Nat} {symbols : List Nat} (symbol : Nat) {p : Nat}
    (hp : p < w * symbols.length) :
    wireBit w (symbols ++ [symbol]) p = wireBit w symbols p := by
  have hindex : p / w < symbols.length := Nat.div_lt_of_lt_mul hp
  rw [wireBit, wireBit, List.getD_append _ _ _ _ hindex]

/-- The bits of the last symbol come last, its lowest bit behind all others. -/
theorem wireBit_concat_last {w : Nat} (symbols : List Nat) (symbol : Nat) {j : Nat} (hj : j < w) :
    wireBit w (symbols ++ [symbol]) (w * symbols.length + w - 1 - j) = symbol.testBit j := by
  have hsplit : w * symbols.length + w - 1 - j = w * symbols.length + (w - 1 - j) := by omega
  have hdiv : (w * symbols.length + (w - 1 - j)) / w = symbols.length := by
    rw [Nat.mul_add_div (by omega), Nat.div_eq_of_lt (by omega), Nat.add_zero]
  have hmod : (w * symbols.length + (w - 1 - j)) % w = w - 1 - j := by
    rw [Nat.mul_add_mod, Nat.mod_eq_of_lt (by omega)]
  have hback : w - 1 - (w - 1 - j) = j := by omega
  rw [hsplit, wireBit, hdiv, hmod, hback]
  simp

/-- The first bit on the wire is the leading coefficient and the last one the
    constant, by induction on the last symbol. -/
theorem coeff_ofSymbols {w : Nat} {symbols : List Nat}
    (hsymbols : ∀ symbol ∈ symbols, symbol < 2 ^ w) (j : Nat) :
    (ofSymbols w symbols).coeff j =
      if j < w * symbols.length ∧ wireBit w symbols (w * symbols.length - 1 - j) = true then 1
      else 0 := by
  induction symbols using List.reverseRecOn generalizing j with
  | nil => simp
  | append_singleton symbols symbol ih =>
    have hinit : ∀ s ∈ symbols, s < 2 ^ w := fun s hs => hsymbols s (List.mem_append_left _ hs)
    have hlast : symbol < 2 ^ w := hsymbols symbol (by simp)
    rw [List.length_append, List.length_singleton, Nat.mul_add, Nat.mul_one, ofSymbols_concat,
      coeff_add, coeff_mul_X_pow', coeff_ofNat]
    by_cases hj : w ≤ j
    · have hsmall : symbol < 2 ^ j := hlast.trans_le (Nat.pow_le_pow_right (by decide) hj)
      have hposition : w * symbols.length + w - 1 - j = w * symbols.length - 1 - (j - w) := by omega
      have hrange : j - w < w * symbols.length ↔ j < w * symbols.length + w := by omega
      simp only [if_pos hj, ih hinit, Nat.testBit_lt_two_pow hsmall, hrange, hposition]
      by_cases hlt : j < w * symbols.length + w
      · rw [wireBit_concat_of_lt symbol (by omega)]
        simp
      · simp [hlt]
    · rw [if_neg hj, zero_add, wireBit_concat_last symbols symbol (by omega)]
      simp [show j < w * symbols.length + w by omega]

/-- How many of the bits of a message are set. -/
def weight (w : Nat) (symbols : List Nat) : Nat :=
  ((Finset.range (w * symbols.length)).filter fun p => wireBit w symbols p).card

theorem mem_support_ofSymbols {w : Nat} {symbols : List Nat}
    (hsymbols : ∀ symbol ∈ symbols, symbol < 2 ^ w) (j : Nat) :
    j ∈ (ofSymbols w symbols).support ↔
      j < w * symbols.length ∧ wireBit w symbols (w * symbols.length - 1 - j) = true := by
  rw [mem_support_iff, coeff_ofSymbols hsymbols]
  simp

/-- The set bits of a message are the terms of its polynomial. -/
theorem card_support_ofSymbols {w : Nat} {symbols : List Nat}
    (hsymbols : ∀ symbol ∈ symbols, symbol < 2 ^ w) :
    (ofSymbols w symbols).support.card = weight w symbols := by
  apply Finset.card_nbij' (w * symbols.length - 1 - ·) (w * symbols.length - 1 - ·)
  · intro j hj
    obtain ⟨hlt, hbit⟩ := (mem_support_ofSymbols hsymbols j).mp hj
    have hmirror : w * symbols.length - 1 - j < w * symbols.length := by omega
    exact Finset.mem_filter.mpr ⟨Finset.mem_range.mpr hmirror, hbit⟩
  · intro p hp
    obtain ⟨hlt, hbit⟩ := Finset.mem_filter.mp hp
    rw [Finset.mem_range] at hlt
    have hmirror : w * symbols.length - 1 - p < w * symbols.length := by omega
    have hback : w * symbols.length - 1 - (w * symbols.length - 1 - p) = p := by omega
    exact (mem_support_ofSymbols hsymbols _).mpr ⟨hmirror, by rwa [hback]⟩
  · intro j hj
    have hlt := ((mem_support_ofSymbols hsymbols j).mp hj).1
    dsimp only
    omega
  · intro p hp
    have hlt := Finset.mem_range.mp (Finset.mem_filter.mp hp).1
    dsimp only
    omega

private theorem eq_one_of_ne_zero {a : ZMod 2} (ha : a ≠ 0) : a = 1 := by
  revert a
  decide

namespace Generator

variable (g : Generator)

/-- A generator with the factor `X + 1` divides no polynomial with an odd number
    of terms. -/
theorem not_dvd_of_odd (hparity : g.polynomial.eval 1 = 0) {p : (ZMod 2)[X]}
    (hodd : Odd p.support.card) : ¬ g.polynomial ∣ p := by
  intro hdvd
  have hterm (i : Nat) (hi : i ∈ p.support) : p.coeff i * 1 ^ i = 1 := by
    rw [one_pow, mul_one, eq_one_of_ne_zero (mem_support_iff.mp hi)]
  have heval : p.eval 1 = p.support.card := by
    rw [eval_eq_sum, Polynomial.sum, Finset.sum_congr rfl hterm]
    simp
  have hzero : p.eval 1 = 0 := eval_eq_zero_of_dvd_of_eval_eq_zero hdvd hparity
  rw [heval, (ZMod.natCast_eq_one_iff_odd).mpr hodd] at hzero
  exact one_ne_zero hzero

/-- A generator divides no polynomial with two terms closer together than the
    number of turns that bring the register back to one. -/
theorem not_dvd_of_pair {n : Nat} (horder : ∀ d < n, 0 < d → g.shift^[d] 1 ≠ 1) {p : (ZMod 2)[X]}
    (hdegree : p.degree < n) (hpair : p.support.card = 2) : ¬ g.polynomial ∣ p := by
  obtain ⟨k, m, hkm, a, b, ha, hb, rfl⟩ := card_support_eq_two.mp hpair
  rw [eq_one_of_ne_zero ha, eq_one_of_ne_zero hb, C_1, one_mul, one_mul] at hdegree ⊢
  have hm : m < n := by
    by_contra hm
    have hcoeff := (degree_lt_iff_coeff_zero _ _).mp hdegree m (by omega)
    simp [coeff_X_pow, hkm.ne'] at hcoeff
  have hone : 1 < 2 ^ g.width := Nat.one_lt_two_pow g.width_pos.ne'
  have hunit : ofNat 1 = 1 := ofNat_two_pow 0
  obtain ⟨hlt, hresidue⟩ := g.residue_iterate_shift hone (m - k)
  have hfactor : (X : (ZMod 2)[X]) ^ k + X ^ m = (X ^ (m - k) - 1) * X ^ k := by
    rw [CharTwo.sub_eq_add, add_mul, one_mul, ← pow_add, Nat.sub_add_cancel hkm.le, add_comm]
  intro hdvd
  rw [hfactor, dvd_mul_X_pow_iff, ← residue_eq_iff] at hdvd
  rw [hunit, mul_one, hdvd, ← hunit, ← g.eq_iff_residue_eq hlt hone] at hresidue
  exact horder (m - k) (by omega) (by omega) hresidue

/-- A generator divides no polynomial whose terms all lie within its width. -/
theorem not_dvd_of_burst {p : (ZMod 2)[X]} (hp : p ≠ 0) (k : Nat)
    (hburst : ∀ j ∈ p.support, k ≤ j ∧ j < k + g.width) : ¬ g.polynomial ∣ p := by
  intro hdvd
  have hbelow : X ^ k ∣ p := by
    rw [X_pow_dvd_iff]
    intro j hj
    by_contra hcoeff
    have hle := (hburst j (mem_support_iff.mpr hcoeff)).1
    omega
  obtain ⟨q, rfl⟩ := hbelow
  rw [mul_comm, dvd_mul_X_pow_iff] at hdvd
  have hdegree : q.degree < g.polynomial.degree := by
    rw [g.degree_polynomial, degree_lt_iff_coeff_zero]
    intro j hj
    by_contra hcoeff
    have hterm : j + k ∈ (X ^ k * q).support := by rwa [mem_support_iff, coeff_X_pow_mul]
    have hlt := (hburst (j + k) hterm).2
    omega
  rw [eq_zero_of_dvd_of_degree_lt hdvd hdegree, mul_zero] at hp
  exact hp rfl

end Generator

end BitPolynomial
