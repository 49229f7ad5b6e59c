import Mathlib.Algebra.CharP.Two
import Mathlib.Algebra.Field.ZMod
import Mathlib.Algebra.Polynomial.Div
import Mathlib.Data.Nat.Bitwise
import Mathlib.Data.Nat.Size
import Mathlib.Data.ZMod.Basic
import Mathlib.RingTheory.AdjoinRoot

open Polynomial

namespace BitPolynomial

/-- The polynomial over GF(2) that has the binary digits of a number as its
    coefficients. -/
noncomputable def ofNat (n : Nat) : (ZMod 2)[X] :=
  ∑ i ∈ Finset.range n.size, if n.testBit i then X ^ i else 0

@[simp] theorem coeff_ofNat (n i : Nat) : (ofNat n).coeff i = if n.testBit i then 1 else 0 := by
  have hterm (j : Nat) : (if n.testBit j then (X : (ZMod 2)[X]) ^ j else 0).coeff i =
      if i = j then (if n.testBit i then 1 else 0) else 0 := by
    by_cases hij : i = j
    · subst hij
      cases n.testBit i <;> simp
    · cases n.testBit j <;> simp [coeff_X_pow, hij]
  simp only [ofNat, finsetSum_coeff, hterm, Finset.sum_ite_eq, Finset.mem_range]
  by_cases hi : i < n.size
  · rw [if_pos hi]
  · have hlt : n < 2 ^ i := Nat.size_le.mp (by omega)
    simp [hi, Nat.testBit_lt_two_pow hlt]

theorem ofNat_injective : Function.Injective ofNat := by
  intro a b h
  apply Nat.eq_of_testBit_eq
  intro i
  have hcoeff : (ofNat a).coeff i = (ofNat b).coeff i := by rw [h]
  rw [coeff_ofNat, coeff_ofNat] at hcoeff
  cases ha : a.testBit i <;> cases hb : b.testBit i <;> simp_all

@[simp] theorem ofNat_zero : ofNat 0 = 0 := by
  ext i
  simp

/-- Exclusive or adds polynomials. -/
theorem ofNat_xor (a b : Nat) : ofNat (a ^^^ b) = ofNat a + ofNat b := by
  ext i
  have htwo : (1 : ZMod 2) + 1 = 0 := CharTwo.add_self_eq_zero 1
  cases ha : a.testBit i <;> cases hb : b.testBit i <;> simp [ha, hb, htwo]

theorem ofNat_two_pow (k : Nat) : ofNat (2 ^ k) = X ^ k := by
  ext i
  simp [coeff_X_pow, Nat.testBit_two_pow, eq_comm]

/-- Doubling multiplies by `X`. -/
theorem ofNat_two_mul (n : Nat) : ofNat (2 * n) = X * ofNat n := by
  ext i
  cases i with
  | zero => simp
  | succ i =>
    have hhalf : 2 * n / 2 = n := by omega
    rw [coeff_X_mul, coeff_ofNat, coeff_ofNat, Nat.testBit_succ, hhalf]

theorem degree_ofNat_lt {n w : Nat} (hn : n < 2 ^ w) : (ofNat n).degree < w := by
  rw [degree_lt_iff_coeff_zero]
  intro i hi
  have hlt : n < 2 ^ i := hn.trans_le (Nat.pow_le_pow_right (by decide) hi)
  simp [Nat.testBit_lt_two_pow hlt]

/-- The polynomial of a message: its symbols of `w` bits one after another, the
    most significant bit of each first. -/
noncomputable def ofSymbols (w : Nat) (symbols : List Nat) : (ZMod 2)[X] :=
  symbols.foldl (fun p symbol => p * X ^ w + ofNat symbol) 0

@[simp] theorem ofSymbols_nil (w : Nat) : ofSymbols w [] = 0 := rfl

theorem ofSymbols_concat (w : Nat) (symbols : List Nat) (symbol : Nat) :
    ofSymbols w (symbols ++ [symbol]) = ofSymbols w symbols * X ^ w + ofNat symbol := by
  simp [ofSymbols]

/-- Exclusive or of messages of one length adds their polynomials. -/
theorem ofSymbols_zipWith_xor (w : Nat) {a b : List Nat} (hlength : a.length = b.length) :
    ofSymbols w (List.zipWith (· ^^^ ·) a b) = ofSymbols w a + ofSymbols w b := by
  induction a using List.reverseRecOn generalizing b with
  | nil =>
    have hb : b = [] := List.length_eq_zero_iff.mp hlength.symm
    simp [hb]
  | append_singleton a s ih =>
    cases b using List.reverseRecOn with
    | nil => simp at hlength
    | append_singleton b t =>
      have htail : a.length = b.length := by simpa using hlength
      rw [List.zipWith_append htail, List.zipWith_cons_cons, List.zipWith_nil_left,
        ofSymbols_concat, ofSymbols_concat, ofSymbols_concat, ih htail, ofNat_xor]
      ring

/-- A generator polynomial by its degree and its coefficients below the leading
    one, the constant coefficient among them being one. -/
structure Generator where
  width : Nat
  low : Nat
  low_lt : low < 2 ^ width
  low_odd : low.testBit 0 = true

namespace Generator

variable (g : Generator)

noncomputable def polynomial : (ZMod 2)[X] := X ^ g.width + ofNat g.low

/-- One turn of a shift register as wide as the generator: shift left, reducing
    when the top bit falls out. -/
def shift (c : Nat) : Nat :=
  if c.testBit (g.width - 1) then 2 * c % 2 ^ g.width ^^^ g.low else 2 * c % 2 ^ g.width

/-- Take one symbol into the register. -/
def absorb (c symbol : Nat) : Nat := g.shift^[g.width] (c ^^^ symbol)

/-- Take the symbols of a message into the register in turn. -/
def run (c : Nat) (symbols : List Nat) : Nat := symbols.foldl g.absorb c

theorem width_pos : 0 < g.width := by
  by_contra hzero
  have hlow := g.low_lt
  have hodd := g.low_odd
  simp_all

theorem degree_low_lt : (ofNat g.low).degree < g.width := degree_ofNat_lt g.low_lt

theorem monic : g.polynomial.Monic := monic_X_pow_add g.degree_low_lt

theorem degree_polynomial : g.polynomial.degree = g.width := by
  rw [polynomial, degree_add_eq_left_of_degree_lt, degree_X_pow]
  rw [degree_X_pow]
  exact g.degree_low_lt

/-- The generator shares no factor with a power of `X`. -/
theorem isCoprime_X_pow (k : Nat) : IsCoprime g.polynomial (X ^ k) := by
  have hcoeff : g.polynomial.coeff 0 = 1 := by
    simp [polynomial, coeff_X_pow, g.width_pos.ne, g.low_odd]
  have hdvd : ¬ X ∣ g.polynomial := by
    rw [X_dvd_iff, hcoeff]
    exact one_ne_zero
  exact ((irreducible_X.coprime_iff_not_dvd).mpr hdvd).symm.pow_right

/-- Shifting a polynomial does not change whether the generator divides it. -/
theorem dvd_mul_X_pow_iff {p : (ZMod 2)[X]} (k : Nat) :
    g.polynomial ∣ p * X ^ k ↔ g.polynomial ∣ p :=
  ⟨(g.isCoprime_X_pow k).dvd_of_dvd_mul_right, fun h => h.mul_right _⟩

theorem shift_lt (c : Nat) : g.shift c < 2 ^ g.width := by
  have hmod : 2 * c % 2 ^ g.width < 2 ^ g.width := Nat.mod_lt _ (by positivity)
  unfold shift
  split
  · exact Nat.xor_lt_two_pow hmod g.low_lt
  · exact hmod

theorem absorb_lt {c symbol : Nat} : g.absorb c symbol < 2 ^ g.width := by
  rw [absorb, ← Nat.succ_pred_eq_of_pos g.width_pos, Function.iterate_succ_apply',
    Nat.succ_pred_eq_of_pos g.width_pos]
  exact g.shift_lt _

/-- Doubling splits into what stays in the register and the bit that falls out. -/
private theorem two_mul_eq_xor {c w : Nat} (hw : 0 < w) (hc : c < 2 ^ w) :
    2 * c = 2 * c % 2 ^ w ^^^ if c.testBit (w - 1) then 2 ^ w else 0 := by
  have htop : (2 * c).testBit w = c.testBit (w - 1) := by
    rw [show w = w - 1 + 1 by omega, Nat.testBit_succ, show 2 * c / 2 = c by omega,
      Nat.add_sub_cancel]
  apply Nat.eq_of_testBit_eq
  intro i
  rw [Nat.testBit_xor, Nat.testBit_mod_two_pow]
  rcases lt_trichotomy i w with hlt | rfl | hgt
  · have hbit : (2 ^ w).testBit i = false := by simp [hlt.ne']
    cases c.testBit (w - 1) <;> simp [hlt, hbit]
  · cases hbit : c.testBit (i - 1) <;> simp [htop, hbit]
  · have hlarge : 2 * c < 2 ^ i :=
      calc 2 * c < 2 ^ (w + 1) := by rw [pow_succ]; omega
        _ ≤ 2 ^ i := Nat.pow_le_pow_right (by decide) hgt
    have hbit : (2 ^ w).testBit i = false := by simp [hgt.ne]
    cases c.testBit (w - 1) <;> simp [Nat.testBit_lt_two_pow hlarge, hbit]

/-- The residue of a polynomial modulo the generator. -/
noncomputable abbrev residue : (ZMod 2)[X] →+* AdjoinRoot g.polynomial :=
  AdjoinRoot.mk g.polynomial

theorem residue_eq_iff {p q : (ZMod 2)[X]} : g.residue p = g.residue q ↔ g.polynomial ∣ p - q :=
  AdjoinRoot.mk_eq_mk

/-- Adding the generator does not change a residue. -/
theorem residue_X_pow_width : g.residue (X ^ g.width) = g.residue (ofNat g.low) := by
  rw [residue_eq_iff, polynomial, CharTwo.sub_eq_add]

/-- A turn of the register multiplies its residue by `X`. -/
theorem residue_shift {c : Nat} (hc : c < 2 ^ g.width) :
    g.residue (ofNat (g.shift c)) = g.residue (X * ofNat c) := by
  have hdouble := congrArg ofNat (two_mul_eq_xor g.width_pos hc)
  rw [ofNat_two_mul, ofNat_xor] at hdouble
  rw [hdouble, map_add]
  unfold shift
  split
  · rw [ofNat_xor, map_add, ofNat_two_pow, residue_X_pow_width]
  · rw [ofNat_zero, map_zero, add_zero]

theorem residue_iterate_shift {c : Nat} (hc : c < 2 ^ g.width) (n : Nat) :
    g.shift^[n] c < 2 ^ g.width ∧
      g.residue (ofNat (g.shift^[n] c)) = g.residue (X ^ n * ofNat c) := by
  induction n with
  | zero => simpa using hc
  | succ n ih =>
    rw [Function.iterate_succ_apply']
    refine ⟨g.shift_lt _, ?_⟩
    rw [g.residue_shift ih.1, map_mul, ih.2, ← map_mul, ← mul_assoc, ← pow_succ']

/-- Taking in a symbol adds it and multiplies by `X` once for each of its bits. -/
theorem residue_absorb {c symbol : Nat} (hc : c < 2 ^ g.width) (hsymbol : symbol < 2 ^ g.width) :
    g.residue (ofNat (g.absorb c symbol)) =
      g.residue ((ofNat c + ofNat symbol) * X ^ g.width) := by
  rw [absorb, (g.residue_iterate_shift (Nat.xor_lt_two_pow hc hsymbol) _).2, ofNat_xor, mul_comm]

theorem run_concat (c : Nat) (symbols : List Nat) (symbol : Nat) :
    g.run c (symbols ++ [symbol]) = g.absorb (g.run c symbols) symbol := by
  simp [run]

theorem run_lt {c : Nat} (hc : c < 2 ^ g.width) (symbols : List Nat) :
    g.run c symbols < 2 ^ g.width := by
  cases symbols using List.reverseRecOn with
  | nil => exact hc
  | append_singleton symbols symbol =>
    rw [run_concat]
    exact g.absorb_lt

/-- The residue a message leaves in the register, by induction on its last
    symbol. -/
theorem residue_run {c : Nat} (hc : c < 2 ^ g.width) {symbols : List Nat}
    (hsymbols : ∀ symbol ∈ symbols, symbol < 2 ^ g.width) :
    g.residue (ofNat (g.run c symbols)) =
      g.residue (ofSymbols g.width symbols * X ^ g.width +
        ofNat c * X ^ (g.width * symbols.length)) := by
  induction symbols using List.reverseRecOn with
  | nil => simp [run]
  | append_singleton symbols symbol ih =>
    have hinit : ∀ s ∈ symbols, s < 2 ^ g.width := fun s hs =>
      hsymbols s (List.mem_append_left _ hs)
    have hlast : symbol < 2 ^ g.width := hsymbols symbol (by simp)
    rw [run_concat, g.residue_absorb (g.run_lt hc symbols) hlast, map_mul, map_add, ih hinit,
      ← map_add, ← map_mul]
    refine congrArg g.residue ?_
    rw [ofSymbols_concat, List.length_append, List.length_singleton]
    ring

/-- The register ends up holding the remainder of the message, shifted by the
    width, plus the initial value, shifted by the whole message. -/
theorem ofNat_run {c : Nat} (hc : c < 2 ^ g.width) {symbols : List Nat}
    (hsymbols : ∀ symbol ∈ symbols, symbol < 2 ^ g.width) :
    ofNat (g.run c symbols) =
      (ofSymbols g.width symbols * X ^ g.width + ofNat c * X ^ (g.width * symbols.length)) %ₘ
        g.polynomial := by
  have hdvd := g.residue_eq_iff.mp (g.residue_run hc hsymbols)
  have hsmall : (ofNat (g.run c symbols)).degree < g.polynomial.degree := by
    rw [g.degree_polynomial]
    exact degree_ofNat_lt (g.run_lt hc symbols)
  rw [← (modByMonic_eq_self_iff g.monic).mpr hsmall]
  exact modByMonic_eq_of_dvd_sub g.monic hdvd

/-- A register is determined by its residue. -/
theorem eq_iff_residue_eq {c d : Nat} (hc : c < 2 ^ g.width) (hd : d < 2 ^ g.width) :
    c = d ↔ g.residue (ofNat c) = g.residue (ofNat d) := by
  refine ⟨fun h => h ▸ rfl, fun hresidue => ?_⟩
  have hdvd := g.residue_eq_iff.mp hresidue
  have hzero : ofNat c - ofNat d = 0 := by
    apply eq_zero_of_dvd_of_degree_lt hdvd
    rw [g.degree_polynomial, CharTwo.sub_eq_add, ← ofNat_xor]
    exact degree_ofNat_lt (Nat.xor_lt_two_pow hc hd)
  exact ofNat_injective (sub_eq_zero.mp hzero)

/-- A symbol empties the register exactly when it is what the register holds. -/
theorem absorb_eq_zero_iff {c symbol : Nat} (hc : c < 2 ^ g.width)
    (hsymbol : symbol < 2 ^ g.width) : g.absorb c symbol = 0 ↔ c = symbol := by
  rw [g.eq_iff_residue_eq g.absorb_lt (by positivity), g.residue_absorb hc hsymbol, ofNat_zero,
    g.residue_eq_iff, sub_zero, ← CharTwo.sub_eq_add, dvd_mul_X_pow_iff,
    g.eq_iff_residue_eq hc hsymbol, g.residue_eq_iff]

/-- What two messages of one length leave in the register differs by what their
    difference leaves in an empty one, whatever the initial value. -/
theorem run_xor_run {c : Nat} (hc : c < 2 ^ g.width) {a b : List Nat}
    (hlength : a.length = b.length) (ha : ∀ symbol ∈ a, symbol < 2 ^ g.width)
    (hb : ∀ symbol ∈ b, symbol < 2 ^ g.width) :
    g.run c a ^^^ g.run c b = g.run 0 (List.zipWith (· ^^^ ·) a b) := by
  have hzero : 0 < 2 ^ g.width := by positivity
  have hdifference : ∀ symbol ∈ List.zipWith (· ^^^ ·) a b, symbol < 2 ^ g.width := by
    intro symbol hsymbol
    rw [← List.map_uncurry_zip_eq_zipWith, List.mem_map] at hsymbol
    obtain ⟨⟨s, t⟩, hmem, rfl⟩ := hsymbol
    obtain ⟨hs, ht⟩ := List.of_mem_zip hmem
    exact Nat.xor_lt_two_pow (ha s hs) (hb t ht)
  rw [g.eq_iff_residue_eq (Nat.xor_lt_two_pow (g.run_lt hc a) (g.run_lt hc b)) (g.run_lt hzero _),
    ofNat_xor, map_add, g.residue_run hc ha, g.residue_run hc hb, g.residue_run hzero hdifference,
    ← map_add, ofSymbols_zipWith_xor _ hlength, hlength]
  -- The two initial values cancel.
  have htwo : (2 : (ZMod 2)[X]) = 0 := CharTwo.two_eq_zero
  rw [ofNat_zero]
  refine congrArg g.residue ?_
  linear_combination ofNat c * X ^ (g.width * b.length) * htwo

/-- Two messages of one length leave the same value exactly when the generator
    divides their difference. -/
theorem run_eq_iff_dvd {c : Nat} (hc : c < 2 ^ g.width) {a b : List Nat}
    (hlength : a.length = b.length) (ha : ∀ symbol ∈ a, symbol < 2 ^ g.width)
    (hb : ∀ symbol ∈ b, symbol < 2 ^ g.width) :
    g.run c a = g.run c b ↔ g.polynomial ∣ ofSymbols g.width a - ofSymbols g.width b := by
  rw [g.eq_iff_residue_eq (g.run_lt hc a) (g.run_lt hc b), g.residue_run hc ha,
    g.residue_run hc hb, g.residue_eq_iff, hlength, add_sub_add_right_eq_sub, ← sub_mul,
    dvd_mul_X_pow_iff]

end Generator

end BitPolynomial
