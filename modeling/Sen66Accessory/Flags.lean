import Mathlib.Data.Nat.Bitwise
import Mathlib.Data.List.Basic

/-- An enumeration whose members name distinct bits of a 16-bit mask. -/
class FlagIndex (ι : Type) where
  /-- The bit a member stands for. -/
  index : ι → Nat
  /-- Every bit lies inside the mask. -/
  index_lt : ∀ i, index i < 16
  /-- No two members share a bit. -/
  index_injective : Function.Injective index

namespace Flags

variable {ι : Type} [FlagIndex ι]

/-- The one-bit mask of a member. -/
def bit (i : ι) : UInt16 := 1 <<< UInt16.ofNat (FlagIndex.index i)

/-- Whether a mask has the bit of a member, as C tests `mask & bit`. -/
def has (mask : UInt16) (i : ι) : Bool := mask &&& bit i != 0

/-- The mask accumulated by testing members in turn and or-ing in the bit of
    each one that passes. -/
def collect (members : List ι) (test : ι → Bool) : UInt16 :=
  members.foldl (fun mask i => if test i then mask ||| bit i else mask) 0

/-- A mask whose set bits all belong to members of the enumeration. -/
def Within (ι : Type) [FlagIndex ι] (mask : UInt16) : Prop :=
  ∀ n, mask.toNat.testBit n → ∃ i : ι, FlagIndex.index i = n

theorem toNat_bit (i : ι) : (bit i).toNat = 2 ^ FlagIndex.index i := by
  have hlt := FlagIndex.index_lt i
  have hword : FlagIndex.index i % 65536 = FlagIndex.index i := Nat.mod_eq_of_lt (by omega)
  rw [bit, UInt16.toNat_shiftLeft, UInt16.toNat_ofNat', hword, Nat.mod_eq_of_lt hlt,
    show (1 : UInt16).toNat = 1 from rfl, Nat.one_shiftLeft]
  exact Nat.mod_eq_of_lt (Nat.pow_lt_pow_right (by decide) hlt)

/-- Masking with a member's bit reads exactly that bit. -/
theorem has_eq_testBit (mask : UInt16) (i : ι) :
    has mask i = mask.toNat.testBit (FlagIndex.index i) := by
  have hzero : mask &&& bit i = 0 ↔ mask.toNat.testBit (FlagIndex.index i) = false := by
    rw [← UInt16.toNat_inj, UInt16.toNat_and, toNat_bit, Nat.and_two_pow]
    cases mask.toNat.testBit (FlagIndex.index i) <;> simp
  cases hbit : mask.toNat.testBit (FlagIndex.index i) with
  | false => simpa [has, bne] using hzero.mpr hbit
  | true =>
    have hne : mask &&& bit i ≠ 0 := fun h => by simp [hzero.mp h] at hbit
    simpa [has, bne] using hne

@[simp] theorem has_zero (i : ι) : has (0 : UInt16) i = false := by simp [has_eq_testBit]

@[simp] theorem has_or (a b : UInt16) (i : ι) : has (a ||| b) i = (has a i || has b i) := by
  simp [has_eq_testBit]

@[simp] theorem has_and (a b : UInt16) (i : ι) : has (a &&& b) i = (has a i && has b i) := by
  simp [has_eq_testBit]

@[simp] theorem has_xor (a b : UInt16) (i : ι) : has (a ^^^ b) i = (has a i ^^ has b i) := by
  simp [has_eq_testBit]

theorem has_bit [DecidableEq ι] (i j : ι) : has (bit i) j = decide (i = j) := by
  rw [has_eq_testBit, toNat_bit, Nat.testBit_two_pow]
  simp [FlagIndex.index_injective.eq_iff]

private theorem has_foldl [DecidableEq ι] (members : List ι) (test : ι → Bool) (j : ι) :
    ∀ mask : UInt16,
      has (members.foldl (fun mask i => if test i then mask ||| bit i else mask) mask) j =
        (has mask j || decide (j ∈ members) && test j) := by
  induction members with
  | nil => simp
  | cons i members ih =>
    intro mask
    rw [List.foldl_cons, ih]
    by_cases hij : i = j
    · subst hij
      cases htest : test i <;> simp [has_bit]
    · have hji : j ≠ i := fun h => hij h.symm
      cases htest : test i <;> simp [hij, hji, has_bit]

/-- The accumulated mask holds exactly the members that were tested and passed. -/
theorem has_collect [DecidableEq ι] (members : List ι) (test : ι → Bool) (i : ι) :
    has (collect members test) i = (decide (i ∈ members) && test i) := by
  rw [collect, has_foldl, has_zero, Bool.false_or]

@[simp] theorem within_zero : Within ι 0 := by
  intro n hn
  simp at hn

theorem within_bit (i : ι) : Within ι (bit i) := by
  intro n hn
  rw [toNat_bit, Nat.testBit_two_pow] at hn
  exact ⟨i, by simpa using hn⟩

theorem Within.or {a b : UInt16} (ha : Within ι a) (hb : Within ι b) : Within ι (a ||| b) := by
  intro n hn
  rw [UInt16.toNat_or, Nat.testBit_or, Bool.or_eq_true] at hn
  exact hn.elim (ha n) (hb n)

theorem Within.xor {a b : UInt16} (ha : Within ι a) (hb : Within ι b) : Within ι (a ^^^ b) := by
  intro n hn
  rw [UInt16.toNat_xor, Nat.testBit_xor] at hn
  cases hbit : a.toNat.testBit n with
  | true => exact ha n hbit
  | false => exact hb n (by simpa [hbit] using hn)

theorem within_collect (members : List ι) (test : ι → Bool) : Within ι (collect members test) := by
  suffices h : ∀ mask : UInt16, Within ι mask →
      Within ι (members.foldl (fun mask i => if test i then mask ||| bit i else mask) mask) from
    h 0 within_zero
  induction members with
  | nil => exact fun _ hmask => hmask
  | cons i members ih =>
    intro mask hmask
    rw [List.foldl_cons]
    apply ih
    split
    · exact hmask.or (within_bit i)
    · exact hmask

/-- Masks over the enumeration are equal when they hold the same members. -/
theorem Within.ext {a b : UInt16} (ha : Within ι a) (hb : Within ι b)
    (h : ∀ i : ι, has a i = has b i) : a = b := by
  apply UInt16.toNat_inj.mp
  apply Nat.eq_of_testBit_eq
  intro n
  have hindexed (hn : ∃ i : ι, FlagIndex.index i = n) : a.toNat.testBit n = b.toNat.testBit n := by
    obtain ⟨i, rfl⟩ := hn
    simpa only [has_eq_testBit] using h i
  cases hbit : a.toNat.testBit n with
  | true => rw [← hindexed (ha n hbit), hbit]
  | false =>
    cases hbit' : b.toNat.testBit n with
    | false => rfl
    | true => rw [← hbit, hindexed (hb n hbit'), hbit']

/-- A mask over the enumeration is empty exactly when it holds no member. -/
theorem Within.eq_zero_iff {mask : UInt16} (hmask : Within ι mask) :
    mask = 0 ↔ ∀ i : ι, has mask i = false := by
  constructor
  · rintro rfl i
    exact has_zero i
  · intro h
    exact hmask.ext within_zero (by simpa using h)

end Flags
