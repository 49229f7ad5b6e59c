import Mathlib.Algebra.Field.Rat
import Mathlib.Algebra.Order.Field.Rat
import Mathlib.Data.Nat.Cast.Order.Basic
import Mathlib.Tactic.FieldSimp
import Mathlib.Tactic.NormNum
import Mathlib.Tactic.Positivity

/-! Decimal numbers as `printf` writes them, and what they denote. -/

namespace Decimal

/-- `%0<width>u`: the digits of a number, padded with zeros on the left. -/
def digits (width n : Nat) : List Char := (Nat.toDigits 10 n).leftpad width '0'

/-- `%0<width>d`: the sign counts towards the width. -/
def signed (width : Nat) (n : Int) : List Char :=
  if n < 0 then '-' :: digits (width - 1) n.natAbs else digits width n.natAbs

/-- The number denoted by digits, optionally followed by a point and more
    digits. Anything else denotes nothing. -/
def readUnsigned (text : List Char) : Option Rat :=
  let whole := text.takeWhile Char.isDigit
  if whole = [] then none
  else match text.dropWhile Char.isDigit with
    | [] => some (Nat.ofDigitChars 10 whole 0)
    | '.' :: fraction =>
      if fraction ≠ [] ∧ fraction.all Char.isDigit then
        some (Nat.ofDigitChars 10 whole 0 +
          Nat.ofDigitChars 10 fraction 0 / 10 ^ fraction.length)
      else none
    | _ => none

/-- The number denoted by a text with an optional minus sign. -/
def read : List Char → Option Rat
  | '-' :: text => (readUnsigned text).map fun q => -q
  | text => readUnsigned text

theorem isDigit_of_mem_digits {width n : Nat} {c : Char} (hc : c ∈ digits width n) :
    c.isDigit = true := by
  rw [digits, List.leftpad, List.mem_append] at hc
  rcases hc with hzero | hdigit
  · rw [List.eq_of_mem_replicate hzero]
    rfl
  · exact Nat.isDigit_of_mem_toDigits (by decide) (by decide) hdigit

theorem digits_ne_nil (width n : Nat) : digits width n ≠ [] := by
  intro h
  exact Nat.toDigits_ne_nil (List.append_eq_nil_iff.mp h).2

/-- Padding does not change the number that digits denote. -/
theorem ofDigitChars_digits (width n : Nat) : Nat.ofDigitChars 10 (digits width n) 0 = n := by
  rw [digits, List.leftpad, Nat.ofDigitChars_append, Nat.ofDigitChars_replicate_zero, Nat.mul_zero,
    Nat.ofDigitChars_ten_toDigits]

/-- A number that fits its width takes exactly that many digits. -/
theorem length_digits {width n : Nat} (hwidth : 0 < width) (hn : n < 10 ^ width) :
    (digits width n).length = width := by
  have hle : (Nat.toDigits 10 n).length ≤ width :=
    (Nat.length_toDigits_le_iff (by decide) hwidth).mpr hn
  rw [digits, List.length_leftpad, Nat.max_eq_left hle]

/-- Every number takes one digit. -/
theorem digits_one (n : Nat) : digits 1 n = digits 0 n := by
  have hpos := Nat.length_toDigits_pos (b := 10) (n := n)
  rw [digits, digits, List.leftpad, List.leftpad, Nat.sub_eq_zero_of_le hpos, Nat.zero_sub]

private theorem takeWhile_digits (width n : Nat) (rest : List Char)
    (hrest : rest.takeWhile Char.isDigit = []) :
    (digits width n ++ rest).takeWhile Char.isDigit = digits width n := by
  rw [List.takeWhile_append_of_pos fun c hc => isDigit_of_mem_digits hc, hrest, List.append_nil]

private theorem dropWhile_digits (width n : Nat) (rest : List Char)
    (hrest : rest.dropWhile Char.isDigit = rest) :
    (digits width n ++ rest).dropWhile Char.isDigit = rest := by
  rw [List.dropWhile_append_of_pos fun c hc => isDigit_of_mem_digits hc, hrest]

theorem readUnsigned_digits (width n : Nat) : readUnsigned (digits width n) = some (n : Rat) := by
  have hwhole := takeWhile_digits width n [] rfl
  have hrest := dropWhile_digits width n [] rfl
  rw [List.append_nil] at hwhole hrest
  simp only [readUnsigned, hwhole, hrest, if_neg (digits_ne_nil width n), ofDigitChars_digits]

/-- A whole part and a fraction that fits its width denote the number they make
    up. -/
theorem readUnsigned_fixed (width n : Nat) {places m : Nat} (hplaces : 0 < places)
    (hm : m < 10 ^ places) :
    readUnsigned (digits width n ++ '.' :: digits places m) =
      some ((n : Rat) + m / 10 ^ places) := by
  have hwhole := takeWhile_digits width n ('.' :: digits places m) rfl
  have hrest := dropWhile_digits width n ('.' :: digits places m) rfl
  have hfraction : digits places m ≠ [] ∧ (digits places m).all Char.isDigit = true :=
    ⟨digits_ne_nil places m, List.all_eq_true.mpr fun c hc => isDigit_of_mem_digits hc⟩
  simp only [readUnsigned, hwhole, hrest, if_neg (digits_ne_nil width n), if_pos hfraction,
    ofDigitChars_digits, length_digits hplaces hm]

/-- A text that starts with digits has no sign. -/
theorem read_digits_append (width n : Nat) (rest : List Char) :
    read (digits width n ++ rest) = readUnsigned (digits width n ++ rest) := by
  cases hdigits : digits width n with
  | nil => exact absurd hdigits (digits_ne_nil width n)
  | cons c tail =>
    have hc : c.isDigit = true := isDigit_of_mem_digits (hdigits ▸ List.mem_cons_self)
    rw [List.cons_append, read]
    rintro text h
    obtain ⟨rfl, -⟩ := List.cons.inj h
    simp at hc

theorem read_digits (width n : Nat) : read (digits width n) = some (n : Rat) := by
  have hread := read_digits_append width n []
  rwa [List.append_nil, readUnsigned_digits] at hread

theorem signed_of_nonneg (width : Nat) {n : Int} (hn : 0 ≤ n) :
    signed width n = digits width n.natAbs := by
  rw [signed, if_neg (by omega)]

theorem signed_of_neg {n : Int} (hn : n < 0) : signed 0 n = '-' :: digits 0 n.natAbs := by
  rw [signed, if_pos hn]

/-- A scaled integer printed as its truncated quotient and the size of its
    remainder denotes the exact quotient, provided that a minus sign is added
    where the quotient has lost it. -/
theorem read_fixedPoint (scaled : Int) {places : Nat} (hplaces : 0 < places) :
    read ((if scaled < 0 ∧ scaled.tdiv (10 ^ places) = 0 then ['-'] else []) ++
        signed 0 (scaled.tdiv (10 ^ places)) ++
        '.' :: digits places (scaled.tmod (10 ^ places)).natAbs) =
      some ((scaled : Rat) / 10 ^ places) := by
  have hquotient : (scaled.tdiv (10 ^ places)).natAbs = scaled.natAbs / 10 ^ places := by
    rw [Int.natAbs_tdiv, Int.natAbs_pow]
    rfl
  have hremainder : (scaled.tmod (10 ^ places)).natAbs = scaled.natAbs % 10 ^ places := by
    rw [Int.natAbs_tmod, Int.natAbs_pow]
    rfl
  have hpower : (0 : Rat) < 10 ^ places := by positivity
  have hunsigned : readUnsigned (digits 0 (scaled.natAbs / 10 ^ places) ++
      '.' :: digits places (scaled.natAbs % 10 ^ places)) =
        some ((scaled.natAbs : Rat) / 10 ^ places) := by
    rw [readUnsigned_fixed 0 _ hplaces (Nat.mod_lt _ (by positivity))]
    have hsplit : ((10 ^ places * (scaled.natAbs / 10 ^ places) +
        scaled.natAbs % 10 ^ places : Nat) : Rat) = scaled.natAbs := by
      rw [Nat.div_add_mod]
    push_cast at hsplit
    rw [← hsplit]
    field_simp
  rw [hremainder]
  by_cases hneg : scaled < 0
  · have htext : (if scaled < 0 ∧ scaled.tdiv (10 ^ places) = 0 then ['-'] else []) ++
        signed 0 (scaled.tdiv (10 ^ places)) =
          '-' :: digits 0 (scaled.natAbs / 10 ^ places) := by
      by_cases hzero : scaled.tdiv (10 ^ places) = 0
      · rw [if_pos ⟨hneg, hzero⟩, signed_of_nonneg 0 hzero.ge, hquotient]
        rfl
      · have hflipped : 0 ≤ (-scaled).tdiv (10 ^ places) :=
          Int.tdiv_nonneg (by omega) (by positivity)
        rw [Int.neg_tdiv, Int.neg_nonneg] at hflipped
        have hquotient_neg := lt_of_le_of_ne hflipped hzero
        rw [if_neg fun h => hzero h.2, signed_of_neg hquotient_neg, hquotient]
        rfl
    have hcast : (scaled : Rat) = -(scaled.natAbs : Rat) := by
      rw [← Int.cast_natCast, Int.ofNat_natAbs_of_nonpos hneg.le, Int.cast_neg, neg_neg]
    rw [htext, List.cons_append, read, hunsigned, hcast, neg_div]
    rfl
  · have hquotient_nonneg : 0 ≤ scaled.tdiv (10 ^ places) :=
      Int.tdiv_nonneg (by omega) (by positivity)
    have hcast : (scaled : Rat) = (scaled.natAbs : Rat) := by
      rw [← Int.cast_natCast, Int.natAbs_of_nonneg (by omega)]
    rw [if_neg fun h => hneg h.1, List.nil_append, signed_of_nonneg 0 hquotient_nonneg, hquotient,
      read_digits_append, hunsigned, hcast]

end Decimal
