import Sen66Accessory.Decimal
import Sen66Accessory.Sen66.Protocol

open Decimal

namespace Sen66

/-- One line of the `sen66` command: a label, and a decimal text with its unit
    unless the channel is not valid. -/
structure ShellLine where
  label : String
  reading : Option (List Char × String)
  deriving DecidableEq

/-- The characters of a line: `"  %-12s "` and behind it `"%s %s"` or `"<n/a>"`. -/
def ShellLine.text (line : ShellLine) : List Char :=
  [' ', ' '] ++ line.label.toList.rightpad 12 ' ' ++ ' ' ::
    match line.reading with
    | none => "<n/a>".toList
    | some (decimal, unit) => decimal ++ ' ' :: unit.toList

def printUnsignedTenth (label : String) (raw : UInt16) (unit : String) : ShellLine where
  label := label
  reading := some (digits 0 (raw / 10).toNat ++ '.' :: digits 0 (raw % 10).toNat, unit)

/-- Print `scaled`, a value times `frac_pow`, as a signed decimal with the given
    resolution. -/
def printSignedFixed (label : String) (scaled frac_pow : Int32) (unit : String) : ShellLine :=
  let whole := scaled / frac_pow
  let frac := scaled % frac_pow
  let frac := if frac < 0 then -frac else frac
  let sign := if scaled < 0 ∧ whole = 0 then ['-'] else []
  if frac_pow = 100 then
    ⟨label, some (sign ++ signed 0 whole.toInt ++ '.' :: signed 2 frac.toInt, unit)⟩
  else
    ⟨label, some (sign ++ signed 0 whole.toInt ++ '.' :: signed 0 frac.toInt, unit)⟩

def printNa (label : String) : ShellLine := ⟨label, none⟩

def printMeasurement (m : Measurement) : List ShellLine := [
  if m.has .pm1p0 then printUnsignedTenth "PM1.0" m.pm1p0 "ug/m3" else printNa "PM1.0",
  if m.has .pm2p5 then printUnsignedTenth "PM2.5" m.pm2p5 "ug/m3" else printNa "PM2.5",
  if m.has .pm4p0 then printUnsignedTenth "PM4.0" m.pm4p0 "ug/m3" else printNa "PM4.0",
  if m.has .pm10 then printUnsignedTenth "PM10" m.pm10 "ug/m3" else printNa "PM10",
  if m.has .humidity then printSignedFixed "Humidity" m.humidity.toInt32 100 "%RH"
  else printNa "Humidity",
  if m.has .temperature then
    printSignedFixed "Temperature" (m.temperature.toInt32 * 100 / 200) 100 "degC"
  else printNa "Temperature",
  if m.has .vocIndex then printSignedFixed "VOC index" m.voc_index.toInt32 10 ""
  else printNa "VOC index",
  if m.has .noxIndex then printSignedFixed "NOx index" m.nox_index.toInt32 10 ""
  else printNa "NOx index",
  if m.has .co2 then ⟨"CO2", some (digits 0 m.co2.toNat, "ppm")⟩ else printNa "CO2"]

/-- A line that shows a number in a unit, or that shows none. -/
def ShellLine.Shows (line : ShellLine) (unit : String) : Option Rat → Prop
  | none => line.reading = none
  | some q => ∃ decimal, line.reading = some (decimal, unit) ∧ read decimal = some q

/-- A line shows one number at most. -/
theorem ShellLine.Shows.unique {line : ShellLine} {unit : String} {p q : Option Rat}
    (hp : line.Shows unit p) (hq : line.Shows unit q) : p = q := by
  match p, q, hp, hq with
  | none, none, _, _ => rfl
  | none, some _, hp, ⟨_, hq, _⟩ => exact absurd (hp.symm.trans hq) (by simp)
  | some _, none, ⟨_, hp, _⟩, hq => exact absurd (hq.symm.trans hp) (by simp)
  | some p, some q, ⟨decimal, hp, hreadp⟩, ⟨decimal', hq, hreadq⟩ =>
    obtain ⟨rfl, -⟩ := Prod.mk.inj (Option.some_inj.mp (hp.symm.trans hq))
    exact hreadp.symm.trans hreadq

theorem shows_printNa (label unit : String) : (printNa label).Shows unit none := rfl

/-- Whole and tenth of an unsigned register denote a tenth of it. -/
theorem shows_printUnsignedTenth (label : String) (raw : UInt16) (unit : String) :
    (printUnsignedTenth label raw unit).Shows unit (some (raw.toNat / 10)) := by
  refine ⟨_, rfl, ?_⟩
  have hsplit : ((10 * (raw.toNat / 10) + raw.toNat % 10 : Nat) : Rat) = raw.toNat := by
    rw [Nat.div_add_mod]
  push_cast at hsplit
  have htenth : raw.toNat % 10 < 10 ^ 1 := by omega
  rw [UInt16.toNat_div, UInt16.toNat_mod, show (10 : UInt16).toNat = 10 from rfl,
    ← digits_one (raw.toNat % 10), read_digits_append, readUnsigned_fixed 0 _ Nat.one_pos htenth,
    ← hsplit]
  congr 1
  field_simp

/-- The fraction of a scaled value is the size of its remainder. -/
theorem toInt_fraction (scaled : Int32) {frac_pow : Int32} (hpos : 0 < frac_pow.toInt) :
    (if scaled % frac_pow < 0 then -(scaled % frac_pow) else scaled % frac_pow).toInt =
      (scaled.toInt.tmod frac_pow.toInt).natAbs := by
  have hmod : (scaled % frac_pow).toInt = scaled.toInt.tmod frac_pow.toInt := Int32.toInt_mod _ _
  have hlt := frac_pow.toInt_lt
  have hsmall : (scaled.toInt.tmod frac_pow.toInt).natAbs < frac_pow.toInt := by
    have hbelow := Nat.mod_lt scaled.toInt.natAbs (Int.natAbs_pos.mpr hpos.ne')
    rw [Int.natAbs_tmod]
    omega
  generalize scaled.toInt.tmod frac_pow.toInt = remainder at hmod hsmall ⊢
  split
  · rename_i hneg
    have hneg : (scaled % frac_pow).toInt < 0 := Int32.lt_iff_toInt_lt.mp hneg
    rw [Int32.toInt_neg, hmod, Int.bmod_eq_of_le (by norm_num; omega) (by norm_num; omega)]
    omega
  · rename_i hge
    have hge : ¬ (scaled % frac_pow).toInt < 0 := fun h => hge (Int32.lt_iff_toInt_lt.mpr h)
    rw [hmod] at hge ⊢
    omega

/-- Whole part and fraction of a scaled value, with the sign that a whole part of
    zero has lost, denote that value. -/
theorem read_whole_fraction (scaled : Int32) {frac_pow : Int32} {places : Nat}
    (hplaces : 0 < places) (hpow : frac_pow.toInt = 10 ^ places) :
    read ((if scaled < 0 ∧ scaled / frac_pow = 0 then ['-'] else []) ++
        signed 0 (scaled / frac_pow).toInt ++ '.' :: digits places
          (if scaled % frac_pow < 0 then -(scaled % frac_pow) else scaled % frac_pow).toInt.natAbs) =
      some ((scaled.toInt : Rat) / 10 ^ places) := by
  have hpos : 0 < frac_pow.toInt := by
    rw [hpow]
    positivity
  have hwhole : (scaled / frac_pow).toInt = scaled.toInt.tdiv (10 ^ places) := by
    rw [← hpow]
    refine Int32.toInt_div_of_ne_right _ _ ?_
    rintro rfl
    exact absurd hpos (by decide)
  have hsign : (scaled < 0 ∧ scaled / frac_pow = 0) ↔
      (scaled.toInt < 0 ∧ scaled.toInt.tdiv (10 ^ places) = 0) := by
    rw [← hwhole, Int32.lt_iff_toInt_lt, ← Int32.toInt_inj]
    rfl
  simp only [hwhole, hsign, toInt_fraction scaled hpos, hpow, Int.natAbs_natCast]
  exact read_fixedPoint scaled.toInt hplaces

/-- A signed value in hundredths denotes a hundredth of it, whatever its sign. -/
theorem shows_printSignedFixed (label : String) (scaled : Int32) (unit : String) :
    (printSignedFixed label scaled 100 unit).Shows unit (some (scaled.toInt / 100)) := by
  have hnonneg := Int.natCast_nonneg (scaled.toInt.tmod (100 : Int32).toInt).natAbs
  rw [← toInt_fraction scaled (by decide)] at hnonneg
  have hread := read_whole_fraction scaled Nat.two_pos (show (100 : Int32).toInt = 10 ^ 2 from rfl)
  rw [← signed_of_nonneg 2 hnonneg] at hread
  refine ⟨_, rfl, hread.trans ?_⟩
  norm_num

/-- A signed value in tenths denotes a tenth of it, whatever its sign. -/
theorem shows_printSignedFixed_tenths (label : String) (scaled : Int32) (unit : String) :
    (printSignedFixed label scaled 10 unit).Shows unit (some (scaled.toInt / 10)) := by
  have hnonneg := Int.natCast_nonneg (scaled.toInt.tmod (10 : Int32).toInt).natAbs
  rw [← toInt_fraction scaled (by decide)] at hnonneg
  have hread := read_whole_fraction scaled Nat.one_pos (show (10 : Int32).toInt = 10 ^ 1 from rfl)
  rw [digits_one, ← signed_of_nonneg 0 hnonneg] at hread
  refine ⟨_, rfl, hread.trans ?_⟩
  norm_num

/-- A line printed only for a valid channel shows its number then, and none
    otherwise. -/
theorem ShellLine.Shows.ite {line : ShellLine} {unit : String} {q : Rat}
    (hline : line.Shows unit (some q)) (valid : Bool) (label : String) :
    (if valid = true then line else printNa label).Shows unit
      (if valid = true then some q else none) := by
  cases valid with
  | false => exact shows_printNa label unit
  | true => exact hline

end Sen66
