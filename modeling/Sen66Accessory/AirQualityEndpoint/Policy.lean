import Sen66Accessory.Sen66.Protocol
import Mathlib.Data.Rat.Init
import Mathlib.Algebra.Order.Ring.Unbundled.Rat
import Mathlib.Order.Bounds.Basic

open Sen66

namespace AirQualityEndpoint

/-- The values of the Matter air quality enumeration, in its order. -/
inductive AirQualityLevel where
  | unknown
  | good
  | fair
  | moderate
  | poor
  | veryPoor
  | extremelyPoor
  deriving DecidableEq

/-- The number the enumeration gives a level. -/
def AirQualityLevel.toNat : AirQualityLevel → Nat
  | .unknown => 0
  | .good => 1
  | .fair => 2
  | .moderate => 3
  | .poor => 4
  | .veryPoor => 5
  | .extremelyPoor => 6

theorem AirQualityLevel.toNat_injective : Function.Injective AirQualityLevel.toNat := by
  intro a b
  cases a <;> cases b <;> simp [AirQualityLevel.toNat]

/-- Levels are ordered from unknown and good to the worst. -/
instance : LinearOrder AirQualityLevel :=
  LinearOrder.lift' AirQualityLevel.toNat AirQualityLevel.toNat_injective

/-- Engineering values are read as exact rationals. The code rounds one float
    division to nearest, and the breakpoints likewise, which leaves every
    comparison between them as it is. -/
def co2RawToPpm (raw : UInt16) : Rat := raw.toNat

def pmRawToUgm3 (raw : UInt16) : Rat := raw.toNat / 10

/-- The division truncates toward zero, as in C. -/
def temperatureRawToMatterCentiDegC (raw : Int16) : Int16 := (raw.toInt32 * 100 / 200).toInt16

def humidityRawToMatterCentiPercent (raw : Int16) : UInt16 := raw.toUInt16

/-- Inclusive upper bounds of the categories of one channel. -/
structure ChannelBreakpoints where
  good : Rat
  fair : Rat
  moderate : Rat
  poor : Rat
  veryPoor : Rat

def kCo2BreakpointsPpm : ChannelBreakpoints := ⟨800, 1000, 1500, 2500, 5000⟩
def kPm2p5BreakpointsUgm3 : ChannelBreakpoints := ⟨9, 35.4, 55.4, 125.4, 225.4⟩
def kPm10BreakpointsUgm3 : ChannelBreakpoints := ⟨54, 154, 254, 354, 424⟩

def classifyChannel (value : Rat) (bp : ChannelBreakpoints) : AirQualityLevel :=
  if value ≤ bp.good then .good
  else if value ≤ bp.fair then .fair
  else if value ≤ bp.moderate then .moderate
  else if value ≤ bp.poor then .poor
  else if value ≤ bp.veryPoor then .veryPoor
  else .extremelyPoor

structure PolicyInputs where
  co2Valid : Bool := false
  co2Raw : UInt16 := 0
  pm2p5Valid : Bool := false
  pm2p5Raw : UInt16 := 0
  pm10Valid : Bool := false
  pm10Raw : UInt16 := 0

/-- The running maximum: a channel replaces the worst level so far only when
    its own is strictly worse. -/
def considerChannel (worst : AirQualityLevel) (value : Rat) (bp : ChannelBreakpoints) :
    AirQualityLevel :=
  let level := classifyChannel value bp
  if level.toNat > worst.toNat then level else worst

def evaluateAirQuality (inputs : PolicyInputs) : AirQualityLevel :=
  let worst := .unknown
  let anyValid := inputs.co2Valid || inputs.pm2p5Valid || inputs.pm10Valid
  let worst :=
    if inputs.co2Valid then considerChannel worst (co2RawToPpm inputs.co2Raw) kCo2BreakpointsPpm
    else worst
  let worst :=
    if inputs.pm2p5Valid then
      considerChannel worst (pmRawToUgm3 inputs.pm2p5Raw) kPm2p5BreakpointsUgm3
    else worst
  let worst :=
    if inputs.pm10Valid then considerChannel worst (pmRawToUgm3 inputs.pm10Raw) kPm10BreakpointsUgm3
    else worst
  if anyValid then worst else .unknown

/-- Scaling by 100 / 200 halves a register toward zero: no intermediate value
    leaves its type. -/
theorem toInt_scaled (raw : Int16) : (raw.toInt32 * 100 / 200).toInt = raw.toInt.tdiv 2 := by
  have hlo := raw.le_toInt
  have hhi := raw.toInt_lt
  have hscaled : (raw.toInt32 * 100).toInt = raw.toInt * 100 := by
    rw [Int32.toInt_mul, Int16.toInt_toInt32]
    exact Int.bmod_eq_of_le (by change -2147483648 ≤ raw.toInt * 100; omega)
      (by change raw.toInt * 100 < 2147483648; omega)
  rw [Int32.toInt_div_of_ne_right _ _ (by decide), hscaled]
  exact Int.mul_tdiv_mul_of_pos_left raw.toInt 2 (show (0 : Int) < 100 by decide)

/-- The conversion halves the register toward zero. -/
theorem toInt_temperatureRawToMatterCentiDegC (raw : Int16) :
    (temperatureRawToMatterCentiDegC raw).toInt = raw.toInt.tdiv 2 := by
  have hlo := raw.le_toInt
  have hhi := raw.toInt_lt
  have hbound : -32768 ≤ raw.toInt.tdiv 2 ∧ raw.toInt.tdiv 2 < 32768 := by
    rw [Int.tdiv_eq_ediv, show Int.sign 2 = 1 from rfl]
    split <;> omega
  rw [temperatureRawToMatterCentiDegC, Int32.toInt_toInt16, toInt_scaled]
  exact Int.bmod_eq_of_le (by simpa using hbound.1) (by simpa using hbound.2)

/-- A converted temperature is never the null encoding of its attribute. -/
theorem temperatureRawToMatterCentiDegC_ne_minValue (raw : Int16) :
    temperatureRawToMatterCentiDegC raw ≠ Int16.minValue := by
  intro h
  have hhalf := toInt_temperatureRawToMatterCentiDegC raw
  have hlo := raw.le_toInt
  rw [h, Int16.toInt_minValue, Int.tdiv_eq_ediv, show Int.sign 2 = 1 from rfl] at hhalf
  split at hhalf <;> omega

/-- The levels of the valid channels. -/
def PolicyInputs.levels (inputs : PolicyInputs) : List AirQualityLevel :=
  (if inputs.co2Valid then [classifyChannel (co2RawToPpm inputs.co2Raw) kCo2BreakpointsPpm]
    else []) ++
  (if inputs.pm2p5Valid then [classifyChannel (pmRawToUgm3 inputs.pm2p5Raw) kPm2p5BreakpointsUgm3]
    else []) ++
  (if inputs.pm10Valid then [classifyChannel (pmRawToUgm3 inputs.pm10Raw) kPm10BreakpointsUgm3]
    else [])

theorem unknown_le (level : AirQualityLevel) : .unknown ≤ level := Nat.zero_le _

theorem considerChannel_eq_max (worst : AirQualityLevel) (value : Rat) (bp : ChannelBreakpoints) :
    considerChannel worst value bp = max worst (classifyChannel value bp) := by
  dsimp only [considerChannel]
  split
  · rename_i hgt
    have hlt : worst < classifyChannel value bp := hgt
    exact (max_eq_right hlt.le).symm
  · rename_i hle
    have hle : ¬ worst < classifyChannel value bp := hle
    exact (max_eq_left (not_lt.mp hle)).symm

/-- The aggregate is the running maximum over the valid channels. -/
theorem evaluateAirQuality_eq_foldl (inputs : PolicyInputs) :
    evaluateAirQuality inputs = inputs.levels.foldl max .unknown := by
  simp only [evaluateAirQuality, considerChannel_eq_max, PolicyInputs.levels]
  cases inputs.co2Valid <;> cases inputs.pm2p5Valid <;> cases inputs.pm10Valid <;> rfl

theorem classifyChannel_ne_unknown (value : Rat) (bp : ChannelBreakpoints) :
    classifyChannel value bp ≠ .unknown := by
  unfold classifyChannel
  split_ifs <;> simp

theorem PolicyInputs.mem_levels {inputs : PolicyInputs} {level : AirQualityLevel} :
    level ∈ inputs.levels ↔
      (inputs.co2Valid = true ∧
        level = classifyChannel (co2RawToPpm inputs.co2Raw) kCo2BreakpointsPpm) ∨
      (inputs.pm2p5Valid = true ∧
        level = classifyChannel (pmRawToUgm3 inputs.pm2p5Raw) kPm2p5BreakpointsUgm3) ∨
      (inputs.pm10Valid = true ∧
        level = classifyChannel (pmRawToUgm3 inputs.pm10Raw) kPm10BreakpointsUgm3) := by
  simp only [PolicyInputs.levels, List.mem_append, List.mem_ite_nil_right, List.mem_singleton,
    or_assoc]

/-- There is no level exactly when no channel is valid. -/
theorem PolicyInputs.levels_eq_nil (inputs : PolicyInputs) :
    inputs.levels = [] ↔
      inputs.co2Valid = false ∧ inputs.pm2p5Valid = false ∧ inputs.pm10Valid = false := by
  simp [PolicyInputs.levels]

/-- A valid channel always has a known level. -/
theorem level_ne_unknown {inputs : PolicyInputs} {level : AirQualityLevel}
    (hlevel : level ∈ inputs.levels) : level ≠ .unknown := by
  rcases PolicyInputs.mem_levels.mp hlevel with ⟨_, rfl⟩ | ⟨_, rfl⟩ | ⟨_, rfl⟩ <;>
    exact classifyChannel_ne_unknown _ _

private theorem isGreatest_foldl_max (levels : List AirQualityLevel) (worst : AirQualityLevel) :
    IsGreatest {level | level ∈ worst :: levels} (levels.foldl max worst) := by
  induction levels generalizing worst with
  | nil => exact ⟨List.mem_cons_self, by simp [upperBounds]⟩
  | cons level levels ih =>
    obtain ⟨hmem, hupper⟩ := ih (max worst level)
    refine ⟨?_, ?_⟩
    · rcases List.mem_cons.mp hmem with hmax | htail
      · change List.foldl max (max worst level) levels ∈ worst :: level :: levels
        rw [hmax]
        rcases max_choice worst level with h | h <;> simp [h]
      · exact List.mem_cons_of_mem _ (List.mem_cons_of_mem _ htail)
    · have hroot := hupper (a := max worst level) List.mem_cons_self
      intro other hother
      rcases List.mem_cons.mp hother with rfl | hother
      · exact (le_max_left _ _).trans hroot
      rcases List.mem_cons.mp hother with rfl | hother
      · exact (le_max_right _ _).trans hroot
      · exact hupper (List.mem_cons_of_mem _ hother)

/-- The aggregate is the worst level among the valid channels, and unknown when
    there are none. -/
theorem evaluateAirQuality_spec (inputs : PolicyInputs) :
    (inputs.levels = [] → evaluateAirQuality inputs = .unknown) ∧
    (inputs.levels ≠ [] →
      IsGreatest {level | level ∈ inputs.levels} (evaluateAirQuality inputs)) := by
  rw [evaluateAirQuality_eq_foldl]
  refine ⟨fun hnone => by rw [hnone]; rfl, fun hsome => ?_⟩
  obtain ⟨hmem, hupper⟩ := isGreatest_foldl_max inputs.levels .unknown
  refine ⟨?_, fun level hlevel => hupper (List.mem_cons_of_mem _ hlevel)⟩
  rcases List.mem_cons.mp hmem with hunknown | hmem
  · obtain ⟨level, hlevel⟩ := List.exists_mem_of_ne_nil _ hsome
    have hle := hupper (List.mem_cons_of_mem _ hlevel)
    rw [hunknown] at hle
    exact absurd (le_antisymm hle (unknown_le level)) (level_ne_unknown hlevel)
  · exact hmem

end AirQualityEndpoint
