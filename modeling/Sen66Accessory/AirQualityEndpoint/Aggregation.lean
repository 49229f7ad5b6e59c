import Sen66Accessory.AirQualityEndpoint.Policy
import Mathlib.Algebra.Order.Field.Rat
import Mathlib.Data.List.Perm.Basic
import Mathlib.Tactic.Linarith

namespace AirQualityEndpoint

/-- The channels the policy looks at. -/
inductive PolicyChannel where
  | co2
  | pm2p5
  | pm10
  deriving DecidableEq

/-- The channels in the order the code considers them. -/
def PolicyChannel.all : List PolicyChannel := [.co2, .pm2p5, .pm10]

def PolicyChannel.breakpoints : PolicyChannel → ChannelBreakpoints
  | .co2 => kCo2BreakpointsPpm
  | .pm2p5 => kPm2p5BreakpointsUgm3
  | .pm10 => kPm10BreakpointsUgm3

namespace PolicyInputs

def valid (inputs : PolicyInputs) : PolicyChannel → Bool
  | .co2 => inputs.co2Valid
  | .pm2p5 => inputs.pm2p5Valid
  | .pm10 => inputs.pm10Valid

def raw (inputs : PolicyInputs) : PolicyChannel → UInt16
  | .co2 => inputs.co2Raw
  | .pm2p5 => inputs.pm2p5Raw
  | .pm10 => inputs.pm10Raw

/-- The exact concentration a channel's raw value stands for. -/
def concentration (inputs : PolicyInputs) : PolicyChannel → Rat
  | .co2 => co2RawToPpm inputs.co2Raw
  | .pm2p5 => pmRawToUgm3 inputs.pm2p5Raw
  | .pm10 => pmRawToUgm3 inputs.pm10Raw

def level (inputs : PolicyInputs) (channel : PolicyChannel) : AirQualityLevel :=
  classifyChannel (inputs.concentration channel) channel.breakpoints

end PolicyInputs

/-- The category just below another one. -/
def AirQualityLevel.below : AirQualityLevel → Option AirQualityLevel
  | .unknown => none
  | .good => none
  | .fair => some .good
  | .moderate => some .fair
  | .poor => some .moderate
  | .veryPoor => some .poor
  | .extremelyPoor => some .veryPoor

/-- The inclusive upper bounds of the policy document, one row for each channel.
    The worst category has none. -/
def PolicyChannel.documentedBound : PolicyChannel → AirQualityLevel → Option Rat
  | .co2, .good => some 800
  | .co2, .fair => some 1000
  | .co2, .moderate => some 1500
  | .co2, .poor => some 2500
  | .co2, .veryPoor => some 5000
  | .pm2p5, .good => some 9
  | .pm2p5, .fair => some (354 / 10)
  | .pm2p5, .moderate => some (554 / 10)
  | .pm2p5, .poor => some (1254 / 10)
  | .pm2p5, .veryPoor => some (2254 / 10)
  | .pm10, .good => some 54
  | .pm10, .fair => some 154
  | .pm10, .moderate => some 254
  | .pm10, .poor => some 354
  | .pm10, .veryPoor => some 424
  | _, .unknown => none
  | _, .extremelyPoor => none

/-- The upper bound a record gives a category. -/
def ChannelBreakpoints.bound (bp : ChannelBreakpoints) : AirQualityLevel → Option Rat
  | .good => some bp.good
  | .fair => some bp.fair
  | .moderate => some bp.moderate
  | .poor => some bp.poor
  | .veryPoor => some bp.veryPoor
  | .unknown => none
  | .extremelyPoor => none

/-- Bounds that do not decrease from one category to the next. -/
structure ChannelBreakpoints.Ascending (bp : ChannelBreakpoints) : Prop where
  good_le_fair : bp.good ≤ bp.fair
  fair_le_moderate : bp.fair ≤ bp.moderate
  moderate_le_poor : bp.moderate ≤ bp.poor
  poor_le_veryPoor : bp.poor ≤ bp.veryPoor

theorem PolicyChannel.mem_all (channel : PolicyChannel) : channel ∈ PolicyChannel.all := by
  cases channel <;> decide

theorem PolicyChannel.ascending_breakpoints (channel : PolicyChannel) :
    channel.breakpoints.Ascending := by
  cases channel <;> constructor <;> norm_num [breakpoints, kCo2BreakpointsPpm,
    kPm2p5BreakpointsUgm3, kPm10BreakpointsUgm3]

/-- The records of the code are the rows of the document. -/
theorem PolicyChannel.bound_breakpoints (channel : PolicyChannel) (category : AirQualityLevel) :
    channel.breakpoints.bound category = channel.documentedBound category := by
  cases channel <;> cases category <;> norm_num [breakpoints, ChannelBreakpoints.bound,
    documentedBound, kCo2BreakpointsPpm, kPm2p5BreakpointsUgm3, kPm10BreakpointsUgm3]

/-- A value exceeds the bounds of all categories better than its own, and not
    the bound of its own. -/
theorem classifyChannel_spec (value : Rat) (bp : ChannelBreakpoints) :
    (∀ better < classifyChannel value bp, ∀ bound, bp.bound better = some bound → bound < value) ∧
    (∀ bound, bp.bound (classifyChannel value bp) = some bound → value ≤ bound) := by
  unfold classifyChannel
  split_ifs
  all_goals
    refine ⟨fun better hlt bound hbound => ?_, fun bound hbound => ?_⟩
    · cases better <;> cases hbound <;>
        first
        | exact absurd hlt (by decide)
        | exact not_le.mp (by assumption)
    · cases hbound <;> assumption

/-- A category is reached exactly by the values that exceed the bounds of all
    better ones. -/
theorem le_classifyChannel_iff (value : Rat) (bp : ChannelBreakpoints)
    (category : AirQualityLevel) :
    category ≤ classifyChannel value bp ↔
      ∀ better < category, ∀ bound, bp.bound better = some bound → bound < value := by
  obtain ⟨hbelow, hown⟩ := classifyChannel_spec value bp
  refine ⟨fun hle better hlt => hbelow better (hlt.trans_le hle), fun hexceeds => ?_⟩
  by_contra hlt
  rw [not_le] at hlt
  cases hbound : bp.bound (classifyChannel value bp) with
  | some bound => exact absurd (hexceeds _ hlt bound hbound) (hown bound hbound).not_gt
  | none =>
    have hknown := classifyChannel_ne_unknown value bp
    have hworst : classifyChannel value bp = .extremelyPoor := by
      cases hlevel : classifyChannel value bp <;> simp_all [ChannelBreakpoints.bound]
    rw [hworst] at hlt
    cases category <;> exact absurd hlt (by decide)

/-- Classifying never improves as the value grows. -/
theorem monotone_classifyChannel (bp : ChannelBreakpoints) :
    Monotone fun value => classifyChannel value bp := by
  intro a b hab
  refine (le_classifyChannel_iff b bp _).mpr fun better hlt bound hbound => ?_
  exact ((classifyChannel_spec a bp).1 better hlt bound hbound).trans_le hab

theorem ChannelBreakpoints.Ascending.bound_le {bp : ChannelBreakpoints} (hbp : bp.Ascending)
    {category below better : AirQualityLevel} (hbelow : category.below = some below)
    (hbetter : better < category) {bound bound' : Rat} (hbound : bp.bound below = some bound)
    (hbound' : bp.bound better = some bound') : bound' ≤ bound := by
  have hfair := hbp.good_le_fair
  have hmoderate := hbp.fair_le_moderate
  have hpoor := hbp.moderate_le_poor
  have hveryPoor := hbp.poor_le_veryPoor
  cases category <;> cases hbelow <;> cases hbound <;> cases better <;> cases hbound' <;>
    first
    | exact absurd hbetter (by decide)
    | linarith

/-- With ascending bounds the bound of the category just below decides. -/
theorem ChannelBreakpoints.Ascending.le_classifyChannel_iff {bp : ChannelBreakpoints}
    (hbp : bp.Ascending) (value : Rat) {category below : AirQualityLevel}
    (hbelow : category.below = some below) {bound : Rat} (hbound : bp.bound below = some bound) :
    category ≤ classifyChannel value bp ↔ bound < value := by
  rw [AirQualityEndpoint.le_classifyChannel_iff]
  refine ⟨fun hexceeds => hexceeds below ?_ bound hbound, fun hlt better hbetter bound' hbound' =>
    (hbp.bound_le hbelow hbetter hbound hbound').trans_lt hlt⟩
  cases category <;> cases hbelow <;> decide

namespace PolicyInputs

/-- The aggregated levels are those of the valid channels. -/
theorem levels_eq_map (inputs : PolicyInputs) :
    inputs.levels = (PolicyChannel.all.filter inputs.valid).map inputs.level := by
  rcases inputs with ⟨_ | _, _, _ | _, _, _ | _, _⟩ <;> rfl

theorem mem_levels_iff (inputs : PolicyInputs) (level : AirQualityLevel) :
    level ∈ inputs.levels ↔ ∃ channel, inputs.valid channel = true ∧ inputs.level channel = level := by
  simp [levels_eq_map, PolicyChannel.mem_all]

/-- The aggregate is unknown exactly when no channel is valid. -/
theorem evaluateAirQuality_eq_unknown_iff (inputs : PolicyInputs) :
    evaluateAirQuality inputs = .unknown ↔ ∀ channel, inputs.valid channel = false := by
  have hnone : inputs.levels = [] ↔ ∀ channel, inputs.valid channel = false := by
    simp [levels_eq_map, PolicyChannel.mem_all]
  obtain ⟨hunknown, hgreatest⟩ := evaluateAirQuality_spec inputs
  rw [← hnone]
  refine ⟨fun heq => ?_, hunknown⟩
  by_contra hsome
  exact level_ne_unknown (hgreatest hsome).1 heq

/-- With a valid channel the aggregate is the greatest level of the valid
    channels. -/
theorem isGreatest_evaluateAirQuality (inputs : PolicyInputs) {channel : PolicyChannel}
    (hvalid : inputs.valid channel = true) :
    IsGreatest {level | ∃ channel, inputs.valid channel = true ∧ inputs.level channel = level}
      (evaluateAirQuality inputs) := by
  have hset : {level | ∃ channel, inputs.valid channel = true ∧ inputs.level channel = level} =
      {level | level ∈ inputs.levels} :=
    Set.ext fun level => (mem_levels_iff inputs level).symm
  have hsome : inputs.levels ≠ [] :=
    List.ne_nil_of_mem ((mem_levels_iff inputs _).mpr ⟨channel, hvalid, rfl⟩)
  rw [hset]
  exact (evaluateAirQuality_spec inputs).2 hsome

/-- A known category is reached by the aggregate exactly when a valid channel
    reaches it. -/
theorem le_evaluateAirQuality_iff (inputs : PolicyInputs) {category : AirQualityLevel}
    (hknown : category ≠ .unknown) :
    category ≤ evaluateAirQuality inputs ↔
      ∃ channel, inputs.valid channel = true ∧ category ≤ inputs.level channel := by
  constructor
  · intro hle
    by_cases hsome : ∃ channel, inputs.valid channel = true
    · obtain ⟨_, hvalid⟩ := hsome
      obtain ⟨channel, hvalid, hlevel⟩ := (inputs.isGreatest_evaluateAirQuality hvalid).1
      exact ⟨channel, hvalid, hlevel ▸ hle⟩
    · push Not at hsome
      simp only [Bool.not_eq_true] at hsome
      rw [(evaluateAirQuality_eq_unknown_iff inputs).mpr hsome] at hle
      exact absurd (le_antisymm hle (unknown_le category)) hknown
  · rintro ⟨channel, hvalid, hle⟩
    exact hle.trans ((inputs.isGreatest_evaluateAirQuality hvalid).2 ⟨channel, hvalid, rfl⟩)

/-- A category is reached by the aggregate exactly when a valid channel exceeds the
    documented bound of the category just below. -/
theorem le_evaluateAirQuality_iff_exceeds (inputs : PolicyInputs)
    {category below : AirQualityLevel} (hbelow : category.below = some below) :
    category ≤ evaluateAirQuality inputs ↔
      ∃ channel bound, inputs.valid channel = true ∧
        channel.documentedBound below = some bound ∧ bound < inputs.concentration channel := by
  have hknown : category ≠ .unknown := by
    rintro rfl
    cases hbelow
  have hbounded (channel : PolicyChannel) :
      ∃ bound, channel.documentedBound below = some bound := by
    cases category <;> cases hbelow <;> cases channel <;> exact ⟨_, rfl⟩
  rw [le_evaluateAirQuality_iff inputs hknown]
  refine exists_congr fun channel => ?_
  obtain ⟨bound, hbound⟩ := hbounded channel
  have hreached := channel.ascending_breakpoints.le_classifyChannel_iff
    (inputs.concentration channel) hbelow ((channel.bound_breakpoints below).trans hbound)
  rw [level, hreached, hbound]
  simp

/-- Considering the channels in another order gives the same aggregate. -/
theorem foldl_considerChannel_perm (inputs : PolicyInputs) {channels : List PolicyChannel}
    (hperm : channels.Perm PolicyChannel.all) :
    (channels.filter inputs.valid).foldl
        (fun worst channel =>
          considerChannel worst (inputs.concentration channel) channel.breakpoints) .unknown =
      evaluateAirQuality inputs := by
  have hlevels : ((channels.filter inputs.valid).map inputs.level).Perm inputs.levels := by
    rw [levels_eq_map]
    exact (hperm.filter _).map _
  have hfold : (channels.filter inputs.valid).foldl
      (fun worst channel =>
        considerChannel worst (inputs.concentration channel) channel.breakpoints) .unknown =
      ((channels.filter inputs.valid).map inputs.level).foldl max .unknown := by
    rw [List.foldl_map]
    simp only [considerChannel_eq_max, level]
  rw [hfold, evaluateAirQuality_eq_foldl]
  exact hlevels.foldl_eq _

/-- A concentration grows with its raw value. -/
theorem concentration_le {a b : PolicyInputs} {channel : PolicyChannel}
    (hraw : a.raw channel ≤ b.raw channel) : a.concentration channel ≤ b.concentration channel := by
  have hcast : ((a.raw channel).toNat : Rat) ≤ (b.raw channel).toNat :=
    Nat.cast_le.mpr (UInt16.le_iff_toNat_le.mp hraw)
  cases channel with
  | co2 => exact hcast
  | pm2p5 | pm10 => exact div_le_div_of_nonneg_right hcast (by norm_num)

/-- The aggregate does not improve when valid channels grow or further ones
    become valid. -/
theorem evaluateAirQuality_mono {a b : PolicyInputs}
    (hworse : ∀ channel, a.valid channel = true →
      b.valid channel = true ∧ a.raw channel ≤ b.raw channel) :
    evaluateAirQuality a ≤ evaluateAirQuality b := by
  by_cases hunknown : evaluateAirQuality a = .unknown
  · rw [hunknown]
    exact unknown_le _
  · obtain ⟨channel, hvalid, hlevel⟩ := (le_evaluateAirQuality_iff a hunknown).mp le_rfl
    obtain ⟨hvalid', hraw⟩ := hworse channel hvalid
    refine (le_evaluateAirQuality_iff b hunknown).mpr ⟨channel, hvalid', hlevel.trans ?_⟩
    exact monotone_classifyChannel _ (concentration_le hraw)

end PolicyInputs

/-- The air quality is unknown exactly when no channel is valid, and reaches a
    category exactly when a valid channel exceeds the documented bound of the
    category just below. It is the worst level of the valid channels, in
    whatever order they are considered. So it does not improve when valid
    channels grow or further ones become valid, and does not depend on the raw
    value of an invalid one. -/
theorem evaluateAirQuality_worst_valid :
    (∀ inputs : PolicyInputs, evaluateAirQuality inputs = .unknown ↔
      ∀ channel, inputs.valid channel = false) ∧
    (∀ (inputs : PolicyInputs) (category below : AirQualityLevel),
      category.below = some below →
      (category ≤ evaluateAirQuality inputs ↔
        ∃ channel bound, inputs.valid channel = true ∧
          channel.documentedBound below = some bound ∧ bound < inputs.concentration channel)) ∧
    (∀ (inputs : PolicyInputs) (channel : PolicyChannel), inputs.valid channel = true →
      IsGreatest {level | ∃ channel, inputs.valid channel = true ∧ inputs.level channel = level}
        (evaluateAirQuality inputs)) ∧
    (∀ (inputs : PolicyInputs) (channels : List PolicyChannel),
      channels.Perm PolicyChannel.all →
      (channels.filter inputs.valid).foldl
          (fun worst channel =>
            considerChannel worst (inputs.concentration channel) channel.breakpoints) .unknown =
        evaluateAirQuality inputs) ∧
    (∀ a b : PolicyInputs,
      (∀ channel, a.valid channel = true →
        b.valid channel = true ∧ a.raw channel ≤ b.raw channel) →
      evaluateAirQuality a ≤ evaluateAirQuality b) ∧
    (∀ a b : PolicyInputs,
      (∀ channel, b.valid channel = a.valid channel ∧
        (a.valid channel = true → b.raw channel = a.raw channel)) →
      evaluateAirQuality b = evaluateAirQuality a) ∧
    (∀ bp : ChannelBreakpoints, Monotone fun value => classifyChannel value bp) := by
  refine ⟨PolicyInputs.evaluateAirQuality_eq_unknown_iff,
    fun inputs _ _ hbelow => inputs.le_evaluateAirQuality_iff_exceeds hbelow,
    fun inputs _ => inputs.isGreatest_evaluateAirQuality,
    fun inputs _ => inputs.foldl_considerChannel_perm,
    fun _ _ => PolicyInputs.evaluateAirQuality_mono, fun a b hsame => ?_,
    monotone_classifyChannel⟩
  apply le_antisymm
  · refine PolicyInputs.evaluateAirQuality_mono fun channel hvalid => ?_
    rw [(hsame channel).1] at hvalid
    rw [(hsame channel).2 hvalid]
    exact ⟨hvalid, UInt16.le_refl _⟩
  · refine PolicyInputs.evaluateAirQuality_mono fun channel hvalid => ?_
    rw [(hsame channel).2 hvalid]
    exact ⟨(hsame channel).1.trans hvalid, UInt16.le_refl _⟩

end AirQualityEndpoint
