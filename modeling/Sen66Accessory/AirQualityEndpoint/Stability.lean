import Sen66Accessory.AirQualityEndpoint.Aggregation

namespace AirQualityEndpoint

/-- The worth of one unit of a channel's register. -/
def PolicyChannel.unit : PolicyChannel → Rat
  | .co2 => 1
  | .pm2p5 => 1 / 10
  | .pm10 => 1 / 10

/-- The least distance between two neighbouring bounds of a channel, in units of
    its register. -/
def PolicyChannel.spacing : PolicyChannel → Nat
  | .co2 => 200
  | .pm2p5 => 200
  | .pm10 => 700

theorem PolicyInputs.concentration_eq (inputs : PolicyInputs) (channel : PolicyChannel) :
    inputs.concentration channel = (inputs.raw channel).toNat * channel.unit := by
  cases channel with
  | co2 => exact (mul_one _).symm
  | pm2p5 | pm10 => exact div_eq_mul_one_div _ _

/-- Neighbouring bounds keep their distance. -/
theorem PolicyChannel.bound_add_spacing_le (channel : PolicyChannel)
    {category below lowest : AirQualityLevel} (hbelow : category.below = some below)
    (hlowest : below.below = some lowest) {bound bound' : Rat}
    (hbound : channel.breakpoints.bound below = some bound)
    (hbound' : channel.breakpoints.bound lowest = some bound') :
    bound' + channel.spacing * channel.unit ≤ bound := by
  rw [channel.bound_breakpoints] at hbound hbound'
  cases category <;> cases hbelow <;> cases hlowest <;> cases channel <;> cases hbound <;>
    cases hbound' <;> norm_num [spacing, unit]

/-- The best category a valid channel can have. -/
theorem good_le_classifyChannel (value : Rat) (bp : ChannelBreakpoints) :
    .good ≤ classifyChannel value bp := by
  unfold classifyChannel
  split_ifs <;> decide

namespace PolicyInputs

variable {a b : PolicyInputs} {category below : AirQualityLevel}

/-- A register that is no further away than neighbouring bounds are from each
    other is at most one category better. -/
theorem below_le_level {channel : PolicyChannel}
    (hnear : (b.raw channel).toNat ≤ (a.raw channel).toNat + channel.spacing)
    (hbelow : category.below = some below) (hle : category ≤ b.level channel) :
    below ≤ a.level channel := by
  have hascending := channel.ascending_breakpoints
  have hunit : 0 ≤ channel.unit := by cases channel <;> norm_num [PolicyChannel.unit]
  cases hlowest : below.below with
  | none =>
    have hgood : below = .good := by
      cases category <;> cases hbelow <;> first | rfl | cases hlowest
    rw [hgood]
    exact good_le_classifyChannel _ _
  | some lowest =>
    obtain ⟨bound, hbound⟩ : ∃ bound, channel.breakpoints.bound below = some bound := by
      cases category <;> cases hbelow <;> exact ⟨_, rfl⟩
    obtain ⟨bound', hbound'⟩ : ∃ bound', channel.breakpoints.bound lowest = some bound' := by
      cases below <;> cases hlowest <;> exact ⟨_, rfl⟩
    have hspaced := channel.bound_add_spacing_le hbelow hlowest hbound hbound'
    rw [level, hascending.le_classifyChannel_iff _ hbelow hbound, concentration_eq] at hle
    rw [level, hascending.le_classifyChannel_iff _ hlowest hbound', concentration_eq]
    have hcast : ((b.raw channel).toNat : Rat) ≤ (a.raw channel).toNat + channel.spacing := by
      exact_mod_cast hnear
    have hscaled := mul_le_mul_of_nonneg_right hcast hunit
    rw [add_mul] at hscaled
    linarith

/-- So is the aggregate, if that holds of every valid channel. -/
theorem below_le_evaluateAirQuality (hvalid : ∀ channel, a.valid channel = b.valid channel)
    (hnear : ∀ channel, a.valid channel = true →
      (b.raw channel).toNat ≤ (a.raw channel).toNat + channel.spacing)
    (hbelow : category.below = some below) (hle : category ≤ evaluateAirQuality b) :
    below ≤ evaluateAirQuality a := by
  have hknown : category ≠ .unknown := by
    rintro rfl
    cases hbelow
  have hknown' : below ≠ .unknown := by
    cases category <;> cases hbelow <;> nofun
  obtain ⟨channel, hchannel, hlevel⟩ := (le_evaluateAirQuality_iff b hknown).mp hle
  rw [← hvalid channel] at hchannel
  exact (le_evaluateAirQuality_iff a hknown').mpr
    ⟨channel, hchannel, below_le_level (hnear channel hchannel) hbelow hlevel⟩

/-- Channels that are alike in their validity and no further apart than
    neighbouring bounds lead to the same category or to neighbouring ones. -/
theorem evaluateAirQuality_le_succ (hvalid : ∀ channel, a.valid channel = b.valid channel)
    (hnear : ∀ channel, a.valid channel = true →
      (b.raw channel).toNat ≤ (a.raw channel).toNat + channel.spacing) :
    (evaluateAirQuality b).toNat ≤ (evaluateAirQuality a).toNat + 1 := by
  cases hbelow : (evaluateAirQuality b).below with
  | none =>
    have hlow : (evaluateAirQuality b).toNat ≤ 1 := by
      cases h : evaluateAirQuality b <;> rw [h] at hbelow <;> first | decide | cases hbelow
    omega
  | some below =>
    have hle : below.toNat ≤ (evaluateAirQuality a).toNat :=
      below_le_evaluateAirQuality hvalid hnear hbelow le_rfl
    have hstep : (evaluateAirQuality b).toNat = below.toNat + 1 := by
      cases h : evaluateAirQuality b <;> rw [h] at hbelow <;> cases hbelow <;> rfl
    omega

end PolicyInputs

end AirQualityEndpoint
