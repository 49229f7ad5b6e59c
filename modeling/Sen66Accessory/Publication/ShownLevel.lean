import Sen66Accessory.AirQualityEndpoint.Stability
import Sen66Accessory.Publication.Confluence

open Sen66 MeasurementService AirQualityEndpoint

namespace AirQualityEndpoint

namespace PolicyInputs

/-- Frames that are close in every valid channel have neighbouring levels. -/
theorem evaluateAirQuality_ofMeasurement_le {m m' : Measurement}
    (hhas : ∀ f, m.has f = m'.has f)
    (hnear : ∀ channel : PolicyChannel, m.has channel.field = true →
      (m'.raw channel.field - m.raw channel.field).natAbs ≤ channel.spacing) :
    (evaluateAirQuality (ofMeasurement m')).toNat ≤
      (evaluateAirQuality (ofMeasurement m)).toNat + 1 := by
  apply evaluateAirQuality_le_succ
  · intro channel
    rw [valid_ofMeasurement, valid_ofMeasurement, hhas]
  · intro channel hvalid
    rw [valid_ofMeasurement] at hvalid
    have hclose := hnear channel hvalid
    rw [← raw_ofMeasurement, ← raw_ofMeasurement] at hclose
    omega

end PolicyInputs

end AirQualityEndpoint

namespace Publication

/-- The air quality the controller shows is at most one category off. In every
    state of every interleaving with nothing left to deliver it is unknown
    exactly where the newest frame of the sensor has no channel to judge by, and
    otherwise the level of that frame or a neighbouring one, if two thresholds
    of a channel are no further apart than two of its bounds. -/
theorem shown_level_adjacent {σ : Type} {store : AttributeStore σ} (hlawful : store.Lawful)
    {config : PolicyConfig} {p₀ : Policy} (hboot : Booted config p₀)
    (hpositive : ∀ f, 0 < (config.thresholds.of f).toNat)
    (hnarrow : ∀ channel : PolicyChannel,
      2 * ((config.thresholds.of channel.field).toNat - 1) ≤ channel.spacing)
    {x : System σ} {h : History} (hreach : Reaches store p₀ x h) (hquiet : Quiet x) :
    let latest := evaluateAirQuality (.ofMeasurement x.poller.policy.latest)
    let shown : AirQualityLevel := store.read x.attributes .airQuality
    (shown = .unknown ↔
      ∀ channel : PolicyChannel, x.poller.policy.latest.has channel.field = false) ∧
    latest.toNat ≤ shown.toNat + 1 ∧ shown.toNat ≤ latest.toNat + 1 := by
  intro latest shown
  have hblank := hboot.blank
  have htracked := hreach.tracked hblank
  have hlatest : x.poller.policy.latest = (p₀.afterTicks h.poll.ticks).latest := by
    rw [htracked.traced.policy_eq.1]
  have hshown : shown = evaluateAirQuality (.ofMeasurement (shownFrame p₀ h)) :=
    htracked.read_attributes (a := .airQuality) hblank hlawful (by decide) nofun
  have hhas (f : Field) : (shownFrame p₀ h).has f = x.poller.policy.latest.has f := by
    rw [hlatest]
    exact (shownFrame_near_notified hboot hpositive hreach hquiet f).1
  have hnear (channel : PolicyChannel) (hvalid : (shownFrame p₀ h).has channel.field = true) :
      (x.poller.policy.latest.raw channel.field - (shownFrame p₀ h).raw channel.field).natAbs ≤
        channel.spacing := by
    rw [hlatest]
    exact (shownFrame_near_latest hboot hpositive hreach hquiet hvalid).trans (hnarrow channel)
  rw [hshown]
  refine ⟨?_, ?_, ?_⟩
  · simp only [PolicyInputs.evaluateAirQuality_eq_unknown_iff, PolicyInputs.valid_ofMeasurement,
      hhas]
  · exact PolicyInputs.evaluateAirQuality_ofMeasurement_le hhas hnear
  · refine PolicyInputs.evaluateAirQuality_ofMeasurement_le (fun f => (hhas f).symm) ?_
    intro channel hvalid
    rw [← Int.natAbs_neg, Int.neg_sub]
    exact hnear channel (by rwa [hhas])

/-- The default thresholds are narrow enough. -/
theorem shown_level_adjacent_driftRun :
    let shown : AirQualityLevel :=
      attributeRam.read (cleanRun driftRun).1.attributes .airQuality
    shown.toNat ≤ (evaluateAirQuality
      (.ofMeasurement (cleanRun driftRun).1.poller.policy.latest)).toNat + 1 := by
  obtain ⟨hfinished, hidle, hqueued, _⟩ := end_driftRun
  exact (shown_level_adjacent lawful_attributeRam booted_cleanBoot (by decide)
    (by intro channel; cases channel <;> decide) (reaches_cleanRun driftRun)
    ⟨hfinished, hidle, hqueued⟩).2.2

end Publication
