import Sen66Accessory.Publication.Drift

open Sen66 MeasurementService AirQualityEndpoint

namespace Publication

section

variable {σ : Type} {store : AttributeStore σ} {config : PolicyConfig} {p₀ : Policy}
  {x₁ x₂ : System σ} {h₁ h₂ : History}

/-- What Matter ends up with depends on the threads' timing by no more than the
    deadband. Any two interleavings of the poll thread and the CHIP thread that read
    the same frames at the same times end, once everything is delivered, with the
    same attributes null and the registers behind the others less than two
    thresholds apart. -/
theorem interleavings_agree (hlawful : store.Lawful) (hboot : Booted config p₀)
    (hpositive : ∀ f, 0 < (config.thresholds.of f).toNat)
    (hreach₁ : Reaches store p₀ x₁ h₁) (hreach₂ : Reaches store p₀ x₂ h₂)
    (hquiet₁ : Quiet x₁) (hquiet₂ : Quiet x₂) (hsame : h₁.poll.ticks = h₂.poll.ticks)
    (hrange : HumidityInRange p₀ h₁.poll.ticks) :
    ∃ source₁ source₂ : Measurement,
      (∀ a ∈ Attribute.published, store.read x₁.attributes a = a.shown source₁ ∧
        store.read x₂.attributes a = a.shown source₂ ∧
        (store.read x₁.attributes a = a.initial ↔ store.read x₂.attributes a = a.initial)) ∧
      ∀ f, source₁.has f = source₂.has f ∧ (source₁.has f = true →
        (source₁.raw f - source₂.raw f).natAbs ≤ 2 * ((config.thresholds.of f).toNat - 1)) := by
  have hblank := hboot.blank
  have htracked₁ := hreach₁.tracked hblank
  have htracked₂ := hreach₂.tracked hblank
  have hhas (f : Field) : (shownFrame p₀ h₁).has f = (shownFrame p₀ h₂).has f := by
    rw [(shownFrame_near_notified hboot hpositive hreach₁ hquiet₁ f).1,
      (shownFrame_near_notified hboot hpositive hreach₂ hquiet₂ f).1, hsame]
  refine ⟨shownFrame p₀ h₁, shownFrame p₀ h₂, fun a ha => ?_, fun f => ⟨hhas f, fun hvalid => ?_⟩⟩
  · have hread₁ := htracked₁.read_attributes hblank hlawful ha fun _ _ =>
      hrange.shownFrame hblank htracked₁.written_suffix
    have hread₂ := htracked₂.read_attributes hblank hlawful ha fun _ _ =>
      HumidityInRange.shownFrame hblank htracked₂.written_suffix (hsame ▸ hrange)
    refine ⟨hread₁, hread₂, ?_⟩
    rw [hread₁, hread₂, Attribute.shown_eq_initial_iff, Attribute.shown_eq_initial_iff]
    simp only [hhas]
  · have hnear₁ := (shownFrame_near_notified hboot hpositive hreach₁ hquiet₁ f).2 hvalid
    have hnear₂ := (shownFrame_near_notified hboot hpositive hreach₂ hquiet₂ f).2 (hhas f ▸ hvalid)
    rw [hsame] at hnear₁
    omega

/-- The run above with its work item delayed to the end. -/
def delayedRun : List Event :=
  [.registerCallback, .directApply] ++ tickOf (co2Frame 100) 1000 ++
    tickOf (co2Frame 51) 2000 ++ tickOf (co2Frame 149) 3000 ++ [.dequeuedApply]

theorem end_delayedRun :
    (cleanRun delayedRun).1.cluster = .finished ∧ (cleanRun delayedRun).1.poller.stage = .idle ∧
      (cleanRun delayedRun).1.queued = 0 ∧
      (cleanRun driftRun).2.poll.ticks = (cleanRun delayedRun).2.poll.ticks ∧
      attributeRam.read (cleanRun delayedRun).1.attributes (.concentration .co2) =
        some (co2RawToPpm 149) := by
  decide +kernel

/-- Both read the same three frames and end 98 ppm apart, as far as the bound
    allows. -/
theorem interleavings_agree_delayedRun :
    ∃ source₁ source₂ : Measurement,
      attributeRam.read (cleanRun driftRun).1.attributes (.concentration .co2) =
        some (co2RawToPpm 51) ∧
      attributeRam.read (cleanRun delayedRun).1.attributes (.concentration .co2) =
        some (co2RawToPpm 149) ∧
      ∀ f, source₁.has f = source₂.has f ∧ (source₁.has f = true →
        (source₁.raw f - source₂.raw f).natAbs ≤
          2 * ((defaultConfig.thresholds.of f).toNat - 1)) := by
  obtain ⟨hfinished₁, hidle₁, hqueued₁, _, hread₁⟩ := end_driftRun
  obtain ⟨hfinished₂, hidle₂, hqueued₂, hsame, hread₂⟩ := end_delayedRun
  obtain ⟨source₁, source₂, _, hnear⟩ := interleavings_agree lawful_attributeRam booted_cleanBoot
    (by decide) (reaches_cleanRun driftRun) (reaches_cleanRun delayedRun)
    ⟨hfinished₁, hidle₁, hqueued₁⟩ ⟨hfinished₂, hidle₂, hqueued₂⟩ hsame
    (by rw [HumidityInRange]; decide +kernel)
  exact ⟨source₁, source₂, hread₁, hread₂, hnear⟩

end

end Publication
