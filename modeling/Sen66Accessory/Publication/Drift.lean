import Sen66Accessory.Publication.Delivery

open Sen66 MeasurementService AirQualityEndpoint

namespace Publication

/-- `ClusterInit` has finished, no tick is under way and no work item is queued. -/
structure Quiet {σ : Type} (x : System σ) : Prop where
  finished : x.cluster = .finished
  idle : x.poller.stage = .idle
  queued : x.queued = 0

section

variable {σ : Type} {store : AttributeStore σ} {config : PolicyConfig} {p₀ : Policy}
  {x : System σ} {h : History}

/-- In a quiet state the frame shown has the channels of the latest one, and each
    of its registers is less than a threshold away from the one notified last. -/
theorem shownFrame_near_notified (hboot : Booted config p₀)
    (hpositive : ∀ f, 0 < (config.thresholds.of f).toNat) (hreach : Reaches store p₀ x h)
    (hquiet : Quiet x) (f : Field) :
    (shownFrame p₀ h).has f = (p₀.afterTicks h.poll.ticks).latest.has f ∧
    ((shownFrame p₀ h).has f = true →
      ((shownFrame p₀ h).raw f - (p₀.afterTicks h.poll.ticks).lastNotified.raw f).natAbs <
        (config.thresholds.of f).toNat) := by
  have hblank := hboot.blank
  have htracked := hreach.tracked hblank
  have hcaught : CaughtUp p₀ x h := CaughtUp.of_idle hquiet.finished hquiet.idle hquiet.queued
  have hprogress := htracked.traced.progress
  rw [hquiet.idle] at hprogress
  refine ⟨hprogress.1 ▸ htracked.has_shownFrame hblank hcaught f, fun hshown => ?_⟩
  rw [(htracked.notifiedWithin hcaught).lastNotified_eq htracked.written_suffix, ← hboot.config_eq]
  exact Policy.drift_lt hblank _ f (by rw [hboot.config_eq]; exact hpositive f) hshown

/-- The frame shown in a quiet state is less than two thresholds away from the
    latest one. -/
theorem shownFrame_near_latest (hboot : Booted config p₀)
    (hpositive : ∀ f, 0 < (config.thresholds.of f).toNat) (hreach : Reaches store p₀ x h)
    (hquiet : Quiet x) {f : Field} (hvalid : (shownFrame p₀ h).has f = true) :
    ((p₀.afterTicks h.poll.ticks).latest.raw f - (shownFrame p₀ h).raw f).natAbs ≤
      2 * ((config.thresholds.of f).toNat - 1) := by
  obtain ⟨hhas, hnear⟩ := shownFrame_near_notified hboot hpositive hreach hquiet f
  have hshown := hnear hvalid
  have hlatest := Policy.drift_lt hboot.blank h.poll.ticks f
    (by rw [hboot.config_eq]; exact hpositive f) (hhas ▸ hvalid)
  rw [hboot.config_eq] at hlatest
  omega

/-- Between ticks, with nothing left to deliver, the attributes of every channel that
    is valid in the latest frame were computed from a register less than twice the
    threshold away from the latest one: each of the two is less than one threshold
    away from the last notified value. When the frame shown is the notified one,
    one threshold bounds the drift. The humidity is bounded as long as no register
    read so far is the word its attribute reserves for null. -/
theorem shown_drift_lt (hlawful : store.Lawful) (hboot : Booted config p₀)
    (hpositive : ∀ f, 0 < (config.thresholds.of f).toNat) (hreach : Reaches store p₀ x h)
    (hfinished : x.cluster = .finished) (hidle : x.poller.stage = .idle)
    (hqueued : x.queued = 0) :
    let latest := x.poller.policy.latest
    let source := shownFrame p₀ h
    ∀ f, latest.has f = true → (f = .humidity → HumidityInRange p₀ h.poll.ticks) →
      (∀ a ∈ Attribute.published, f ∈ a.fields → store.read x.attributes a = a.shown source) ∧
      source.has f = true ∧
      (latest.raw f - source.raw f).natAbs ≤ 2 * ((config.thresholds.of f).toNat - 1) ∧
      (source = x.poller.policy.lastNotified →
        (latest.raw f - source.raw f).natAbs < (config.thresholds.of f).toNat) := by
  intro latest source f hvalid hrange
  have hblank := hboot.blank
  have htracked := hreach.tracked hblank
  have hquiet : Quiet x := ⟨hfinished, hidle, hqueued⟩
  have hprogress := htracked.traced.progress
  rw [hidle] at hprogress
  have hpolicy : x.poller.policy = p₀.afterTicks h.poll.ticks := hprogress.1
  have hlatest : latest = (p₀.afterTicks h.poll.ticks).latest := congrArg Policy.latest hpolicy
  have hsource : source.has f = true := by
    rw [(shownFrame_near_notified hboot hpositive hreach hquiet f).1, ← hlatest]
    exact hvalid
  refine ⟨fun a ha hf => ?_, hsource, ?_, fun hshown => ?_⟩
  · refine htracked.read_attributes hblank hlawful ha fun hhumidity _ => ?_
    subst hhumidity
    exact (hrange (List.mem_singleton.mp hf)).shownFrame hblank htracked.written_suffix
  · rw [hlatest]
    exact shownFrame_near_latest hboot hpositive hreach hquiet hsource
  · have hnow := Policy.drift_lt hblank h.poll.ticks f
      (by rw [hboot.config_eq]; exact hpositive f) (by rw [← hlatest]; exact hvalid)
    rw [hboot.config_eq, ← hpolicy] at hnow
    rw [hshown]
    exact hnow

end

/-- A frame with every channel valid and the given CO2 word. -/
def co2Frame (ppm : UInt16) : Frame := .encode fun i => if i = 8 then ppm else 100

/-- The first frame notifies, but its work item runs only after a second,
    smaller frame has published; a third, larger frame stays quiet as well. -/
def driftRun : List Event :=
  [.registerCallback, .directApply] ++ tickOf (co2Frame 100) 1000 ++
    tickOf (co2Frame 51) 2000 ++ [.dequeuedApply] ++ tickOf (co2Frame 149) 3000

theorem end_driftRun :
    (cleanRun driftRun).1.cluster = .finished ∧ (cleanRun driftRun).1.poller.stage = .idle ∧
      (cleanRun driftRun).1.queued = 0 ∧
      (cleanRun driftRun).1.poller.policy.latest = (co2Frame 149).measurement ∧
      attributeRam.read (cleanRun driftRun).1.attributes (.concentration .co2) =
        some (co2RawToPpm 51) := by
  decide +kernel

/-- A frame with every channel valid and the given humidity word. -/
def humidityFrame (word : UInt16) : Frame := .encode fun i => if i = 4 then word else 100

/-- Both frames are delivered, but the humidity attribute refuses the second one. -/
def refusedRun : List Event :=
  [.registerCallback, .directApply] ++ tickOf (humidityFrame 5000) 1000 ++ [.dequeuedApply] ++
    tickOf (humidityFrame 0xFFFF) 2000 ++ [.dequeuedApply]

theorem end_refusedRun :
    (cleanRun refusedRun).1.cluster = .finished ∧ (cleanRun refusedRun).1.poller.stage = .idle ∧
      (cleanRun refusedRun).1.queued = 0 ∧
      (cleanRun refusedRun).1.poller.policy.latest = (humidityFrame 0xFFFF).measurement ∧
      attributeRam.read (cleanRun refusedRun).1.attributes .humidity =
        some (humidityRawToMatterCentiPercent 5000) := by
  decide +kernel

/-- The register shown can be as far as 98 ppm from the latest one, almost twice
    the default threshold of 50 ppm. After a register that its attribute reserves
    for null the humidity is not even within twice its threshold. -/
theorem drift_exceeds_threshold :
    (¬ ∀ (x : System ((a : Attribute) → a.Value)) (h : History),
      Reaches attributeRam cleanBoot x h → x.cluster = .finished →
      x.poller.stage = .idle → x.queued = 0 →
      x.poller.policy.latest.has .co2 = true → ∀ raw : UInt16,
      attributeRam.read x.attributes (.concentration .co2) = some (co2RawToPpm raw) →
      (x.poller.policy.latest.raw .co2 - raw.toNat).natAbs <
        (defaultConfig.thresholds.of .co2).toNat) ∧
    ¬ ∀ (x : System ((a : Attribute) → a.Value)) (h : History),
      Reaches attributeRam cleanBoot x h → x.cluster = .finished →
      x.poller.stage = .idle → x.queued = 0 →
      x.poller.policy.latest.has .humidity = true → ∀ raw : Int16,
      attributeRam.read x.attributes .humidity = some (humidityRawToMatterCentiPercent raw) →
      (x.poller.policy.latest.raw .humidity - raw.toInt).natAbs <
        2 * (defaultConfig.thresholds.of .humidity).toNat := by
  constructor
  · intro hclose
    obtain ⟨hfinished, hidle, hqueued, hlatest, hread⟩ := end_driftRun
    have hclose := hclose (cleanRun driftRun).1 (cleanRun driftRun).2 (reaches_cleanRun driftRun)
      hfinished hidle hqueued
    rw [hlatest] at hclose
    have hlt := hclose (by decide +kernel) 51 hread
    have hvalue : (co2Frame 149).measurement.raw .co2 = 149 := by decide +kernel
    have hshown : (51 : UInt16).toNat = 51 := rfl
    have hthreshold : (defaultConfig.thresholds.of .co2).toNat = 50 := rfl
    omega
  · intro hclose
    obtain ⟨hfinished, hidle, hqueued, hlatest, hread⟩ := end_refusedRun
    have hclose := hclose (cleanRun refusedRun).1 (cleanRun refusedRun).2
      (reaches_cleanRun refusedRun) hfinished hidle hqueued
    rw [hlatest] at hclose
    have hlt := hclose (by decide +kernel) 5000 hread
    have hvalue : (humidityFrame 0xFFFF).measurement.raw .humidity = -1 := by decide +kernel
    have hshown : (5000 : Int16).toInt = 5000 := rfl
    have hthreshold : (defaultConfig.thresholds.of .humidity).toNat ≤ 300 := by decide
    omega

/-- The bound of the same run is sharp. -/
theorem shown_drift_lt_driftRun :
    attributeRam.read (cleanRun driftRun).1.attributes (.concentration .co2) =
      (Attribute.concentration .co2).shown (shownFrame cleanBoot (cleanRun driftRun).2) ∧
    ((cleanRun driftRun).1.poller.policy.latest.raw .co2 -
      (shownFrame cleanBoot (cleanRun driftRun).2).raw .co2).natAbs ≤ 98 := by
  obtain ⟨hfinished, hidle, hqueued, hlatest, _⟩ := end_driftRun
  have hvalid : (cleanRun driftRun).1.poller.policy.latest.has .co2 = true := by
    rw [hlatest]
    decide +kernel
  obtain ⟨hread, _, hbound, _⟩ := shown_drift_lt lawful_attributeRam booted_cleanBoot (by decide)
    (reaches_cleanRun driftRun) hfinished hidle hqueued .co2 hvalid fun h => by cases h
  exact ⟨hread (.concentration .co2) (by decide) (by decide), hbound⟩

end Publication
