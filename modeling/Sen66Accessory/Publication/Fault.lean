import Sen66Accessory.Publication.Delivery

open Sen66 MeasurementService AirQualityEndpoint

namespace Publication

/-- The channels the published attributes show. -/
def publishedFields : List Field := [.temperature, .humidity, .co2, .pm1p0, .pm2p5, .pm10]

theorem mem_publishedFields {f : Field} :
    f ∈ publishedFields ↔ ∃ a ∈ Attribute.published, f ∈ a.fields := by
  cases f <;> decide

/-- Every published value is null, and the air quality unknown. -/
def Blanked {σ : Type} (store : AttributeStore σ) (attributes : σ) : Prop :=
  ∀ a ∈ Attribute.published, store.read attributes a = a.initial

/-- The frame of the last successful read, the zero frame if there is none. -/
def lastFrame (p₀ : Policy) (ticks : List Tick) : Measurement :=
  ((p₀.readings ticks).head?.map Reading.frame).getD {}

section

variable {σ : Type} {store : AttributeStore σ} {p₀ : Policy} {x : System σ} {h : History}

/-- In sustained failure the newest tick has not notified, so nothing of the
    current tick can be left to deliver. -/
theorem CaughtUp.of_needsRestart (hblank : p₀.Blank) (htracked : Tracked store p₀ x h)
    (hfinished : x.cluster = .finished) (hqueued : x.queued = 0)
    (hrestart : x.poller.policy.needsRestart = true) : CaughtUp p₀ x h := by
  refine ⟨hfinished, hqueued, fun tick earlier hticks hnotifies => ?_⟩
  rw [htracked.traced.policy_eq.2, hticks, Policy.afterTicks] at hrestart
  cases hresponse : (p₀.afterTicks earlier).response tick with
  | none =>
    rw [Policy.notifies_of_no_response hresponse] at hnotifies
    cases hnotifies
  | some raw =>
    have hnext := Policy.tick_accepted (Policy.coherent_afterTicks hblank earlier) hresponse
    rw [hnext.needsRestart] at hrestart
    cases hrestart

end

/-- In every state of sustained failure with no apply pending, the attributes
    are blank if the adapter never came up, or if none of their channels was
    valid in the last frame read before the fault. Nothing else blanks them:
    apart from the humidity word its attribute reserves for null, they are blank
    only then. -/
theorem blanked_iff {σ : Type} {store : AttributeStore σ} (hlawful : store.Lawful)
    {config : PolicyConfig} {p₀ : Policy} (hboot : Booted config p₀) {x : System σ} {h : History}
    (hreach : Reaches store p₀ x h) (hrestart : x.poller.policy.needsRestart = true)
    (hcluster : x.cluster ≠ .registered) (hqueued : x.queued = 0) :
    ((x.cluster = .finished →
        ∀ f ∈ publishedFields, (lastFrame p₀ h.poll.ticks).has f = false) →
      Blanked store x.attributes) ∧
    (HumidityInRange p₀ h.poll.ticks →
      (Blanked store x.attributes ↔
        (x.cluster = .finished →
          ∀ f ∈ publishedFields, (lastFrame p₀ h.poll.ticks).has f = false))) := by
  have hblank := hboot.blank
  have htracked := hreach.tracked hblank
  have hlatest : x.poller.policy.latest = lastFrame p₀ h.poll.ticks := by
    rw [htracked.traced.policy_eq.1, (Policy.afterTicks_data hblank _).1, lastFrame]
  by_cases hfinished : x.cluster = .finished
  · have hcaught := CaughtUp.of_needsRestart hblank htracked hfinished hqueued hrestart
    have hhas (f : Field) : (shownFrame p₀ h).has f = (lastFrame p₀ h.poll.ticks).has f := by
      rw [htracked.has_shownFrame hblank hcaught, hlatest]
    have hsufficient (hnone : ∀ f ∈ publishedFields, (lastFrame p₀ h.poll.ticks).has f = false) :
        Blanked store x.attributes := by
      intro a ha
      have hshown := htracked.read_attributes hblank hlawful ha fun _ hvalid => by
        rw [hhas, hnone _ (by decide)] at hvalid
        cases hvalid
      rw [hshown, Attribute.shown_eq_initial_iff]
      intro f hf
      rw [hhas, hnone f (mem_publishedFields.mpr ⟨a, ha, hf⟩)]
    refine ⟨fun hnone => hsufficient (hnone hfinished), fun hrange => ⟨fun hblanked _ f hf => ?_,
      fun hnone => hsufficient (hnone hfinished)⟩⟩
    obtain ⟨a, ha, hfa⟩ := mem_publishedFields.mp hf
    have hshown := htracked.read_attributes hblank hlawful ha fun _ _ =>
      HumidityInRange.shownFrame hblank htracked.written_suffix hrange
    rw [hblanked a ha, eq_comm, Attribute.shown_eq_initial_iff] at hshown
    rw [← hhas, hshown f hfa]
  · -- The adapter is still initialising, or has failed to.
    have hdormant : x.cluster = .initialising ∨ x.cluster = .failed := by
      cases hstage : x.cluster with
      | initialising => exact Or.inl rfl
      | registered => exact absurd hstage hcluster
      | finished => exact absurd hstage hfinished
      | failed => exact Or.inr rfl
    have hwritten := htracked.written
    rw [(htracked.dormant hdormant).2.2] at hwritten
    have hblanked : Blanked store x.attributes := fun a _ => hwritten a
    exact ⟨fun _ => hblanked, fun _ =>
      ⟨fun _ h => absurd h hfinished, fun _ => hblanked⟩⟩

/-- A whole tick in which the sensor does not answer. -/
def failedTick (nowMs : Int) : List Event :=
  [.poll (.readResult ⟨⟨-5, -5, 0, Frame.warmUp.raw⟩, nowMs⟩), .poll .publish, .poll .notify]

/-- A valid frame is published, and then three polls in a row get no answer. -/
def disconnectRun : List Event :=
  [.registerCallback, .directApply] ++ tickOf (.encode fun _ => 100) 1000 ++ [.dequeuedApply] ++
    [2000, 3000, 4000].flatMap failedTick

theorem end_disconnectRun :
    (cleanRun disconnectRun).1.poller.policy.needsRestart = true ∧
      (cleanRun disconnectRun).1.cluster = .finished ∧ (cleanRun disconnectRun).1.queued = 0 ∧
      attributeRam.read (cleanRun disconnectRun).1.attributes (.temperature kEndpointId) =
        some 50 := by
  decide +kernel

/-- The disconnected sensor's last temperature is still being published. -/
theorem stale_after_disconnect :
    ¬ ∀ (x : System ((a : Attribute) → a.Value)) (h : History),
      Reaches attributeRam cleanBoot x h → x.poller.policy.needsRestart = true →
      x.cluster = .finished → x.queued = 0 → Blanked attributeRam x.attributes := by
  intro hblank
  obtain ⟨hrestart, hfinished, hqueued, hstale⟩ := end_disconnectRun
  have hblanked := hblank (cleanRun disconnectRun).1 (cleanRun disconnectRun).2
    (reaches_cleanRun disconnectRun) hrestart hfinished hqueued
  have htemperature := hblanked (.temperature kEndpointId) (by decide)
  rw [hstale] at htemperature
  cases htemperature

/-- A fault after the loss of every channel was published. -/
def lostThenDisconnectRun : List Event :=
  lossRun ++ [3000, 4000, 5000].flatMap failedTick

theorem end_lostThenDisconnectRun :
    (cleanRun lostThenDisconnectRun).1.poller.policy.needsRestart = true ∧
      (cleanRun lostThenDisconnectRun).1.cluster ≠ .registered ∧
      (cleanRun lostThenDisconnectRun).1.queued = 0 ∧
      (lastFrame cleanBoot (cleanRun lostThenDisconnectRun).2.poll.ticks).valid = 0 := by
  decide +kernel

/-- There the attributes are blank throughout the failure. -/
theorem blanked_lostThenDisconnect :
    Blanked attributeRam (cleanRun lostThenDisconnectRun).1.attributes := by
  obtain ⟨hrestart, hcluster, hqueued, hvalid⟩ := end_lostThenDisconnectRun
  refine (blanked_iff lawful_attributeRam booted_cleanBoot
    (reaches_cleanRun lostThenDisconnectRun) hrestart hcluster hqueued).1 fun _ f _ => ?_
  rw [Measurement.has, hvalid, Flags.has_zero]

end Publication
